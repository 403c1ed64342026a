import Handover.Proofs.Alike
import Handover.Proofs.Life

namespace Handover

open Act (Parallel)

variable {δ α : Type}

namespace Registry

/-- A relation of two registries, by what may expire and by the time. -/
abbrev Relation :=
  (Nat → Bool) → Rat → Registry Uuid Nat → Registry Uuid Nat → Prop

/-- Any two registries. -/
def anyhow : Relation :=
  fun _ _ _ _ => True

end Registry

namespace Removal

variable {κ ν : Type}

/-- A removal that tells no more than that it has been done. -/
def void (removal : Removal κ ν α) : Removal κ ν Unit :=
  ⟨removal.answer.map fun _ => (), removal.notices, removal.registry⟩

/-- Whether two removals answer the same and leave registries in a relation. -/
structure Alike (G : Registry.Relation)
    (N : List (Notice Uuid Nat) → List (Notice Uuid Nat) → Prop) (evictable : Nat → Bool) (now : Rat)
    (removal removal' : Removal Uuid Nat α) : Prop where
  answer : removal'.answer = removal.answer
  notices : N removal.notices removal'.notices
  registry : G evictable now removal.registry removal'.registry

end Removal

/-- What requests for one tenant do to two registries in a relation: they find the same, and the
registries stand in the relation again. So they do as time passes, and when the value of one key may
expire from the moment on at which its time starts anew. -/
structure Registry.Law (G : Registry.Relation)
    (N : List (Notice Uuid Nat) → List (Notice Uuid Nat) → Prop) : Prop where
  get : ∀ {evictable now r r'} key absent, G evictable now r r' → Removal.Alike G N evictable now
    (r.get evictable now key absent) (r'.get evictable now key absent)
  remove : ∀ {evictable now r r'} key, G evictable now r r' →
    Removal.Alike G N evictable now (r.remove key).void (r'.remove key).void
  peek : ∀ {evictable now r r'} key, G evictable now r r' →
    (r'.peek evictable now key).1 = (r.peek evictable now key).1 ∧
      G evictable now (r.peek evictable now key).2 (r'.peek evictable now key).2
  put : ∀ {evictable now r r'} key value, evictable value = false → G evictable now r r' →
    G evictable now (r.put now key value).2 (r'.put now key value).2
  discard : ∀ {evictable now r r'} key value, G evictable now r r' →
    G evictable now (r.discard key value).2 (r'.discard key value).2
  advance : ∀ {evictable now r r'} {seconds : Rat}, 0 ≤ seconds → G evictable now r r' →
    G evictable (now + seconds) r r'
  finish : ∀ {evictable evictable' now r r'} {key value}, evictable value = false →
    (∀ other, other ≠ value → evictable' other = evictable other) →
    (∀ other, r.value? other = some value → other = key) → G evictable now r r' →
    G evictable' now (r.touch now key value).2 (r'.touch now key value).2

/-- Whether two worlds differ in nothing but their data, their storage and their registry, which
stand in relations, and in the clean-ups that wait. -/
def World.Kindred (D : δ → δ → Prop) (S : Storage → Storage → Prop) (G : Registry.Relation)
    (w v : World δ) : Prop :=
  ∃ data storage registry due, v = { w with data, storage, registry, due } ∧
    D w.data data ∧ S w.storage storage ∧ G w.isEvictable w.time w.registry registry

/-- Whether an action has no part in the registry and in what waits for the cleaner. -/
def Act.Aloof (act : Act (World δ) α) : Prop :=
  ∀ registry due, Parallel (fun w v => v = { w with registry, due }) act act

variable {D : δ → δ → Prop} {S : Storage → Storage → Prop} {G : Registry.Relation} {w v : World δ}

namespace World

theorem Kindred.anyhow (h : w.Kindred D S G v) : w.Kindred D S Registry.anyhow v := by
  obtain ⟨data, storage, registry, due, same, asked, stored, _⟩ := h
  exact ⟨data, storage, registry, due, same, asked, stored, trivial⟩

theorem Kindred.results (h : w.Kindred D S G v) : v.results = w.results := by
  obtain ⟨_, _, _, _, rfl, _⟩ := h
  rfl

theorem Kindred.worker (h : w.Kindred D S G v) : v.worker = w.worker := by
  obtain ⟨_, _, _, _, rfl, _⟩ := h
  rfl

theorem Kindred.time (h : w.Kindred D S G v) : v.time = w.time := by
  obtain ⟨_, _, _, _, rfl, _⟩ := h
  rfl

theorem Kindred.clock (h : w.Kindred D S G v) : v.clock = w.clock := by
  obtain ⟨_, _, _, _, rfl, _⟩ := h
  rfl

theorem Kindred.data (h : w.Kindred D S G v) : D w.data v.data := by
  obtain ⟨_, _, _, _, rfl, asked, _⟩ := h
  exact asked

theorem Kindred.storage (h : w.Kindred D S G v) : S w.storage v.storage := by
  obtain ⟨_, _, _, _, rfl, _, stored, _⟩ := h
  exact stored

theorem Kindred.registry (h : w.Kindred D S G v) :
    G w.isEvictable w.time w.registry v.registry := by
  obtain ⟨_, _, _, _, rfl, _, _, related⟩ := h
  exact related

theorem Kindred.withWorker (h : w.Kindred D S G v) (worker : Worker Task) :
    World.Kindred D S G { w with worker } { v with worker } := by
  obtain ⟨data, storage, registry, due, rfl, related⟩ := h
  exact ⟨data, storage, registry, due, rfl, related⟩

/-- What holds of the registries alone can be told of worlds that agree in the rest. -/
theorem Kindred.with {G' : Registry.Relation} (h : w.Kindred D S G v)
    (related : G' w.isEvictable w.time w.registry v.registry) : w.Kindred D S G' v := by
  obtain ⟨data, storage, registry, due, rfl, asked, stored, _⟩ := h
  exact ⟨data, storage, registry, due, rfl, asked, stored, related⟩

theorem Kindred.registered {N : List (Notice Uuid Nat) → List (Notice Uuid Nat) → Prop}
    (law : Registry.Law G N) (h : w.Kindred D S G v) (tenant : Uuid) :
    (w.registered tenant).Kindred D S G (v.registered tenant) := by
  obtain ⟨data, storage, registry, due, rfl, asked, stored, related⟩ := h
  refine ⟨data, storage, (registry.put w.time tenant w.results.length).2, due, rfl, asked, stored,
    ?_⟩
  rw [isEvictable_registered]
  refine law.put tenant w.results.length ?_ related
  rw [isEvictable, result?, List.getElem?_eq_none (Nat.le_refl _), Option.any_none]

end World

/-- What has no part in the registry goes alike whatever the registries are, and leaves them as they
are. -/
theorem Act.Aloof.leaves {act : Act (World δ) α} (h : act.Aloof)
    (alike : Parallel (World.Alike D S) act act) {G' : Registry.Relation}
    (kept : ∀ registry, G w.isEvictable w.time w.registry registry →
      G' (act.outcome w).2.isEvictable (act.outcome w).2.time w.registry registry)
    (kin : w.Kindred D S G v) : (act.outcome v).1 = (act.outcome w).1 ∧
      (act.outcome w).2.Kindred D S G' (act.outcome v).2 := by
  obtain ⟨data, storage, registry, due, rfl, asked, stored, related⟩ := kin
  let u : World δ := { w with registry, due }
  have between : World.Alike D S u { w with data, storage, registry, due } :=
    ⟨data, storage, rfl, asked, stored⟩
  have still : (act.outcome w).2.registry = w.registry := by
    have own : (act.outcome w).2 =
        { (act.outcome w).2 with registry := w.registry, due := w.due } :=
      (h w.registry w.due w w rfl).2
    rw [own]
  obtain ⟨told, left⟩ := h registry due w u rfl
  obtain ⟨answer, data', storage', same, asked', stored'⟩ := alike u _ between
  rw [left] at same asked' stored'
  refine ⟨answer.trans told, data', storage', registry, due, same, asked', stored', ?_⟩
  rw [still]
  exact kept registry related

theorem Act.Aloof.kindred {act : Act (World δ) α} (h : act.Aloof)
    (alike : Parallel (World.Alike D S) act act) :
    Parallel (World.Kindred D S Registry.anyhow) act act :=
  fun _ _ kin => h.leaves alike (fun _ _ => trivial) kin

theorem World.onData_kindred {act : Act δ α} (h : Parallel D act act) :
    Parallel (World.Kindred D S G) (World.onData act) (World.onData act) := by
  rintro w _ ⟨data, storage, registry, due, rfl, asked, related⟩
  obtain ⟨answer, left⟩ := h w.data data asked
  exact ⟨answer, _, storage, registry, due, rfl, left, related⟩

namespace Service

variable {env : Environment δ} {c : Surroundings δ}

section Aloof

variable (e : env.Apart)

theorem onData_aloof (act : Act δ α) : (World.onData act).Aloof := by
  rintro registry due w _ rfl
  exact ⟨rfl, rfl⟩

theorem markResult_aloof (ticket : Nat) (mark : Mark) :
    (markResult (δ := δ) ticket mark).Aloof := by
  rintro registry due w _ rfl
  simp only [markResult, Act.outcome_bind, Act.outcome_get, World.result?]
  rcases w.results[ticket]? with _ | r <;> exact ⟨rfl, rfl⟩

include e

theorem useStorage_aloof (call : StorageCall) (act : Act Storage α) :
    (useStorage env call act).Aloof := by
  obtain ⟨ahead, happens⟩ := e.before call
  intro registry due
  rw [useStorage, happens]
  refine (onData_aloof ahead registry due).bind fun _ => ?_
  rintro w _ rfl
  exact ⟨rfl, rfl⟩

theorem keep_aloof (ticket : Nat) (tenant : Uuid) (type : RecordType) (record : Value) :
    (keep env ticket tenant type record).Aloof := by
  intro registry due
  refine (useStorage_aloof e .save _ registry due).bind fun _ => ?_
  rintro w _ rfl
  exact ⟨rfl, rfl⟩

theorem perform_aloof (ticket : Nat) (tenant : Uuid) (call : Call) :
    ((ports env ticket tenant).perform call).Aloof := by
  have asked : ∀ q, (env.ask q).Aloof := by
    intro q
    obtain ⟨act, asks⟩ := e.ask q
    rw [asks]
    exact onData_aloof act
  cases call with
  | serve type => exact fun _ _ => .settle _
  | ask q => exact asked q
  | await owner entity timeout =>
    exact fun registry due => (asked (.latest owner entity) registry due).bind fun _ => .settle _
  | now =>
    obtain ⟨act, tells⟩ := e.now
    show (env.now).Aloof
    rw [tells]
    exact onData_aloof act
  | keep type record => exact keep_aloof e ticket tenant type record

variable {ticket : Nat} {tenant : Tenant} {skipped : List RecordType}

/-- The content of an export is kept alike with any registry, record by record. -/
theorem content_aloof (registry : Registry Uuid Nat) (due : List Uuid) (w : World δ) :
    let d := content env tenant skipped
    let collaborators := ports env ticket tenant.id
    let v : World δ := { w with registry, due }
    ((d.run collaborators).outcome v).1 = ((d.run collaborators).outcome w).1 ∧
      ((d.run collaborators).outcome v).2 =
        { ((d.run collaborators).outcome w).2 with registry, due } ∧
      d.saved collaborators v = d.saved collaborators w := by
  intro d collaborators v
  have performs : ∀ call, Parallel (fun w v : World δ => v = { w with registry, due })
      (collaborators.perform call) (collaborators.perform call) :=
    fun call => perform_aloof e ticket tenant.id call registry due
  have same : v = { w with registry, due } := rfl
  rw [← Dialogue.answered_nothing d]
  exact Dialogue.run_parallel (fun call _ => performs call) d same

theorem exportTenant_aloof : (exportTenant env ticket tenant skipped).Aloof := by
  intro registry due
  refine (useStorage_aloof e .prepare _ registry due).bind fun _ => ?_
  refine .bind ?_ fun _ => useStorage_aloof e .pack _ registry due
  refine .followedBy ?_ (useStorage_aloof e .close _ registry due)
  rintro w _ rfl
  obtain ⟨answer, left, _⟩ := content_aloof e registry due w
  exact ⟨answer, left⟩

/-- A job saves the same records with any registry. -/
theorem savedBy_aloof (registry : Registry Uuid Nat) (due : List Uuid) (w : World δ) :
    savedBy env ticket tenant skipped { w with registry, due } =
      savedBy env ticket tenant skipped w := by
  obtain ⟨_, started⟩ := markResult_aloof ticket .running registry due w _ rfl
  have begun : (World.started { w with registry, due } ticket).begun tenant.id =
      { (w.started ticket).begun tenant.id with registry, due } := by
    rw [World.started, started]
    rfl
  rw [savedBy, begun]
  exact (content_aloof e registry due _).2.2

end Aloof

section Jobs

variable (e : env.Apart) (exports : ∀ ticket tenant skipped, Parallel (World.Alike D S)
  (exportTenant env ticket tenant skipped) (exportTenant env ticket tenant skipped))
include e exports

theorem runExport_kindred (ticket : Nat) (tenant : Tenant) (skipped : List RecordType) :
    Parallel (World.Kindred D S Registry.anyhow) (runExport env ticket tenant skipped)
      (runExport env ticket tenant skipped) := by
  have marked : ∀ mark, Parallel (World.Kindred D S Registry.anyhow)
      (markResult ticket mark) (markResult ticket mark) := fun mark =>
    (markResult_aloof ticket mark).kindred (markResult_blind ticket mark).parallel
  have touched : Parallel (World.Kindred (δ := δ) D S Registry.anyhow) (touch tenant.id ticket)
      (touch tenant.id ticket) := by
    rintro w _ ⟨data, storage, registry, due, rfl, asked, stored, _⟩
    exact ⟨rfl, data, storage, _, due, rfl, asked, stored, trivial⟩
  refine (marked .running).bind fun _ => .followedBy ?_ touched
  have exported := (exportTenant_aloof e).kindred (exports ticket tenant skipped)
  exact exported.attempt.bind fun result => marked (.ofOutcome result)

theorem runNext_kindred :
    Parallel (World.Kindred D S Registry.anyhow) (runNext env) (runNext env) := by
  refine .get_bind ?_
  rintro w _ ⟨data, storage, registry, due, rfl, asked, stored, _⟩
  dsimp only
  rcases w.worker.start? with _ | ⟨place, task, worker⟩
  · exact .pure none
  · have started : World.Kindred D S Registry.anyhow { w with worker }
        { w with data, storage, registry, due, worker } :=
      ⟨data, storage, registry, due, rfl, asked, stored, trivial⟩
    have ran : Parallel (World.Kindred D S Registry.anyhow) (runTask env task)
        (runTask env task) := by
      cases task with
      | filler => exact .pure ()
      | job ticket tenant skipped => exact runExport_kindred e exports ticket tenant skipped
    have finished : Parallel (World.Kindred (δ := δ) D S Registry.anyhow)
        (modify fun w => { w with worker := w.worker.setPhase place .finished })
        (modify fun w => { w with worker := w.worker.setPhase place .finished }) := by
      rintro w _ ⟨data, storage, registry, due, rfl, asked, stored, _⟩
      exact ⟨rfl, data, storage, registry, due, rfl, asked, stored, trivial⟩
    exact (Parallel.set started).bind fun _ => ran.attempt.bind fun outcome =>
      finished.bind fun _ => .pure (some outcome)

end Jobs

theorem useStorage_kindred {call : StorageCall} {act : Act Storage α}
    (before : Parallel (World.Kindred D S G) (env.before call) (env.before call))
    (h : Parallel S act act) :
    Parallel (World.Kindred D S G) (useStorage env call act) (useStorage env call act) := by
  refine before.bind fun _ => ?_
  rintro w _ ⟨data, storage, registry, due, rfl, asked, stored, related⟩
  obtain ⟨answer, left⟩ := h w.storage storage stored
  exact ⟨answer, data, _, registry, due, rfl, asked, left, related⟩

theorem resultOf_kindred (ticket : Nat) :
    Parallel (World.Kindred (δ := δ) D S G) (resultOf ticket) (resultOf ticket) := by
  rintro w _ ⟨data, storage, registry, due, rfl, related⟩
  simp only [resultOf, Act.outcome_bind, Act.outcome_get, World.result?]
  rcases w.results[ticket]? with _ | r <;> exact ⟨rfl, data, storage, registry, due, rfl, related⟩

theorem outcome_discard_withRegistry (operation : World δ → Removal Uuid Nat α) (w : World δ) :
    (discard (withRegistry env operation)).outcome w =
      (withRegistry env fun w => (operation w).void).outcome w := by
  rw [Act.outcome_discard, withRegistry, withRegistry, Act.outcome_bind_ok (Act.outcome_get w),
    Act.outcome_bind_ok (Act.outcome_get w)]
  dsimp only
  rw [Act.outcome_bind_ok (Act.outcome_set _ w), Act.outcome_bind_ok (Act.outcome_set _ w),
    Act.outcome_bind, Act.outcome_bind]
  rcases run : (heed env (operation w).notices).outcome
    { w with registry := (operation w).registry } with ⟨failure | _, w'⟩ <;>
  · rw [show (operation w).void.notices = (operation w).notices from rfl,
      show (operation w).void.registry = (operation w).registry from rfl, run]
    rfl

section Requests

variable {N : List (Notice Uuid Nat) → List (Notice Uuid Nat) → Prop} (law : Registry.Law G N)
variable (heeds : ∀ notices notices', N notices notices' →
  Parallel (World.Kindred D S G) (heed env notices) (heed env notices'))

include heeds in
theorem withRegistry_kindred {operation : World δ → Removal Uuid Nat α}
    (h : ∀ w v, World.Kindred D S G w v →
      Removal.Alike G N w.isEvictable w.time (operation w) (operation v)) :
    Parallel (World.Kindred D S G) (withRegistry env operation) (withRegistry env operation) := by
  intro w v kin
  obtain ⟨answer, notices, related⟩ := h w v kin
  obtain ⟨data, storage, registry, due, rfl, asked, stored, _⟩ := kin
  let v : World δ := { w with data, storage, registry, due }
  have rest : Parallel (World.Kindred D S G)
      (do heed env (operation w).notices; Act.settle (operation w).answer)
      (do heed env (operation v).notices; Act.settle (operation v).answer) := by
    refine (heeds _ _ notices).bind fun _ => ?_
    rw [answer]
    exact .settle _
  have removed : World.Kindred D S G { w with registry := (operation w).registry }
      { v with registry := (operation v).registry } :=
    ⟨data, storage, _, due, rfl, asked, stored, related⟩
  have run : ∀ u : World δ, (withRegistry env operation).outcome u =
      (do heed env (operation u).notices; Act.settle (operation u).answer : Act (World δ) α).outcome
        { u with registry := (operation u).registry } := by
    intro u
    rw [withRegistry, Act.outcome_bind_ok (Act.outcome_get u)]
    dsimp only
    rw [Act.outcome_bind_ok (Act.outcome_set _ u)]
  rw [run w, run v]
  exact rest _ _ removed

include law

theorem handIn_kindred (id : Uuid) (ticket : Nat) (task : Task) :
    Parallel (World.Kindred D S G) (handIn (δ := δ) id ticket task) (handIn id ticket task) := by
  rintro w _ ⟨data, storage, registry, due, rfl, asked, stored, related⟩
  rcases submitted : w.worker.submit task with failure | worker
  · rw [outcome_handIn_error submitted,
      outcome_handIn_error (w := { w with data, storage, registry, due }) submitted]
    exact ⟨rfl, data, storage, _, due, rfl, asked, stored, law.discard id ticket related⟩
  · rw [outcome_handIn_ok submitted,
      outcome_handIn_ok (w := { w with data, storage, registry, due }) submitted]
    exact ⟨rfl, data, storage, registry, due, rfl, asked, stored, related⟩

theorem peekResult_kindred (tenant : Uuid) :
    Parallel (World.Kindred (δ := δ) D S G) (peekResult tenant) (peekResult tenant) := by
  rintro w _ ⟨data, storage, registry, due, rfl, asked, stored, related⟩
  obtain ⟨found, left⟩ := law.peek tenant related
  rw [outcome_peekResult, outcome_peekResult]
  refine ⟨?_, data, storage, _, due, rfl, asked, stored, left⟩
  exact congrArg (fun found : Option Nat => Except.ok (found.bind w.result?)) found

theorem approve_kindred {id : Uuid}
    (asks : Parallel (World.Kindred D S G) (env.ask (.tenant id)) (env.ask (.tenant id))) :
    Parallel (World.Kindred D S G) (approve env id) (approve env id) := by
  refine asks.bind fun found => ?_
  rcases found with _ | tenant
  · exact .throw _
  · refine (peekResult_kindred law id).bind fun previous => .get_bind ?_
    rintro w _ ⟨data, storage, registry, due, rfl, _⟩
    exact (Parallel.settle (verdict env w.worker id previous)).bind fun _ => .pure tenant

theorem enter_kindred
    (replaces : ∀ (w v : World δ) (id : Uuid), World.Kindred D S G w v →
      Parallel (World.Kindred D S G) (cleanReplaced env w id (w.registry.value? id))
        (cleanReplaced env v id (v.registry.value? id)))
    (id : Uuid) (tenant : Tenant) (skipped : List RecordType) :
    Parallel (World.Kindred D S G) (enter env id tenant skipped) (enter env id tenant skipped) := by
  intro w v kin
  have entered : ∀ u : World δ, (enter env id tenant skipped).outcome u =
      (cleanReplaced env u id (u.registry.value? id) >>= fun _ =>
        handIn id u.results.length (.job u.results.length tenant skipped)).outcome
          (u.registered id) := by
    intro u
    rw [enter, Act.outcome_bind_ok (Act.outcome_get u), Act.outcome_bind_ok (outcome_register u id)]
  have cleaned := replaces w v id kin
  rw [entered w, entered v, kin.results]
  exact (cleaned.bind fun _ => handIn_kindred law id w.results.length _) _ _ (kin.registered law id)

theorem submit_kindred
    (replaces : ∀ (w v : World δ) (id : Uuid), World.Kindred D S G w v →
      Parallel (World.Kindred D S G) (cleanReplaced env w id (w.registry.value? id))
        (cleanReplaced env v id (v.registry.value? id)))
    {id : Uuid} (skipped : List RecordType)
    (asks : Parallel (World.Kindred D S G) (env.ask (.tenant id)) (env.ask (.tenant id))) :
    Parallel (World.Kindred D S G) (submit env id skipped) (submit env id skipped) :=
  (approve_kindred law asks).bind fun tenant =>
    (enter_kindred law replaces id tenant skipped).bind fun _ => .pure id

include heeds

theorem getResult_kindred (tenant : Uuid) :
    Parallel (World.Kindred D S G) (getResult env tenant) (getResult env tenant) := by
  refine (withRegistry_kindred heeds ?_).bind resultOf_kindred
  rintro w _ ⟨data, storage, registry, due, rfl, _, _, related⟩
  exact law.get tenant _ related

theorem download_kindred {tenant : Uuid}
    (fetch : Parallel (World.Kindred D S G) (useStorage env .fetch (Storage.fetch tenant))
      (useStorage env .fetch (Storage.fetch tenant))) :
    Parallel (World.Kindred D S G) (download env tenant) (download env tenant) := fun _ _ kin =>
  download_related (fun answer other => other = answer) (fun _ => rfl)
    (getResult_kindred law heeds tenant) kin fun _ _ _ _ _ _ => fetch _ _

theorem delete_kindred (tenant : Uuid) :
    Parallel (World.Kindred D S G) (delete env tenant) (delete env tenant) := by
  refine (getResult_kindred law heeds tenant).bind fun r => ?_
  cases r.isDone
  · exact .throw _
  · have removed : Parallel (World.Kindred D S G)
        (withRegistry env fun w => (w.registry.remove tenant).void)
        (withRegistry env fun w => (w.registry.remove tenant).void) := by
      refine withRegistry_kindred heeds ?_
      rintro w _ ⟨data, storage, registry, due, rfl, _, _, related⟩
      exact law.remove tenant related
    intro w v kin
    obtain ⟨answer, left⟩ := removed w v kin
    rw [← outcome_discard_withRegistry, ← outcome_discard_withRegistry] at answer left
    exact ⟨answer, left⟩

end Requests

/-- What running the next job leaves of the registry: the time of the result of the job that has run
starts anew, and no other result has changed. -/
theorem runNext_registry (e : env.Apart) (w : World δ)
    (queued : ∀ ticket tenant skipped, .job ticket tenant skipped ∈ w.worker.waiting →
      ∃ moment, w.result? ticket = some (.submitted tenant.id moment)) :
    let w' := after env w .run
    w'.time = w.time ∧ match w.worker.waiting with
      | .job ticket tenant _ :: _ =>
        w'.registry = (w.registry.touch w.time tenant.id ticket).2 ∧
          ∀ other, other ≠ ticket → w'.result? other = w.result? other
      | _ => w'.registry = w.registry ∧ w'.results = w.results := by
  intro w'
  dsimp only [w']
  cases front : w.worker.waiting with
  | nil =>
    rw [after, outcome_runNext_idle front]
    exact ⟨rfl, rfl, rfl⟩
  | cons task rest =>
    obtain ⟨place, start, _⟩ := Worker.start?_front front
    cases task with
    | filler =>
      rw [after, outcome_runNext start rfl]
      exact ⟨rfl, rfl, rfl⟩
    | job ticket tenant skipped =>
      obtain ⟨moment, waited⟩ := queued ticket tenant skipped (front ▸ List.mem_cons_self)
      let v : World δ := { w with worker := w.worker.setPhase place .running }
      have begun : v.result? ticket = some (.submitted tenant.id moment) := waited
      obtain ⟨rows, u, ends, ended, _⟩ := runExport_apart e begun skipped
      rw [after, outcome_runNext start ends]
      exact ⟨ended.time, ended.registry, ended.others⟩

/-- Running the next job goes alike where the relation of the registries is kept up. -/
theorem run_kindred {N : List (Notice Uuid Nat) → List (Notice Uuid Nat) → Prop}
    (e : env.Apart) (law : Registry.Law G N) (exports : ∀ ticket tenant skipped,
      Parallel (World.Alike D S) (exportTenant env ticket tenant skipped)
        (exportTenant env ticket tenant skipped))
    (queued : ∀ ticket tenant skipped, .job ticket tenant skipped ∈ w.worker.waiting →
      ∃ moment, w.result? ticket = some (.submitted tenant.id moment))
    (owned : ∀ tenant ticket, w.registry.value? tenant = some ticket →
      ∃ r, w.result? ticket = some r ∧ r.tenant = tenant)
    (kin : w.Kindred D S G v) : ((runNext env).outcome v).1 = ((runNext env).outcome w).1 ∧
      (after env w .run).Kindred D S G (after env v .run) := by
  obtain ⟨answer, left⟩ := runNext_kindred e exports w v kin.anyhow
  refine ⟨answer, World.Kindred.with left ?_⟩
  have results := World.result?_congr kin.results
  have own := runNext_registry e w queued
  have other := runNext_registry e v (by
    rw [kin.worker]
    simpa only [results] using queued)
  change G (after env w .run).isEvictable (after env w .run).time (after env w .run).registry
    (after env v .run).registry
  rw [kin.worker, kin.time] at other
  obtain ⟨still, own⟩ := own
  obtain ⟨_, other⟩ := other
  rw [still]
  cases front : w.worker.waiting with
  | nil =>
    rw [front] at own other
    rw [own.1, other.1, World.isEvictable_congr own.2]
    exact kin.registry
  | cons task rest =>
    rw [front] at own other
    cases task with
    | filler =>
      rw [own.1, other.1, World.isEvictable_congr own.2]
      exact kin.registry
    | job ticket tenant skipped =>
      obtain ⟨moment, waited⟩ := queued ticket tenant skipped (front ▸ List.mem_cons_self)
      rw [own.1, other.1]
      refine law.finish (World.not_evictable waited rfl) (fun number hne => ?_)
        (fun owner registered => ?_) kin.registry
      · rw [World.isEvictable, World.isEvictable, own.2 number hne]
      · obtain ⟨r, result, rfl⟩ := owned owner ticket registered
        cases waited.symm.trans result
        rfl

/-- What is answered alike in two worlds, and the relation of what an operation leaves of them. -/
theorem answer_kindred {N : List (Notice Uuid Nat) → List (Notice Uuid Nat) → Prop}
    (e : env.Apart) (law : Registry.Law G N) (heeds : ∀ notices notices', N notices notices' →
      Parallel (World.Kindred D S G) (heed env notices) (heed env notices'))
    (replaces : ∀ (w v : World δ) (id : Uuid), World.Kindred D S G w v →
      Parallel (World.Kindred D S G) (cleanReplaced env w id (w.registry.value? id))
        (cleanReplaced env v id (v.registry.value? id)))
    (asks : ∀ id, Parallel (World.Kindred D S G) (env.ask (.tenant id)) (env.ask (.tenant id)))
    (exports : ∀ ticket tenant skipped, Parallel (World.Alike D S)
      (exportTenant env ticket tenant skipped) (exportTenant env ticket tenant skipped))
    (queued : ∀ ticket tenant skipped, .job ticket tenant skipped ∈ w.worker.waiting →
      ∃ moment, w.result? ticket = some (.submitted tenant.id moment))
    (owned : ∀ tenant ticket, w.registry.value? tenant = some ticket →
      ∃ r, w.result? ticket = some r ∧ r.tenant = tenant)
    (downloads : ∀ tenant, ((download env tenant).outcome v).1 = ((download env tenant).outcome w).1 ∧
      World.Kindred D S G ((download env tenant).outcome w).2 ((download env tenant).outcome v).2)
    (kin : w.Kindred D S G v) {op : Operation} (unswept : op ≠ .purge)
    (forward : ∀ seconds, op = .advance seconds → 0 ≤ seconds) :
    answer env v (.operation op) = answer env w (.operation op) ∧
      (after env w op).Kindred D S G (after env v op) := by
  cases op with
  | submit id skipped =>
    obtain ⟨answered, left⟩ := submit_kindred law replaces skipped (asks id) w v kin
    exact ⟨congrArg Answer.submitted answered, left⟩
  | run =>
    obtain ⟨answered, left⟩ := run_kindred e law exports queued owned kin
    exact ⟨congrArg Answer.ran answered, left⟩
  | look tenant =>
    obtain ⟨answered, left⟩ := getResult_kindred law heeds tenant w v kin
    exact ⟨congrArg Answer.looked answered, left⟩
  | download tenant =>
    obtain ⟨answered, left⟩ := downloads tenant
    exact ⟨congrArg Answer.downloaded answered, left⟩
  | delete tenant =>
    obtain ⟨answered, left⟩ := delete_kindred law heeds tenant w v kin
    exact ⟨congrArg Answer.deleted answered, left⟩
  | purge => exact absurd rfl unswept
  | advance seconds =>
    obtain ⟨data, storage, registry, due, rfl, asked, stored, related⟩ := kin
    exact ⟨rfl, data, storage, registry, due, rfl, asked, stored,
      law.advance (forward seconds rfl) related⟩

end Service

end Handover
