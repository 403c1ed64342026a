import Handover.Proofs.Polling
import Handover.Proofs.Retrieval
import Handover.Proofs.Turns

namespace Handover

open Act (Parallel)

variable {δ α : Type} {D : δ → δ → Prop} {S : Storage → Storage → Prop} {G : Registry.Relation}
variable {w v : World δ}

namespace World

/-- What holds of the data alone can be told of worlds that agree in the rest. -/
theorem Kindred.relate {D' : δ → δ → Prop} (h : w.Kindred D S G v) (related : D' w.data v.data) :
    w.Kindred D' S G v := by
  obtain ⟨data, storage, registry, due, rfl, _, rest⟩ := h
  exact ⟨data, storage, registry, due, rfl, related, rest⟩

theorem Kindred.marked {G' : Registry.Relation} (h : w.Kindred D S G v) (ticket : Nat)
    (r : JobResult) (kept : ∀ registry, G w.isEvictable w.time w.registry registry →
      G' (w.marked ticket r).isEvictable w.time w.registry registry) :
    (w.marked ticket r).Kindred D S G' (v.marked ticket r) := by
  obtain ⟨data, storage, registry, due, rfl, asked, stored, related⟩ := h
  exact ⟨data, storage, registry, due, rfl, asked, stored, kept registry related⟩

theorem isEvictable_marked {ticket : Nat} {r : JobResult} (hr : w.result? ticket = some r)
    (r' : JobResult) (same : r'.isDone = r.isDone) : (w.marked ticket r').isEvictable = w.isEvictable := by
  funext number
  by_cases own : number = ticket
  · subst own
    rw [isEvictable, isEvictable, result?_marked hr, hr, Option.any_some, Option.any_some, same]
  · have other : (w.marked ticket r').result? number = w.result? number :=
      List.getElem?_set_ne (Ne.symm own)
    rw [isEvictable, isEvictable, other]

theorem isEvictable_report (w : World δ) (ticket : Nat) (type : RecordType) :
    (w.report ticket type).isEvictable = w.isEvictable := by
  funext number
  have same : ∀ r : JobResult, (if ticket = number then r.report type else r).isDone = r.isDone := by
    intro r
    split <;> rfl
  simp only [isEvictable, result?, report, List.getElem?_modify]
  cases w.results[number]? with
  | none => rfl
  | some r => exact same r

end World

/-- Something that happens in a service that is polled: a turn, or a poll. -/
inductive Beat where
  | turn (turn : Turn)
  | poll (tenant : Uuid) (poll : Poll)
  deriving Repr

def Beat.isTurn : Beat → Bool
  | turn _ => true
  | poll .. => false

/-- What is told in a turn: the answer to a request, or what is left of the job of the worker.
Nothing is told by a worker that is asked to run a job while it has one. -/
inductive Told where
  | answered (answer : Answer)
  | worked (work : Option (Running × Rest))
  | nothing

namespace Bench

/-- What is told in a turn, and the notices that the registry gives. -/
def told (env : Environment δ) (s : Bench δ) : Turn → Told × List (Notice Uuid Nat)
  | .request op =>
    if s.admits op then
      (.answered (Service.answer env s.world (.operation op)), Service.notices env s.world op)
    else (.nothing, [])
  | .work => (.worked (s.proceed env).work, [])

def beat (env : Environment δ) (s : Bench δ) : Beat → Bench δ
  | .turn turn => s.turn env turn
  | .poll tenant poll =>
    { s with world := Service.after env s.world (poll.operation tenant) }

def after (env : Environment δ) (beats : List Beat) (s : Bench δ) : Bench δ :=
  beats.foldl (beat env) s

/-- What is told turn by turn. -/
def story (env : Environment δ) : List Beat → Bench δ → List (Told × List (Notice Uuid Nat))
  | [], _ => []
  | .turn turn :: rest, s => s.told env turn :: story env rest (s.turn env turn)
  | .poll tenant poll :: rest, s => story env rest (s.beat env (.poll tenant poll))

/-- Whether a tenant is polled only while its registered result is not finished. -/
def Timely (env : Environment δ) : List Beat → Bench δ → Prop
  | [], _ => True
  | .turn turn :: rest, s => Timely env rest (s.turn env turn)
  | .poll tenant poll :: rest, s =>
    (s.world.unfinished? tenant).isSome ∧ Timely env rest (s.beat env (.poll tenant poll))

instance Timely.decidable (env : Environment δ) :
    (beats : List Beat) → (s : Bench δ) → Decidable (Timely env beats s)
  | [], _ => .isTrue trivial
  | .turn turn :: rest, s => Timely.decidable env rest (s.turn env turn)
  | .poll tenant poll :: rest, s =>
    have := Timely.decidable env rest (s.beat env (.poll tenant poll))
    inferInstanceAs (Decidable (_ ∧ _))

/-- Two services that have been polled differently. What is registered is known. -/
structure Polled (c : Surroundings δ) (s s' : Bench δ) : Prop where
  orderly : s.session.Orderly
  work : s'.work = s.work
  kin : s.world.Kindred c.Indistinct Eq Registry.Restarted s'.world
  known : ∀ id, s.world.registry.value? id ≠ none → c.Knows id s.world.data

end Bench

namespace Service

variable {env : Environment δ} {c : Surroundings δ} {known : Uuid → Prop}

section Work

variable (e : env.Within c) (steadfast : c.Steadfast)
include e steadfast

theorem keep_polled (ticket : Nat) (tenant : Uuid) (type : RecordType) (record : Value) :
    Parallel (World.Polled c known) (keep env ticket tenant type record)
      (keep env ticket tenant type record) := by
  refine (useStorage_polled e steadfast .save _).bind fun _ => ?_
  rintro w _ ⟨data, storage, registry, due, rfl, asked, stored, restarted⟩
  refine ⟨rfl, data, storage, registry, due, rfl, asked, stored, ?_⟩
  change Registry.Restarted (w.report ticket type).isEvictable w.time w.registry registry
  rw [World.isEvictable_report]
  exact restarted

theorem perform_polled (ticket : Nat) (tenant : Uuid) (call : Call) :
    Parallel (World.Polled c known) ((ports env ticket tenant).perform call)
      ((ports env ticket tenant).perform call) := by
  have respects := Surroundings.respects_agree steadfast known
  refine perform_related (fun q => ?_) ?_ (keep_polled e steadfast ticket tenant) call
  · rw [e.ask]
    exact World.onData_kindred (respects.ask q)
  · rw [e.now]
    exact World.onData_kindred respects.now

/-- An export goes on alike. -/
theorem go_polled (job : Running) (rest : Rest) (exporting : ∀ outcome, rest ≠ .finish outcome)
    (kin : w.Polled c known v) : (rest.go env job v).1 = (rest.go env job w).1 ∧
      (rest.go env job w).2.Polled c known (rest.go env job v).2 := by
  have follow : ∀ {α : Type} {act : Act (World δ) α} (left : Except Failure α → Rest),
      Parallel (World.Polled c known) act act →
      (Rest.follow act left v).1 = (Rest.follow act left w).1 ∧
        (Rest.follow act left w).2.Polled c known (Rest.follow act left v).2 := by
    intro α act left parallel
    obtain ⟨answer, related⟩ := parallel w v kin
    exact ⟨congrArg left answer, related⟩
  cases rest with
  | prepare skipped => exact follow _ (useStorage_polled e steadfast .prepare _)
  | save content =>
    cases content with
    | done a => exact follow _ (useStorage_polled e steadfast .close _)
    | failed failure => exact follow _ (useStorage_polled e steadfast .close _)
    | call c next => exact follow _ (perform_polled e steadfast job.ticket job.tenant.id c)
  | pack => exact follow _ (useStorage_polled e steadfast .pack _)
  | finish outcome => exact absurd rfl (exporting outcome)
  | leave => exact ⟨rfl, kin⟩

omit e steadfast in
theorem started_polled (kin : w.Polled c known v) {ticket : Nat} {owner : Uuid} {moment : Instant}
    (waited : w.result? ticket = some (.submitted owner moment)) :
    (w.started ticket).Polled c known (v.started ticket) := by
  have waited' : v.result? ticket = some (.submitted owner moment) := by
    rw [World.result?, kin.results]
    exact waited
  rw [(started_eq waited).2, (started_eq waited').2, kin.clock]
  let r : JobResult := { JobResult.submitted owner moment with
    status := .running, startedAt := some w.clock.now }
  have same : (w.marked ticket r).isEvictable = w.isEvictable :=
    World.isEvictable_marked waited r rfl
  exact kin.marked ticket r fun registry restarted => same ▸ restarted

omit e steadfast in
/-- At the end of a result its time starts anew, so that it makes no difference whether it has done
so before. -/
theorem finish_polled (env : Environment δ) (kin : w.Polled c known v) (outcome : Except Failure Unit) {job : Running}
    {r : JobResult} (hr : w.result? job.ticket = some r) (running : r.status = .running)
    (owned : ∀ tenant, w.registry.value? tenant = some job.ticket → tenant = job.tenant.id) :
    ((Rest.finish outcome).go env job w).2.Polled c known
      ((Rest.finish outcome).go env job v).2 := by
  have ends : ∀ {u : World δ}, u.result? job.ticket = some r →
      ((Rest.finish outcome).go env job u).2 =
        let u' := u.marked job.ticket { r with
          status := endStatus outcome
          error := endError outcome
          completedAt := some u.clock.now }
        { u' with registry := (u.registry.touch u.time job.tenant.id job.ticket).2 } := by
    intro u hu
    rw [Rest.go, Rest.follow, Act.outcome_followedBy_state,
      outcome_markResult hu (ofOutcome_accepted running outcome u.clock.now)]
    rfl
  have hr' : v.result? job.ticket = some r := by
    rw [World.result?, kin.results]
    exact hr
  rw [ends hr, ends hr', kin.clock]
  let r' : JobResult := { r with
    status := endStatus outcome, error := endError outcome, completedAt := some w.clock.now }
  have others : ∀ other, other ≠ job.ticket →
      (w.marked job.ticket r').isEvictable other = w.isEvictable other := by
    intro other hne
    have same : (w.marked job.ticket r').result? other = w.result? other :=
      List.getElem?_set_ne (Ne.symm hne)
    rw [World.isEvictable, World.isEvictable, same]
  obtain ⟨data, storage, registry, due, rfl, asked, stored, restarted⟩ := kin
  exact ⟨data, storage, _, due, rfl, asked, stored, restarted.finish others owned⟩

end Work

end Service

namespace Bench

open Service

variable {env : Environment δ} {c : Surroundings δ} {s s' : Bench δ}

namespace Polled

theorem agree (h : s.Polled c s') :
    s.world.Polled c (fun id => c.Knows id s.world.data) s'.world :=
  h.kin.relate ⟨h.kin.data, fun _ => id⟩

/-- What the relation of two services after a turn comes from. -/
theorem next {t t' : Bench δ} (h : s.Polled c s') (orderly : t.session.Orderly)
    (work : t'.work = t.work)
    (kin : t.world.Polled c (fun id => c.Knows id s.world.data) t'.world)
    (registered : ∀ id, t.world.registry.value? id ≠ none →
      s.world.registry.value? id ≠ none ∨ c.Knows id s.world.data) : t.Polled c t' := by
  obtain ⟨indistinct, knows⟩ := kin.data
  refine ⟨orderly, work, kin.relate indistinct, fun id held => ?_⟩
  rcases registered id held with before | known
  · exact knows id (h.known id before)
  · exact knows id known

variable (e : env.Within c) (steadfast : c.Steadfast) (finds : c.FindsTenants)
include e steadfast

theorem proceed (h : s.Polled c s') : (s'.proceed env).work = (s.proceed env).work ∧
    (s.proceed env).world.Polled c (fun id => c.Knows id s.world.data) (s'.proceed env).world := by
  have orderly := h.orderly
  have kin := h.agree
  obtain ⟨w, work⟩ := s
  obtain ⟨v, work'⟩ := s'
  obtain rfl : work' = work := h.work
  rcases work' with _ | ⟨job, rest⟩
  · cases front : w.worker.waiting with
    | nil =>
      have idle : ∀ {u : World δ}, u.worker = w.worker → Bench.proceed env ⟨u, none⟩ = ⟨u, none⟩ := by
        intro u same
        rw [Bench.proceed]
        dsimp only
        rw [same, Worker.start?_nil front]
      rw [idle rfl, idle kin.worker]
      exact ⟨rfl, kin⟩
    | cons task others =>
      obtain ⟨place, start, _⟩ := Worker.start?_front front
      cases task with
      | filler => exact absurd (front ▸ List.mem_cons_self) orderly.world.exports
      | job ticket tenant skipped =>
        obtain ⟨moment, waited⟩ :=
          orderly.world.queued ticket tenant skipped (front ▸ List.mem_cons_self)
        let worker := w.worker.setPhase place .running
        have starts : ∀ {u : World δ}, u.worker = w.worker → Bench.proceed env ⟨u, none⟩ =
            ⟨World.started { u with worker } ticket,
              some (⟨place, ticket, tenant⟩, .prepare skipped)⟩ := by
          intro u same
          rw [Bench.proceed]
          dsimp only
          rw [same, start]
        have begun : World.result? { w with worker } ticket =
          some (.submitted tenant.id moment) := waited
        rw [starts rfl, starts kin.worker]
        exact ⟨rfl, started_polled (kin.withWorker worker) begun⟩
  · by_cases leaves : rest = .leave
    · subst leaves
      have same : v.worker.setPhase job.place .finished =
          w.worker.setPhase job.place .finished := by rw [kin.worker]
      have left := kin.withWorker (w.worker.setPhase job.place .finished)
      rw [Bench.proceed, Bench.proceed]
      dsimp only
      rw [same]
      exact ⟨rfl, left⟩
    rw [proceed_go env rest leaves, proceed_go env rest leaves]
    by_cases ends : ∃ outcome, rest = .finish outcome
    · obtain ⟨outcome, rfl⟩ := ends
      have duty : (session ⟨w, some (job, .finish outcome)⟩).duty = .exporting job := rfl
      obtain ⟨r, hr, running, owner⟩ := orderly.exporting duty
      refine ⟨rfl, finish_polled env kin outcome hr running fun tenant held => ?_⟩
      obtain ⟨r', hr', rfl⟩ := orderly.world.owned tenant job.ticket held
      cases hr.symm.trans hr'
      exact owner
    · obtain ⟨same, related⟩ := go_polled e steadfast job rest (fun outcome h => ends ⟨outcome, h⟩) kin
      exact ⟨congrArg (fun left => some (job, left)) same, related⟩

include finds

/-- Every turn tells the same, however the services have been polled before. -/
theorem turn (h : s.Polled c s') (turn : Turn)
    (forward : ∀ seconds, turn = .request (.advance seconds) → 0 ≤ seconds) :
    s'.told env turn = s.told env turn ∧ (s.turn env turn).Polled c (s'.turn env turn) := by
  have orderly := turn_orderly e.apart e.cleansUp (e.findsTenants finds) h.orderly turn
  cases turn with
  | work =>
    obtain ⟨work, kin⟩ := h.proceed e steadfast
    refine ⟨congrArg (fun left => (Told.worked left, [])) work, h.next orderly work kin ?_⟩
    intro id held
    have kept := proceed_value? e.apart e.cleansUp (e.findsTenants finds) h.orderly id
    exact .inl (kept ▸ held)
  | request op =>
    have admits : s'.admits op = s.admits op := by
      cases op <;> simp only [Bench.admits, h.work]
    rw [Bench.turn] at orderly
    rw [told, told, Bench.turn, Bench.turn, admits]
    cases admitted : s.admits op with
    | false => exact ⟨rfl, h⟩
    | true =>
      rw [admitted, if_pos rfl] at orderly
      obtain ⟨answer, kin⟩ := answer_polled e steadfast h.orderly.world h.agree op
        fun seconds same => forward seconds (congrArg Turn.request same)
      rw [if_pos rfl, if_pos rfl, if_pos rfl, if_pos rfl, answer,
        notices_polled e steadfast h.agree op]
      exact ⟨rfl, h.next orderly h.work kin fun id =>
        registered_known e finds h.orderly.world op⟩

omit finds

/-- A poll is answered by the result or refused, and nothing else can tell that there has been
one. -/
theorem poll (refuses : env.allowsResubmission = false) (h : s.Polled c s') {tenant : Uuid}
    {r : JobResult} (unfinished : s'.world.unfinished? tenant = some r) (poll : Poll) :
    Service.answer env s'.world (.operation (poll.operation tenant)) = poll.reply tenant r ∧
      Service.notices env s'.world (poll.operation tenant) = [] ∧
      s.Polled c (s'.beat env (.poll tenant poll)) := by
  have restarted := h.kin.registry
  obtain ⟨ticket, registered, _⟩ := Option.bind_eq_some_iff.mp
    (Option.filter_eq_some_iff.mp unfinished).1
  have knows : c.Knows tenant s'.world.data := by
    refine h.kin.data.knows (h.known tenant ?_)
    rw [← restarted.value?, registered]
    exact Option.some_ne_none ticket
  obtain ⟨answer, untold, data, registry, left, indistinct, bare⟩ :=
    poll_answered e steadfast refuses restarted.keyed' unfinished knows poll
  refine ⟨answer, untold, h.orderly, h.work, ?_, h.known⟩
  show s.world.Kindred _ _ _ (Service.after env s'.world (poll.operation tenant))
  rw [left]
  obtain ⟨asked, storage, _, due, same, asked', stored, _⟩ := h.kin
  rw [same] at bare indistinct restarted ⊢
  exact ⟨data, storage, registry, due, rfl, asked'.trans indistinct, stored, restarted.keyed,
    bare.trans restarted.bare⟩

end Polled

section Course

variable (e : env.Within c) (steadfast : c.Steadfast) (finds : c.FindsTenants)
variable (refuses : env.allowsResubmission = false)

theorem timely_append (beats more : List Beat) (s : Bench δ) :
    Timely env (beats ++ more) s ↔ Timely env beats s ∧ Timely env more (after env beats s) := by
  induction beats generalizing s with
  | nil => simp [Timely, after]
  | cons beat rest ih =>
    cases beat with
    | turn turn => exact ih (s.turn env turn)
    | poll tenant poll =>
      rw [List.cons_append, Timely, ih, Timely, and_assoc]
      rfl

include e steadfast finds refuses

/-- What is told turn by turn is what is told without the polls. -/
theorem story_polled (beats : List Beat)
    (forward : ∀ seconds, .turn (.request (.advance seconds)) ∈ beats → 0 ≤ seconds)
    (timely : Timely env beats s') (h : s.Polled c s') :
    story env beats s' = story env (beats.filter Beat.isTurn) s ∧
      (after env (beats.filter Beat.isTurn) s).Polled c (after env beats s') := by
  induction beats generalizing s s' with
  | nil => exact ⟨rfl, h⟩
  | cons beat rest ih =>
    have later : ∀ seconds, .turn (.request (.advance seconds)) ∈ rest → 0 ≤ seconds :=
      fun seconds mem => forward seconds (List.mem_cons_of_mem beat mem)
    cases beat with
    | turn turn =>
      obtain ⟨told, left⟩ := h.turn e steadfast finds turn fun seconds same =>
        forward seconds (same ▸ List.mem_cons_self)
      obtain ⟨same, ends⟩ := ih later timely left
      refine ⟨?_, ends⟩
      rw [story, told, same]
      rfl
    | poll tenant poll =>
      obtain ⟨registered, timely⟩ := timely
      obtain ⟨r, unfinished⟩ := Option.isSome_iff_exists.mp registered
      obtain ⟨_, _, left⟩ := h.poll e steadfast refuses unfinished poll
      exact ih later timely left

/-- Every poll is answered by the result or refused. -/
theorem polls_answered (beats : List Beat)
    (forward : ∀ seconds, .turn (.request (.advance seconds)) ∈ beats → 0 ≤ seconds)
    (timely : Timely env beats s') (h : s.Polled c s') {before rest : List Beat} {tenant : Uuid}
    {poll : Poll} (split : beats = before ++ .poll tenant poll :: rest) :
    let t := (after env before s').world
    ∃ r, t.unfinished? tenant = some r ∧
      Service.answer env t (.operation (poll.operation tenant)) = poll.reply tenant r ∧
      Service.notices env t (poll.operation tenant) = [] := by
  intro t
  subst split
  obtain ⟨early, registered, _⟩ := (timely_append before _ s').mp timely
  obtain ⟨r, unfinished⟩ := Option.isSome_iff_exists.mp registered
  have polled := (story_polled e steadfast finds refuses before
    (fun seconds mem => forward seconds (List.mem_append_left _ mem)) early h).2
  obtain ⟨answer, untold, _⟩ := polled.poll e steadfast refuses unfinished poll
  exact ⟨r, unfinished, answer, untold⟩

end Course

end Bench

end Handover
