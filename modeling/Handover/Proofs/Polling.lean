import Handover.Proofs.Restarted
import Handover.Proofs.Session

namespace Handover

open Act (Parallel Preserves)

variable {δ : Type}

namespace Surroundings

variable {c : Surroundings δ} {data data' : δ}

/-- Whether nothing that the surroundings of a service are asked from then on tells two states of
theirs apart. -/
def Indistinct (c : Surroundings δ) (data data' : δ) : Prop :=
  ∃ D, c.Respects D ∧ D data data'

/-- Whether surroundings find a tenant. -/
def Knows (c : Surroundings δ) (id : Uuid) (data : δ) : Prop :=
  ∃ tenant data', (c.ask (.tenant id)).outcome data = (.ok (some tenant), data')

/-- Whether surroundings keep finding the tenants that they know, and looking one up makes no
difference to what they tell later. -/
structure Steadfast (c : Surroundings δ) : Prop where
  unseen : ∀ id data tenant data', (c.ask (.tenant id)).outcome data = (.ok (some tenant), data') →
    c.Indistinct data data'
  ask : ∀ id q, Preserves (c.Knows id) (c.ask q)
  now : ∀ id, Preserves (c.Knows id) c.now
  writing : ∀ id, Preserves (c.Knows id) c.writing
  packing : ∀ id, Preserves (c.Knows id) c.packing

theorem Indistinct.refl (c : Surroundings δ) (data : δ) : c.Indistinct data data :=
  ⟨Eq, c.respects_eq, rfl⟩

theorem parallel_indistinct {α : Type} {act : Act δ α}
    (h : ∀ D, c.Respects D → Parallel D act act) : Parallel c.Indistinct act act := by
  rintro data data' ⟨D, respects, related⟩
  obtain ⟨answer, left⟩ := h D respects data data' related
  exact ⟨answer, D, respects, left⟩

theorem respects_indistinct (c : Surroundings δ) : c.Respects c.Indistinct where
  ask q := parallel_indistinct fun _ respects => respects.ask q
  now := parallel_indistinct fun _ respects => respects.now
  writing := parallel_indistinct fun _ respects => respects.writing
  packing := parallel_indistinct fun _ respects => respects.packing

theorem Respects.comp {D D' : δ → δ → Prop} (h : c.Respects D) (h' : c.Respects D') :
    c.Respects fun data data'' => ∃ data', D data data' ∧ D' data' data'' := by
  have through : ∀ {α : Type} {act : Act δ α}, Parallel D act act → Parallel D' act act →
      Parallel (fun data data'' => ∃ data', D data data' ∧ D' data' data'') act act := by
    rintro α act own other data data'' ⟨data', first, second⟩
    obtain ⟨answer, left⟩ := own data data' first
    obtain ⟨answer', left'⟩ := other data' data'' second
    exact ⟨answer'.trans answer, _, left, left'⟩
  exact ⟨fun q => through (h.ask q) (h'.ask q), through h.now h'.now,
    through h.writing h'.writing, through h.packing h'.packing⟩

theorem Indistinct.trans {data'' : δ} (h : c.Indistinct data data')
    (h' : c.Indistinct data' data'') : c.Indistinct data data'' := by
  obtain ⟨D, respects, related⟩ := h
  obtain ⟨D', respects', related'⟩ := h'
  exact ⟨_, respects.comp respects', data', related, related'⟩

/-- Whether two states cannot be told apart in which these tenants are known. -/
def Agree (c : Surroundings δ) (known : Uuid → Prop) (data data' : δ) : Prop :=
  c.Indistinct data data' ∧ ∀ id, known id → c.Knows id data

variable {known : Uuid → Prop}

theorem respects_agree (steadfast : c.Steadfast) (known : Uuid → Prop) :
    c.Respects (c.Agree known) := by
  have both : ∀ {α : Type} {act : Act δ α}, Parallel c.Indistinct act act →
      (∀ id, Preserves (c.Knows id) act) → Parallel (c.Agree known) act act := by
    rintro α act same keeps data data' ⟨related, knows⟩
    obtain ⟨answer, left⟩ := same data data' related
    exact ⟨answer, left, fun id wanted => keeps id data (knows id wanted)⟩
  have indistinct := c.respects_indistinct
  exact ⟨fun q => both (indistinct.ask q) fun id => steadfast.ask id q,
    both indistinct.now steadfast.now, both indistinct.writing steadfast.writing,
    both indistinct.packing steadfast.packing⟩

/-- A tenant that is known in a state is known in every one that cannot be told apart from it. -/
theorem Indistinct.knows (h : c.Indistinct data data') {id : Uuid} (knows : c.Knows id data) :
    c.Knows id data' := by
  obtain ⟨tenant, left, found⟩ := knows
  obtain ⟨answer, _⟩ := c.respects_indistinct.ask (.tenant id) data data' h
  rw [found] at answer
  exact ⟨tenant, ((c.ask (.tenant id)).outcome data').2, Prod.ext answer rfl⟩

end Surroundings

/-- Surroundings in which a store answers know what it knows for good, and look-ups leave no
trace. -/
theorem ofStore_steadfast (now : Int) : (Surroundings.ofStore now).Steadfast where
  unseen _ data _ data' asked := by
    have same : data = data' := congrArg Prod.snd asked
    rw [← same]
    exact .refl _ data
  ask _ _ _ knows := knows
  now _ _ knows := knows
  writing _ _ knows := knows
  packing _ _ knows := knows

/-- Whether two worlds differ only in times of the registry that do not count and in data that cannot
be told apart, in which these tenants are known. -/
abbrev World.Polled (c : Surroundings δ) (known : Uuid → Prop) : World δ → World δ → Prop :=
  World.Kindred (c.Agree known) Eq Registry.Restarted

/-- The result of a tenant that is registered and not finished. -/
def World.unfinished? (w : World δ) (tenant : Uuid) : Option JobResult :=
  ((w.registry.value? tenant).bind w.result?).filter fun r => !r.isDone

/-- What can be asked for while an export of a tenant is not finished. -/
inductive Poll where
  | look
  | download
  | delete
  | submit (skipped : List RecordType)
  deriving Repr

namespace Poll

def operation (tenant : Uuid) : Poll → Operation
  | look => .look tenant
  | download => .download tenant
  | delete => .delete tenant
  | submit skipped => .submit tenant skipped

/-- The answer to a poll while an export with a result is not finished. -/
def reply (tenant : Uuid) (r : JobResult) : Poll → Answer
  | look => .looked (.ok r)
  | download => .downloaded (.error (.notReady (.uuid tenant)))
  | delete => .deleted (.error (.alreadyRunning (.uuid tenant)))
  | submit _ => .submitted (.error (.alreadyRunning (.uuid tenant)))

end Poll

namespace Service

/-- The notices that the registry gives during an operation. -/
def notices (env : Environment δ) (w : World δ) : Operation → List (Notice Uuid Nat)
  | .look tenant | .download tenant => found tenant
  | .delete tenant =>
    let looked := (getResult env tenant).outcome w
    found tenant ++ if looked.1.toOption.any JobResult.isDone then
      (looked.2.registry.remove tenant).notices else []
  | .purge => (w.registry.purge w.isEvictable w.time).notices
  | _ => []
where
  found (tenant : Uuid) : List (Notice Uuid Nat) :=
    (w.registry.get w.isEvictable w.time tenant (.resultNotFound (.uuid tenant))).notices

variable {env : Environment δ} {c : Surroundings δ} {w v : World δ} {known : Uuid → Prop}

section Polled

variable (e : env.Within c) (steadfast : c.Steadfast)
include e steadfast

theorem useStorage_polled {α : Type} (call : StorageCall) (act : Act Storage α) :
    Parallel (World.Polled c known) (useStorage env call act) (useStorage env call act) := by
  have respects := Surroundings.respects_agree steadfast known
  refine useStorage_kindred ?_ (.same act)
  by_cases hsave : call = .save
  · rw [hsave, e.save]
    exact World.onData_kindred respects.writing
  · by_cases hpack : call = .pack
    · rw [hpack, e.pack]
      exact World.onData_kindred respects.packing
    · rw [e.others call hsave hpack]
      exact .pure ()

theorem heed_polled (notices notices' : List (Notice Uuid Nat)) (same : notices = notices') :
    Parallel (World.Polled c known) (heed env notices) (heed env notices') := by
  subst same
  rw [heed]
  split
  next => exact .forM fun tenant _ => (useStorage_polled e steadfast .cleanUp _).ignoringFailure
  next =>
    rintro w _ ⟨data, storage, registry, due, rfl, asked, stored, restarted⟩
    exact ⟨rfl, data, storage, registry, _, rfl, asked, stored, restarted⟩

theorem cleanReplaced_polled (w v : World δ) (id : Uuid) (kin : w.Polled c known v) :
    Parallel (World.Polled c known) (cleanReplaced env w id (w.registry.value? id))
      (cleanReplaced env v id (v.registry.value? id)) := by
  obtain ⟨data, storage, registry, due, rfl, _, _, restarted⟩ := kin
  have same : registry.value? id = w.registry.value? id := restarted.value? id
  show Parallel _ (cleanReplaced env w id _) (cleanReplaced env w id (registry.value? id))
  rw [same]
  unfold cleanReplaced
  split
  next => exact useStorage_polled e steadfast .cleanUp _
  next => exact .pure ()

theorem exportTenant_agree (ticket : Nat) (tenant : Tenant) (skipped : List RecordType) :
    Parallel (World.Alike (c.Agree known) Eq) (exportTenant env ticket tenant skipped)
      (exportTenant env ticket tenant skipped) := by
  intro w v alike
  have respects := Surroundings.respects_agree steadfast known
  refine exportTenant_parallel e respects (fun type record => .same _) (fun _ => Eq) ?_
    (.same _) ?_ ?_ alike
  · rintro s _ rfl
    rfl
  · rintro s _ failure rfl
    rfl
  · rintro s _ rfl
    exact ⟨rfl, rfl⟩

theorem getResult_polled (tenant : Uuid) :
    Parallel (World.Polled c known) (getResult env tenant) (getResult env tenant) :=
  getResult_kindred Registry.restarted_law (heed_polled e steadfast) tenant

theorem purge_polled : Parallel (World.Polled c known) (purge env) (purge env) := by
  refine withRegistry_kindred (heed_polled e steadfast) ?_
  rintro w _ ⟨data, storage, registry, due, rfl, _, _, restarted⟩
  have same : registry.purge w.isEvictable w.time = w.registry.purge w.isEvictable w.time :=
    restarted.purge
  show Removal.Alike _ _ _ _ _ (registry.purge w.isEvictable w.time)
  rw [same]
  exact ⟨rfl, rfl, restarted.keyed.purge w.isEvictable w.time, rfl⟩

/-- Every operation is answered alike. -/
theorem answer_polled (orderly : w.Orderly) (kin : w.Polled c known v) (op : Operation)
    (forward : ∀ seconds, op = .advance seconds → 0 ≤ seconds) :
    answer env v (.operation op) = answer env w (.operation op) ∧
      (after env w op).Polled c known (after env v op) := by
  by_cases sweep : op = .purge
  · subst sweep
    obtain ⟨answered, left⟩ := purge_polled e steadfast w v kin
    exact ⟨congrArg Answer.purged answered, left⟩
  · have asks : ∀ id, Parallel (World.Polled c known) (env.ask (.tenant id))
        (env.ask (.tenant id)) := by
      intro id
      rw [e.ask]
      exact World.onData_kindred ((Surroundings.respects_agree steadfast known).ask (.tenant id))
    have downloads : ∀ tenant, Parallel (World.Polled c known) (download env tenant)
        (download env tenant) := fun tenant =>
      download_kindred Registry.restarted_law (heed_polled e steadfast)
        (useStorage_polled e steadfast .fetch _)
    exact answer_kindred e.apart Registry.restarted_law (heed_polled e steadfast)
      (cleanReplaced_polled e steadfast) asks (exportTenant_agree e steadfast) orderly.queued
      orderly.owned (fun tenant => downloads tenant w v kin) kin sweep forward

/-- The notices that are given are the same, too. -/
theorem notices_polled (kin : w.Polled c known v) (op : Operation) :
    notices env v op = notices env w op := by
  have found : ∀ tenant, notices.found v tenant = notices.found w tenant := by
    obtain ⟨data, storage, registry, due, rfl, _, _, restarted⟩ := kin
    intro tenant
    exact congrArg (·.notices) (restarted.get tenant (.resultNotFound (.uuid tenant)))
  cases op with
  | look tenant => exact found tenant
  | download tenant => exact found tenant
  | delete tenant =>
    obtain ⟨answered, left⟩ := getResult_polled e steadfast tenant w v kin
    obtain ⟨_, _, registry, _, same, _, _, restarted⟩ := left
    have removed := congrArg (·.notices) (restarted.remove tenant)
    rw [notices, notices, found, answered, same]
    congr 1
    split
    next => exact removed
    next => rfl
  | purge =>
    obtain ⟨data, storage, registry, due, rfl, _, _, restarted⟩ := kin
    exact congrArg (·.notices) restarted.purge
  | _ => rfl

end Polled

/-- An export that is submitted is one of a tenant that is known. -/
theorem submit_knows (e : env.Within c) {id : Uuid} {skipped : List RecordType}
    (accepted : ((submit env id skipped).outcome w).1 = .ok id) : c.Knows id w.data := by
  rcases asked : (c.ask (.tenant id)).outcome w.data with ⟨failure | found, data⟩
  · rw [submit, Act.outcome_bind_error (outcome_approve_failed e asked)] at accepted
    cases accepted
  · cases found with
    | none =>
      rw [submit, Act.outcome_bind_error (outcome_approve_unknown e asked)] at accepted
      cases accepted
    | some tenant => exact ⟨tenant, data, asked⟩

/-- Whoever is registered after an operation was registered before, or is known. -/
theorem registered_known (e : env.Within c) (finds : c.FindsTenants) (orderly : w.Orderly)
    (op : Operation) {id : Uuid} (registered : (after env w op).registry.value? id ≠ none) :
    w.registry.value? id ≠ none ∨ c.Knows id w.data := by
  by_cases hop : op = .run
  · subst hop
    refine .inl ?_
    obtain ⟨_, left⟩ := runNext_registry e.apart w orderly.queued
    split at left
    next => rwa [left.1, Registry.touch_value?] at registered
    next => rwa [left.1] at registered
  · rcases request_cases e.apart e.cleansUp (e.findsTenants finds) orderly hop with
      sheds | ⟨tenant, skipped, worker, rfl, accepted, _, _, beside⟩
    · obtain ⟨ticket, found⟩ := Option.ne_none_iff_exists'.mp registered
      refine .inl ?_
      rw [sheds.old id ticket found]
      exact Option.some_ne_none ticket
    · by_cases same : id = tenant.id
      · subst same
        exact .inr (submit_knows e accepted)
      · refine .inl ?_
        rw [beside.registry] at registered
        have put := Registry.value?_put_of_ne (w.peeked tenant.id).registry w.time
          w.results.length same
        rw [show (World.registered _ _).registry.value? id = _ from put] at registered
        rwa [show (w.peeked tenant.id).registry.value? id = _ from Registry.peek_value? ..]
          at registered

/-- A poll of an export that is not finished is answered by its result or refused. It tells nothing
and changes no more than times that do not count. -/
theorem poll_answered (e : env.Within c) (steadfast : c.Steadfast)
    (refuses : env.allowsResubmission = false) (keyed : w.registry.Keyed) {tenant : Uuid}
    {r : JobResult} (unfinished : w.unfinished? tenant = some r) (knows : c.Knows tenant w.data)
    (poll : Poll) :
    answer env w (.operation (poll.operation tenant)) = poll.reply tenant r ∧
      notices env w (poll.operation tenant) = [] ∧
      ∃ data registry, after env w (poll.operation tenant) = { w with data, registry } ∧
        c.Indistinct w.data data ∧
        registry.bare w.isEvictable = w.registry.bare w.isEvictable := by
  obtain ⟨found, opened⟩ := Option.filter_eq_some_iff.mp unfinished
  obtain ⟨ticket, registered, result⟩ := Option.bind_eq_some_iff.mp found
  have stays : r.isDone = false := by simpa using opened
  have unevictable := World.not_evictable result stays
  have live : live? w tenant = some ticket := World.live?_of_unfinished registered unevictable
  obtain ⟨entry, held, rfl⟩ := Option.map_eq_some_iff.mp registered
  have accessed : (w.registry.access tenant w.time).bare w.isEvictable =
      w.registry.bare w.isEvictable := Registry.bare_access keyed held unevictable w.time
  have read : w.registry.get w.isEvictable w.time tenant (.resultNotFound (.uuid tenant)) = _ :=
    Registry.get_some live
  have untold : notices.found w tenant = [] := congrArg (·.notices) read
  have looked : (getResult env tenant).outcome w = _ := outcome_getResult_some live result
  cases poll with
  | look =>
    refine ⟨?_, untold, w.data, _, ?_, .refl c w.data, accessed⟩
    · rw [Poll.operation, answer, looked]
      rfl
    · rw [Poll.operation, after, looked]
  | download =>
    have refused : (download env tenant).outcome w = _ :=
      outcome_download_unfinished live result stays
    refine ⟨?_, untold, w.data, _, ?_, .refl c w.data, accessed⟩
    · rw [Poll.operation, answer, refused]
      rfl
    · rw [Poll.operation, after, refused]
  | delete =>
    have refused : (delete env tenant).outcome w = _ :=
      outcome_delete_unfinished live result stays
    refine ⟨?_, ?_, w.data, _, ?_, .refl c w.data, accessed⟩
    · rw [Poll.operation, answer, refused]
      rfl
    · rw [Poll.operation, notices, untold, looked]
      simp [Except.toOption, stays]
    · rw [Poll.operation, after, refused]
  | submit skipped =>
    obtain ⟨owner, data, asked⟩ := knows
    have refused : (submit env tenant skipped).outcome w = _ :=
      outcome_submit_unfinished e refuses live result stays asked skipped
    refine ⟨?_, rfl, data, _, ?_, steadfast.unseen tenant w.data owner data asked,
      Registry.bare_peek keyed w.isEvictable w.time tenant⟩
    · rw [Poll.operation, answer, refused]
      rfl
    · rw [Poll.operation, after, refused]

end Service

end Handover
