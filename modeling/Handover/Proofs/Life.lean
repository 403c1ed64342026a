import Handover.Proofs.Apart
import Handover.Proofs.Entries

namespace Handover

open Act

variable {δ : Type}

/-- What happens to a service: something is done with it, its cleaner comes to some clean-ups, or it
is shut down. -/
inductive Occasion where
  | operation (op : Operation)
  | tend (count : Nat)
  | shutdown
  deriving Repr

/-- What is told on an occasion. -/
inductive Answer where
  | submitted (result : Except Failure Uuid)
  | ran (result : Except Failure (Option (Except Failure Unit)))
  | looked (result : Except Failure JobResult)
  | downloaded (result : Except Failure Archive)
  | deleted (result : Except Failure Unit)
  | purged (result : Except Failure Nat)
  | advanced
  | tended
  | shut (result : Except Failure Unit)

namespace Service

def onward (env : Environment δ) (w : World δ) : Occasion → World δ
  | .operation op => after env w op
  | .tend count => ((tend env count).outcome w).2
  | .shutdown => ((shutdown env).outcome w).2

def answer (env : Environment δ) (w : World δ) : Occasion → Answer
  | .operation (.submit tenant skipped) => .submitted ((submit env tenant skipped).outcome w).1
  | .operation .run => .ran ((runNext env).outcome w).1
  | .operation (.look tenant) => .looked ((getResult env tenant).outcome w).1
  | .operation (.download tenant) => .downloaded ((download env tenant).outcome w).1
  | .operation (.delete tenant) => .deleted ((delete env tenant).outcome w).1
  | .operation .purge => .purged ((purge env).outcome w).1
  | .operation (.advance _) => .advanced
  | .tend _ => .tended
  | .shutdown => .shut ((shutdown env).outcome w).1

/-- The world after some occasions. -/
def life (env : Environment δ) (occasions : List Occasion) (w : World δ) : World δ :=
  occasions.foldl (onward env) w

/-- What is told on some occasions, one after another. -/
def answers (env : Environment δ) : List Occasion → World δ → List Answer
  | [], _ => []
  | occasion :: rest, w => answer env w occasion :: answers env rest (onward env w occasion)

end Service

/-- A world in which the service has been shut down; this is stored, and these clean-ups are due. -/
structure World.Retired (s : Storage) (due : List Uuid) (w : World δ) : Prop where
  entries : w.registry.entries = []
  isOpen : w.worker.isOpen = false
  idle : w.worker.waiting = []
  storage : w.storage = s
  due : w.due = due

namespace Registry

variable {κ ν : Type} {r : Registry κ ν}

theorem purge_empty (h : r.entries = []) (evictable : ν → Bool) (now : Rat) :
    r.purge evictable now = ⟨.ok 0, [], r⟩ := by
  obtain ⟨ttl, listens, cleaner, entries⟩ := r
  obtain rfl : entries = [] := h
  simp [purge, tell]

theorem close_empty (h : r.entries = []) : r.close.notices = [] := by
  obtain ⟨ttl, listens, cleaner, entries⟩ := r
  obtain rfl : entries = [] := h
  cases cleaner <;> simp [close, tell]

variable [DecidableEq κ]

theorem held?_empty (h : r.entries = []) (key : κ) : r.held? key = none := by
  rw [held?, h]
  rfl

theorem get_empty (h : r.entries = []) (evictable : ν → Bool) (now : Rat) (key : κ)
    (absent : Failure) : r.get evictable now key absent = ⟨.error absent, [], r⟩ := by
  rw [get, held?_empty h]

end Registry

namespace Service

variable {env : Environment δ} {w : World δ} {s : Storage} {due : List Uuid}

/-- No job waits for a worker that has been shut down. -/
theorem waiting_shutdown (worker : Worker Task) : worker.shutdown.waiting = [] := by
  rw [Worker.waiting, Worker.queued, List.map_eq_nil_iff, List.filter_eq_nil_iff]
  intro j hj
  obtain ⟨j', _, rfl⟩ := List.mem_map.mp hj
  split
  next => simp
  next unqueued => simpa using unqueued

theorem shutdown_retired (e : env.Apart) (w : World δ) :
    ((shutdown env).outcome w).2.Retired ((shutdown env).outcome w).2.storage [] := by
  obtain ⟨w', run, beside, tended⟩ := outcome_shutdown_apart e w
  rw [run]
  refine ⟨?_, ?_, ?_, rfl, tended⟩
  · rw [beside.registry]
    exact w.registry.close_entries
  · rw [beside.worker]
    rfl
  · rw [beside.worker]
    exact waiting_shutdown w.worker

theorem onData_retired {α : Type} (act : Act δ α) :
    Preserves (World.Retired s due) (World.onData act) :=
  fun _ h => ⟨h.entries, h.isOpen, h.idle, h.storage, h.due⟩

/-- Where nothing is registered, nothing can be removed from the registry. -/
theorem withRegistry_retired {α : Type} {operation : World δ → Removal Uuid Nat α}
    (quiet : ∀ w : World δ, w.registry.entries = [] →
      (operation w).notices = [] ∧ (operation w).registry.entries = []) :
    Preserves (World.Retired s due) (withRegistry env operation) := by
  intro w h
  obtain ⟨notices, entries⟩ := quiet w h.entries
  rcases ran : operation w with ⟨answer, told, registry⟩
  rw [ran] at notices entries
  subst notices
  rw [outcome_withRegistry_quiet ran]
  exact ⟨entries, h.isOpen, h.idle, h.storage, h.due⟩

theorem resultOf_retired (ticket : Nat) : Preserves (World.Retired (δ := δ) s due) (resultOf ticket) :=
  .get_bind fun w h => by
    cases w.result? ticket with
    | some r => exact h
    | none => exact h

theorem getResult_retired (tenant : Uuid) :
    Preserves (World.Retired s due) (getResult env tenant) := by
  refine .bind (withRegistry_retired fun w h => ?_) resultOf_retired
  rw [Registry.get_empty h]
  exact ⟨rfl, h⟩

/-- Nothing can be downloaded from a service that has been shut down. -/
theorem outcome_getResult_retired (h : w.Retired s due) (tenant : Uuid) :
    (getResult env tenant).outcome w = (.error (.resultNotFound (.uuid tenant)), w) :=
  outcome_bind_error (outcome_withRegistry_quiet (Registry.get_empty h.entries _ _ _ _))

/-- An export that enters a service that has been shut down leaves a result that nobody can ask
for. -/
theorem outcome_enter_retired (h : w.Retired s due) (id : Uuid) (tenant : Tenant)
    (skipped : List RecordType) : (enter env id tenant skipped).outcome w =
      (.error .workerShutdown, { w.registered id with registry := w.registry }) := by
  have absent : w.registry.value? id = none :=
    Registry.value?_of_not_held (Registry.held?_empty h.entries id)
  have cleaned : (cleanReplaced env w id (w.registry.value? id)).outcome (w.registered id) =
      (.ok (), w.registered id) := by
    rw [absent]
    rfl
  have refused : (w.registered id).worker.submit (.job w.results.length tenant skipped) =
      .error .workerShutdown := by
    rw [Worker.submit, show (w.registered id).worker.isOpen = false from h.isOpen]
    rfl
  rw [outcome_enter_cleaned cleaned, outcome_handIn_error refused]
  have dropped := Registry.discard_put_fresh absent w.time w.results.length
  rw [show ((w.registered id).registry.discard id w.results.length).2 = w.registry from dropped]

theorem enter_retired (id : Uuid) (tenant : Tenant) (skipped : List RecordType) :
    Preserves (World.Retired s due) (enter env id tenant skipped) := by
  intro w h
  rw [outcome_enter_retired h]
  exact ⟨h.entries, h.isOpen, h.idle, h.storage, h.due⟩

theorem submit_retired (e : env.Apart) (id : Uuid) (skipped : List RecordType) :
    Preserves (World.Retired s due) (submit env id skipped) := by
  obtain ⟨act, asks⟩ := e.ask (.tenant id)
  have approves : Preserves (World.Retired s due) (approve env id) := by
    rw [approve, asks]
    refine (onData_retired act).bind fun found => ?_
    rcases found with _ | tenant
    · exact .throw _
    · have peeked : Preserves (World.Retired (δ := δ) s due) (peekResult id) := by
        intro w h
        rw [outcome_peekResult, Registry.peek, Registry.held?_empty h.entries]
        exact h
      refine peeked.bind fun previous => .get_bind fun w h => ?_
      exact ((Preserves.settle _).bind fun _ => .pure tenant) w h
  exact approves.bind fun tenant => (enter_retired id tenant skipped).bind fun _ => .pure id

theorem download_retired (tenant : Uuid) : Preserves (World.Retired s due) (download env tenant) := by
  intro w h
  rw [download, outcome_bind_error (outcome_getResult_retired h tenant)]
  exact h

theorem delete_retired (tenant : Uuid) : Preserves (World.Retired s due) (delete env tenant) := by
  intro w h
  rw [delete, outcome_bind_error (outcome_getResult_retired h tenant)]
  exact h

theorem purge_retired : Preserves (World.Retired s due) (purge env) :=
  withRegistry_retired fun w h => by
    rw [Registry.purge_empty h]
    exact ⟨rfl, h⟩

/-- Where no clean-up waits, the cleaner does nothing. -/
theorem outcome_tend_none (h : w.due = []) (count : Nat) :
    (tend env count).outcome w = (.ok (), w) := by
  obtain ⟨_, _, _, _, _, _, _, due⟩ := w
  obtain rfl : due = [] := h
  rw [tend, outcome_bind_ok (outcome_get _)]
  simp [cleanUpAll]

theorem tend_retired (count : Nat) : Preserves (World.Retired s []) (tend env count) := by
  intro w h
  rw [outcome_tend_none h.due]
  exact h

theorem shutdown_again : Preserves (World.Retired s []) (shutdown env) := by
  have stopped : Preserves (World.Retired (δ := δ) s []) shutdownWorker :=
    fun w h => ⟨h.entries, rfl, waiting_shutdown w.worker, h.storage, h.due⟩
  have closed : Preserves (World.Retired s []) (withRegistry env fun w => w.registry.close) :=
    withRegistry_retired fun w h => ⟨Registry.close_empty h, w.registry.close_entries⟩
  exact stopped.bind fun _ => closed.followedBy (.get_bind fun w h => tend_retired _ w h)

theorem retired_after (e : env.Apart) (h : w.Retired s due) (op : Operation) :
    (after env w op).Retired s due := by
  cases op with
  | submit tenant skipped => exact submit_retired e tenant skipped w h
  | run =>
    rw [after, outcome_runNext_idle h.idle]
    exact h
  | look tenant => exact getResult_retired tenant w h
  | download tenant => exact download_retired tenant w h
  | delete tenant => exact delete_retired tenant w h
  | purge => exact purge_retired w h
  | advance seconds => exact ⟨h.entries, h.isOpen, h.idle, h.storage, h.due⟩

/-- A service that has been shut down stays so, and with it what is stored. -/
theorem retired_onward (e : env.Apart) (h : w.Retired s []) (occasion : Occasion) :
    (onward env w occasion).Retired s [] := by
  cases occasion with
  | operation op => exact retired_after e h op
  | tend count => exact tend_retired count w h
  | shutdown => exact shutdown_again w h

end Service

end Handover
