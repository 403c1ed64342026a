import Handover.Proofs.Kindred

namespace Handover

open Act (Preserves)

variable {δ : Type}

namespace World

/-- Whether an occasion does no harm to an archive: where the cleaner comes late, no tenant whose
clean-up has waited has a registered result that succeeded. -/
def Harmless (w : World δ) : Occasion → Prop
  | .tend count => ∀ tenant ∈ w.due.take count,
    ∀ r ∈ (w.registry.value? tenant).bind w.result?, r.status ≠ .succeeded
  | .operation _ => True
  | .shutdown => True

instance Harmless.decidable (w : World δ) : (occasion : Occasion) → Decidable (w.Harmless occasion)
  | .tend count => inferInstanceAs (Decidable (∀ tenant ∈ w.due.take count,
      ∀ r ∈ (w.registry.value? tenant).bind w.result?, r.status ≠ .succeeded))
  | .operation _ => isTrue trivial
  | .shutdown => isTrue trivial

/-- A world in which no clean-up waits. -/
def Punctual (w : World δ) : Prop :=
  w.due = []

theorem Punctual.harmless {w : World δ} (h : w.Punctual) (occasion : Occasion) :
    w.Harmless occasion := by
  cases occasion with
  | tend count =>
    intro tenant waits
    rw [h] at waits
    cases List.mem_of_mem_take waits
  | operation op => trivial
  | shutdown => trivial

end World

/-- What has no part in the clean-ups that wait leaves them as they are. -/
theorem Act.Aloof.punctual {α : Type} {act : Act (World δ) α} (h : act.Aloof) :
    Preserves World.Punctual act := by
  intro w punctual
  have own : (act.outcome w).2 =
      { (act.outcome w).2 with registry := w.registry, due := w.due } :=
    (h w.registry w.due w w rfl).2
  exact (congrArg World.due own).trans punctual

namespace Service

variable {env : Environment δ} {c : Surroundings δ} {w : World δ} {chronicle : Chronicle}

/-- Whether every clean-up that comes late is harmless by then. -/
def Harmless (env : Environment δ) : List Occasion → World δ → Prop
  | [], _ => True
  | occasion :: rest, w => w.Harmless occasion ∧ Harmless env rest (onward env w occasion)

instance Harmless.decidable (env : Environment δ) :
    (occasions : List Occasion) → (w : World δ) → Decidable (Harmless env occasions w)
  | [], _ => isTrue trivial
  | occasion :: rest, w =>
    have := Harmless.decidable env rest (onward env w occasion)
    inferInstanceAs
      (Decidable (w.Harmless occasion ∧ Harmless env rest (onward env w occasion)))

/-- What an occasion adds to the chronicle. -/
def recorded (env : Environment δ) (w : World δ) : Occasion → Chronicle
  | .operation op => chronicled env w op
  | .tend _ => []
  | .shutdown => []

def record (env : Environment δ) (s : World δ × Chronicle) (occasion : Occasion) :
    World δ × Chronicle :=
  (onward env s.1 occasion, s.2 ++ recorded env s.1 occasion)

/-- The world and the chronicle after some occasions. -/
def annals (env : Environment δ) (occasions : List Occasion) (w : World δ) : World δ × Chronicle :=
  occasions.foldl (record env) (w, [])

/-- A harmless clean-up leaves all together that belongs together. -/
theorem tend_consistent (e : env.Within c) (h : w.Consistent chronicle) {count : Nat}
    (harmless : w.Harmless (.tend count)) :
    (onward env w (.tend count)).Consistent chronicle := by
  obtain ⟨s, run, sound, kept⟩ := outcome_cleanUpAll
    (w := { w with due := w.due.drop count }) e (w.due.take count) h.storage
  have tended : (tend env count).outcome w = _ := run
  rw [onward, tended]
  refine ⟨h.registry, sound, h.isOpen, h.order, h.owned, h.queued, h.failed, ?_⟩
  intro tenant ticket r registered result succeeded
  obtain ⟨rows, ran, keeps, counted⟩ := h.stored tenant ticket r registered result succeeded
  have found : (w.registry.value? tenant).bind w.result? = some r := by
    rw [registered]
    exact result
  have spared : tenant ∉ w.due.take count := fun waits =>
    harmless tenant waits r found succeeded
  exact ⟨rows, ran, (kept tenant spared).1 _ keeps, counted⟩

theorem record_consistent (e : env.Within c) (finds : c.FindsTenants)
    (h : w.Consistent chronicle) {occasion : Occasion} (running : occasion ≠ .shutdown)
    (harmless : w.Harmless occasion) :
    (record env (w, chronicle) occasion).1.Consistent
      (record env (w, chronicle) occasion).2 := by
  cases occasion with
  | operation op => exact step_consistent e finds h op
  | tend count =>
    rw [record, recorded, List.append_nil]
    exact tend_consistent e h harmless
  | shutdown => exact absurd rfl running

/-- A service that is not shut down stays consistent as long as late clean-ups are harmless. -/
theorem records_consistent (e : env.Within c) (finds : c.FindsTenants)
    {occasions : List Occasion} (running : .shutdown ∉ occasions) (h : w.Consistent chronicle)
    (harmless : Harmless env occasions w) :
    (occasions.foldl (record env) (w, chronicle)).1.Consistent
      (occasions.foldl (record env) (w, chronicle)).2 := by
  induction occasions generalizing w chronicle with
  | nil => exact h
  | cons occasion rest ih =>
    rw [List.mem_cons, not_or] at running
    obtain ⟨first, later⟩ := harmless
    exact ih running.2 (record_consistent e finds h (Ne.symm running.1) first) later

theorem annals_consistent (e : env.Within c) (finds : c.FindsTenants)
    {occasions : List Occasion} (running : .shutdown ∉ occasions) (opening : w.Opening)
    (harmless : Harmless env occasions w) :
    (annals env occasions w).1.Consistent (annals env occasions w).2 :=
  records_consistent e finds running opening.consistent harmless

section KeepsUp

variable (e : env.Apart)
include e

theorem runExport_punctual (ticket : Nat) (tenant : Tenant) (skipped : List RecordType) :
    Preserves World.Punctual (runExport env ticket tenant skipped) := by
  have finish : Preserves World.Punctual (finishExport env ticket tenant skipped) :=
    (exportTenant_aloof e).punctual.attempt.bind fun outcome =>
      (markResult_aloof ticket (.ofOutcome outcome)).punctual
  have touched : Preserves (World.Punctual (δ := δ)) (touch tenant.id ticket) := fun _ h => h
  exact (markResult_aloof ticket .running).punctual.bind fun _ => finish.followedBy touched

theorem runNext_punctual : Preserves World.Punctual (runNext env) := by
  refine .get_bind fun w h => ?_
  split
  next => exact h
  next place task worker _ =>
    have ran : Preserves World.Punctual (runTask env task) := by
      cases task with
      | filler => exact .pure ()
      | job ticket tenant skipped => exact runExport_punctual e ticket tenant skipped
    have finished : ∀ outcome, Preserves World.Punctual (do
        modify fun w : World δ => { w with worker := w.worker.setPhase place .finished }
        pure (some outcome) : Act (World δ) (Option (Except Failure Unit))) := fun _ _ h => h
    exact (ran.attempt.bind finished) { w with worker } h

theorem enter_punctual (id : Uuid) (tenant : Tenant) (skipped : List RecordType) :
    Preserves World.Punctual (enter env id tenant skipped) := by
  have handed : ∀ ticket task, Preserves (World.Punctual (δ := δ)) (handIn id ticket task) := by
    intro ticket task w h
    rcases submitted : w.worker.submit task with failure | worker
    · rw [outcome_handIn_error submitted]
      exact h
    · rw [outcome_handIn_ok submitted]
      exact h
  have cleaned : ∀ w replaced, Preserves World.Punctual (cleanReplaced env w id replaced) := by
    intro w replaced
    unfold cleanReplaced
    split
    next => exact (useStorage_aloof e .cleanUp _).punctual
    next => exact .pure ()
  refine .get_bind fun w h => ?_
  rw [Act.outcome_bind_ok (outcome_register w id)]
  exact ((cleaned w _).bind fun _ => handed _ _) (w.registered id) h

theorem approve_punctual (id : Uuid) : Preserves World.Punctual (approve env id) := by
  obtain ⟨act, asks⟩ := e.ask (.tenant id)
  rw [approve, asks]
  refine (onData_aloof act).punctual.bind fun found => ?_
  rcases found with _ | tenant
  · exact .throw _
  · have peeked : Preserves (World.Punctual (δ := δ)) (peekResult id) := by
      intro w h
      rw [outcome_peekResult]
      exact h
    refine peeked.bind fun previous => .get_bind fun w h => ?_
    exact ((Preserves.settle _).bind fun _ => .pure tenant) w h

variable (keepsUp : env.keepsUp = true)
include keepsUp

theorem withRegistry_punctual {α : Type} (operation : World δ → Removal Uuid Nat α) :
    Preserves World.Punctual (withRegistry env operation) := by
  refine .get_bind fun w h => ?_
  have heeded : Preserves World.Punctual (heed env (operation w).notices) := by
    rw [heed, if_pos keepsUp]
    intro w h
    obtain ⟨w', run, _, waiting⟩ := outcome_cleanUpAll_apart e ((operation _).notices.map _) w
    rw [run]
    exact waiting.trans h
  exact (heeded.bind fun _ => .settle _) _ h

theorem getResult_punctual (tenant : Uuid) : Preserves World.Punctual (getResult env tenant) := by
  refine (withRegistry_punctual e keepsUp _).bind fun ticket => .get_bind fun w h => ?_
  split
  next => exact h
  next => exact h

theorem download_punctual (tenant : Uuid) : Preserves World.Punctual (download env tenant) := by
  refine (getResult_punctual e keepsUp tenant).bind fun r => ?_
  cases r.isDone with
  | false => exact .throw _
  | true =>
    cases r.isSuccess with
    | false => exact .throw _
    | true => exact (useStorage_aloof e .fetch _).punctual

theorem delete_punctual (tenant : Uuid) : Preserves World.Punctual (delete env tenant) := by
  refine (getResult_punctual e keepsUp tenant).bind fun r => ?_
  cases r.isDone with
  | false => exact .throw _
  | true => exact (withRegistry_punctual e keepsUp _).discard

theorem after_punctual (op : Operation) (h : w.Punctual) : (after env w op).Punctual := by
  cases op with
  | submit tenant skipped =>
    exact ((approve_punctual e tenant).bind fun found =>
      (enter_punctual e tenant found skipped).bind fun _ => .pure tenant) w h
  | run => exact runNext_punctual e w h
  | look tenant => exact getResult_punctual e keepsUp tenant w h
  | download tenant => exact download_punctual e keepsUp tenant w h
  | delete tenant => exact delete_punctual e keepsUp tenant w h
  | purge => exact withRegistry_punctual e keepsUp _ w h
  | advance seconds => exact h

theorem onward_punctual (h : w.Punctual) (occasion : Occasion) :
    (onward env w occasion).Punctual := by
  rcases occasion with op | count | _
  · exact after_punctual e keepsUp op h
  · rw [onward, outcome_tend_none h]
    exact h
  · exact (shutdown_retired e w).due

/-- Where the cleaner keeps up, no clean-up comes late, whatever happens. -/
theorem harmless_of_keepsUp (h : w.Punctual) (occasions : List Occasion) :
    Harmless env occasions w := by
  induction occasions generalizing w with
  | nil => trivial
  | cons occasion rest ih =>
    exact ⟨h.harmless occasion, ih (onward_punctual e keepsUp h occasion)⟩

end KeepsUp

end Service

end Handover
