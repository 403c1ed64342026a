import Handover.Proofs.Apart

namespace Handover

namespace Registry

variable {κ ν α : Type}

/-- Whether all values of a registry are values of another one. -/
def Narrows (r' r : Registry κ ν) : Prop :=
  ∀ e' ∈ r'.entries, ∃ e ∈ r.entries, e.value = e'.value

theorem Narrows.refl (r : Registry κ ν) : r.Narrows r :=
  fun e he => ⟨e, he, rfl⟩

theorem Narrows.trans {r r' r'' : Registry κ ν} (h : r''.Narrows r') (h' : r'.Narrows r) :
    r''.Narrows r := by
  intro e'' he''
  obtain ⟨e', he', hvalue'⟩ := h e'' he''
  obtain ⟨e, he, hvalue⟩ := h' e' he'
  exact ⟨e, he, hvalue.trans hvalue'⟩

theorem narrows_map (r : Registry κ ν) (f : RegistryEntry κ ν → RegistryEntry κ ν)
    (hf : ∀ e, (f e).value = e.value) : Narrows { r with entries := r.entries.map f } r := by
  intro e' he'
  obtain ⟨e, he, rfl⟩ := List.mem_map.mp he'
  exact ⟨e, he, (hf e).symm⟩

theorem narrows_filter (r : Registry κ ν) (p : RegistryEntry κ ν → Bool) :
    Narrows { r with entries := r.entries.filter p } r :=
  fun e he => ⟨e, (List.mem_filter.mp he).1, rfl⟩

theorem narrows_tell (r : Registry κ ν) (notices : List (Notice κ ν)) (answer : Except Failure α) :
    (r.tell notices answer).registry.Narrows r := by
  unfold tell
  split
  next => exact .refl r
  next => split <;> exact .refl r

theorem narrows_close (r : Registry κ ν) : r.close.registry.Narrows r := by
  have told := narrows_tell { r with entries := [] } (r.entries.map (noticeOf .shutdown))
    (Except.ok () : Except Failure Unit)
  unfold close
  dsimp only
  split <;> exact fun e' he' => absurd (told e' he') (by simp)

theorem narrows_purge (r : Registry κ ν) (evictable : ν → Bool) (now : Rat) :
    (r.purge evictable now).registry.Narrows r := by
  unfold purge
  refine (narrows_tell _ _ _).trans ?_
  exact (narrows_map { r with entries := r.entries.filter fun e => !r.isExpired evictable now e }
    (examined evictable now) fun e => (examined_entry evictable now e).2).trans
    (narrows_filter r _)

variable [DecidableEq κ] {evictable : ν → Bool} {now : Rat} {key : κ} {absent : Failure}

theorem narrows_access (r : Registry κ ν) (key : κ) (now : Rat) : (r.access key now).Narrows r :=
  narrows_map r _ fun e => (access_entry key now e).2

theorem narrows_peek (r : Registry κ ν) : (r.peek evictable now key).2.Narrows r := by
  unfold peek
  split
  next => exact .refl r
  next =>
    split
    next => exact .refl r
    next =>
      dsimp only
      split
      next => exact .refl r
      next => exact narrows_access r key now

theorem narrows_get (r : Registry κ ν) :
    (r.get evictable now key absent).registry.Narrows r := by
  unfold get
  split
  next => exact .refl r
  next =>
    split
    next => exact (narrows_tell _ _ _).trans (narrows_filter r _)
    next => exact narrows_access r key now

theorem narrows_remove [DecidableEq ν] (r : Registry κ ν) : (r.remove key).registry.Narrows r := by
  unfold remove
  split
  next => exact .refl r
  next => exact (narrows_tell _ _ _).trans (narrows_filter r _)

theorem narrows_discard [DecidableEq ν] (r : Registry κ ν) (value : ν) :
    (r.discard key value).2.Narrows r := by
  unfold discard
  split
  next => exact .refl r
  next =>
    split
    next => exact narrows_filter r _
    next => exact .refl r

theorem narrows_touch [DecidableEq ν] (r : Registry κ ν) (value : ν) :
    (r.touch now key value).2.Narrows r := by
  unfold touch
  split
  next => exact .refl r
  next =>
    split
    next => exact narrows_access r key now
    next => exact .refl r

theorem mem_put {r : Registry κ ν} {value : ν} {e' : RegistryEntry κ ν}
    (he' : e' ∈ (r.put now key value).2.entries) :
    e'.value = value ∨ ∃ e ∈ r.entries, e.value = e'.value := by
  cases h : r.held? key with
  | none =>
    rw [put_of_not_held h] at he'
    rcases List.mem_append.mp he' with he' | he'
    · exact Or.inr ⟨e', he', rfl⟩
    · rw [List.mem_singleton.mp he']
      exact Or.inl rfl
  | some held =>
    rw [put_of_held h] at he'
    obtain ⟨e, he, rfl⟩ := List.mem_map.mp he'
    unfold renewed
    split
    next => exact Or.inl rfl
    next => exact Or.inr ⟨e, he, rfl⟩

end Registry

variable {δ : Type}

/-- A world in which the registered results exist. -/
def World.Numbered (w : World δ) : Prop :=
  ∀ e ∈ w.registry.entries, e.value < w.results.length

namespace World.Numbered

variable {w w' : World δ}

theorem mono (h : w.Numbered) (registry : w'.registry.Narrows w.registry)
    (results : w.results.length ≤ w'.results.length) : w'.Numbered := by
  intro e' he'
  obtain ⟨e, he, hvalue⟩ := registry e' he'
  have := h e he
  omega

theorem same (h : w.Numbered) (registry : w'.registry = w.registry)
    (results : w'.results.length = w.results.length) : w'.Numbered :=
  h.mono (registry ▸ .refl _) (Nat.le_of_eq results.symm)

theorem value?_lt (h : w.Numbered) {tenant : Uuid} {ticket : Nat}
    (hv : w.registry.value? tenant = some ticket) : ticket < w.results.length := by
  obtain ⟨e, he, _, rfl⟩ := Registry.mem_of_value? hv
  exact h e he

theorem registered (h : w.Numbered) (tenant : Uuid) : (w.registered tenant).Numbered := by
  intro e he
  have length : (w.registered tenant).results.length = w.results.length + 1 :=
    List.length_append
  rcases Registry.mem_put he with hnew | ⟨old, hold, hsame⟩
  · omega
  · have := h old hold
    omega

theorem upkeep : World.Upkeep (World.Numbered (δ := δ)) where
  aside h h' := h.same h'.registry (congrArg List.length h'.results)
  looked _ h := h.mono (Registry.narrows_get _) (Nat.le_refl _)
  peeked _ h := h.mono (Registry.narrows_peek _) (Nat.le_refl _)
  removed _ h := h.mono (Registry.narrows_remove _) (Nat.le_refl _)
  purged h := h.mono (Registry.narrows_purge _ _ _) (Nat.le_refl _)
  registered id h := h.registered id
  discarded _ ticket h := h.mono (Registry.narrows_discard _ ticket) (Nat.le_refl _)
  queued h _ := h
  later _ h := h

end World.Numbered

namespace Service

open Act

variable {env : Environment δ} {c : Surroundings δ}

theorem onData_numbered {α : Type} (act : Act δ α) :
    Preserves World.Numbered (World.onData act) :=
  fun _ h => h

theorem useStorage_numbered {α : Type} (e : env.Within c) (call : StorageCall)
    (act : Act Storage α) : Preserves World.Numbered (useStorage env call act) := by
  obtain ⟨ahead, happens⟩ := e.apart.before call
  rw [useStorage, happens]
  exact (onData_numbered ahead).bind fun _ _ h => h

theorem keep_numbered (e : env.Within c) (ticket : Nat) (tenant : Uuid) (type : RecordType)
    (record : Value) : Preserves World.Numbered (keep env ticket tenant type record) :=
  (useStorage_numbered e .save _).bind fun _ w h =>
    have counted : (w.report ticket type).Numbered := h.same rfl (List.length_modify ..)
    counted

theorem markResult_numbered (ticket : Nat) (mark : Mark) :
    Preserves (World.Numbered (δ := δ)) (markResult ticket mark) := by
  refine .get_bind fun w h => ?_
  cases hr : w.result? ticket with
  | none => exact h
  | some r =>
    have marked : (w.marked ticket (r.mark mark w.clock).2.1).Numbered :=
      h.same rfl (List.length_set ..)
    exact marked

theorem exportTenant_numbered (e : env.Within c) (ticket : Nat) (tenant : Tenant)
    (skipped : List RecordType) :
    Preserves World.Numbered (exportTenant env ticket tenant skipped) :=
  exportTenant_preserves e.apart onData_numbered (keep_numbered e ticket tenant.id)
    (useStorage_numbered e .prepare _) (useStorage_numbered e .close _)
    (useStorage_numbered e .pack _)

theorem touch_numbered (tenant : Uuid) (ticket : Nat) :
    Preserves (World.Numbered (δ := δ)) (touch tenant ticket) :=
  fun w h => h.mono (Registry.narrows_touch w.registry ticket) (Nat.le_refl _)

theorem runExport_numbered (e : env.Within c) (ticket : Nat) (tenant : Tenant)
    (skipped : List RecordType) :
    Preserves World.Numbered (runExport env ticket tenant skipped) := by
  refine (markResult_numbered ticket .running).bind fun _ => ?_
  have finish : Preserves World.Numbered (finishExport env ticket tenant skipped) :=
    (exportTenant_numbered e ticket tenant skipped).attempt.bind fun _ =>
      markResult_numbered ticket _
  exact finish.followedBy (touch_numbered tenant.id ticket)

theorem runNext_numbered (e : env.Within c) : Preserves World.Numbered (runNext env) := by
  refine .get_bind fun w h => ?_
  split
  next => exact h
  next place task worker _ =>
    have run : Preserves World.Numbered (runTask env task) := by
      cases task with
      | filler => exact .pure ()
      | job ticket tenant skipped => exact runExport_numbered e ticket tenant skipped
    have finish : ∀ outcome, Preserves World.Numbered (do
        modify fun w : World δ => { w with worker := w.worker.setPhase place .finished }
        pure (some outcome) : Act (World δ) (Option (Except Failure Unit))) := fun _ _ h => h
    exact (run.attempt.bind finish) { w with worker } h

theorem approve_numbered (e : env.Within c) (tenant : Uuid) :
    Preserves World.Numbered (approve env tenant) :=
  approve_preserves e.apart World.Numbered.upkeep.aside World.Numbered.upkeep.peeked tenant

theorem after_numbered (e : env.Within c) {w : World δ} (h : w.Numbered) (op : Operation) :
    (after env w op).Numbered := by
  by_cases hop : op = .run
  · subst hop
    exact runNext_numbered e w h
  · exact request_preserves e.apart World.Numbered.upkeep hop h

theorem shutdown_numbered (e : env.Within c) : Preserves World.Numbered (shutdown env) := by
  intro w h
  obtain ⟨w', run, beside, _⟩ := outcome_shutdown_apart e.apart w
  have closed : World.Numbered { w with registry := w.registry.close.registry } :=
    h.mono (Registry.narrows_close w.registry) (Nat.le_refl _)
  rw [run]
  exact closed.same beside.registry (congrArg List.length beside.results)

/-- The single moves of jobs, which other operations may come in between: a job changes its phase or
its result, uses the storage, asks its collaborators, or restarts the time of its result. -/
inductive JobMove (env : Environment δ) : {α : Type} → Act (World δ) α → Prop where
  | phase (place : Nat) (phase : Phase) :
      JobMove env (modify fun w => { w with worker := w.worker.setPhase place phase } :
        Act (World δ) PUnit)
  | mark (ticket : Nat) (mark : Mark) : JobMove env (markResult ticket mark)
  | store {α : Type} (call : StorageCall) (act : Act Storage α) :
      JobMove env (useStorage env call act)
  | call (ticket : Nat) (tenant : Uuid) (call : Call) :
      JobMove env ((ports env ticket tenant).perform call)
  | touch (tenant : Uuid) (ticket : Nat) : JobMove env (touch tenant ticket)

theorem JobMove.numbered (e : env.Within c) {α : Type} {act : Act (World δ) α}
    (h : JobMove env act) : Preserves World.Numbered act := by
  cases h with
  | phase place phase => exact fun _ h => h
  | mark ticket mark => exact markResult_numbered ticket mark
  | store call act => exact useStorage_numbered e call act
  | call ticket tenant call =>
    exact perform_preserves e.apart onData_numbered (keep_numbered e ticket tenant) call
  | touch tenant ticket => exact touch_numbered tenant ticket

/-- The worlds that a service can come to, also while a job is running and with a storage that may
change or start to fail at any time. -/
inductive Reachable (env : Environment δ) : World δ → Prop where
  | opened {w : World δ} (opening : w.Opening) : Reachable env w
  | operated {w : World δ} (op : Operation) : Reachable env w → Reachable env (after env w op)
  | moved {w : World δ} {α : Type} {act : Act (World δ) α} (move : JobMove env act) :
      Reachable env w → Reachable env (act.outcome w).2
  | stopped {w : World δ} : Reachable env w → Reachable env (shutdownWorker.outcome w).2
  | closed {w : World δ} : Reachable env w → Reachable env ((shutdown env).outcome w).2
  | disturbed {w : World δ} (storage : Storage) :
      Reachable env w → Reachable env { w with storage }

namespace Reachable

theorem numbered (e : env.Within c) {w : World δ} (h : Reachable env w) : w.Numbered := by
  induction h with
  | opened opening =>
    intro entry hentry
    rw [opening.entries] at hentry
    cases hentry
  | operated op _ ih => exact after_numbered e ih op
  | moved move _ ih => exact move.numbered e _ ih
  | stopped _ ih => exact ih
  | closed _ ih => exact shutdown_numbered e _ ih
  | disturbed storage _ ih => exact ih

theorem course {w : World δ} (h : Reachable env w) (ops : List Operation) :
    Reachable env (course env ops w).1 := by
  suffices all : ∀ s : World δ × Chronicle, Reachable env s.1 →
      Reachable env (ops.foldl (step env) s).1 from all (w, []) h
  induction ops with
  | nil => exact fun _ hs => hs
  | cons op rest ih => exact fun s hs => ih (step env s op) (hs.operated op)

end Reachable

end Service

end Handover
