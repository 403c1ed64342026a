import Handover.Proofs.Act
import Handover.Proofs.Entries

namespace Handover

/-- A moment of a registry: the time, and which values may expire. -/
structure Moment (ν : Type) where
  now : Rat
  evictable : ν → Bool

inductive RegistryCall (κ ν : Type) where
  | put (key : κ) (value : ν)
  | get (key : κ)
  | peek (key : κ)
  | contains (key : κ)
  | touch (key : κ) (value : ν)
  | discard (key : κ) (value : ν)
  | remove (key : κ)
  | purge
  | close
  deriving DecidableEq, Repr

inductive RegistryReply (ν : Type) where
  | value (value : ν)
  | option (value : Option ν)
  | flag (flag : Bool)
  | count (n : Nat)
  | nothing
  deriving DecidableEq, Repr

/-- A call and the moment at which it is made. -/
structure RegistryEvent (κ ν : Type) where
  moment : Moment ν
  call : RegistryCall κ ν

namespace Removal

variable {κ ν α β : Type}

def map (f : α → β) (removal : Removal κ ν α) : Removal κ ν β :=
  ⟨removal.answer.map f, removal.notices, removal.registry⟩

/-- The outcome of an operation that never fails and gives no notices. -/
def quiet (f : α → β) (result : α × Registry κ ν) : Removal κ ν β :=
  ⟨.ok (f result.1), [], result.2⟩

end Removal

/-- A call that was made, and its outcome. -/
structure Transaction (κ ν : Type) where
  call : RegistryCall κ ν
  removal : Removal κ ν (RegistryReply ν)

namespace Registry

variable {κ ν : Type} [DecidableEq κ] [DecidableEq ν]

/-- Makes a call at a moment. Reading a key without a live value fails with `absent`. -/
def follow (absent : κ → Failure) (r : Registry κ ν) (m : Moment ν) :
    RegistryCall κ ν → Removal κ ν (RegistryReply ν)
  | .put key value => .quiet .option (r.put m.now key value)
  | .get key => (r.get m.evictable m.now key (absent key)).map .value
  | .peek key => .quiet .option (r.peek m.evictable m.now key)
  | .contains key => .quiet .flag (r.contains m.evictable m.now key)
  | .touch key value => .quiet .flag (r.touch m.now key value)
  | .discard key value => .quiet .flag (r.discard key value)
  | .remove key => (r.remove key).map .flag
  | .purge => (r.purge m.evictable m.now).map .count
  | .close => r.close.map fun _ => .nothing

/-- The registry after some events. -/
def after (absent : κ → Failure) (r : Registry κ ν) (events : List (RegistryEvent κ ν)) :
    Registry κ ν :=
  events.foldl (fun r e => (r.follow absent e.moment e.call).registry) r

/-- The calls of some events with their outcomes, in order. -/
def transactions (absent : κ → Failure) (r : Registry κ ν) :
    List (RegistryEvent κ ν) → List (Transaction κ ν)
  | [] => []
  | e :: rest =>
    let removal := r.follow absent e.moment e.call
    ⟨e.call, removal⟩ :: removal.registry.transactions absent rest

variable {absent : κ → Failure} {r : Registry κ ν}

theorem Keyed.follow (h : r.Keyed) (absent : κ → Failure) (m : Moment ν)
    (call : RegistryCall κ ν) : (r.follow absent m call).registry.Keyed := by
  cases call with
  | put key value => exact h.put m.now key value
  | get key => exact h.get m.evictable m.now key (absent key)
  | peek key => exact h.peek m.evictable m.now key
  | contains key => exact h.peek m.evictable m.now key
  | touch key value => exact h.touch m.now key value
  | discard key value => exact h.discard key value
  | remove key => exact h.remove key
  | purge => exact h.purge m.evictable m.now
  | close => exact .close r

/-- A registry with other entries, after it has given notices. -/
def telling (r : Registry κ ν) (entries : List (RegistryEntry κ ν))
    (notices : List (Notice κ ν)) : Registry κ ν :=
  (tell { r with entries } notices (.ok () : Except Failure Unit)).registry

omit [DecidableEq κ] [DecidableEq ν] in
/-- The answer has no part in what giving notices leaves. -/
theorem tell_registry {α : Type} (r : Registry κ ν) (notices : List (Notice κ ν))
    (answer : Except Failure α) :
    (r.tell notices answer).registry = r.telling r.entries notices := by
  unfold telling tell
  dsimp only
  split
  next => rfl
  next => split <;> rfl

omit [DecidableEq κ] [DecidableEq ν] in
theorem telling_nil (r : Registry κ ν) (entries : List (RegistryEntry κ ν)) :
    r.telling entries [] = { r with entries } := by
  unfold telling tell
  rw [List.isEmpty_nil, Bool.or_true, if_pos rfl]

/-- Whether a registry is what another one leaves, with other entries, after it has given notices. -/
def Retells (r r' : Registry κ ν) : Prop :=
  ∃ entries notices, r' = r.telling entries notices

omit [DecidableEq κ] [DecidableEq ν] in
theorem retells_entries (r : Registry κ ν) (entries : List (RegistryEntry κ ν)) :
    r.Retells { r with entries } :=
  ⟨entries, [], (telling_nil r entries).symm⟩

omit [DecidableEq κ] [DecidableEq ν] in
theorem retells_tell {α : Type} (r : Registry κ ν) (entries : List (RegistryEntry κ ν))
    (notices : List (Notice κ ν)) (answer : Except Failure α) :
    r.Retells (tell { r with entries } notices answer).registry :=
  ⟨entries, notices, tell_registry { r with entries } notices answer⟩

omit [DecidableEq ν] in
theorem retells_put (r : Registry κ ν) (now : Rat) (key : κ) (value : ν) :
    r.Retells (r.put now key value).2 := by
  unfold put
  split <;> exact retells_entries r _

omit [DecidableEq ν] in
theorem retells_get (r : Registry κ ν) (evictable : ν → Bool) (now : Rat) (key : κ)
    (absent : Failure) : r.Retells (r.get evictable now key absent).registry := by
  unfold get
  split
  next => exact retells_entries r _
  next =>
    split
    next => exact retells_tell r _ _ _
    next => exact retells_entries r _

omit [DecidableEq ν] in
theorem retells_peek (r : Registry κ ν) (evictable : ν → Bool) (now : Rat) (key : κ) :
    r.Retells (r.peek evictable now key).2 := by
  unfold peek
  split
  next => exact retells_entries r _
  next =>
    split
    next => exact retells_entries r _
    next => dsimp only; split <;> exact retells_entries r _

theorem retells_touch (r : Registry κ ν) (now : Rat) (key : κ) (value : ν) :
    r.Retells (r.touch now key value).2 := by
  unfold touch
  split
  next => exact retells_entries r _
  next => split <;> exact retells_entries r _

theorem retells_discard (r : Registry κ ν) (key : κ) (value : ν) :
    r.Retells (r.discard key value).2 := by
  unfold discard
  split
  next => exact retells_entries r _
  next => split <;> exact retells_entries r _

omit [DecidableEq ν] in
theorem retells_remove (r : Registry κ ν) (key : κ) : r.Retells (r.remove key).registry := by
  unfold remove
  split
  next => exact retells_entries r _
  next => exact retells_tell r _ _ _

omit [DecidableEq κ] [DecidableEq ν] in
theorem retells_purge (r : Registry κ ν) (evictable : ν → Bool) (now : Rat) :
    r.Retells (r.purge evictable now).registry :=
  retells_tell r _ _ _

omit [DecidableEq κ] [DecidableEq ν] in
/-- Besides, closing stops a cleaner that has started. -/
theorem retells_close (r : Registry κ ν) : ∃ told, r.Retells told ∧
    (r.close.registry = told ∨
      told.cleaner = .started ∧ r.close.registry = { told with cleaner := .stopped }) := by
  refine ⟨_, retells_tell r [] (r.entries.map (noticeOf .shutdown)) (.ok () : Except Failure Unit),
    ?_⟩
  unfold close
  dsimp only
  split
  next started => exact .inr ⟨started, rfl⟩
  next => exact .inl rfl

/-- Every call but closing changes entries and gives notices only. -/
theorem follow_retells (absent : κ → Failure) (r : Registry κ ν) (m : Moment ν)
    (call : RegistryCall κ ν) : call = .close ∨ r.Retells (r.follow absent m call).registry := by
  cases call with
  | put key value => exact .inr (retells_put r m.now key value)
  | get key => exact .inr (retells_get r m.evictable m.now key (absent key))
  | peek key => exact .inr (retells_peek r m.evictable m.now key)
  | contains key => exact .inr (retells_peek r m.evictable m.now key)
  | touch key value => exact .inr (retells_touch r m.now key value)
  | discard key value => exact .inr (retells_discard r key value)
  | remove key => exact .inr (retells_remove r key)
  | purge => exact .inr (retells_purge r m.evictable m.now)
  | close => exact .inl rfl

variable {r' : Registry κ ν}

omit [DecidableEq κ] [DecidableEq ν] in
theorem Retells.terms (h : r.Retells r') : r.SameTerms r' := by
  obtain ⟨entries, notices, rfl⟩ := h
  exact tell_terms { r with entries } notices _

omit [DecidableEq κ] [DecidableEq ν] in
/-- To give a notice is to start the cleaner. -/
theorem Retells.cleaner (h : r.Retells r') :
    r'.cleaner = r.cleaner ∨ r.cleaner = .idle ∧ r'.cleaner = .started := by
  obtain ⟨entries, notices, rfl⟩ := h
  unfold telling tell
  split
  next => exact .inl rfl
  next =>
    split
    next => exact .inl rfl
    next idle => exact .inr ⟨idle, rfl⟩
    next => exact .inl rfl

omit [DecidableEq κ] [DecidableEq ν] in
theorem Retells.direct_iff (h : r.Retells r') : r'.cleaner = .direct ↔ r.cleaner = .direct := by
  rcases h.cleaner with same | ⟨idle, started⟩
  · rw [same]
  · rw [idle, started]
    exact ⟨nofun, nofun⟩

/-- No call changes how long values are kept and whether there is a listener. -/
theorem follow_terms (absent : κ → Failure) (r : Registry κ ν) (m : Moment ν)
    (call : RegistryCall κ ν) : r.SameTerms (r.follow absent m call).registry := by
  rcases follow_retells absent r m call with rfl | retells
  · obtain ⟨told, retells, h | ⟨_, h⟩⟩ := retells_close r
    all_goals
      show r.SameTerms r.close.registry
      rw [h]
      exact retells.terms
  · exact retells.terms

/-- A cleaner is stopped by closing only, and a listener that is its own cleaner not at all. -/
theorem follow_cleaner (absent : κ → Failure) (r : Registry κ ν) (m : Moment ν)
    (call : RegistryCall κ ν) :
    let c := (r.follow absent m call).registry.cleaner
    (c = .direct ↔ r.cleaner = .direct) ∧
      (c = .stopped → r.cleaner = .stopped ∨ call = .close) := by
  rcases follow_retells absent r m call with rfl | retells
  · refine ⟨?_, fun _ => .inr rfl⟩
    obtain ⟨told, retells, h | ⟨started, h⟩⟩ := retells_close r
    all_goals
      show r.close.registry.cleaner = .direct ↔ r.cleaner = .direct
      rw [h]
    · exact retells.direct_iff
    · exact ⟨nofun, fun direct => nomatch (retells.direct_iff.mpr direct).symm.trans started⟩
  · refine ⟨retells.direct_iff, fun stopped => .inl ?_⟩
    rcases retells.cleaner with same | ⟨_, started⟩
    · exact same.symm.trans stopped
    · exact nomatch started.symm.trans stopped

omit [DecidableEq κ] [DecidableEq ν] in
theorem new_eq {timeToLive : Rat} {listens : Bool} {cleaner : Cleaner}
    (h : Registry.new timeToLive listens cleaner = .ok r) :
    r = ⟨timeToLive, listens, cleaner, []⟩ := by
  unfold Registry.new at h
  split at h
  next => cases h
  next => cases h; rfl

omit [DecidableEq κ] [DecidableEq ν] in
theorem Keyed.of_new {timeToLive : Rat} {listens : Bool} {cleaner : Cleaner}
    (h : Registry.new timeToLive listens cleaner = .ok r) : r.Keyed := by
  rw [new_eq h]
  exact List.nodup_nil

end Registry

namespace Notice

variable {κ ν σ : Type}

/-- Tells a listener of notices, one after another. What it raises is not passed on. -/
def inform (listener : Notice κ ν → Act σ Unit) (notices : List (Notice κ ν)) : Act σ Unit :=
  notices.forM fun notice => (listener notice).ignoringFailure

/-- What a listener leaves that is told of notices, whether it raises or not. -/
def heard (listener : Notice κ ν → Act σ Unit) (notices : List (Notice κ ν)) (s : σ) : σ :=
  notices.foldl (fun s notice => ((listener notice).outcome s).2) s

/-- A listener is called once with every notice, also after it has raised. -/
theorem outcome_inform (listener : Notice κ ν → Act σ Unit) (notices : List (Notice κ ν)) (s : σ) :
    (inform listener notices).outcome s = (.ok (), heard listener notices s) := by
  induction notices generalizing s with
  | nil => rfl
  | cons notice rest ih =>
    exact (Act.outcome_bind_ok (Act.outcome_ignoringFailure (listener notice) s)).trans (ih _)

end Notice

namespace RegistryEvent

variable {κ ν σ : Type} [DecidableEq κ] [DecidableEq ν]

/-- Makes the call of an event to a registry and tells a listener of the removals. -/
def attend (listener : Notice κ ν → Act σ Unit) (absent : κ → Failure)
    (e : RegistryEvent κ ν) : Act (Registry κ ν × σ) (RegistryReply ν) := do
  let (r, s) ← get
  let removal := r.follow absent e.moment e.call
  set (removal.registry, s)
  (Notice.inform listener removal.notices).onPart Prod.snd fun whole s => (whole.1, s)
  Act.settle removal.answer

/-- The answers to the calls of some events, made to a registry with a listener. -/
def attendAll (listener : Notice κ ν → Act σ Unit) (absent : κ → Failure) :
    List (RegistryEvent κ ν) →
      Act (Registry κ ν × σ) (List (Except Failure (RegistryReply ν)))
  | [] => pure []
  | e :: rest => do
    let answer ← (attend listener absent e).attempt
    return answer :: (← attendAll listener absent rest)

/-- Neither the answer nor the registry depends on the listener. -/
theorem outcome_attend (listener : Notice κ ν → Act σ Unit) (absent : κ → Failure)
    (e : RegistryEvent κ ν) (r : Registry κ ν) (s : σ) :
    let removal := r.follow absent e.moment e.call
    (e.attend listener absent).outcome (r, s) =
      (removal.answer, removal.registry, Notice.heard listener removal.notices s) := by
  intro removal
  have informed : ((Notice.inform listener removal.notices).onPart Prod.snd
      fun (whole : Registry κ ν × σ) s => (whole.1, s)).outcome (removal.registry, s) =
        (.ok (), removal.registry, Notice.heard listener removal.notices s) := by
    rw [Act.outcome_onPart, Notice.outcome_inform]
  rw [attend, Act.outcome_bind_ok (Act.outcome_get _)]
  dsimp only
  rw [Act.outcome_bind_ok (Act.outcome_set _ _), Act.outcome_bind_ok informed]
  rfl

theorem outcome_attendAll (listener : Notice κ ν → Act σ Unit) (absent : κ → Failure)
    (events : List (RegistryEvent κ ν)) (r : Registry κ ν) (s : σ) :
    let done := r.transactions absent events
    (attendAll listener absent events).outcome (r, s) =
      (.ok (done.map (·.removal.answer)), r.after absent events,
        Notice.heard listener (done.flatMap (·.removal.notices)) s) := by
  induction events generalizing r s with
  | nil => rfl
  | cons e rest ih =>
    have first := Act.outcome_attempt (e.attend listener absent) (r, s)
    rw [outcome_attend] at first
    intro done
    rw [attendAll, Act.outcome_bind_ok first, Act.outcome_bind_ok (ih _ _)]
    simp only [done, Registry.transactions, Notice.heard, List.flatMap_cons, List.foldl_append]
    rfl

end RegistryEvent

end Handover
