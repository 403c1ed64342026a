import Handover.Proofs.RegistryCourse

namespace Handover

namespace Transaction

variable {κ ν : Type} [DecidableEq κ] [DecidableEq ν]

/-- Whether a value was put under a key. -/
def puts (key : κ) (value : ν) (t : Transaction κ ν) : Bool :=
  match t.call with
  | .put k v => k = key ∧ v = value
  | _ => false

/-- Whether a put under a key has handed back a value. -/
def replaces (key : κ) (value : ν) (t : Transaction κ ν) : Bool :=
  match t.call, t.removal.answer with
  | .put k _, .ok (.option (some v)) => k = key ∧ v = value
  | _, _ => false

/-- Whether a value was discarded from under a key. -/
def discards (key : κ) (value : ν) (t : Transaction κ ν) : Bool :=
  match t.call, t.removal.answer with
  | .discard k v, .ok (.flag true) => k = key ∧ v = value
  | _, _ => false

end Transaction

/-- Whether a notice tells of a value under a key. -/
def Notice.tellsOf {κ ν : Type} [DecidableEq κ] [DecidableEq ν] (key : κ) (value : ν)
    (notice : Notice κ ν) : Bool :=
  notice.key = key ∧ notice.value = value

/-- The cause of the removals that a call makes. -/
def RegistryCall.cause? {κ ν : Type} : RegistryCall κ ν → Option RemovalCause
  | .get _ => some .expired
  | .purge => some .expired
  | .remove _ => some .explicit
  | .close => some .shutdown
  | _ => none

namespace Registry

theorem toNat_eq_ite (b : Bool) : b.toNat = if b = true then 1 else 0 := by
  cases b <;> rfl

variable {κ ν α : Type} {r : Registry κ ν}

/-- Whether the cleaner takes notices before every one of some events. -/
def Accepts [DecidableEq κ] [DecidableEq ν] (absent : κ → Failure) (r : Registry κ ν) :
    List (RegistryEvent κ ν) → Prop
  | [] => True
  | e :: rest => r.cleaner ≠ .stopped ∧
      (r.follow absent e.moment e.call).registry.Accepts absent rest

/-- A listener that can be told is told everything. -/
theorem tell_told (listens : r.listens = true) (awake : r.cleaner ≠ .stopped)
    (notices : List (Notice κ ν)) (answer : Except Failure α) :
    (r.tell notices answer).notices = notices ∧ (r.tell notices answer).answer = answer := by
  unfold tell
  rw [listens]
  split
  next h =>
    have empty : notices = [] := by simpa using h
    exact ⟨empty.symm, rfl⟩
  next =>
    split
    next stopped => exact absurd stopped awake
    next => exact ⟨rfl, rfl⟩
    next => exact ⟨rfl, rfl⟩

theorem tell_subset (r : Registry κ ν) (notices : List (Notice κ ν)) (answer : Except Failure α) :
    ∀ notice ∈ (r.tell notices answer).notices, notice ∈ notices := by
  unfold tell
  split
  next => simp
  next =>
    split
    next => simp
    next => exact fun _ h => h
    next => exact fun _ h => h

variable [DecidableEq κ]

/-- Of the entries with some property, at most the one under a key has that key. -/
theorem Keyed.countP_entries (h : r.Keyed) (key : κ) (p : RegistryEntry κ ν → Bool) :
    r.entries.countP (fun e => e.key = key && p e) = ((r.held? key).any p).toNat := by
  rw [Registry.held?]
  unfold Keyed at h
  generalize r.entries = entries at h
  induction entries with
  | nil => rfl
  | cons e rest ih =>
    obtain ⟨fresh, distinct⟩ := List.nodup_cons.mp h
    rw [List.countP_cons, ih distinct, List.find?_cons]
    by_cases hkey : e.key = key
    · have others : rest.find? (fun e' => e'.key = key) = none :=
        List.find?_eq_none.mpr fun e' he' hkey' =>
          fresh (List.mem_map.mpr ⟨e', he', (of_decide_eq_true hkey').trans hkey.symm⟩)
      rw [others]
      cases hp : p e <;> simp [hkey, hp]
    · simp [hkey]

variable [DecidableEq ν] {key : κ} {value : ν}

/-- How often a value is there under a key: once or not at all. -/
def presence (r : Registry κ ν) (key : κ) (value : ν) : Nat :=
  ((r.held? key).any fun e => e.value = value).toNat

theorem presence_eq (r : Registry κ ν) (key : κ) (value : ν) :
    r.presence key value = if r.value? key = some value then 1 else 0 := by
  rw [presence, value?]
  cases r.held? key with
  | none => rfl
  | some e => by_cases h : e.value = value <;> simp [h]

theorem presence_of_value? {r r' : Registry κ ν} (h : r'.value? key = r.value? key) :
    r'.presence key value = r.presence key value := by
  rw [presence_eq, presence_eq, h]

/-- An entry that is erased with a notice goes from what is there into what is told. -/
theorem erase_accounted (listens : r.listens = true) (awake : r.cleaner ≠ .stopped) {other : κ}
    {e : RegistryEntry κ ν} (found : r.held? other = some e) (cause : RemovalCause)
    (answer : Except Failure α) :
    let removal := (r.erase other).tell [noticeOf cause e] answer
    r.presence key value = removal.registry.presence key value +
      removal.notices.countP (·.tellsOf key value) := by
  intro removal
  have told : removal.notices = [noticeOf cause e] :=
    (tell_told (r := r.erase other) listens awake _ answer).1
  have named : e.key = other := held?_key found
  rw [told, List.countP_singleton, presence, presence, held?_tell, held?_erase, Notice.tellsOf,
    noticeOf]
  by_cases hkey : key = other
  · rw [if_pos hkey, hkey, found]
    by_cases hvalue : e.value = value <;> simp [named, hvalue]
  · have apart : e.key ≠ key := fun h => hkey (h.symm.trans named)
    rw [if_neg hkey]
    simp [apart]

theorem get_accounted (listens : r.listens = true) (awake : r.cleaner ≠ .stopped)
    (evictable : ν → Bool) (now : Rat) (other : κ) (absent : Failure) :
    let removal := r.get evictable now other absent
    r.presence key value = removal.registry.presence key value +
      removal.notices.countP (·.tellsOf key value) := by
  unfold get
  split
  next => rfl
  next e found =>
    dsimp only
    split
    next => exact erase_accounted listens awake found .expired _
    next => exact (presence_of_value? (value?_access r other key now)).symm

theorem remove_accounted (listens : r.listens = true) (awake : r.cleaner ≠ .stopped) (other : κ) :
    let removal := r.remove other
    r.presence key value = removal.registry.presence key value +
      removal.notices.countP (·.tellsOf key value) := by
  unfold remove
  split
  next => rfl
  next e found => exact erase_accounted listens awake found .explicit _

theorem countP_noticeOf (entries : List (RegistryEntry κ ν)) (cause : RemovalCause) (key : κ)
    (value : ν) : (entries.map (noticeOf cause)).countP (·.tellsOf key value) =
      entries.countP fun e => e.key = key && e.value = value := by
  rw [List.countP_map]
  congr 1
  funext e
  exact Bool.decide_and ..

theorem purge_accounted (h : r.Keyed) (listens : r.listens = true) (awake : r.cleaner ≠ .stopped)
    (evictable : ν → Bool) (now : Rat) :
    let removal := r.purge evictable now
    r.presence key value = removal.registry.presence key value +
      removal.notices.countP (·.tellsOf key value) := by
  intro removal
  let gone := r.entries.filter (r.isExpired evictable now)
  let kept : Registry κ ν := { r with entries :=
    (r.entries.filter fun e => !r.isExpired evictable now e).map (examined evictable now) }
  have told : removal.notices = gone.map (noticeOf .expired) :=
    (tell_told (r := kept) listens awake _ _).1
  have count : gone.countP (fun e => e.key = key && e.value = value) =
      ((r.held? key).any fun e => e.value = value && r.isExpired evictable now e).toNat := by
    rw [← h.countP_entries, List.countP_filter]
    simp only [Bool.and_assoc]
  rw [told, countP_noticeOf, count, presence, presence, h.held?_purge]
  cases r.held? key with
  | none => rfl
  | some e =>
    have same := (examined_entry evictable now e).2
    rw [Option.filter_some]
    by_cases expired : r.isExpired evictable now e = true <;> simp [expired, same]

theorem close_accounted (h : r.Keyed) (listens : r.listens = true) (awake : r.cleaner ≠ .stopped) :
    let removal := r.close
    r.presence key value = removal.registry.presence key value +
      removal.notices.countP (·.tellsOf key value) := by
  intro removal
  have told : removal.notices = r.entries.map (noticeOf .shutdown) := by
    have all := (tell_told (r := { r with entries := [] }) listens awake
      (r.entries.map (noticeOf .shutdown)) (.ok () : Except Failure Unit)).1
    show r.close.notices = _
    unfold close
    dsimp only
    split <;> exact all
  rw [told, countP_noticeOf, h.countP_entries, presence, presence, held?_close]
  simp

theorem put_accounted (r : Registry κ ν) (key : κ) (value : ν) (now : Rat) (other : κ) (v : ν) :
    r.presence key value + (decide (other = key ∧ v = value)).toNat =
      (r.put now other v).2.presence key value +
        (decide (other = key ∧ r.value? other = some value)).toNat := by
  rw [presence, presence, held?_put, value?]
  by_cases hkey : key = other
  · subst hkey
    cases r.held? key with
    | none => simp
    | some e => simp [Nat.add_comm]
  · simp [hkey, Ne.symm hkey]

theorem discard_accounted (r : Registry κ ν) (key : κ) (value : ν) (other : κ) (v : ν) :
    r.presence key value = (r.discard other v).2.presence key value +
      (decide (other = key ∧ v = value ∧ (r.discard other v).1 = true)).toNat := by
  have answer : (r.discard other v).1 = (r.held? other).any fun e => e.value = v := by
    unfold discard
    split
    next found => rw [found]; rfl
    next e found => rw [found]; split <;> simp_all
  rw [presence, presence, held?_discard, answer]
  by_cases hkey : key = other
  · subst hkey
    cases r.held? key with
    | none => simp
    | some e =>
      by_cases hv : e.value = v
      · subst hv
        simp
      · by_cases hvalue : e.value = value
        · have apart : value ≠ v := fun h => hv (hvalue.trans h)
          simp [hvalue, apart]
        · simp [hv, hvalue]
  · simp [hkey, Ne.symm hkey]

/-- One call keeps the account of a value under a key. -/
theorem follow_accounted (h : r.Keyed) (listens : r.listens = true) (awake : r.cleaner ≠ .stopped)
    (absent : κ → Failure) (m : Moment ν) (call : RegistryCall κ ν) (key : κ) (value : ν) :
    let t : Transaction κ ν := ⟨call, r.follow absent m call⟩
    r.presence key value + (t.puts key value).toNat =
      t.removal.registry.presence key value + (t.replaces key value).toNat +
        (t.discards key value).toNat + t.removal.notices.countP (·.tellsOf key value) := by
  cases call with
  | put other v =>
    have put := put_accounted r key value m.now other v
    have replaced : (r.put m.now other v).1 = r.value? other := put_replaced r m.now other v
    simp only [Transaction.puts, Transaction.replaces, Transaction.discards, follow,
      Removal.quiet, replaced, put]
    cases r.value? other <;> simp
  | get other =>
    exact (get_accounted listens awake m.evictable m.now other (absent other)).trans (by rfl)
  | peek other => exact (presence_of_value? (peek_value? ..)).symm
  | contains other => exact (presence_of_value? (peek_value? ..)).symm
  | touch other v => exact (presence_of_value? (touch_value? ..)).symm
  | discard other v =>
    have discarded := discard_accounted r key value other v
    simp only [Transaction.puts, Transaction.replaces, Transaction.discards, follow,
      Removal.quiet, discarded]
    cases (r.discard other v).1 <;> simp
  | remove other => exact remove_accounted listens awake other
  | purge => exact purge_accounted h listens awake m.evictable m.now
  | close => exact close_accounted h listens awake

omit [DecidableEq κ] [DecidableEq ν] in
theorem noticeOf_cause {entries : List (RegistryEntry κ ν)} {cause : RemovalCause}
    {notice : Notice κ ν} (h : notice ∈ entries.map (noticeOf cause)) :
    some cause = some notice.cause := by
  obtain ⟨e, _, rfl⟩ := List.mem_map.mp h
  rfl

/-- Every notice has the cause of the call that gives it. -/
theorem follow_cause (absent : κ → Failure) (r : Registry κ ν) (m : Moment ν)
    (call : RegistryCall κ ν) :
    ∀ notice ∈ (r.follow absent m call).notices, call.cause? = some notice.cause := by
  cases call with
  | get key =>
    intro notice h
    have h' : notice ∈ (r.get m.evictable m.now key (absent key)).notices := h
    unfold get at h'
    split at h'
    next => cases h'
    next e _ =>
      split at h'
      next =>
        have told : notice ∈ [e].map (noticeOf .expired) := tell_subset _ _ _ notice h'
        exact noticeOf_cause told
      next => cases h'
  | remove key =>
    intro notice h
    have h' : notice ∈ (r.remove key).notices := h
    unfold remove at h'
    split at h'
    next => cases h'
    next e _ =>
      have told : notice ∈ [e].map (noticeOf .explicit) := tell_subset _ _ _ notice h'
      exact noticeOf_cause told
  | purge =>
    intro notice h
    have h' : notice ∈ (r.purge m.evictable m.now).notices := h
    unfold purge at h'
    exact noticeOf_cause (tell_subset _ _ _ notice h')
  | close =>
    intro notice h
    have h' : notice ∈ r.close.notices := h
    unfold close at h'
    dsimp only at h'
    split at h' <;> exact noticeOf_cause (tell_subset _ _ _ notice h')
  | _ => exact fun _ h => nomatch h

omit [DecidableEq κ] [DecidableEq ν] in
theorem purge_answer (listens : r.listens = true) (awake : r.cleaner ≠ .stopped)
    (evictable : ν → Bool) (now : Rat) :
    (r.purge evictable now).answer = .ok (r.purge evictable now).notices.length := by
  let gone := r.entries.filter (r.isExpired evictable now)
  let kept : Registry κ ν := { r with entries :=
    (r.entries.filter fun e => !r.isExpired evictable now e).map (examined evictable now) }
  have told := tell_told (r := kept) listens awake (gone.map (noticeOf .expired))
    (.ok gone.length : Except Failure Nat)
  have notices : (r.purge evictable now).notices = gone.map (noticeOf .expired) := told.1
  have answer : (r.purge evictable now).answer = .ok gone.length := told.2
  rw [answer, notices, List.length_map]

variable {absent : κ → Failure} {events : List (RegistryEvent κ ν)}

theorem transactions_accounted (h : r.Keyed) (listens : r.listens = true)
    (accepts : r.Accepts absent events) (key : κ) (value : ν) :
    let ts := r.transactions absent events
    r.presence key value + ts.countP (·.puts key value) =
      (r.after absent events).presence key value + ts.countP (·.replaces key value) +
        ts.countP (·.discards key value) +
        (ts.flatMap (·.removal.notices)).countP (·.tellsOf key value) := by
  induction events generalizing r with
  | nil => rfl
  | cons e rest ih =>
    obtain ⟨awake, later⟩ := accepts
    have one := follow_accounted h listens awake absent e.moment e.call key value
    have others := ih (h.follow absent e.moment e.call)
      ((follow_terms absent r e.moment e.call).2.trans listens) later
    simp only [transactions, List.countP_cons, List.flatMap_cons, List.countP_append]
    simp only [toNat_eq_ite] at one
    rw [show r.after absent (e :: rest) =
      (r.follow absent e.moment e.call).registry.after absent rest from rfl]
    omega

theorem transactions_told (listens : r.listens = true) (accepts : r.Accepts absent events) :
    ∀ t ∈ r.transactions absent events,
      (∀ notice ∈ t.removal.notices, t.call.cause? = some notice.cause) ∧
      (t.call = .purge → t.removal.answer = .ok (.count t.removal.notices.length)) := by
  induction events generalizing r with
  | nil => exact fun _ h => nomatch h
  | cons e rest ih =>
    obtain ⟨awake, later⟩ := accepts
    intro t ht
    rcases List.mem_cons.mp ht with rfl | ht
    · refine ⟨follow_cause absent r e.moment e.call, fun purge => ?_⟩
      dsimp only at purge ⊢
      rw [purge]
      exact congrArg (Except.map RegistryReply.count) (purge_answer listens awake _ _)
    · exact ih ((follow_terms absent r e.moment e.call).2.trans listens) later t ht

/-- In any course of a new registry whose cleaner takes notices, every value was put under a key as
often as it is there, was replaced, was discarded and was told of. What was told has the cause of
the call, a purge answers how many values it told of, and a listener that raises changes neither an
answer nor the registry. -/
theorem puts_accounted {timeToLive : Rat} {cleaner : Cleaner} {r₀ : Registry κ ν}
    (made : Registry.new timeToLive true cleaner = .ok r₀) (absent : κ → Failure)
    (events : List (RegistryEvent κ ν)) (accepts : r₀.Accepts absent events) :
    let r := r₀.after absent events
    let ts := r₀.transactions absent events
    let told := ts.flatMap (·.removal.notices)
    (∀ key value, ts.countP (·.puts key value) =
      (if r.value? key = some value then 1 else 0) + ts.countP (·.replaces key value) +
        ts.countP (·.discards key value) + told.countP (·.tellsOf key value)) ∧
    (∀ t ∈ ts, (∀ notice ∈ t.removal.notices, t.call.cause? = some notice.cause) ∧
      (t.call = .purge → t.removal.answer = .ok (.count t.removal.notices.length))) ∧
    ∀ (σ : Type) (listener : Notice κ ν → Act σ Unit) (s : σ),
      (RegistryEvent.attendAll listener absent events).outcome (r₀, s) =
        (.ok (ts.map (·.removal.answer)), r, Notice.heard listener told s) := by
  intro r ts told
  have listens : r₀.listens = true := by rw [new_eq made]
  refine ⟨fun key value => ?_, transactions_told listens accepts,
    fun σ listener s => RegistryEvent.outcome_attendAll listener absent events r₀ s⟩
  have account := transactions_accounted (.of_new made) listens accepts key value
  have nothing : r₀.presence key value = 0 := by
    rw [new_eq made]
    rfl
  dsimp only at account
  rw [nothing, Nat.zero_add, presence_eq] at account
  exact account

/-- Of six times that a value is put, one is replaced, one is discarded, and the others are told of
with each cause. -/
theorem puts_accounted_seven :
    let calls : List (Rat × RegistryCall Nat Nat) := [(0, .put 1 7), (1, .put 1 7), (11, .get 1),
      (11, .put 1 7), (21, .purge), (21, .put 1 7), (22, .discard 1 7), (22, .put 1 7),
      (23, .remove 1), (23, .put 1 7), (24, .close)]
    let events : List (RegistryEvent Nat Nat) := calls.map fun c => ⟨⟨c.1, fun _ => true⟩, c.2⟩
    let absent : Nat → Failure := fun key => .resultNotFound (.int key)
    ∃ r₀ : Registry Nat Nat, Registry.new 10 true .idle = .ok r₀ ∧ r₀.Accepts absent events ∧
      (let r := r₀.after absent events
       let ts := r₀.transactions absent events
       let told := ts.flatMap (·.removal.notices)
       ts.countP (·.puts 1 7) = 6 ∧ ts.countP (·.replaces 1 7) = 1 ∧
       ts.countP (·.discards 1 7) = 1 ∧ told.countP (·.tellsOf 1 7) = 4 ∧
       told.map (·.cause) = [.expired, .expired, .explicit, .shutdown] ∧
       ts.countP (·.puts 1 7) = (if r.value? 1 = some 7 then 1 else 0) +
         ts.countP (·.replaces 1 7) + ts.countP (·.discards 1 7) +
         told.countP (·.tellsOf 1 7)) := by
  intro calls events absent
  let r₀ : Registry Nat Nat := ⟨10, true, .idle, []⟩
  have made : Registry.new 10 true .idle = .ok r₀ := rfl
  have accepts : r₀.Accepts absent events := by
    simp only [Accepts, events, calls, List.map_cons, List.map_nil]
    decide +kernel
  refine ⟨r₀, made, accepts, ?_, ?_, ?_, ?_, ?_, (puts_accounted made absent events accepts).1 1 7⟩
  all_goals decide +kernel

end Registry

end Handover
