import Handover.Proofs.Registry

namespace Handover.Registry

variable {κ ν α : Type}

theorem tell_entries (r : Registry κ ν) (notices : List (Notice κ ν)) (answer : Except Failure α) :
    (r.tell notices answer).registry.entries = r.entries := by
  unfold tell
  split
  next => rfl
  next => split <;> rfl

/-- Whether two registries keep their values equally long and have a listener alike. -/
def SameTerms (r r' : Registry κ ν) : Prop :=
  r'.timeToLive = r.timeToLive ∧ r'.listens = r.listens

theorem tell_terms (r : Registry κ ν) (notices : List (Notice κ ν)) (answer : Except Failure α) :
    r.SameTerms (r.tell notices answer).registry := by
  unfold tell
  split
  next => exact ⟨rfl, rfl⟩
  next => split <;> exact ⟨rfl, rfl⟩

variable {r r' : Registry κ ν} {evictable : ν → Bool} {now : Rat}

theorem Keyed.of_entries (h : r.Keyed) (entries : r'.entries = r.entries) : r'.Keyed := by
  rw [Keyed, entries]
  exact h

theorem Keyed.tell (h : r.Keyed) (notices : List (Notice κ ν)) (answer : Except Failure α) :
    (r.tell notices answer).registry.Keyed :=
  h.of_entries (tell_entries r notices answer)

theorem Keyed.purge (h : r.Keyed) (evictable : ν → Bool) (now : Rat) :
    (r.purge evictable now).registry.Keyed :=
  ((h.filter fun e => !r.isExpired evictable now e).map (examined evictable now)
    fun e => (examined_entry evictable now e).1).tell _ _

theorem close_entries (r : Registry κ ν) : r.close.registry.entries = [] := by
  have told := tell_entries { r with entries := [] } (r.entries.map (noticeOf .shutdown))
    (.ok () : Except Failure Unit)
  unfold close
  dsimp only
  split <;> exact told

theorem Keyed.close (r : Registry κ ν) : r.close.registry.Keyed := by
  rw [Keyed, close_entries]
  exact List.nodup_nil

variable [DecidableEq κ] {key other : κ} {value : ν} {absent : Failure}

theorem held?_of_entries (h : r'.entries = r.entries) (key : κ) :
    r'.held? key = r.held? key := by
  rw [held?, h, held?]

theorem held?_tell (r : Registry κ ν) (notices : List (Notice κ ν)) (answer : Except Failure α)
    (key : κ) : (r.tell notices answer).registry.held? key = r.held? key :=
  held?_of_entries (tell_entries r notices answer) key

theorem mem_of_held? {e : RegistryEntry κ ν} (h : r.held? key = some e) : e ∈ r.entries :=
  List.mem_of_find?_eq_some h

theorem Keyed.held?_filter (h : r.Keyed) (p : RegistryEntry κ ν → Bool) (key : κ) :
    Registry.held? { r with entries := r.entries.filter p } key = (r.held? key).filter p := by
  cases found : r.held? key with
  | none =>
    have others := List.find?_eq_none.mp found
    refine List.find?_eq_none.mpr fun e he => others e (List.mem_filter.mp he).1
  | some e =>
    rw [Option.filter_some]
    by_cases hp : p e = true
    · rw [if_pos hp, ← held?_key found]
      exact (h.filter p).held? (List.mem_filter.mpr ⟨mem_of_held? found, hp⟩)
    · rw [if_neg hp]
      refine List.find?_eq_none.mpr fun e' he' hkey => hp ?_
      obtain ⟨mem, kept⟩ := List.mem_filter.mp he'
      have same := h.held? mem
      rw [of_decide_eq_true hkey, found] at same
      cases same
      exact kept

theorem held?_erase (r : Registry κ ν) (key other : κ) :
    (r.erase key).held? other = if other = key then none else r.held? other := by
  by_cases hne : other = key
  · rw [if_pos hne, hne]
    refine List.find?_eq_none.mpr fun e he => ?_
    simpa using (List.mem_filter.mp he).2
  · rw [if_neg hne, Registry.held?, Registry.held?, erase, List.find?_filter]
    congr 1
    funext e
    by_cases h : e.key = other <;> simp [h, hne]

theorem held?_self (r : Registry κ ν) (key other : κ) :
    (if other = key then r.held? key else r.held? other) = r.held? other := by
  split
  next h => rw [h]
  next => rfl

theorem held?_absent (found : r.held? key = none) (other : κ) :
    r.held? other = if other = key then none else r.held? other := by
  rw [← found, held?_self]

/-- The entry after its value has been read or touched. -/
def accessed (now : Rat) (e : RegistryEntry κ ν) : RegistryEntry κ ν :=
  { e with lastAccess := now }

theorem held?_access (r : Registry κ ν) (key other : κ) (now : Rat) :
    (r.access key now).held? other =
      if other = key then (r.held? key).map (accessed now) else r.held? other := by
  have held := held?_map r (fun e => if e.key = key then accessed now e else e)
    (fun e => (access_entry key now e).1) other
  rw [show (r.access key now).held? other = _ from held]
  by_cases hne : other = key
  · rw [if_pos hne, hne]
    cases found : r.held? key with
    | none => rfl
    | some e => exact congrArg some (if_pos (held?_key found))
  · rw [if_neg hne]
    cases found : r.held? other with
    | none => rfl
    | some e => exact congrArg some (if_neg fun h => hne ((held?_key found).symm.trans h))

theorem held?_get (r : Registry κ ν) (evictable : ν → Bool) (now : Rat) (key other : κ)
    (absent : Failure) :
    (r.get evictable now key absent).registry.held? other =
      if other = key then
        ((r.held? key).filter fun e => !r.isExpired evictable now e).map (accessed now)
      else r.held? other := by
  unfold get
  split
  next found =>
    rw [found]
    exact held?_absent found other
  next e found =>
    rw [found, Option.filter_some]
    by_cases expired : r.isExpired evictable now e = true
    · simp only [expired, if_true, Bool.not_true, Bool.false_eq_true, if_false, held?_tell,
        held?_erase, Option.map_none]
    · simp only [expired, Bool.not_false, if_true]
      rw [if_neg Bool.false_ne_true, held?_access, found]

theorem held?_peek (r : Registry κ ν) (evictable : ν → Bool) (now : Rat) (key other : κ) :
    (r.peek evictable now key).2.held? other =
      if other = key then (r.held? key).map (examined evictable now) else r.held? other := by
  unfold peek
  split
  next found =>
    rw [found]
    exact held?_absent found other
  next e found =>
    rw [found, Option.map_some, examined]
    by_cases stays : evictable e.value = true
    · rw [if_pos stays, if_pos stays, ← found, held?_self]
      split <;> rfl
    · have live : r.isExpired evictable now e = false := by simp [isExpired, stays]
      rw [live, if_neg Bool.false_ne_true, if_neg stays, if_neg stays, held?_access, found,
        Option.map_some]
      rfl

theorem held?_put (r : Registry κ ν) (now : Rat) (key other : κ) (value : ν) :
    (r.put now key value).2.held? other =
      if other = key then some ⟨key, value, now⟩ else r.held? other := by
  cases found : r.held? key with
  | none =>
    rw [put_of_not_held found, held?_append]
    by_cases h : other = key
    · rw [h, found, if_pos rfl, Option.none_or]
    · rw [if_neg h, if_neg (Ne.symm h), Option.or_none]
  | some e =>
    rw [put_of_held found, held?_map r _ (renewed_key key value now)]
    by_cases h : other = key
    · rw [h, found, if_pos rfl, Option.map_some, renewed, if_pos (held?_key found)]
    · rw [if_neg h]
      cases hother : r.held? other with
      | none => rfl
      | some e' =>
        have apart : e'.key ≠ key := fun he => h ((held?_key hother).symm.trans he)
        rw [Option.map_some, renewed, if_neg apart]

theorem Keyed.get (h : r.Keyed) (evictable : ν → Bool) (now : Rat) (key : κ) (absent : Failure) :
    (r.get evictable now key absent).registry.Keyed := by
  unfold Registry.get
  split
  next => exact h
  next =>
    split
    next => exact (h.filter _).tell _ _
    next => exact h.access key now

theorem Keyed.peek (h : r.Keyed) (evictable : ν → Bool) (now : Rat) (key : κ) :
    (r.peek evictable now key).2.Keyed := by
  unfold Registry.peek
  split
  next => exact h
  next =>
    split
    next => exact h
    next =>
      dsimp only
      split
      next => exact h
      next => exact h.access key now

theorem Keyed.held?_purge (h : r.Keyed) (evictable : ν → Bool) (now : Rat) (key : κ) :
    (r.purge evictable now).registry.held? key = ((r.held? key).filter
      fun e => !r.isExpired evictable now e).map (examined evictable now) := by
  unfold Registry.purge
  dsimp only
  rw [held?_tell, ← h.held?_filter]
  exact held?_map { r with entries := r.entries.filter fun e => !r.isExpired evictable now e } _
    (fun e => (examined_entry evictable now e).1) key

theorem held?_close (r : Registry κ ν) (key : κ) : r.close.registry.held? key = none := by
  rw [Registry.held?, close_entries]
  rfl

variable [DecidableEq ν]

theorem held?_touch (r : Registry κ ν) (now : Rat) (key other : κ) (value : ν) :
    (r.touch now key value).2.held? other =
      if other = key then
        (r.held? key).map fun e => if e.value = value then accessed now e else e
      else r.held? other := by
  unfold touch
  split
  next found =>
    rw [found]
    exact held?_absent found other
  next e found =>
    rw [found, Option.map_some]
    split
    next => rw [held?_access, found, Option.map_some]
    next => rw [← found, held?_self]

theorem held?_discard (r : Registry κ ν) (key other : κ) (value : ν) :
    (r.discard key value).2.held? other =
      if other = key then (r.held? key).filter fun e => e.value ≠ value else r.held? other := by
  unfold discard
  split
  next found =>
    rw [found]
    exact held?_absent found other
  next e found =>
    rw [found, Option.filter_some]
    by_cases same : e.value = value
    · simp [same, held?_erase]
    · simp only [same, if_false, ne_eq, not_false_eq_true, decide_true, if_true]
      rw [← found, held?_self]

omit [DecidableEq ν] in
theorem held?_remove (r : Registry κ ν) (key other : κ) :
    (r.remove key).registry.held? other = if other = key then none else r.held? other := by
  unfold remove
  split
  next found => exact held?_absent found other
  next e found => rw [held?_tell, held?_erase]

theorem Keyed.touch (h : r.Keyed) (now : Rat) (key : κ) (value : ν) :
    (r.touch now key value).2.Keyed := by
  unfold Registry.touch
  split
  next => exact h
  next =>
    split
    next => exact h.access key now
    next => exact h

theorem Keyed.discard (h : r.Keyed) (key : κ) (value : ν) : (r.discard key value).2.Keyed := by
  unfold Registry.discard
  split
  next => exact h
  next =>
    split
    next => exact h.filter _
    next => exact h

omit [DecidableEq ν] in
theorem Keyed.remove (h : r.Keyed) (key : κ) : (r.remove key).registry.Keyed := by
  unfold Registry.remove
  split
  next => exact h
  next => exact (h.filter _).tell _ _

end Handover.Registry
