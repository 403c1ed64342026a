import Handover.Registry

namespace Handover

namespace Registry

variable {κ ν α : Type} [DecidableEq κ]

/-- The value under a key, whether it has expired or not. -/
def value? (r : Registry κ ν) (key : κ) : Option ν :=
  (r.held? key).map (·.value)

/-- Whether no two entries have the same key. -/
def Keyed (r : Registry κ ν) : Prop :=
  (r.entries.map (·.key)).Nodup

/-- A registry with at most one entry under a key and a cleaner that takes notices. -/
structure Sound (r : Registry κ ν) : Prop where
  keyed : (r.entries.map (·.key)).Nodup
  awake : r.cleaner ≠ .stopped

variable {r : Registry κ ν} {evictable : ν → Bool} {now : Rat} {key other : κ} {value : ν}

theorem held?_key {e : RegistryEntry κ ν} (h : r.held? key = some e) : e.key = key := by
  simpa using List.find?_some h

theorem value?_of_held {e : RegistryEntry κ ν} (h : r.held? key = some e) :
    r.value? key = some e.value := by
  rw [value?, h, Option.map_some]

theorem value?_of_not_held (h : r.held? key = none) : r.value? key = none := by
  rw [value?, h, Option.map_none]

theorem held?_map (r : Registry κ ν) (f : RegistryEntry κ ν → RegistryEntry κ ν)
    (hf : ∀ e, (f e).key = e.key) (key : κ) :
    held? { r with entries := r.entries.map f } key = (r.held? key).map f := by
  rw [held?, List.find?_map, held?]
  congr 2
  funext e
  simp [hf]

/-- A change of times alone keeps all values. -/
theorem value?_map (r : Registry κ ν) (f : RegistryEntry κ ν → RegistryEntry κ ν)
    (hf : ∀ e, (f e).key = e.key ∧ (f e).value = e.value) (key : κ) :
    value? { r with entries := r.entries.map f } key = r.value? key := by
  rw [value?, value?, held?_map r f fun e => (hf e).1, Option.map_map]
  congr 1
  funext e
  exact (hf e).2

omit [DecidableEq κ] in
theorem Keyed.filter (h : r.Keyed) (p : RegistryEntry κ ν → Bool) :
    Keyed { r with entries := r.entries.filter p } :=
  h.sublist (List.filter_sublist.map _)

omit [DecidableEq κ] in
theorem Keyed.map (h : r.Keyed) (f : RegistryEntry κ ν → RegistryEntry κ ν)
    (hf : ∀ e, (f e).key = e.key) : Keyed { r with entries := r.entries.map f } := by
  have same : (r.entries.map f).map (·.key) = r.entries.map (·.key) := by
    rw [List.map_map]
    exact List.map_congr_left fun e _ => hf e
  rw [Keyed, same]
  exact h

omit [DecidableEq κ] in
theorem Sound.map (h : r.Sound) (f : RegistryEntry κ ν → RegistryEntry κ ν)
    (hf : ∀ e, (f e).key = e.key) : Sound { r with entries := r.entries.map f } :=
  ⟨Keyed.map h.keyed f hf, h.awake⟩

omit [DecidableEq κ] in
theorem Sound.filter (h : r.Sound) (p : RegistryEntry κ ν → Bool) :
    Sound { r with entries := r.entries.filter p } :=
  ⟨Keyed.filter h.keyed p, h.awake⟩

theorem access_entry (key : κ) (now : Rat) (e : RegistryEntry κ ν) :
    (if e.key = key then { e with lastAccess := now } else e).key = e.key ∧
      (if e.key = key then { e with lastAccess := now } else e).value = e.value := by
  split <;> exact ⟨rfl, rfl⟩

theorem value?_access (r : Registry κ ν) (key other : κ) (now : Rat) :
    (r.access key now).value? other = r.value? other :=
  value?_map r _ (access_entry key now) other

theorem Keyed.access (h : r.Keyed) (key : κ) (now : Rat) : (r.access key now).Keyed :=
  h.map _ fun e => (access_entry key now e).1

theorem Sound.access (h : r.Sound) (key : κ) (now : Rat) : (r.access key now).Sound :=
  h.map _ fun e => (access_entry key now e).1

theorem value?_erase_self (r : Registry κ ν) (key : κ) : (r.erase key).value? key = none := by
  refine value?_of_not_held (List.find?_eq_none.mpr fun e he => ?_)
  simpa using (List.mem_filter.mp he).2

theorem value?_erase_of_ne (r : Registry κ ν) (hne : other ≠ key) :
    (r.erase key).value? other = r.value? other := by
  have found : (r.erase key).held? other = r.held? other := by
    rw [held?, held?, erase, List.find?_filter]
    congr 1
    funext e
    by_cases h : e.key = other
    · simp [h, hne]
    · simp [h]
  rw [value?, value?, found]

def renewed (key : κ) (value : ν) (now : Rat) (e : RegistryEntry κ ν) : RegistryEntry κ ν :=
  if e.key = key then ⟨key, value, now⟩ else e

theorem renewed_key (key : κ) (value : ν) (now : Rat) (e : RegistryEntry κ ν) :
    (renewed key value now e).key = e.key := by
  unfold renewed
  split
  next h => exact h.symm
  next => rfl

theorem put_of_not_held (h : r.held? key = none) (now : Rat) (value : ν) :
    r.put now key value = (none, { r with entries := r.entries ++ [⟨key, value, now⟩] }) := by
  rw [put, h]

theorem put_of_held {e : RegistryEntry κ ν} (h : r.held? key = some e) (now : Rat) (value : ν) :
    r.put now key value =
      (some e.value, { r with entries := r.entries.map (renewed key value now) }) := by
  rw [put, h]
  rfl

theorem held?_append (r : Registry κ ν) (e : RegistryEntry κ ν) (key : κ) :
    held? { r with entries := r.entries ++ [e] } key =
      (r.held? key).or (if e.key = key then some e else none) := by
  rw [held?, List.find?_append, held?]
  by_cases h : e.key = key <;> simp [h]

theorem value?_put_self (r : Registry κ ν) (now : Rat) (key : κ) (value : ν) :
    (r.put now key value).2.value? key = some value := by
  cases h : r.held? key with
  | none => simp [put_of_not_held h, value?, held?_append, h]
  | some e =>
    have renews : renewed key value now e = ⟨key, value, now⟩ := if_pos (held?_key h)
    rw [put_of_held h, value?, held?_map r _ (renewed_key key value now), h, Option.map_some,
      renews, Option.map_some]

theorem value?_put_of_ne (r : Registry κ ν) (now : Rat) (value : ν) (hne : other ≠ key) :
    (r.put now key value).2.value? other = r.value? other := by
  cases h : r.held? key with
  | none => simp [put_of_not_held h, value?, held?_append, Ne.symm hne]
  | some e =>
    rw [put_of_held h, value?, held?_map r _ (renewed_key key value now), value?]
    cases ho : r.held? other with
    | none => rfl
    | some e' =>
      have keeps : renewed key value now e' = e' := if_neg fun he => hne (held?_key ho ▸ he)
      rw [Option.map_some, keeps]

theorem put_replaced (r : Registry κ ν) (now : Rat) (key : κ) (value : ν) :
    (r.put now key value).1 = r.value? key := by
  cases h : r.held? key with
  | none => rw [put_of_not_held h, value?_of_not_held h]
  | some e => rw [put_of_held h, value?_of_held h]

theorem Keyed.put (h : r.Keyed) (now : Rat) (key : κ) (value : ν) :
    (r.put now key value).2.Keyed := by
  cases found : r.held? key with
  | none =>
    rw [put_of_not_held found, Keyed, List.map_append, List.nodup_append]
    have absent := List.find?_eq_none.mp found
    refine ⟨h, by simp, fun a ha b hb hab => ?_⟩
    obtain ⟨e, he, hkey⟩ := List.mem_map.mp ha
    obtain rfl : b = key := List.mem_singleton.mp hb
    exact absurd (hkey.trans hab) (by simpa using absent e he)
  | some e =>
    rw [put_of_held found]
    exact h.map _ (renewed_key key value now)

theorem Sound.put (h : r.Sound) (now : Rat) (key : κ) (value : ν) :
    (r.put now key value).2.Sound := by
  refine ⟨Keyed.put h.keyed now key value, ?_⟩
  cases found : r.held? key with
  | none =>
    rw [put_of_not_held found]
    exact h.awake
  | some e =>
    rw [put_of_held found]
    exact h.awake

theorem mem_of_value? (h : r.value? key = some value) :
    ∃ e ∈ r.entries, e.key = key ∧ e.value = value := by
  obtain ⟨e, he, hv⟩ := Option.map_eq_some_iff.mp h
  exact ⟨e, List.mem_of_find?_eq_some he, held?_key he, hv⟩

/-- An entry is found under its key when no other one has that key. -/
theorem Keyed.held? (h : r.Keyed) {e : RegistryEntry κ ν} (he : e ∈ r.entries) :
    r.held? e.key = some e := by
  obtain ⟨before, after, hentries⟩ := List.append_of_mem he
  rw [Keyed, hentries, List.map_append, List.nodup_append] at h
  refine List.find?_eq_some_iff_append.mpr ⟨by simp, before, after, hentries, fun e' he' => ?_⟩
  have hne := h.2.2 e'.key (List.mem_map_of_mem he') e.key (by simp)
  simpa using hne

theorem Sound.held? (h : r.Sound) {e : RegistryEntry κ ν} (he : e ∈ r.entries) :
    r.held? e.key = some e :=
  Keyed.held? h.keyed he

theorem Sound.value?_of_mem (h : r.Sound) {e : RegistryEntry κ ν} (he : e ∈ r.entries) :
    r.value? e.key = some e.value :=
  value?_of_held (h.held? he)

end Registry

/-- What a removal may do to a registry: an entry that may not expire stays, no value is a new
one, and whatever is given notice of is gone. -/
structure Removal.Drops {κ ν α : Type} [DecidableEq κ] (removal : Removal κ ν α)
    (r : Registry κ ν) (evictable : ν → Bool) : Prop where
  sound : removal.registry.Sound
  old : ∀ key value, removal.registry.value? key = some value → r.value? key = some value
  retained : ∀ key value, r.value? key = some value → evictable value = false →
    removal.registry.value? key = some value
  noticed : ∀ notice ∈ removal.notices, removal.registry.value? notice.key = none

namespace Registry

variable {κ ν α : Type} [DecidableEq κ]
variable {r : Registry κ ν} {evictable : ν → Bool} {now : Rat} {key : κ} {value : ν}
variable {absent : Failure}

/-- Notices change no value and leave the answer as it is. -/
theorem Sound.tell (h : r.Sound) (notices : List (Notice κ ν)) (answer : Except Failure α) :
    (r.tell notices answer).answer = answer ∧ (r.tell notices answer).registry.Sound ∧
      (∀ key, (r.tell notices answer).registry.value? key = r.value? key) ∧
      ∀ notice ∈ (r.tell notices answer).notices, notice ∈ notices := by
  unfold Registry.tell
  split
  next => exact ⟨rfl, h, fun _ => rfl, by simp⟩
  next =>
    split
    next hstopped => exact absurd hstopped h.awake
    next => exact ⟨rfl, ⟨h.keyed, by simp⟩, fun _ => rfl, fun _ hn => hn⟩
    next => exact ⟨rfl, h, fun _ => rfl, fun _ hn => hn⟩

theorem erase_drops (h : r.Sound) (hv : ∀ value, r.value? key = some value → evictable value = true)
    (cause : RemovalCause) {e : RegistryEntry κ ν} (he : e.key = key) (answer : Except Failure α) :
    ((r.erase key).tell [noticeOf cause e] answer).Drops r evictable := by
  have erased : (r.erase key).Sound := h.filter _
  obtain ⟨_, sound, same, notices⟩ := erased.tell [noticeOf cause e] answer
  refine ⟨sound, fun other v hother => ?_, fun other v hother hstays => ?_, fun notice hn => ?_⟩
  · rw [same] at hother
    by_cases hne : other = key
    · rw [hne, value?_erase_self] at hother
      cases hother
    · rwa [value?_erase_of_ne r hne] at hother
  · rw [same]
    by_cases hne : other = key
    · rw [hv v (hne ▸ hother)] at hstays
      cases hstays
    · rwa [value?_erase_of_ne r hne]
  · rw [same, List.mem_singleton.mp (notices notice hn)]
    show (r.erase key).value? e.key = none
    rw [he, value?_erase_self]

theorem keeps_drops {answer : Except Failure α} {r' : Registry κ ν} (sound : r'.Sound)
    (same : ∀ key, r'.value? key = r.value? key) :
    Removal.Drops ⟨answer, [], r'⟩ r evictable :=
  ⟨sound, fun key _ hv => same key ▸ hv, fun key _ hv _ => (same key).trans hv, by simp⟩

omit [DecidableEq κ] in
theorem isExpired_evictable {e : RegistryEntry κ ν} (h : r.isExpired evictable now e = true) :
    evictable e.value = true := by
  unfold isExpired at h
  exact (Bool.and_eq_true_iff.mp h).1

theorem get_drops (h : r.Sound) : (r.get evictable now key absent).Drops r evictable := by
  unfold get
  split
  next => exact keeps_drops h fun _ => rfl
  next e he =>
    split
    next hexpired =>
      refine erase_drops h (fun v hv => ?_) .expired (held?_key he) _
      rw [value?_of_held he] at hv
      cases hv
      exact isExpired_evictable hexpired
    next => exact keeps_drops (h.access key now) fun other => value?_access r key other now

/-- A removal drops no value that may not expire, if the one under its key may. -/
theorem remove_drops [DecidableEq ν] (h : r.Sound)
    (hv : ∀ value, r.value? key = some value → evictable value = true) :
    (r.remove key).Drops r evictable := by
  unfold remove
  split
  next => exact keeps_drops h fun _ => rfl
  next e he => exact erase_drops h hv .explicit (held?_key he) _

theorem remove_answer (h : r.Sound) (key : κ) :
    ∃ removed, (r.remove key).answer = .ok removed := by
  unfold remove
  split
  next => exact ⟨false, rfl⟩
  next =>
    have erased : (r.erase key).Sound := h.filter _
    exact ⟨true, (erased.tell _ _).1⟩

omit [DecidableEq κ] in
theorem examined_entry (evictable : ν → Bool) (now : Rat) (e : RegistryEntry κ ν) :
    (examined evictable now e).key = e.key ∧ (examined evictable now e).value = e.value := by
  unfold examined
  split <;> exact ⟨rfl, rfl⟩

theorem purge_drops [DecidableEq ν] (h : r.Sound) : (r.purge evictable now).Drops r evictable := by
  have kept : Sound { r with entries :=
      (r.entries.filter fun e => !r.isExpired evictable now e).map (examined evictable now) } :=
    (h.filter _).map _ fun e => (examined_entry evictable now e).1
  have back : ∀ key value, value? { r with entries :=
      (r.entries.filter fun e => !r.isExpired evictable now e).map (examined evictable now) }
        key = some value →
      ∃ e ∈ r.entries, e.key = key ∧ e.value = value ∧ r.isExpired evictable now e = false := by
    intro key value hvalue
    obtain ⟨e', he', hkey, hval⟩ := mem_of_value? hvalue
    obtain ⟨e, he, rfl⟩ := List.mem_map.mp he'
    obtain ⟨hmem, hlive⟩ := List.mem_filter.mp he
    rw [(examined_entry evictable now e).1] at hkey
    rw [(examined_entry evictable now e).2] at hval
    exact ⟨e, hmem, hkey, hval, by simpa using hlive⟩
  unfold purge
  obtain ⟨_, sound, same, notices⟩ := kept.tell
    ((r.entries.filter (r.isExpired evictable now)).map (noticeOf .expired))
    (.ok (r.entries.filter (r.isExpired evictable now)).length)
  refine ⟨sound, fun key v hother => ?_, fun key v hother hstays => ?_, fun notice hn => ?_⟩
  · rw [same] at hother
    obtain ⟨e, he, hkey, hval, _⟩ := back key v hother
    rw [← hkey, ← hval]
    exact h.value?_of_mem he
  · rw [same]
    obtain ⟨e, he, hkey, hval⟩ := mem_of_value? hother
    have live : r.isExpired evictable now e = false := by
      rw [isExpired, hval, hstays, Bool.false_and]
    have stays : examined evictable now e ∈
        (r.entries.filter fun e => !r.isExpired evictable now e).map (examined evictable now) :=
      List.mem_map_of_mem (List.mem_filter.mpr ⟨he, by simp [live]⟩)
    have found := kept.value?_of_mem stays
    rw [(examined_entry evictable now e).1, (examined_entry evictable now e).2, hkey, hval] at found
    exact found
  · rw [same]
    obtain ⟨e, he, rfl⟩ := List.mem_map.mp (notices notice hn)
    obtain ⟨hmem, hexpired⟩ := List.mem_filter.mp he
    refine Option.eq_none_iff_forall_ne_some.mpr fun v hvalue => ?_
    obtain ⟨e', he', hkey, _, hlive⟩ := back _ v hvalue
    have same := h.held? he'
    rw [hkey] at same
    have : e = e' := Option.some.inj ((h.held? hmem).symm.trans same)
    rw [← this, hexpired] at hlive
    cases hlive

section Live

/-- A value that is read is registered, and reading changes no value. -/
theorem peek_value? (r : Registry κ ν) (evictable : ν → Bool) (now : Rat) (key other : κ) :
    (r.peek evictable now key).2.value? other = r.value? other := by
  unfold peek
  split
  next => rfl
  next =>
    split
    next => rfl
    next =>
      dsimp only
      split
      next => rfl
      next => exact value?_access r key other now

theorem Sound.peek (h : r.Sound) (evictable : ν → Bool) (now : Rat) (key : κ) :
    (r.peek evictable now key).2.Sound := by
  unfold Registry.peek
  split
  next => exact h
  next =>
    split
    next => exact h
    next =>
      dsimp only
      split
      next => exact h
      next => exact h.access key now

theorem peek_some (h : (r.peek evictable now key).1 = some value) : r.value? key = some value := by
  unfold peek at h
  split at h
  next => cases h
  next e he =>
    split at h
    next => cases h
    next => exact (value?_of_held he).trans h

/-- What can be read with a fresh start of its time is what can be read without one. -/
theorem get_some (h : (r.peek evictable now key).1 = some value) :
    r.get evictable now key absent = ⟨.ok value, [], r.access key now⟩ := by
  unfold peek at h
  unfold get
  split at h
  next => cases h
  next e he =>
    split at h
    next => cases h
    next hlive =>
      cases h
      exact if_neg hlive

theorem get_none (sound : r.Sound) (h : (r.peek evictable now key).1 = none) :
    (r.get evictable now key absent).answer = .error absent := by
  unfold peek at h
  unfold get
  split at h
  next he => rfl
  next e he =>
    split at h
    next hexpired =>
      have erased : (r.erase key).Sound := sound.filter _
      rw [if_pos hexpired, (erased.tell _ _).1]
    next => cases h

theorem peek_live (r : Registry κ ν) (evictable : ν → Bool) (now : Rat) (key : κ) :
    (r.peek evictable now key).1 = (r.held? key).bind fun e =>
      if r.isExpired evictable now e then none else some e.value := by
  unfold peek
  cases r.held? key with
  | none => rfl
  | some e =>
    rw [Option.bind_some]
    dsimp only
    split <;> rfl

theorem access_live (r : Registry κ ν) (now : Rat) {e : RegistryEntry κ ν}
    (h : r.held? key = some e) (hstays : evictable e.value = false) :
    ((r.access key now).peek evictable now other).1 = (r.peek evictable now other).1 := by
  have held : (r.access key now).held? other = (r.held? other).map fun e =>
      if e.key = key then { e with lastAccess := now } else e :=
    held?_map r _ (fun e => (access_entry key now e).1) other
  rw [peek_live, peek_live, held]
  cases hother : r.held? other with
  | none => rfl
  | some e' =>
    by_cases hkey : e'.key = key
    · have same : e' = e := by
        rw [← held?_key hother, hkey, h] at hother
        exact (Option.some.inj hother).symm
      subst same
      simp [isExpired, hstays, hkey]
    · simp only [Option.map_some, Option.bind_some, if_neg hkey]
      rfl

theorem peek_peek (r : Registry κ ν) (evictable : ν → Bool) (now : Rat) (key other : κ) :
    ((r.peek evictable now key).2.peek evictable now other).1 =
      (r.peek evictable now other).1 := by
  rw [peek.eq_def r evictable now key]
  split
  next => rfl
  next e he =>
    split
    next => rfl
    next =>
      dsimp only
      split
      next => rfl
      next hstays => exact access_live r now he (by simpa using hstays)

theorem get_refused {absent : Failure} (h : (r.peek evictable now key).1 = none) :
    ∃ failure, (r.get evictable now key absent).answer = .error failure := by
  unfold peek at h
  unfold get
  split at h
  next he => exact ⟨absent, rfl⟩
  next e he =>
    split at h
    next hexpired =>
      rw [if_pos hexpired]
      unfold tell
      split
      next => exact ⟨absent, rfl⟩
      next => split <;> exact ⟨_, rfl⟩
    next => cases h

/-- The answer of reading a key is what can be read without a fresh start. -/
theorem get_answer (r : Registry κ ν) (evictable : ν → Bool) (now : Rat) (key : κ)
    (absent : Failure) :
    (r.get evictable now key absent).answer.toOption = (r.peek evictable now key).1 := by
  cases found : (r.peek evictable now key).1 with
  | none =>
    obtain ⟨failure, refused⟩ : ∃ failure,
        (r.get evictable now key absent).answer = .error failure := get_refused found
    rw [refused]
    rfl
  | some value =>
    rw [get_some found]
    rfl

end Live

variable [DecidableEq ν]

theorem touch_value? (r : Registry κ ν) (now : Rat) (key other : κ) (value : ν) :
    (r.touch now key value).2.value? other = r.value? other := by
  unfold touch
  split
  next => rfl
  next =>
    split
    next => exact value?_access r key other now
    next => rfl

theorem Sound.touch (h : r.Sound) (now : Rat) (key : κ) (value : ν) :
    (r.touch now key value).2.Sound := by
  unfold Registry.touch
  split
  next => exact h
  next =>
    split
    next => exact h.access key now
    next => exact h

/-- A value that was put under a fresh key and discarded again leaves the registry as it was. -/
theorem discard_put_fresh (h : r.value? key = none) (now : Rat) (value : ν) :
    ((r.put now key value).2.discard key value).2 = r := by
  have absent : r.held? key = none := Option.map_eq_none_iff.mp h
  have others : ∀ e ∈ r.entries, e.key ≠ key := by
    simpa [held?] using absent
  have kept : r.entries.filter (fun e => e.key ≠ key) = r.entries :=
    List.filter_eq_self.mpr fun e he => by simpa using others e he
  rw [put_of_not_held absent, discard, held?_append, absent]
  simp only [if_true, Option.none_or, erase, List.filter_append, kept]
  simp

theorem discard_put_self (r : Registry κ ν) (now : Rat) (key : κ) (value : ν) :
    ((r.put now key value).2.discard key value).2.value? key = none := by
  obtain ⟨e, he, hvalue⟩ := Option.map_eq_some_iff.mp (value?_put_self r now key value)
  rw [discard, he]
  dsimp only
  rw [if_pos hvalue]
  exact value?_erase_self _ key

theorem discard_of_ne (r : Registry κ ν) (value : ν) (hne : other ≠ key) :
    (r.discard key value).2.value? other = r.value? other := by
  unfold discard
  split
  next => rfl
  next =>
    split
    next => exact value?_erase_of_ne r hne
    next => rfl

end Registry

end Handover
