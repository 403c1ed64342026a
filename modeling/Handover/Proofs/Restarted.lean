import Handover.Proofs.Kindred

namespace Handover

namespace Removal

variable {κ ν α : Type}

/-- What a removal comes to but for the registry it leaves, and that registry after some change. -/
def leaving (removal : Removal κ ν α) (f : Registry κ ν → Registry κ ν) : Removal κ ν α :=
  { removal with registry := f removal.registry }

theorem leaving_same {f : Registry κ ν → Registry κ ν} {r r' : Registry κ ν} (h : f r' = f r)
    (answer : Except Failure α) (notices : List (Notice κ ν)) :
    leaving ⟨answer, notices, r'⟩ f = leaving ⟨answer, notices, r⟩ f := by
  rw [leaving, leaving, h]

end Removal

namespace Registry

variable {κ ν α : Type} {evictable : ν → Bool} {now : Rat}

/-- A registry without the times that do not count. -/
def bare (evictable : ν → Bool) (r : Registry κ ν) : Registry κ ν :=
  { r with entries := r.entries.map (examined evictable 0) }

theorem examined_examined (evictable : ν → Bool) (now before : Rat) (e : RegistryEntry κ ν) :
    examined evictable now (examined evictable before e) = examined evictable now e := by
  unfold examined
  by_cases stays : evictable e.value = true <;> simp [stays]

theorem examined_accessed (now before : Rat) {e : RegistryEntry κ ν}
    (unfinished : evictable e.value = false) :
    examined evictable now (accessed before e) = examined evictable now e := by
  have same : evictable (accessed before e).value = false := unfinished
  rw [examined, examined, same, unfinished]
  rfl

theorem examined_key (evictable : ν → Bool) (now : Rat) (e : RegistryEntry κ ν) :
    (examined evictable now e).key = e.key :=
  (examined_entry evictable now e).1

theorem examined_value (evictable : ν → Bool) (now : Rat) (e : RegistryEntry κ ν) :
    (examined evictable now e).value = e.value :=
  (examined_entry evictable now e).2

theorem isExpired_examined (r : Registry κ ν) (evictable : ν → Bool) (now before : Rat)
    (e : RegistryEntry κ ν) :
    r.isExpired evictable now (examined evictable before e) = r.isExpired evictable now e := by
  rw [isExpired, isExpired, examined_value]
  cases stays : evictable e.value with
  | false => rfl
  | true => rw [examined, if_pos stays]

theorem bare_bare (evictable : ν → Bool) (r : Registry κ ν) :
    (r.bare evictable).bare evictable = r.bare evictable := by
  unfold bare
  congr 1
  rw [List.map_map]
  exact List.map_congr_left fun e _ => examined_examined evictable 0 0 e

theorem tell_bare (r : Registry κ ν) (evictable : ν → Bool) (notices : List (Notice κ ν))
    (answer : Except Failure α) :
    ((r.bare evictable).tell notices answer).leaving (bare evictable) =
      (r.tell notices answer).leaving (bare evictable) := by
  have listens : (r.bare evictable).listens = r.listens := rfl
  have cleaner : (r.bare evictable).cleaner = r.cleaner := rfl
  have same := bare_bare evictable r
  unfold tell Removal.leaving
  rw [listens, cleaner]
  by_cases quiet : (!r.listens || notices.isEmpty) = true
  · simp only [quiet, if_true, same]
  · simp only [quiet, Bool.false_eq_true, if_false]
    cases r.cleaner <;> simp only [same]
    exact congrArg (fun r : Registry κ ν => (⟨answer, notices, { r with cleaner := .started }⟩ :
      Removal κ ν α)) same

variable [DecidableEq κ]

theorem held?_bare (r : Registry κ ν) (evictable : ν → Bool) (key : κ) :
    (r.bare evictable).held? key = (r.held? key).map (examined evictable 0) :=
  held?_map r _ (examined_key evictable 0) key

theorem access_bare (r : Registry κ ν) (evictable : ν → Bool) (key : κ) (now : Rat) :
    ((r.bare evictable).access key now).bare evictable = (r.access key now).bare evictable := by
  unfold bare access
  congr 1
  simp only [List.map_map]
  refine List.map_congr_left fun e _ => ?_
  simp only [Function.comp_apply, examined_key]
  by_cases same : e.key = key
  · rw [if_pos same, if_pos same]
    unfold examined
    by_cases stays : evictable e.value = true <;> simp [stays]
  · rw [if_neg same, if_neg same, examined_examined]

theorem erase_bare (r : Registry κ ν) (evictable : ν → Bool) (key : κ) :
    (r.bare evictable).erase key = (r.erase key).bare evictable := by
  unfold bare erase
  congr 1
  rw [List.filter_map]
  congr 1
  exact List.filter_congr fun e _ => by simp [examined_key]

/-- Reading a value that may not expire changes no time that counts. -/
theorem bare_access {r : Registry κ ν} (keyed : r.Keyed) {key : κ} {e : RegistryEntry κ ν}
    (held : r.held? key = some e) (unfinished : evictable e.value = false) (now : Rat) :
    (r.access key now).bare evictable = r.bare evictable := by
  unfold bare access
  congr 1
  rw [List.map_map]
  refine List.map_congr_left fun e' mem => ?_
  rw [Function.comp_apply]
  by_cases same : e'.key = key
  · have found := keyed.held? mem
    rw [same, held] at found
    cases found
    rw [if_pos same]
    exact examined_accessed 0 now unfinished
  · rw [if_neg same]

omit [DecidableEq κ] in
theorem noticeOf_examined (cause : RemovalCause) (evictable : ν → Bool) (now : Rat)
    (e : RegistryEntry κ ν) : noticeOf cause (examined evictable now e) = noticeOf cause e := by
  rw [noticeOf, examined_key, examined_value]
  rfl

theorem get_bare (r : Registry κ ν) (evictable : ν → Bool) (now : Rat) (key : κ)
    (absent : Failure) :
    ((r.bare evictable).get evictable now key absent).leaving (bare evictable) =
      (r.get evictable now key absent).leaving (bare evictable) := by
  rw [get, get, held?_bare]
  cases r.held? key with
  | none => exact Removal.leaving_same (bare_bare evictable r) _ _
  | some e =>
    have expired : (r.bare evictable).isExpired evictable now (examined evictable 0 e) =
        r.isExpired evictable now e := isExpired_examined r evictable now 0 e
    dsimp only [Option.map_some]
    rw [expired, erase_bare, noticeOf_examined, examined_value]
    by_cases spent : r.isExpired evictable now e = true
    · rw [if_pos spent, if_pos spent]
      exact tell_bare (r.erase key) evictable _ _
    · rw [if_neg spent, if_neg spent]
      exact Removal.leaving_same (access_bare r evictable key now) _ _

theorem peek_bare (r : Registry κ ν) (evictable : ν → Bool) (now : Rat) (key : κ) :
    ((r.bare evictable).peek evictable now key).map id (bare evictable) =
      (r.peek evictable now key).map id (bare evictable) := by
  rw [peek, peek, held?_bare]
  cases r.held? key with
  | none => exact congrArg (Prod.mk none) (bare_bare evictable r)
  | some e =>
    have expired : (r.bare evictable).isExpired evictable now (examined evictable 0 e) =
        r.isExpired evictable now e := isExpired_examined r evictable now 0 e
    dsimp only [Option.map_some]
    rw [expired, examined_value]
    by_cases spent : r.isExpired evictable now e = true
    · rw [if_pos spent, if_pos spent]
      exact congrArg (Prod.mk none) (bare_bare evictable r)
    · rw [if_neg spent, if_neg spent]
      refine congrArg (Prod.mk (some e.value)) ?_
      by_cases stays : evictable e.value = true
      · rw [if_pos stays, if_pos stays]
        exact bare_bare evictable r
      · rw [if_neg stays, if_neg stays]
        exact access_bare r evictable key now

theorem put_bare (r : Registry κ ν) (evictable : ν → Bool) (now : Rat) (key : κ) (value : ν) :
    ((r.bare evictable).put now key value).map id (bare evictable) =
      (r.put now key value).map id (bare evictable) := by
  cases held : r.held? key with
  | none =>
    have absent : (r.bare evictable).held? key = none := by rw [held?_bare, held]; rfl
    rw [put_of_not_held held, put_of_not_held absent]
    refine congrArg (Prod.mk none) ?_
    unfold bare
    congr 1
    dsimp only
    rw [List.map_append, List.map_append, List.map_map]
    congr 1
    exact List.map_congr_left fun e _ => examined_examined evictable 0 0 e
  | some e =>
    have found : (r.bare evictable).held? key = some (examined evictable 0 e) := by
      rw [held?_bare, held]
      rfl
    rw [put_of_held held, put_of_held found, examined_value]
    refine congrArg (Prod.mk (some e.value)) ?_
    unfold bare
    congr 1
    dsimp only
    rw [List.map_map, List.map_map, List.map_map]
    refine List.map_congr_left fun e' _ => ?_
    simp only [Function.comp_apply, renewed, examined_key]
    by_cases same : e'.key = key
    · rw [if_pos same, if_pos same]
    · rw [if_neg same, if_neg same, examined_examined]

theorem remove_bare (r : Registry κ ν) (evictable : ν → Bool) (key : κ) :
    ((r.bare evictable).remove key).leaving (bare evictable) =
      (r.remove key).leaving (bare evictable) := by
  rw [remove, remove, held?_bare]
  cases r.held? key with
  | none => exact Removal.leaving_same (bare_bare evictable r) _ _
  | some e =>
    dsimp only [Option.map_some]
    rw [erase_bare, noticeOf_examined]
    exact tell_bare (r.erase key) evictable _ _

theorem discard_bare [DecidableEq ν] (r : Registry κ ν) (evictable : ν → Bool) (key : κ)
    (value : ν) : ((r.bare evictable).discard key value).2.bare evictable =
      (r.discard key value).2.bare evictable := by
  rw [discard, discard, held?_bare]
  cases r.held? key with
  | none => exact bare_bare evictable r
  | some e =>
    dsimp only [Option.map_some]
    rw [examined_value]
    by_cases same : e.value = value
    · rw [if_pos same, if_pos same, erase_bare]
      exact bare_bare evictable _
    · rw [if_neg same, if_neg same]
      exact bare_bare evictable r

theorem bare_peek {r : Registry κ ν} (keyed : r.Keyed) (evictable : ν → Bool) (now : Rat)
    (key : κ) : (r.peek evictable now key).2.bare evictable = r.bare evictable := by
  unfold peek
  split
  next => rfl
  next e held =>
    split
    next => rfl
    next =>
      dsimp only
      split
      next => rfl
      next unfinished => exact bare_access keyed held (by simpa using unfinished) now

omit [DecidableEq κ] in
/-- A sweep restarts all times that do not count. -/
theorem purge_bare (r : Registry κ ν) (evictable : ν → Bool) (now : Rat) :
    (r.bare evictable).purge evictable now = r.purge evictable now := by
  have expired : (r.bare evictable).isExpired evictable now ∘ examined evictable 0 =
      r.isExpired evictable now := funext (isExpired_examined r evictable now 0)
  have gone : (r.bare evictable).entries.filter ((r.bare evictable).isExpired evictable now) =
      (r.entries.filter (r.isExpired evictable now)).map (examined evictable 0) := by
    rw [← expired]
    exact List.filter_map
  have kept : ((r.bare evictable).entries.filter fun e =>
        !(r.bare evictable).isExpired evictable now e).map (examined evictable now) =
      (r.entries.filter fun e => !r.isExpired evictable now e).map (examined evictable now) := by
    rw [← expired]
    refine (congrArg (List.map _) List.filter_map).trans ?_
    rw [List.map_map]
    exact List.map_congr_left fun e _ => examined_examined evictable now 0 e
  unfold purge
  dsimp only
  rw [gone, kept, List.map_map, List.length_map]
  have told : noticeOf .expired ∘ examined evictable 0 = noticeOf (κ := κ) (ν := ν) .expired :=
    funext (noticeOf_examined .expired evictable 0)
  rw [told]
  rfl

/-- Whether two registries differ only in times that do not count. -/
structure Restarted (evictable : ν → Bool) (now : Rat) (r r' : Registry κ ν) : Prop where
  keyed : r.Keyed
  bare : r'.bare evictable = r.bare evictable

variable {r r' : Registry κ ν}

omit [DecidableEq κ] in
theorem Keyed.bare (evictable : ν → Bool) : (r.bare evictable).Keyed ↔ r.Keyed := by
  have keys : (r.bare evictable).entries.map (·.key) = r.entries.map (·.key) := by
    rw [Registry.bare, List.map_map]
    exact List.map_congr_left fun e _ => examined_key evictable 0 e
  rw [Keyed, Keyed, keys]

theorem value?_bare (r : Registry κ ν) (evictable : ν → Bool) (key : κ) :
    (r.bare evictable).value? key = r.value? key :=
  value?_map r _ (examined_entry evictable 0) key

theorem Restarted.value? (h : Restarted evictable now r r') (key : κ) :
    r'.value? key = r.value? key := by
  rw [← value?_bare r' evictable, h.bare, value?_bare]

omit [DecidableEq κ] in
theorem Restarted.keyed' (h : Restarted evictable now r r') : r'.Keyed := by
  rw [← Keyed.bare evictable, h.bare, Keyed.bare]
  exact h.keyed

theorem Restarted.get (h : Restarted evictable now r r') (key : κ) (absent : Failure) :
    (r'.get evictable now key absent).leaving (Registry.bare evictable) =
      (r.get evictable now key absent).leaving (Registry.bare evictable) := by
  rw [← get_bare r', h.bare, get_bare]

theorem Restarted.remove (h : Restarted evictable now r r') (key : κ) :
    (r'.remove key).leaving (Registry.bare evictable) =
      (r.remove key).leaving (Registry.bare evictable) := by
  rw [← remove_bare r', h.bare, remove_bare]

theorem Restarted.peek (h : Restarted evictable now r r') (key : κ) :
    (r'.peek evictable now key).map id (Registry.bare evictable) =
      (r.peek evictable now key).map id (Registry.bare evictable) := by
  rw [← peek_bare r', h.bare, peek_bare]

theorem Restarted.put (h : Restarted evictable now r r') (key : κ) (value : ν) :
    Restarted evictable now (r.put now key value).2 (r'.put now key value).2 := by
  have same : (r'.put now key value).map id (Registry.bare evictable) =
      (r.put now key value).map id (Registry.bare evictable) := by
    rw [← put_bare r', h.bare, put_bare]
  exact ⟨h.keyed.put now key value, congrArg (·.2) same⟩

omit [DecidableEq κ] in
theorem Restarted.purge (h : Restarted evictable now r r') :
    r'.purge evictable now = r.purge evictable now := by
  rw [← purge_bare r', h.bare, purge_bare]

variable [DecidableEq ν]

theorem Restarted.discard (h : Restarted evictable now r r') (key : κ) (value : ν) :
    Restarted evictable now (r.discard key value).2 (r'.discard key value).2 := by
  refine ⟨h.keyed.discard key value, ?_⟩
  rw [← discard_bare r', h.bare, discard_bare]

/-- A time that has not counted before is lost when it starts anew at the moment from which on it
does. -/
theorem touch_bare (keyed : r.Keyed) {evictable' : ν → Bool} {key : κ} {value : ν}
    (others : ∀ other, other ≠ value → evictable' other = evictable other)
    (owned : ∀ other, r.value? other = some value → other = key) (now : Rat) :
    ((r.bare evictable).touch now key value).2.bare evictable' =
      (r.touch now key value).2.bare evictable' := by
  have same : ∀ e : RegistryEntry κ ν, e.value ≠ value →
      examined evictable' 0 (examined evictable 0 e) = examined evictable' 0 e := by
    intro e apart
    have agree := others e.value apart
    unfold examined
    by_cases stays : evictable e.value = true <;> simp [stays, agree]
  have held : ∀ e ∈ r.entries, e.value = value → r.held? key = some e := by
    rintro e mem rfl
    have found := keyed.held? mem
    rw [← owned e.key (value?_of_held found)]
    exact found
  have untouched : (∀ e ∈ r.entries, e.value ≠ value) →
      (r.bare evictable).bare evictable' = r.bare evictable' := by
    intro apart
    unfold bare
    congr 1
    rw [List.map_map]
    exact List.map_congr_left fun e mem => same e (apart e mem)
  rw [touch, touch, held?_bare]
  cases found : r.held? key with
  | none =>
    refine untouched fun e mem own => ?_
    cases found.symm.trans (held e mem own)
  | some e₀ =>
    dsimp only [Option.map_some]
    rw [examined_value]
    by_cases own : e₀.value = value
    · rw [if_pos own, if_pos own]
      unfold bare access
      congr 1
      simp only [List.map_map]
      refine List.map_congr_left fun e mem => ?_
      simp only [Function.comp_apply, examined_key]
      by_cases at_key : e.key = key
      · rw [if_pos at_key, if_pos at_key]
        unfold examined
        by_cases stays : evictable e.value = true <;> simp [stays]
      · rw [if_neg at_key, if_neg at_key]
        exact same e fun he => at_key (held?_key (held e mem he))
    · rw [if_neg own, if_neg own]
      refine untouched fun e mem he => own ?_
      cases found.symm.trans (held e mem he)
      exact he

theorem Restarted.finish (h : Restarted evictable now r r') {evictable' : ν → Bool} {key : κ}
    {value : ν} (others : ∀ other, other ≠ value → evictable' other = evictable other)
    (owned : ∀ other, r.value? other = some value → other = key) :
    Restarted evictable' now (r.touch now key value).2 (r'.touch now key value).2 := by
  have owned' : ∀ other, r'.value? other = some value → other = key := by
    intro other found
    rw [h.value?] at found
    exact owned other found
  refine ⟨h.keyed.touch now key value, ?_⟩
  rw [← touch_bare h.keyed' others owned', h.bare, touch_bare h.keyed others owned]

/-- Requests do the same to two registries that differ in times that do not count. -/
theorem restarted_law : Law Restarted Eq where
  get key absent h := by
    have same := h.get key absent
    exact ⟨congrArg (·.answer) same, (congrArg (·.notices) same).symm,
      h.keyed.get _ _ key absent, congrArg (·.registry) same⟩
  remove key h := by
    have same := h.remove key
    refine ⟨?_, (congrArg (·.notices) same).symm, h.keyed.remove key,
      congrArg (·.registry) same⟩
    exact congrArg (fun removal => removal.answer.map fun _ => ()) same
  peek key h := by
    have same := h.peek key
    exact ⟨congrArg (·.1) same, h.keyed.peek _ _ key, congrArg (·.2) same⟩
  put key value _ h := h.put key value
  discard key value h := h.discard key value
  advance _ h := ⟨h.keyed, h.bare⟩
  finish _ others owned h := h.finish others owned

end Registry

end Handover
