import Handover.Proofs.Failing
import Handover.Proofs.Parts

namespace Handover.Value

variable [Copier]

/-- Whether two values differ at most in the order in which sets give their members, and in objects
of unknown types of which both or neither can be copied. -/
inductive Matches : Value → Value → Prop
  | same (v : Value) : Matches v v
  | foreign {a b : Foreign} (type : a.typeName = b.typeName)
    (both : Copier.foreign a = none ↔ Copier.foreign b = none) : Matches (foreign a) (foreign b)
  | model {v w : Value} (content : Matches v w) : Matches (model v) (model w)
  | list (pairs : List (Value × Value)) (each : ∀ pair ∈ pairs, Matches pair.1 pair.2) :
    Matches (list (pairs.map (·.1))) (list (pairs.map (·.2)))
  | tuple (pairs : List (Value × Value)) (each : ∀ pair ∈ pairs, Matches pair.1 pair.2) :
    Matches (tuple (pairs.map (·.1))) (tuple (pairs.map (·.2)))
  | set (pairs : List (Value × Value)) (each : ∀ pair ∈ pairs, Matches pair.1 pair.2)
    {vs ws : List Value} (left : vs.Perm (pairs.map (·.1))) (right : ws.Perm (pairs.map (·.2))) :
    Matches (set vs) (set ws)
  | frozenSet (pairs : List (Value × Value)) (each : ∀ pair ∈ pairs, Matches pair.1 pair.2)
    {vs ws : List Value} (left : vs.Perm (pairs.map (·.1))) (right : ws.Perm (pairs.map (·.2))) :
    Matches (frozenSet vs) (frozenSet ws)
  | dict (pairs : List ((Value × Value) × (Value × Value)))
    (keys : ∀ pair ∈ pairs, Matches pair.1.1 pair.2.1)
    (values : ∀ pair ∈ pairs, Matches pair.1.2 pair.2.2) :
    Matches (dict (pairs.map (·.1))) (dict (pairs.map (·.2)))
  | record (shape : Shape) (pairs : List (Value × Value))
    (each : ∀ pair ∈ pairs, Matches pair.1 pair.2) :
    Matches (record shape (pairs.map (·.1))) (record shape (pairs.map (·.2)))

variable {step : Value → List Value} {P : Value → Prop} {u v w : Value}
variable {items copies : List Value} {entries : List (Value × Value)}

namespace Matches

theorem symm (h : Matches v w) : Matches w v := by
  have swapped : ∀ {α : Type} (pairs : List (α × α)),
      (pairs.map Prod.swap).map (·.1) = pairs.map (·.2) ∧
        (pairs.map Prod.swap).map (·.2) = pairs.map (·.1) := fun pairs => by simp
  induction h with
  | same v => exact .same v
  | foreign type both => exact .foreign type.symm both.symm
  | model _ ih => exact .model ih
  | list pairs _ ih =>
    rw [← (swapped pairs).1, ← (swapped pairs).2]
    exact .list _ (List.forall_mem_map.mpr ih)
  | tuple pairs _ ih =>
    rw [← (swapped pairs).1, ← (swapped pairs).2]
    exact .tuple _ (List.forall_mem_map.mpr ih)
  | set pairs _ left right ih =>
    rw [← (swapped pairs).1] at right
    rw [← (swapped pairs).2] at left
    exact .set _ (List.forall_mem_map.mpr ih) right left
  | frozenSet pairs _ left right ih =>
    rw [← (swapped pairs).1] at right
    rw [← (swapped pairs).2] at left
    exact .frozenSet _ (List.forall_mem_map.mpr ih) right left
  | dict pairs _ _ keys values =>
    rw [← (swapped pairs).1, ← (swapped pairs).2]
    exact .dict _ (List.forall_mem_map.mpr keys) (List.forall_mem_map.mpr values)
  | record shape pairs _ ih =>
    rw [← (swapped pairs).1, ← (swapped pairs).2]
    exact .record shape _ (List.forall_mem_map.mpr ih)

theorem piece (h : Matches v w) (hu : u ∈ v.pieces) : ∃ u' ∈ w.pieces, Matches u u' := by
  cases h with
  | same => exact ⟨u, hu, .same u⟩
  | foreign => cases hu
  | model content =>
    obtain rfl := List.mem_singleton.mp hu
    exact ⟨_, List.mem_cons_self, content⟩
  | list pairs each | tuple pairs each | record shape pairs each =>
    obtain ⟨pair, hp, rfl⟩ := List.mem_map.mp hu
    exact ⟨pair.2, List.mem_map_of_mem hp, each pair hp⟩
  | set pairs each left right | frozenSet pairs each left right =>
    obtain ⟨pair, hp, rfl⟩ := List.mem_map.mp (left.mem_iff.mp hu)
    exact ⟨pair.2, right.mem_iff.mpr (List.mem_map_of_mem hp), each pair hp⟩
  | dict pairs keys values =>
    rcases List.mem_append.mp hu with hk | hv
    · obtain ⟨_, he, rfl⟩ := List.mem_map.mp hk
      obtain ⟨pair, hp, rfl⟩ := List.mem_map.mp he
      exact ⟨pair.2.1, key_mem_pieces (List.mem_map_of_mem hp), keys pair hp⟩
    · obtain ⟨_, he, rfl⟩ := List.mem_map.mp hv
      obtain ⟨pair, hp, rfl⟩ := List.mem_map.mp he
      exact ⟨pair.2.2, parts_subset_pieces _ (value_mem_parts (List.mem_map_of_mem hp)),
        values pair hp⟩

theorem copiedPart (h : Matches v w) (hu : u ∈ v.copiedParts) :
    ∃ u' ∈ w.copiedParts, Matches u u' := by
  cases h with
  | same => exact ⟨u, hu, .same u⟩
  | foreign | model | set | frozenSet => cases hu
  | list pairs each | tuple pairs each | record shape pairs each =>
    obtain ⟨pair, hp, rfl⟩ := List.mem_map.mp hu
    exact ⟨pair.2, List.mem_map_of_mem hp, each pair hp⟩
  | dict pairs keys values =>
    obtain ⟨_, he, rfl⟩ := List.mem_map.mp hu
    obtain ⟨pair, hp, rfl⟩ := List.mem_map.mp he
    exact ⟨pair.2.2, value_mem_parts (List.mem_map_of_mem hp), values pair hp⟩

theorem throughout (node : ∀ v w, Matches v w → P v → P w) (h : Matches v w)
    (all : v.Throughout P) : w.Throughout P := by
  induction all generalizing w with
  | @intro v here _ ih =>
    refine .intro (node v w h here) fun u' hu' => ?_
    obtain ⟨u, hu, matching⟩ := h.symm.piece hu'
    exact ih u hu matching.symm

theorem leadsTo (node : ∀ v w, Matches v w → P v → P w)
    (next : ∀ v w, Matches v w → ∀ u ∈ step v, ∃ u' ∈ step w, Matches u u') (h : Matches v w)
    (leads : v.LeadsTo step P) : w.LeadsTo step P := by
  induction leads generalizing w with
  | here holds => exact .here (node _ w h holds)
  | there hu _ ih =>
    obtain ⟨u', hu', matching⟩ := next _ w h _ hu
    exact .there hu' (ih matching)

theorem unhashable?_eq (h : Matches v w) : unhashable? v = unhashable? w := by
  have among : ∀ pairs : List (Value × Value),
      (∀ pair ∈ pairs, unhashable? pair.1 = unhashable? pair.2) →
      unhashableAmong? (pairs.map (·.1)) = unhashableAmong? (pairs.map (·.2)) := by
    intro pairs each
    induction pairs with
    | nil => rfl
    | cons pair rest ih =>
      simp only [List.map_cons, unhashableAmong?, each pair List.mem_cons_self,
        ih fun p hp => each p (List.mem_cons_of_mem _ hp)]
  induction h with
  | same => rfl
  | tuple pairs _ ih => exact among pairs ih
  | record shape pairs _ ih => simp only [unhashable?, among pairs ih]
  | _ => rfl

theorem holdsRecord (h : Matches v w) (holds : HoldsRecord v) : HoldsRecord w := by
  induction holds generalizing w with
  | record shape fields => cases h <;> exact .record _ _
  | tuple item _ ih =>
    cases h with
    | same => exact .tuple item (ih (.same _))
    | tuple pairs each =>
      obtain ⟨pair, hp, rfl⟩ := List.mem_map.mp item
      exact .tuple (List.mem_map_of_mem hp) (ih (each pair hp))

theorem hasRecordKey (h : Matches v w) (has : HasRecordKey v) : HasRecordKey w := by
  cases h with
  | same => exact has
  | dict pairs keys _ =>
    obtain ⟨entry, he, holds⟩ := has
    obtain ⟨pair, hp, rfl⟩ := List.mem_map.mp he
    exact ⟨pair.2, List.mem_map_of_mem hp, (keys pair hp).holdsRecord holds⟩
  | _ => exact has

theorem stuck (h : Matches v w) (stuck : Stuck v) : Stuck w := by
  cases h with
  | same => exact stuck
  | foreign _ both => exact both.mp stuck
  | _ => exact stuck

theorem fits (h : Matches v w) (fits : Fits v) : Fits w := by
  cases h with
  | same => exact fits
  | set pairs each left right | frozenSet pairs each left right =>
    intro u' hu'
    obtain ⟨pair, hp, rfl⟩ := List.mem_map.mp (right.mem_iff.mp hu')
    rw [← (each pair hp).unhashable?_eq]
    exact fits pair.1 (left.mem_iff.mpr (List.mem_map_of_mem hp))
  | dict pairs keys _ =>
    intro entry he
    obtain ⟨pair, hp, rfl⟩ := List.mem_map.mp he
    rw [← (keys pair hp).unhashable?_eq]
    exact fits pair.1 (List.mem_map_of_mem hp)
  | record shape pairs _ =>
    have length : (pairs.map (·.1)).length = shape.fieldNames.length := fits
    exact (by simpa using length : (pairs.map (·.2)).length = shape.fieldNames.length)
  | _ => trivial

theorem wellFormed (h : Matches v w) (all : v.WellFormed) : w.WellFormed :=
  h.throughout (fun _ _ => fits) all

theorem weight_eq (h : Matches v w) : weight v = weight w := by
  have items : ∀ pairs : List (Value × Value), (∀ pair ∈ pairs, weight pair.1 = weight pair.2) →
      weightOfItems (pairs.map (·.1)) = weightOfItems (pairs.map (·.2)) := by
    intro pairs each
    induction pairs with
    | nil => rfl
    | cons pair rest ih =>
      simp only [List.map_cons, weightOfItems, each pair List.mem_cons_self,
        ih fun p hp => each p (List.mem_cons_of_mem _ hp)]
  have entries : ∀ pairs : List ((Value × Value) × (Value × Value)),
      (∀ pair ∈ pairs, weight pair.1.1 = weight pair.2.1) →
      (∀ pair ∈ pairs, weight pair.1.2 = weight pair.2.2) →
      weightOfEntries (pairs.map (·.1)) = weightOfEntries (pairs.map (·.2)) := by
    intro pairs keys values
    induction pairs with
    | nil => rfl
    | cons pair rest ih =>
      simp only [List.map_cons, weightOfEntries, keys pair List.mem_cons_self,
        values pair List.mem_cons_self, ih (fun p hp => keys p (List.mem_cons_of_mem _ hp))
          fun p hp => values p (List.mem_cons_of_mem _ hp)]
  induction h with
  | same => rfl
  | foreign => rfl
  | model _ ih => simp only [weight, ih]
  | list pairs _ ih | tuple pairs _ ih | record _ pairs _ ih => simp only [weight, items pairs ih]
  | set pairs _ left right ih | frozenSet pairs _ left right ih =>
    simp only [weight, weightOfItems_perm left, weightOfItems_perm right, items pairs ih]
  | dict pairs _ _ keys values =>
    simp only [weight, entries pairs keys values]

theorem losesKey_iff (h : Matches v w) : v.LosesKey ↔ w.LosesKey :=
  ⟨h.leadsTo (fun _ _ => hasRecordKey) fun _ _ h _ => h.copiedPart,
    h.symm.leadsTo (fun _ _ => hasRecordKey) fun _ _ h _ => h.copiedPart⟩

theorem holdsStuck_iff (h : Matches v w) : v.HoldsStuck ↔ w.HoldsStuck :=
  ⟨h.leadsTo (fun _ _ => stuck) fun _ _ h _ => h.piece,
    h.symm.leadsTo (fun _ _ => stuck) fun _ _ h _ => h.piece⟩

end Matches

omit [Copier] in
theorem exists_pairs {α β : Type} {R : α → β → Prop} {as : List α} {bs : List β}
    (h : List.Forall₂ R as bs) :
    ∃ pairs : List (α × β), pairs.map (·.1) = as ∧ pairs.map (·.2) = bs ∧
      ∀ pair ∈ pairs, R pair.1 pair.2 := by
  obtain ⟨length, each⟩ := List.forall₂_iff_zip.mp h
  exact ⟨as.zip bs, List.map_fst_zip (Nat.le_of_eq length),
    List.map_snd_zip (Nat.le_of_eq length.symm), fun _ hp => each hp⟩

/-- How copies fail: a key is none in the copy, or an object cannot be copied. -/
def CopyFault (failure : Failure) : Prop :=
  failure = .unhashable "dict" ∨ ∃ object : Foreign, Copier.foreign object = none ∧
    failure = .notCopyable (foreign object).qualifiedTypeName

theorem CopyFault.kind {failure : Failure} (h : CopyFault failure) : failure.kind = "TypeError" := by
  rcases h with rfl | ⟨_, _, rfl⟩ <;> rfl

theorem rebuiltItems_eq_mapM (items : List Value) : rebuiltItems items = items.mapM rebuilt := by
  induction items with
  | nil => rfl
  | cons v rest ih => rw [rebuiltItems, List.mapM_cons, ih]

def rebuiltEntry (entry : Value × Value) : Except Failure (Value × Value) := do
  let v ← rebuilt entry.2
  let k ← rebuilt entry.1
  pure (k, v)

theorem rebuiltEntries_eq_mapM (entries : List (Value × Value)) :
    rebuiltEntries entries = entries.mapM rebuiltEntry := by
  induction entries with
  | nil => rfl
  | cons entry rest ih =>
    rw [rebuiltEntries, List.mapM_cons, ih]
    simp only [rebuiltEntry, bind_assoc, pure_bind]

theorem matches_of_rebuilt_foreign {object : Foreign} (run : rebuilt (foreign object) = .ok w) :
    Matches (foreign object) w := by
  rw [rebuilt] at run
  cases found : Copier.foreign object with
  | none =>
    rw [found] at run
    cases run
  | some copy =>
    rw [found] at run
    cases run
    have again := Option.isSome_iff_ne_none.mp (Copier.again found)
    exact .foreign (Copier.sameType found).symm (by simp [found, again])

theorem matches_of_rebuiltItems (each : ∀ u ∈ items, ∀ u', rebuilt u = .ok u' → Matches u u')
    (run : rebuiltItems items = .ok copies) :
    ∃ pairs : List (Value × Value), pairs.map (·.1) = items ∧ pairs.map (·.2) = copies ∧
      ∀ pair ∈ pairs, Matches pair.1 pair.2 :=
  exists_pairs (forall₂_of_mapM ((rebuiltItems_eq_mapM items).symm.trans run) each)

theorem matches_of_rebuiltEntries {copies : List (Value × Value)}
    (each : ∀ u ∈ (dict entries).pieces, ∀ u', rebuilt u = .ok u' → Matches u u')
    (run : rebuiltEntries entries = .ok copies) :
    ∃ pairs : List ((Value × Value) × (Value × Value)),
      pairs.map (·.1) = entries ∧ pairs.map (·.2) = copies ∧
      ∀ pair ∈ pairs, Matches pair.1.1 pair.2.1 ∧ Matches pair.1.2 pair.2.2 := by
  have entry : ∀ e ∈ entries, ∀ copy, rebuiltEntry e = .ok copy →
      Matches e.1 copy.1 ∧ Matches e.2 copy.2 := by
    intro e he copy copied
    obtain ⟨value, hv, copied⟩ := ok_of_bind copied
    obtain ⟨key, hk, copied⟩ := ok_of_bind copied
    cases copied
    exact ⟨each _ (key_mem_pieces he) _ hk,
      each _ (parts_subset_pieces _ (value_mem_parts he)) _ hv⟩
  rw [rebuiltEntries_eq_mapM] at run
  exact exists_pairs (forall₂_of_mapM run entry)

/-- A deep copy matches what it was made of. -/
theorem matches_of_rebuilt (run : rebuilt v = .ok w) : Matches v w := by
  induction v using by_pieces generalizing w with
  | next v ih =>
    have each : ∀ u ∈ v.pieces, ∀ u', rebuilt u = .ok u' → Matches u u' :=
      fun u hu _ copied => ih u hu copied
    cases v with
    | foreign object => exact matches_of_rebuilt_foreign run
    | model content =>
      obtain ⟨copy, inner, rfl⟩ := ok_of_map run
      exact .model (ih content List.mem_cons_self inner)
    | list vs =>
      obtain ⟨_, inner, rfl⟩ := ok_of_map run
      obtain ⟨pairs, rfl, rfl, matched⟩ := matches_of_rebuiltItems each inner
      exact .list pairs matched
    | tuple vs =>
      obtain ⟨_, inner, rfl⟩ := ok_of_map run
      obtain ⟨pairs, rfl, rfl, matched⟩ := matches_of_rebuiltItems each inner
      exact .tuple pairs matched
    | set vs =>
      obtain ⟨_, inner, rfl⟩ := ok_of_map run
      obtain ⟨pairs, rfl, rfl, matched⟩ := matches_of_rebuiltItems each inner
      exact .set pairs matched (.refl _) (Copier.order_perm _)
    | frozenSet vs =>
      obtain ⟨_, inner, rfl⟩ := ok_of_map run
      obtain ⟨pairs, rfl, rfl, matched⟩ := matches_of_rebuiltItems each inner
      exact .frozenSet pairs matched (.refl _) (Copier.order_perm _)
    | dict entries =>
      obtain ⟨_, inner, rfl⟩ := ok_of_map run
      obtain ⟨pairs, rfl, rfl, matched⟩ := matches_of_rebuiltEntries each inner
      exact .dict pairs (fun pair hp => (matched pair hp).1) fun pair hp => (matched pair hp).2
    | record shape fields =>
      obtain ⟨_, inner, rfl⟩ := ok_of_map run
      obtain ⟨pairs, rfl, rfl, matched⟩ := matches_of_rebuiltItems each inner
      exact .record shape pairs matched
    | _ =>
      cases run
      exact .same _

/-- A deep copy fails if something in the value cannot be copied. -/
theorem rebuilt_failsIff (v : Value) : FailsIff CopyFault v.HoldsStuck (rebuilt v) := by
  induction v using by_pieces with
  | next v ih =>
    have items : ∀ {f : List Value → Value}, ¬Stuck v → rebuilt v = f <$> rebuiltItems v.pieces →
        FailsIff CopyFault v.HoldsStuck (rebuilt v) := by
      intro f free run
      rw [run, rebuiltItems_eq_mapM]
      exact ((FailsIff.mapM (List.forall₂_same.mpr ih)).map f).congr (leadsTo_parts_iff free).symm
    cases v with
    | foreign object =>
      rw [rebuilt]
      cases found : Copier.foreign object with
      | none => exact .error (.here found) (Or.inr ⟨object, found, rfl⟩)
      | some copy => exact .ok _ (not_leadsTo rfl (by simp [Stuck, found]))
    | model content =>
      exact ((ih content List.mem_cons_self).map model).congr
        ((leadsTo_parts_iff not_false).trans (by simp [pieces])).symm
    | list | tuple | set | frozenSet | record => exact items not_false rfl
    | dict entries =>
      have entry : ∀ e ∈ entries, FailsIff CopyFault (e.2.HoldsStuck ∨ e.1.HoldsStuck)
          (rebuiltEntry e) := fun e he =>
        (ih e.2 (parts_subset_pieces _ (value_mem_parts he))).bind fun v _ =>
          (ih e.1 (key_mem_pieces he)).map fun k => (k, v)
      rw [rebuilt, rebuiltEntries_eq_mapM]
      refine ((FailsIff.mapM (List.forall₂_same.mpr entry)).map dict).congr ?_
      refine Iff.trans ?_ (leadsTo_dict not_false).symm
      simp only [or_comm]
    | _ => exact .ok _ (not_leadsTo rfl not_false)

end Handover.Value
