import Handover.Value.Plain

namespace Handover.Value

/-- What a value is made of. The value behind a member is no piece of it. -/
def pieces : Value → List Value
  | model content => [content]
  | list items | tuple items | set items | frozenSet items => items
  | dict entries => entries.map (·.1) ++ entries.map (·.2)
  | record _ fields => fields
  | _ => []

/-- The pieces of a value that are not keys. -/
def parts : Value → List Value
  | dict entries => entries.map (·.2)
  | v => v.pieces

/-- The parts of a value that a copy goes into. -/
def copiedParts : Value → List Value
  | list items | tuple items => items
  | dict entries => entries.map (·.2)
  | record _ fields => fields
  | _ => []

/-- Whether something holds of a value and of all that it is made of. -/
inductive Throughout (P : Value → Prop) : Value → Prop
  | intro {v : Value} (here : P v) (each : ∀ u ∈ v.pieces, Throughout P u) : Throughout P v

/-- Whether going from values to some of their parts leads to one that something holds of. -/
inductive LeadsTo (step : Value → List Value) (P : Value → Prop) : Value → Prop
  | here {v : Value} (holds : P v) : LeadsTo step P v
  | there {v u : Value} (next : u ∈ step v) (further : LeadsTo step P u) : LeadsTo step P v

/-- Whether a key is a record or a tuple that holds one. -/
inductive HoldsRecord : Value → Prop
  | record (shape : Shape) (fields : List Value) : HoldsRecord (record shape fields)
  | tuple {items : List Value} {v : Value} (item : v ∈ items) (holds : HoldsRecord v) :
    HoldsRecord (tuple items)

/-- Whether a value is a dictionary with a key that holds a record. -/
def HasRecordKey : Value → Prop
  | dict entries => ∃ entry ∈ entries, HoldsRecord entry.1
  | _ => False

/-- Whether a dictionary that is copied with a value has a key that is none after the copy. -/
abbrev LosesKey (v : Value) : Prop :=
  v.LeadsTo copiedParts HasRecordKey

/-- Whether a value is an object that cannot be copied. -/
def Stuck [Copier] : Value → Prop
  | foreign object => Copier.foreign object = none
  | _ => False

/-- Whether there is an object that cannot be copied in a value. -/
abbrev HoldsStuck [Copier] (v : Value) : Prop :=
  v.LeadsTo pieces Stuck

/-- Whether keys and members of sets can be that, and a record has all of its fields. -/
def Fits : Value → Prop
  | set items | frozenSet items => ∀ v ∈ items, unhashable? v = none
  | dict entries => ∀ entry ∈ entries, unhashable? entry.1 = none
  | record shape fields => fields.length = shape.fieldNames.length
  | _ => True

abbrev WellFormed (v : Value) : Prop :=
  v.Throughout Fits

variable {step : Value → List Value} {P : Value → Prop} {u v : Value}
variable {entries : List (Value × Value)}

theorem parts_subset_pieces (v : Value) : v.parts ⊆ v.pieces := by
  cases v with
  | dict entries => exact List.subset_append_right _ _
  | _ => exact List.Subset.refl _

theorem key_mem_pieces {entry : Value × Value} (h : entry ∈ entries) :
    entry.1 ∈ (dict entries).pieces :=
  List.mem_append_left _ (List.mem_map_of_mem h)

theorem value_mem_parts {entry : Value × Value} (h : entry ∈ entries) :
    entry.2 ∈ (dict entries).parts :=
  List.mem_map_of_mem h

theorem weight_lt_of_mem {vs : List Value} (h : v ∈ vs) : weight v < weightOfItems vs := by
  induction vs with
  | nil => cases h
  | cons w rest ih =>
    simp only [weightOfItems]
    obtain rfl | later := List.mem_cons.mp h
    · omega
    · have := ih later
      omega

theorem weight_lt_of_entry {entry : Value × Value} (h : entry ∈ entries) :
    weight entry.1 + weight entry.2 < weightOfEntries entries := by
  induction entries with
  | nil => cases h
  | cons first rest ih =>
    have sum : weightOfEntries (first :: rest) =
        weight first.1 + weight first.2 + weightOfEntries rest + 1 := rfl
    obtain rfl | later := List.mem_cons.mp h
    · omega
    · have := ih later
      omega

/-- Values get smaller toward their pieces. -/
theorem weight_lt_of_piece (h : u ∈ v.pieces) : weight u < weight v := by
  cases v with
  | model content =>
    obtain rfl := List.mem_singleton.mp h
    exact Nat.lt_succ_self _
  | list | tuple | set | frozenSet | record => exact Nat.lt_succ_of_lt (weight_lt_of_mem h)
  | dict entries =>
    have entry : ∃ e ∈ entries, e.1 = u ∨ e.2 = u := by
      simpa [pieces, or_and_right, exists_or, and_or_left] using h
    obtain ⟨e, he, same⟩ := entry
    have := weight_lt_of_entry he
    have : weight u ≤ weight e.1 + weight e.2 := by
      rcases same with rfl | rfl <;> omega
    simp only [weight]
    omega
  | _ => cases h

/-- What passes from all lighter values to a value holds of every value. -/
theorem by_weight {P : Value → Prop} (next : ∀ v, (∀ u, weight u < weight v → P u) → P v)
    (v : Value) : P v :=
  (measure weight).wf.induction v next

/-- What passes from its pieces to a value holds of every value. -/
theorem by_pieces {P : Value → Prop} (next : ∀ v, (∀ u ∈ v.pieces, P u) → P v) (v : Value) :
    P v :=
  by_weight (fun v ih => next v fun u hu => ih u (weight_lt_of_piece hu)) v

namespace Throughout

theorem single (none : v.pieces = []) (h : P v) : v.Throughout P :=
  .intro h (by simp [none])

theorem holds (h : v.Throughout P) : P v := by
  cases h with
  | intro here each => exact here

theorem piece (h : v.Throughout P) (next : u ∈ v.pieces) : u.Throughout P := by
  cases h with
  | intro here each => exact each u next

theorem part (h : v.Throughout P) (next : u ∈ v.parts) : u.Throughout P :=
  h.piece (parts_subset_pieces v next)

end Throughout

theorem throughout_dict : (dict entries).Throughout P ↔
    P (dict entries) ∧ ∀ entry ∈ entries, entry.1.Throughout P ∧ entry.2.Throughout P := by
  constructor
  · intro h
    exact ⟨h.holds, fun entry he => ⟨h.piece (key_mem_pieces he), h.part (value_mem_parts he)⟩⟩
  · rintro ⟨here, each⟩
    refine .intro here fun u hu => ?_
    rcases List.mem_append.mp hu with hk | hv
    · obtain ⟨entry, he, rfl⟩ := List.mem_map.mp hk
      exact (each entry he).1
    · obtain ⟨entry, he, rfl⟩ := List.mem_map.mp hv
      exact (each entry he).2

theorem leadsTo_iff : v.LeadsTo step P ↔ P v ∨ ∃ u ∈ step v, u.LeadsTo step P := by
  constructor
  · rintro (holds | ⟨next, further⟩)
    · exact Or.inl holds
    · exact Or.inr ⟨_, next, further⟩
  · rintro (holds | ⟨u, next, further⟩)
    · exact .here holds
    · exact .there next further

theorem leadsTo_parts_iff (here : ¬P v) : v.LeadsTo step P ↔ ∃ u ∈ step v, u.LeadsTo step P :=
  leadsTo_iff.trans (or_iff_right here)

theorem not_leadsTo (none : step v = []) (here : ¬P v) : ¬v.LeadsTo step P := by
  rw [leadsTo_parts_iff here, none]
  simp

theorem exists_mem_map {α β : Type} {f : α → β} {rows : List α} {P : β → Prop} :
    (∃ b ∈ rows.map f, P b) ↔ ∃ row ∈ rows, P (f row) := by
  constructor
  · rintro ⟨_, hb, holds⟩
    obtain ⟨row, hr, rfl⟩ := List.mem_map.mp hb
    exact ⟨row, hr, holds⟩
  · rintro ⟨row, hr, holds⟩
    exact ⟨f row, List.mem_map_of_mem hr, holds⟩

theorem leadsTo_dict (here : ¬P (dict entries)) : (dict entries).LeadsTo pieces P ↔
    ∃ entry ∈ entries, entry.1.LeadsTo pieces P ∨ entry.2.LeadsTo pieces P := by
  refine (leadsTo_parts_iff here).trans ?_
  simp only [pieces, List.mem_append, or_and_right, exists_or, and_or_left]
  exact or_congr exists_mem_map exists_mem_map

theorem losesKey_record {shape : Shape} {fields : List Value} :
    (record shape fields).LosesKey ↔ ∃ v ∈ fields, v.LosesKey :=
  leadsTo_parts_iff not_false

theorem losesKey_dict : (dict entries).LosesKey ↔
    ∃ entry ∈ entries, HoldsRecord entry.1 ∨ entry.2.LosesKey := by
  simp only [and_or_left, exists_or]
  exact leadsTo_iff.trans (or_congr_right (exists_mem_map (P := LosesKey)))

end Handover.Value
