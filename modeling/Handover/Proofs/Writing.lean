import Handover.Json.Line
import Handover.Proofs.Copies

namespace Handover

namespace Value

variable {α β γ δ : Type} {v w u : Value} {items : List Value} {entries : List (Value × Value)}
variable {allowed : Failure → Prop} {P : Value → Prop}

/-- The items of a list whose name is not the name of a later one. -/
def unrepeated [DecidableEq β] (name : α → β) : List α → List α
  | [] => []
  | a :: rest => if name a ∈ rest.map name then unrepeated name rest else a :: unrepeated name rest

theorem unrepeated_related [DecidableEq β] [DecidableEq δ] {R : α → γ → Prop} {f : α → β}
    {g : γ → δ} {rows : List α} {results : List γ} (h : List.Forall₂ R rows results)
    (same : ∀ a c, R a c → ∀ a' c', R a' c' → (f a' = f a ↔ g c' = g c)) :
    List.Forall₂ R (unrepeated f rows) (unrepeated g results) := by
  induction h with
  | nil => exact .nil
  | @cons a c rows results first others ih =>
    have repeated : f a ∈ rows.map f ↔ g c ∈ results.map g := by
      rw [List.mem_map, List.mem_map]
      exact exists_iff_of_forall₂ others (same a c first)
    simp only [unrepeated, repeated]
    split
    · exact ih
    · exact .cons first ih

/-- An entry is put at the end, or in the place of the one with its name. -/
theorem putText_cases (name : String) (value : Value) (done : List (String × Value)) :
    (name ∉ done.map (·.1) ∧ putText name value done = done ++ [(name, value)]) ∨
      ∃ before old after, done = before ++ (name, old) :: after ∧
        putText name value done = before ++ (name, value) :: after := by
  induction done with
  | nil => exact Or.inl ⟨List.not_mem_nil, rfl⟩
  | cons entry done ih =>
    obtain ⟨first, old⟩ := entry
    rw [putText]
    split
    next same => exact Or.inr ⟨[], old, done, by rw [same]; rfl, by rw [same]; rfl⟩
    next other =>
      obtain ⟨fresh, run⟩ | ⟨before, old', after, split, run⟩ := ih
      · exact Or.inl ⟨by simp [Ne.symm other, fresh], by rw [run]; rfl⟩
      · exact Or.inr ⟨(first, old) :: before, old', after, by rw [split]; rfl, by rw [run]; rfl⟩

theorem putText_distinct {done : List (String × Value)} (distinct : (done.map (·.1)).Nodup)
    (name : String) (value : Value) : ((putText name value done).map (·.1)).Nodup := by
  obtain ⟨fresh, run⟩ | ⟨before, old, after, rfl, run⟩ := putText_cases name value done
  · rw [run, List.map_append]
    exact List.nodup_append_comm.mp (List.nodup_cons.mpr ⟨fresh, distinct⟩)
  · rw [run]
    simpa using distinct

theorem mem_putText {done : List (String × Value)} (distinct : (done.map (·.1)).Nodup)
    (name : String) (value : Value) (row : String × Value) :
    row ∈ putText name value done ↔ row = (name, value) ∨ row ∈ done ∧ row.1 ≠ name := by
  have named : row ∈ done → row.1 ∈ done.map (·.1) := fun hm => List.mem_map_of_mem hm
  obtain ⟨fresh, run⟩ | ⟨before, old, after, rfl, run⟩ := putText_cases name value done
  · have other : row ∈ done → row.1 ≠ name := fun hm same => fresh (same ▸ named hm)
    rw [run, List.mem_append, List.mem_singleton]
    tauto
  · have sides : name ∉ before.map (·.1) ∧ name ∉ after.map (·.1) := by
      rw [List.map_append, List.map_cons, List.nodup_middle, List.nodup_cons] at distinct
      simpa using distinct.1
    have left : row ∈ before → row.1 ≠ name := fun hm same =>
      sides.1 (same ▸ List.mem_map_of_mem hm)
    have right : row ∈ after → row.1 ≠ name := fun hm same =>
      sides.2 (same ▸ List.mem_map_of_mem hm)
    have replaced : row = (name, old) → row.1 = name := fun same => same ▸ rfl
    rw [run]
    simp only [List.mem_append, List.mem_cons]
    tauto

/-- Of the entries with one text, the last is left. -/
theorem mem_merged {rows done : List (String × Value)} (distinct : (done.map (·.1)).Nodup)
    (row : String × Value) : row ∈ merged rows done ↔
      row ∈ unrepeated (·.1) rows ∨ row ∈ done ∧ row.1 ∉ rows.map (·.1) := by
  induction rows generalizing done with
  | nil => simp [merged, unrepeated]
  | cons first rest ih =>
    have step := mem_putText distinct first.1 first.2 row
    have unfolded : merged (first :: rest) done = merged rest (putText first.1 first.2 done) := rfl
    rw [unfolded, ih (putText_distinct distinct _ _), unrepeated, step]
    split
    next repeated =>
      have hidden : row = first → row.1 ∈ rest.map (·.1) := fun same => same ▸ repeated
      simp only [List.map_cons, List.mem_cons]
      tauto
    next last =>
      have kept : row = first → row.1 ∉ rest.map (·.1) := fun same => same ▸ last
      simp only [List.map_cons, List.mem_cons]
      tauto

/-- Whether JSON has no form for a value. -/
def Unwritable : Value → Prop
  | bytes _ | foreign _ => True
  | _ => False

/-- Whether a member of another vocabulary stands for a text. -/
def Usual : Value → Prop
  | made v => (keyText? v).isSome
  | _ => True

section Copies

variable [Copier]

/-- The text that a key is written as. -/
def keyName (k : Value) : Option String :=
  k.plain.toOption.map display

/-- The parts of a value that are written with it. An entry is hidden by a later one with the same
text for a key; the fields of a record are those of its copy. -/
def shownParts : Value → List Value
  | dict entries => (unrepeated (fun entry => keyName entry.1) entries).map (·.2)
  | record _ fields => (fields.mapM renewed).toOption.getD []
  | v => v.parts

/-- Whether a value is a record that cannot be copied. -/
def Uncopyable : Value → Prop
  | record shape fields => (record shape fields).LosesKey ∨ (record shape fields).HoldsStuck
  | _ => False

theorem Matches.uncopyable (h : Matches v w) (bad : Uncopyable v) : Uncopyable w := by
  cases h with
  | same => exact bad
  | record shape pairs each =>
    have whole := Matches.record shape pairs each
    exact bad.imp whole.losesKey_iff.mp whole.holdsStuck_iff.mp
  | _ => exact bad

theorem Matches.leadsTo_uncopyable_iff (h : Matches v w) :
    v.LeadsTo pieces Uncopyable ↔ w.LeadsTo pieces Uncopyable :=
  ⟨h.leadsTo (fun _ _ => uncopyable) fun _ _ h _ => h.piece,
    h.symm.leadsTo (fun _ _ => uncopyable) fun _ _ h _ => h.piece⟩

theorem Matches.usual (h : Matches v w) (usual : Usual v) : Usual w := by
  cases h <;> exact usual

theorem failsIff_items {f : List Value → Value}
    (each : ∀ u ∈ v.pieces, FailsIff allowed (u.LeadsTo pieces P) u.plain) (here : ¬P v)
    (run : v.plain = f <$> v.pieces.mapM plain) :
    FailsIff allowed (v.LeadsTo pieces P) v.plain := by
  rw [run]
  exact ((FailsIff.mapM (List.forall₂_same.mpr each)).map f).congr (leadsTo_parts_iff here).symm

theorem plainEntry_failsIff {bad worse : Prop} {entry : Value × Value}
    (key : FailsIff allowed bad (plain entry.1)) (value : FailsIff allowed worse (plain entry.2)) :
    FailsIff allowed (bad ∨ worse) (plainEntry entry) :=
  key.bind fun k _ => value.map fun v => (k.display, v)

/-- A value has a plain form unless a record in it cannot be copied. -/
theorem plain_failsIff (fits : v.WellFormed) :
    FailsIff CopyFault (v.LeadsTo pieces Uncopyable) v.plain := by
  induction v using by_weight with
  | next v ih =>
    have within : ∀ u ∈ v.pieces, FailsIff CopyFault (u.LeadsTo pieces Uncopyable) u.plain :=
      fun u hu => ih u (weight_lt_of_piece hu) (fits.piece hu)
    cases v with
    | list items | tuple items | set items | frozenSet items =>
      exact failsIff_items (f := list) within not_false (by rw [plain, plainItems_eq_mapM]; rfl)
    | model content =>
      rw [plain]
      exact (within content List.mem_cons_self).congr
        ((leadsTo_parts_iff not_false).trans (by simp [pieces])).symm
    | dict entries =>
      have entry : ∀ e ∈ entries, FailsIff CopyFault
          (e.1.LeadsTo pieces Uncopyable ∨ e.2.LeadsTo pieces Uncopyable) (plainEntry e) := by
        intro e he
        exact plainEntry_failsIff (within e.1 (key_mem_pieces he))
          (within e.2 (parts_subset_pieces _ (value_mem_parts he)))
      rw [plain, plainEntries_eq_mapM]
      exact (((FailsIff.mapM (List.forall₂_same.mpr entry)).map (merged · [])).map ofTexts).congr
        (leadsTo_dict not_false).symm
    | record shape fields =>
      by_cases lost : (record shape fields).LosesKey ∨ (record shape fields).HoldsStuck
      · obtain ⟨failure, failed, fault⟩ := plain_record_lost fits lost
        rw [failed]
        exact .error (.here lost) fault
      · obtain ⟨keeps, free⟩ := not_or.mp lost
        obtain ⟨copies, runs, run⟩ := plain_record_kept fits keeps free
        -- The copies are as light as the fields, but they are no pieces of the record.
        have each : List.Forall₂ (fun field copy =>
            FailsIff CopyFault (field.LeadsTo pieces Uncopyable) copy.plain) fields copies := by
          refine forall₂_of_mapM runs fun field hf copy renews => ?_
          have same := matches_of_renewed renews
          have lighter : weight copy < weight (record shape fields) :=
            same.weight_eq ▸ weight_lt_of_piece (v := record shape fields) hf
          exact (ih copy lighter (same.wellFormed (fits.piece (v := record shape fields) hf))).congr
            same.leadsTo_uncopyable_iff.symm
        have inside : (record shape fields).LeadsTo pieces Uncopyable ↔
            ∃ field ∈ fields, field.LeadsTo pieces Uncopyable := leadsTo_parts_iff lost
        rw [run]
        exact ((FailsIff.mapM each).map _).congr inside.symm
    | _ =>
      simp only [plain]
      exact .ok _ (not_leadsTo rfl not_false)

theorem keyName_of_plainEntry {entry : Value × Value} {row : String × Value}
    (run : plainEntry entry = .ok row) :
    keyName entry.1 = some row.1 ∧ plain entry.2 = .ok row.2 := by
  obtain ⟨k, key, run⟩ := ok_of_bind run
  obtain ⟨v, value, run⟩ := ok_of_bind run
  cases run
  exact ⟨by rw [keyName, key]; rfl, value⟩

end Copies

end Value

namespace Json

open Value

variable {allowed : Failure → Prop}

theorem encodedEntries_eq_map (entries : List (Value × Value)) :
    encodedEntries entries = entries.map fun entry => (entry.1, encoded entry.2) := by
  induction entries with
  | nil => rfl
  | cons entry rest ih => rw [encodedEntries, ih, List.map_cons]

theorem encodedItems_eq_mapM (items : List Value) : encodedItems items = items.mapM encoded := by
  induction items with
  | nil => rfl
  | cons v rest ih => rw [encodedItems, List.mapM_cons, ih]

/-- An object is written if all of its bodies are. -/
theorem object_failsIff {P : String × Except Failure (List Char) → Prop}
    {bodies : List (String × Except Failure (List Char))}
    (each : ∀ b ∈ bodies, FailsIff allowed (P b) b.2) :
    FailsIff allowed (∃ b ∈ bodies, P b) (object (named bodies)) := by
  obtain ⟨sorted, run, _, perm⟩ := inKeyOrder_named bodies
  have entry : ∀ b ∈ sorted, FailsIff allowed (P b)
      (b.2 >>= fun body => pure (textLiteral b.1 ++ ':' :: ' ' :: body)) := fun b hb =>
    (each b (perm.mem_iff.mp hb)).map fun body => textLiteral b.1 ++ ':' :: ' ' :: body
  have all := FailsIff.mapM (List.forall₂_same.mpr entry)
  rw [object, run]
  show FailsIff allowed _ ((named sorted).mapM _ >>= _)
  rw [named, List.mapM_map]
  exact (all.map fun parts => '\x7b' :: separated parts ++ ['\x7d']).congr (by simp [perm.mem_iff])

theorem encoded_named (rows : List (String × Value)) :
    encoded (.dict (named rows)) = object (named (rows.map fun row => (row.1, encoded row.2))) := by
  have bodies : encodedEntries (named rows) =
      named (rows.map fun row => (row.1, encoded row.2)) := by
    simp [encodedEntries_eq_map, named]
  rw [encoded, bodies]

theorem encoded_named_failsIff {rows : List (String × Value)}
    (each : ∀ row ∈ rows, FailsIff allowed (Fails (encoded row.2)) (encoded row.2)) :
    FailsIff allowed (∃ row ∈ rows, Fails (encoded row.2)) (encoded (.dict (named rows))) := by
  rw [encoded_named]
  refine (object_failsIff (P := fun b => Fails b.2) fun b hb => ?_).congr (by simp)
  obtain ⟨row, hr, rfl⟩ := List.mem_map.mp hb
  exact each row hr

theorem encoded_list_failsIff {P : Value → Prop} {causes items : List Value}
    (each : List.Forall₂ (fun v w => FailsIff allowed (P v) (encoded w)) causes items) :
    FailsIff allowed (∃ v ∈ causes, P v) (encoded (.list items)) := by
  rw [encoded, encodedItems_eq_mapM]
  exact (FailsIff.mapM each).map fun bodies => '[' :: separated bodies ++ [']']

section Copies

variable [Copier]

theorem encoded_merged_failsIff {entries : List (Value × Value)} {rows : List (String × Value)}
    (runs : entries.mapM plainEntry = .ok rows)
    (values : ∀ entry ∈ entries, ∀ row, plainEntry entry = .ok row →
      FailsIff (·.kind = "TypeError") (entry.2.LeadsTo shownParts Unwritable) (encoded row.2)) :
    FailsIff (·.kind = "TypeError") ((dict entries).LeadsTo shownParts Unwritable)
      (encoded (ofTexts (merged rows []))) := by
  have each : List.Forall₂ (fun entry row => keyName entry.1 = some row.1 ∧
      FailsIff (·.kind = "TypeError") (entry.2.LeadsTo shownParts Unwritable) (encoded row.2))
      entries rows :=
    forall₂_of_mapM runs fun entry he row hr =>
      ⟨(keyName_of_plainEntry hr).1, values entry he row hr⟩
  -- An entry is hidden in the plain form where it is hidden in the value.
  have related := unrepeated_related (f := fun entry => keyName entry.1) (g := (·.1)) each
    fun a c first a' c' other => by rw [first.1, other.1, Option.some_inj]
  have left : ∀ row, row ∈ merged rows [] ↔ row ∈ unrepeated (·.1) rows := by
    simp [mem_merged]
  have all := forall_of_forall₂ related fun _ _ h => h.2.self
  refine (encoded_named_failsIff fun row hr => all row ((left row).mp hr)).congr ?_
  simp only [left]
  rw [← exists_iff_of_forall₂ related fun _ _ h => h.2.fails_iff.symm]
  exact ((leadsTo_parts_iff not_false).trans exists_mem_map).symm

theorem encoded_record_failsIff {shape : Shape} {fields : List Value} {w : Value}
    (fits : (record shape fields).WellFormed) (run : (record shape fields).plain = .ok w)
    (values : ∀ field ∈ fields, ∀ copy, renewed field = .ok copy → ∀ w, copy.plain = .ok w →
      FailsIff (·.kind = "TypeError") (copy.LeadsTo shownParts Unwritable) (encoded w)) :
    FailsIff (·.kind = "TypeError") ((record shape fields).LeadsTo shownParts Unwritable)
      (encoded w) := by
  have whole : ¬((record shape fields).LosesKey ∨ (record shape fields).HoldsStuck) := fun lost => by
    obtain ⟨failure, failed, _⟩ := plain_record_lost fits lost
    cases failed.symm.trans run
  obtain ⟨keeps, free⟩ := not_or.mp whole
  obtain ⟨copies, renews, made⟩ := plain_record_kept fits keeps free
  rw [made] at run
  obtain ⟨ws, runs, rfl⟩ := ok_of_map run
  have copy : ∀ c ∈ copies, ∃ field ∈ fields, renewed field = .ok c := fun c hc => by
    have sources := forall₂_of_mapM (R := fun field c => field ∈ fields ∧ renewed field = .ok c)
      renews fun field hf c run => ⟨hf, run⟩
    exact forall_of_forall₂ (Q := fun c => ∃ field ∈ fields, renewed field = .ok c) sources
      (fun field c h => ⟨field, h⟩) c hc
  have related : List.Forall₂ (fun c w => FailsIff (·.kind = "TypeError")
      (c.LeadsTo shownParts Unwritable) (encoded w)) copies ws :=
    forall₂_of_mapM runs fun c hc w hw => by
      obtain ⟨field, hf, run⟩ := copy c hc
      exact values field hf c run w hw
  have length : ws.length = shape.fieldNames.length :=
    (length_of_mapM runs).trans ((length_of_mapM renews).trans fits.holds)
  have last : (shape.fieldNames.zip ws).map (·.2) = ws := List.map_snd_zip (Nat.le_of_eq length)
  have all : ∀ w ∈ ws, FailsIff (·.kind = "TypeError") (Fails (encoded w)) (encoded w) :=
    forall_of_forall₂ related fun _ _ h => h.self
  have shown : shownParts (record shape fields) = copies := by
    rw [shownParts, renews]
    rfl
  rw [fieldEntries_eq]
  refine (encoded_named_failsIff fun row hr => all _ (List.of_mem_zip hr).2).congr ?_
  rw [← exists_mem_map (P := fun w => Fails (encoded w)), last,
    ← exists_iff_of_forall₂ related fun _ _ h => h.fails_iff.symm, leadsTo_parts_iff not_false, shown]

/-- The plain form of a value can be written unless it shows a value that cannot be. -/
theorem encoded_failsIff {v w : Value} (fits : v.WellFormed) (usual : v.Throughout Usual)
    (run : v.plain = .ok w) : FailsIff (·.kind = "TypeError")
      (v.LeadsTo shownParts Unwritable) (encoded w) := by
  induction v using by_weight generalizing w with
  | next v ih =>
    have within : ∀ u ∈ v.parts, ∀ w, u.plain = .ok w → FailsIff (·.kind = "TypeError")
        (u.LeadsTo shownParts Unwritable) (encoded w) := fun u hu w =>
      ih u (weight_lt_of_piece (parts_subset_pieces v hu)) (fits.part hu) (usual.part hu)
    cases v with
    | list items | tuple items | set items | frozenSet items =>
      rw [plain, plainItems_eq_mapM] at run
      obtain ⟨ws, runs, rfl⟩ := ok_of_map run
      exact (encoded_list_failsIff (forall₂_of_mapM runs within)).congr
        (Iff.symm (leadsTo_parts_iff not_false))
    | bytes | foreign =>
      simp only [plain] at run
      cases run
      exact .error (.here trivial) rfl
    | model content =>
      rw [plain] at run
      exact (within content List.mem_cons_self w run).congr
        ((leadsTo_parts_iff not_false).trans (by simp [shownParts, parts, pieces])).symm
    | made v =>
      have text : (keyText? v).isSome := usual.holds
      simp only [plain] at run
      cases run
      cases w with
      | str | member => exact .ok _ (not_leadsTo rfl not_false)
      | _ => exact absurd text Bool.false_ne_true
    | dict entries =>
      rw [plain, plainEntries_eq_mapM] at run
      obtain ⟨_, merges, rfl⟩ := ok_of_map run
      obtain ⟨rows, runs, rfl⟩ := ok_of_map merges
      exact encoded_merged_failsIff runs fun entry he row hr =>
        within _ (List.mem_map_of_mem he) _ (keyName_of_plainEntry hr).2
    | record shape fields =>
      exact encoded_record_failsIff fits run fun field hf copy renews w hw => by
        have same := matches_of_renewed renews
        have lighter : weight copy < weight (record shape fields) :=
          same.weight_eq ▸ weight_lt_of_piece (v := record shape fields) hf
        exact ih copy lighter (same.wellFormed (fits.piece (v := record shape fields) hf))
          (same.throughout (fun _ _ => Matches.usual) (usual.piece (v := record shape fields) hf)) hw
    | _ =>
      simp only [plain] at run
      cases run
      exact .ok _ (not_leadsTo rfl not_false)

end Copies

/-- Unknown objects that cannot be copied. -/
abbrev stuck : Copier where
  order := id
  order_perm := .refl
  foreign _ := none
  sameType := nofun
  again := nofun

end Json

end Handover
