import Handover.Proofs.Writing

namespace Handover

namespace Value

variable {v w : Value}

/-- Whether a key is a single value: null, a truth value, a number, a text, an identifier or a
member that stands for a text. -/
def IsScalar : Value → Prop
  | null | bool _ | int _ | float _ | str _ | uuid _ | member _ => True
  | made v => (keyText? v).isSome
  | _ => False

/-- Whether two values differ at most in the order of the entries of dictionaries whose keys are
scalars with different texts. -/
inductive Reordered : Value → Value → Prop
  | same (v : Value) : Reordered v v
  | model {v w : Value} (content : Reordered v w) : Reordered (model v) (model w)
  | list (pairs : List (Value × Value)) (each : ∀ pair ∈ pairs, Reordered pair.1 pair.2) :
    Reordered (list (pairs.map (·.1))) (list (pairs.map (·.2)))
  | tuple (pairs : List (Value × Value)) (each : ∀ pair ∈ pairs, Reordered pair.1 pair.2) :
    Reordered (tuple (pairs.map (·.1))) (tuple (pairs.map (·.2)))
  | set (pairs : List (Value × Value)) (each : ∀ pair ∈ pairs, Reordered pair.1 pair.2) :
    Reordered (set (pairs.map (·.1))) (set (pairs.map (·.2)))
  | frozenSet (pairs : List (Value × Value)) (each : ∀ pair ∈ pairs, Reordered pair.1 pair.2) :
    Reordered (frozenSet (pairs.map (·.1))) (frozenSet (pairs.map (·.2)))
  | record (shape : Shape) (pairs : List (Value × Value))
    (each : ∀ pair ∈ pairs, Reordered pair.1 pair.2) :
    Reordered (record shape (pairs.map (·.1))) (record shape (pairs.map (·.2)))
  | dict (rows : List (Value × Value × Value)) (others : List (Value × Value))
    (scalar : ∀ row ∈ rows, IsScalar row.1) (distinct : (rows.map (keyName ·.1)).Nodup)
    (each : ∀ row ∈ rows, Reordered row.2.1 row.2.2)
    (perm : (rows.map fun row => (row.1, row.2.2)).Perm others) :
    Reordered (dict (rows.map fun row => (row.1, row.2.1))) (dict others)

theorem exists_pairs_iff {pairs : List (Value × Value)} {P : Value → Prop}
    (each : ∀ pair ∈ pairs, P pair.1 ↔ P pair.2) :
    (∃ v ∈ pairs.map (·.1), P v) ↔ ∃ v ∈ pairs.map (·.2), P v := by
  rw [exists_mem_map, exists_mem_map]
  exact exists_congr fun pair => and_congr_right (each pair)

/-- A reordered value loses a key in a copy if the other one does. -/
theorem Reordered.losesKey (h : Reordered v w) : v.LosesKey ↔ w.LosesKey := by
  induction h with
  | same v => exact Iff.rfl
  | model | set | frozenSet =>
    exact iff_of_false (not_leadsTo rfl not_false) (not_leadsTo rfl not_false)
  | list pairs _ ih | tuple pairs _ ih =>
    exact (leadsTo_parts_iff not_false).trans
      ((exists_pairs_iff ih).trans (Iff.symm (leadsTo_parts_iff not_false)))
  | record shape pairs _ ih =>
    rw [losesKey_record, losesKey_record]
    exact exists_pairs_iff ih
  | dict rows others scalar _ _ perm ih =>
    rw [losesKey_dict, losesKey_dict]
    simp only [← perm.mem_iff, exists_mem_map]
    exact exists_congr fun row => and_congr_right fun hr => or_congr_right (ih row hr)

/-- A faithful copy is like its original, and it fails only where a key is lost. -/
theorem settled (v : Value) : v.Throughout Settled := by
  induction v using by_pieces with
  | next v ih => exact .intro (by cases v <;> trivial) ih

theorem CopyFault.eq_unhashable {failure : Failure} (h : CopyFault failure) :
    failure = .unhashable "dict" := by
  obtain same | ⟨_, ⟨⟩, _⟩ := h
  exact same

theorem plain_record_whole {shape : Shape} {fields : List Value}
    (fits : (record shape fields).WellFormed) (keeps : ¬(record shape fields).LosesKey) :
    plain (record shape fields) =
      (fun items => dict (fieldEntries shape items)) <$> fields.mapM plain := by
  have free : ¬(record shape fields).HoldsStuck := fun stuck => by
    obtain ⟨_, failed, _⟩ := (rebuilt_failsIff _).fails stuck
    cases failed.symm.trans (rebuilt_of_settled (settled _))
  obtain ⟨copies, runs, run⟩ := plain_record_kept fits keeps free
  cases runs.symm.trans (mapM_eq_self fun v _ => renewed_of_settled (settled v))
  exact run

/-- What is written for a value, which may have no plain form; and that may have no text. -/
def written (v : Value) : Except Failure (Except Failure (List Char)) :=
  Json.encoded <$> v.plain

/-- What is written for a list, of what is written for its items. -/
def writtenList (bodies : List (Except Failure (List Char))) : Except Failure (List Char) :=
  (fun texts => '[' :: Json.separated texts ++ [']']) <$> bodies.mapM id

/-- What is written for an entry, with the text of its key. -/
def writtenEntry (entry : Value × Value) :
    Except Failure (String × Except Failure (List Char)) := do
  let k ← plain entry.1
  let body ← written entry.2
  pure (k.display, body)

theorem written_list {items : List Value} (run : v.plain = list <$> items.mapM plain) :
    written v = writtenList <$> items.mapM written := by
  have each : items.mapM written = List.map Json.encoded <$> items.mapM plain :=
    (map_mapM Json.encoded plain items).symm
  have text : ∀ ws, Json.encoded (list ws) = writtenList (ws.map Json.encoded) := fun ws => by
    rw [Json.encoded, Json.encodedItems_eq_mapM, writtenList, List.mapM_map]
    rfl
  rw [written, run, each]
  cases items.mapM plain with
  | error failure => rfl
  | ok ws => exact congrArg Except.ok (text ws)

theorem written_record {shape : Shape} {fields : List Value}
    (fits : (record shape fields).WellFormed) (keeps : ¬(record shape fields).LosesKey) :
    written (record shape fields) =
      (fun bodies => Json.object (named (shape.fieldNames.zip bodies))) <$> fields.mapM written := by
  have each : fields.mapM written = List.map Json.encoded <$> fields.mapM plain :=
    (map_mapM Json.encoded plain fields).symm
  rw [written, plain_record_whole fits keeps, each]
  cases fields.mapM plain with
  | error failure => rfl
  | ok ws =>
    refine congrArg Except.ok ?_
    dsimp only
    rw [fieldEntries_eq, Json.encoded_named, List.zip_map_right]
    rfl

theorem writtenEntry_eq (entry : Value × Value) :
    writtenEntry entry = (fun row => (row.1, Json.encoded row.2)) <$> plainEntry entry := by
  rw [writtenEntry, plainEntry, written]
  cases plain entry.1 with
  | error failure => rfl
  | ok k => cases plain entry.2 <;> rfl

theorem writtenEntry_congr (k : Value) (same : written v = written w) :
    writtenEntry (k, v) = writtenEntry (k, w) := by
  rw [writtenEntry, writtenEntry, same]

theorem names_of_mapM {α : Type} {f : Value × Value → Except Failure (String × α)}
    (names : ∀ entry row, f entry = .ok row → keyName entry.1 = some row.1)
    {entries : List (Value × Value)} {rows : List (String × α)} (run : entries.mapM f = .ok rows) :
    entries.map (keyName ·.1) = (rows.map (·.1)).map some := by
  have each : List.Forall₂ (fun entry row => keyName entry.1 = some row.1) entries rows :=
    forall₂_of_mapM run fun entry _ => names entry
  rw [List.map_map, ← List.forall₂_eq_eq_eq, List.forall₂_map_left_iff, List.forall₂_map_right_iff]
  exact each

theorem keyName_of_writtenEntry {entry : Value × Value} {row : String × Except Failure (List Char)}
    (run : writtenEntry entry = .ok row) : keyName entry.1 = some row.1 := by
  rw [writtenEntry_eq] at run
  obtain ⟨row', plainly, rfl⟩ := ok_of_map run
  exact (keyName_of_plainEntry plainly).1

theorem written_dict {entries : List (Value × Value)}
    (distinct : (entries.map (keyName ·.1)).Nodup) : written (dict entries) =
      (fun bodies => Json.object (named bodies)) <$> entries.mapM writtenEntry := by
  have each : entries.mapM writtenEntry =
      List.map (fun row => (row.1, Json.encoded row.2)) <$> entries.mapM plainEntry := by
    rw [map_mapM]
    exact mapM_congr fun entry _ => writtenEntry_eq entry
  rw [written, plain, plainEntries_eq_mapM, each]
  cases run : entries.mapM plainEntry with
  | error failure => rfl
  | ok rows =>
    have names : (rows.map (·.1)).Nodup := by
      rw [names_of_mapM (fun _ _ h => (keyName_of_plainEntry h).1) run] at distinct
      exact distinct.of_map some
    refine congrArg Except.ok ?_
    show Json.encoded (dict (named (merged rows []))) = _
    rw [merged_distinct (by simpa using names), List.nil_append, Json.encoded_named]

theorem object_perm {bodies others : List (String × Except Failure (List Char))}
    (perm : bodies.Perm others) (distinct : (bodies.map (·.1)).Nodup) :
    Json.object (named bodies) = Json.object (named others) := by
  have distinct' : (others.map (·.1)).Nodup := (perm.map _).nodup_iff.mp distinct
  have sorted : inNameOrder bodies = inNameOrder others :=
    (inNameOrder_inOrder bodies).unique (inNameOrder_inOrder others)
      (((inNameOrder_perm bodies).trans perm).trans (inNameOrder_perm others).symm)
      (((inNameOrder_perm others).map _).nodup_iff.mpr distinct')
  rw [Json.object, Json.object, inKeyOrder_eq distinct, inKeyOrder_eq distinct', sorted]

theorem failure_of_mapM {entries : List (Value × Value)} {failure : Failure}
    (fits : ∀ entry ∈ entries, entry.1.WellFormed ∧ entry.2.WellFormed)
    (run : entries.mapM writtenEntry = .error failure) : failure = .unhashable "dict" := by
  have each : ∀ entry ∈ entries, FailsIff (· = .unhashable "dict")
      (entry.1.LeadsTo pieces Uncopyable ∨ entry.2.LeadsTo pieces Uncopyable)
      (writtenEntry entry) := by
    intro entry he
    obtain ⟨key, value⟩ := fits entry he
    rw [writtenEntry_eq]
    exact ((plainEntry_failsIff (plain_failsIff key) (plain_failsIff value)).map _).weaken
      fun _ => CopyFault.eq_unhashable
  exact (FailsIff.mapM (List.forall₂_same.mpr each)).allowed_of_error run

/-- The order of the entries does not show in what is written for a dictionary. -/
theorem written_perm {entries others : List (Value × Value)} (perm : entries.Perm others)
    (fits : ∀ entry ∈ others, entry.1.WellFormed ∧ entry.2.WellFormed)
    (distinct : (entries.map (keyName ·.1)).Nodup) :
    written (dict entries) = written (dict others) := by
  have distinct' : (others.map (keyName ·.1)).Nodup := (perm.map _).nodup_iff.mp distinct
  rw [written_dict distinct, written_dict distinct']
  cases run : entries.mapM writtenEntry with
  | ok bodies =>
    obtain ⟨bodies', run', perm'⟩ := mapM_perm perm run
    have names : (bodies.map (·.1)).Nodup := by
      rw [names_of_mapM (fun _ _ => keyName_of_writtenEntry) run] at distinct
      exact distinct.of_map some
    rw [run']
    exact congrArg Except.ok (object_perm perm' names)
  | error failure =>
    -- Another entry may be the first to fail, but there is only one way to fail.
    cases run' : others.mapM writtenEntry with
    | ok bodies' =>
      obtain ⟨bodies, other, _⟩ := mapM_perm perm.symm run'
      cases run.symm.trans other
    | error failure' =>
      rw [failure_of_mapM (fun entry he => fits entry (perm.mem_iff.mp he)) run,
        failure_of_mapM fits run']

theorem written_pairs {pairs : List (Value × Value)}
    (each : ∀ pair ∈ pairs, written pair.1 = written pair.2) :
    (pairs.map (·.1)).mapM written = (pairs.map (·.2)).mapM written := by
  rw [List.mapM_map, List.mapM_map]
  exact mapM_congr each

/-- What is written for a value does not depend on the order of its entries. -/
theorem Reordered.written_eq (h : Reordered v w) (fv : v.WellFormed) (fw : w.WellFormed) :
    written v = written w := by
  induction h with
  | same v => rfl
  | @model v w _ ih =>
    have inner := ih (fv.piece List.mem_cons_self) (fw.piece List.mem_cons_self)
    rw [written, written, plain, plain]
    exact inner
  | list pairs _ ih | tuple pairs _ ih | set pairs _ ih | frozenSet pairs _ ih =>
    have same : (pairs.map (·.1)).mapM written = (pairs.map (·.2)).mapM written :=
      written_pairs fun pair hp => ih pair hp (fv.piece (List.mem_map_of_mem hp))
        (fw.piece (List.mem_map_of_mem hp))
    rw [written_list (by rw [plain, plainItems_eq_mapM]), same,
      written_list (by rw [plain, plainItems_eq_mapM])]
  | record shape pairs each ih =>
    have same : (pairs.map (·.1)).mapM written = (pairs.map (·.2)).mapM written :=
      written_pairs fun pair hp => ih pair hp (fv.piece (List.mem_map_of_mem hp))
        (fw.piece (List.mem_map_of_mem hp))
    have alike := (Reordered.record shape pairs each).losesKey
    by_cases loses : (Value.record shape (pairs.map (·.1))).LosesKey
    · obtain ⟨failure, failed, fault⟩ := plain_record_lost fv (Or.inl loses)
      obtain ⟨failure', failed', fault'⟩ := plain_record_lost fw (Or.inl (alike.mp loses))
      rw [written, written, failed, failed', fault.eq_unhashable, fault'.eq_unhashable]
    · rw [written_record fv loses, written_record fw (mt alike.mpr loses), same]
  | dict rows others scalar distinct each perm ih =>
    have fits : ∀ entry ∈ others, entry.1.WellFormed ∧ entry.2.WellFormed :=
      (throughout_dict.mp fw).2
    have names : ((rows.map fun row => (row.1, row.2.2)).map (keyName ·.1)).Nodup := by
      rw [List.map_map]
      exact distinct
    have names' : ((rows.map fun row => (row.1, row.2.1)).map (keyName ·.1)).Nodup := by
      rw [List.map_map]
      exact distinct
    -- The values are exchanged place by place before the entries change their order.
    refine Eq.trans ?_ (written_perm perm fits names)
    rw [written_dict names', written_dict names, List.mapM_map, List.mapM_map]
    refine congrArg _ (mapM_congr fun row hr => ?_)
    have before := (throughout_dict.mp fv).2 _ (List.mem_map_of_mem hr)
    have after := fits _ (perm.mem_iff.mp (List.mem_map_of_mem hr))
    exact writtenEntry_congr row.1 (ih row hr before.2 after.2)

end Value

namespace Json

open Value

/-- The line around what is written for the content of a record. -/
def lineAround (type : RecordType) (body : Except Failure (List Char)) : Except Failure String :=
  String.ofList <$> object (named [("type", encoded (.str type.text)), ("data", body)])

theorem line_eq_written (type : RecordType) (v : Value) :
    line type v = written v >>= lineAround type := by
  rw [line, written]
  cases v.plain with
  | error failure => rfl
  | ok data =>
    show (encoded (.dict (named [("type", .str type.text), ("data", data)])) >>= _) = _
    rw [encoded_named]
    rfl

end Json

end Handover
