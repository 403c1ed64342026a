import Handover.Proofs.Reading
import Handover.Proofs.Workspace

namespace Handover

namespace Value

theorem plainItems_eq {items : List Value} (each : ∀ v ∈ items, plain v = .ok v) :
    plainItems items = .ok items := by
  induction items with
  | nil => rw [plainItems]; rfl
  | cons v rest ih =>
    rw [plainItems, each v List.mem_cons_self, ih fun w hw => each w (List.mem_cons_of_mem _ hw)]
    rfl

theorem plainEntries_eq {entries : List (String × Value)}
    (each : ∀ entry ∈ entries, plain entry.2 = .ok entry.2) (done : List (String × Value))
    (distinct : ((done ++ entries).map (·.1)).Nodup) :
    plainEntries (named entries) done = .ok (done ++ entries) := by
  induction entries generalizing done with
  | nil =>
    rw [List.append_nil, named, List.map_nil, plainEntries]
    rfl
  | cons entry rest ih =>
    have fresh : entry.1 ∉ done.map (·.1) := by
      rw [List.map_append, List.map_cons, List.nodup_append] at distinct
      exact fun hm => distinct.2.2 _ hm _ List.mem_cons_self rfl
    have key : plain (str entry.1) = .ok (str entry.1) := by
      simp only [plain]
      rfl
    have others := ih (fun e he => each e (List.mem_cons_of_mem _ he)) (done ++ [entry])
      (by simpa using distinct)
    rw [named_cons, plainEntries, key, each entry List.mem_cons_self]
    show plainEntries (named rest) (putText entry.1 entry.2 done) = _
    rw [putText_fresh fresh, others]
    simp

/-- Values that JSON is made of are plain already. -/
theorem IsJson.plain_eq {v : Value} (h : v.IsJson) : plain v = .ok v := by
  induction h with
  | list items _ each =>
    rw [plain, plainItems_eq each]
    rfl
  | dict entries distinct _ each =>
    rw [plain, plainEntries_eq each [] distinct]
    rfl
  | _ =>
    simp only [plain]
    rfl

end Value

namespace Json

open Value

def lineFields (type : RecordType) (content : Value) : List (String × Value) :=
  [("type", .str type.text), ("data", content)]

/-- What is written as the line of a record. -/
def lineRecord (type : RecordType) (content : Value) : Value :=
  .dict (named (lineFields type content))

/-- What is read from the line of a record. -/
def lineContent (type : RecordType) (content : Value) : Value :=
  ofTexts [("data", arranged content), ("type", .str type.text)]

theorem lineFields_distinct (type : RecordType) (content : Value) :
    ((lineFields type content).map (·.1)).Nodup := by
  simp [lineFields]

theorem lineFields_isJson (type : RecordType) {content : Value} (h : content.IsJson) :
    ∀ entry ∈ lineFields type content, entry.2.IsJson := by
  intro entry he
  simp only [lineFields, List.mem_cons, List.not_mem_nil, or_false] at he
  rcases he with rfl | rfl
  · exact .str _
  · exact h

theorem lineRecord_readable (type : RecordType) {content : Value} (h : content.IsJson) :
    Readable (lineRecord type content) :=
  readable (.dict _ (lineFields_distinct type content) (lineFields_isJson type h))

theorem arranged_lineRecord (type : RecordType) (content : Value) :
    arranged (lineRecord type content) = lineContent type content := by
  have ordered : InOrder [("data", content), ("type", Value.str type.text)] :=
    List.pairwise_pair.mpr (show "data" ≤ "type" by decide)
  have order : inNameOrder (lineFields type content) =
      [("data", content), ("type", .str type.text)] :=
    (inNameOrder_inOrder _).unique ordered ((inNameOrder_perm _).trans (.swap _ _ _)) (by simp)
  rw [lineRecord, arranged_dict, order]
  rfl

theorem line_eq (type : RecordType) {content : Value} (h : content.IsJson) :
    line type content = .ok (String.ofList (body (lineRecord type content))) := by
  have written := (lineRecord_readable type h).encoded
  rw [line, h.plain_eq]
  show (encoded (lineRecord type content) >>= fun body => pure (String.ofList body)) = _
  rw [written]
  rfl

/-- A text that starts with a brace and is the text of a value is read as that value. -/
theorem read_body {v : Value} (h : Readable v) {more : List Char}
    (starts : body v = '\x7b' :: more) : read (String.ofList (body v)) = .ok (arranged v) := by
  obtain ⟨offset, reads⟩ := h.reads [] 0 (2 * (body v).length + 2) (by simp [Stops]) (by omega)
  have start : Cursor.skipBlanks ⟨'\x7b' :: more, 0⟩ = ⟨'\x7b' :: more, 0⟩ :=
    skipBlanks_none more 0 rfl
  rw [List.append_nil, starts] at reads
  rw [starts, read, String.toList_ofList]
  show (readValue (2 * ('\x7b' :: more).length + 2) (Cursor.skipBlanks ⟨'\x7b' :: more, 0⟩) >>=
    fun reading => if reading.2.skipBlanks.rest.isEmpty then pure reading.1
      else .error reading.2.skipBlanks.offset) = _
  rw [start, reads]
  rfl

/-- The line of a record is read as a dictionary with its type and its content. -/
theorem read_line (type : RecordType) {content : Value} (h : content.IsJson) :
    ∃ text, line type content = .ok text ∧ read text = .ok (lineContent type content) := by
  have starts := body_eq (encoded_dict (lineFields_distinct type content)
    fun entry he => readable (lineFields_isJson type h entry he))
  refine ⟨_, line_eq type h, ?_⟩
  rw [read_body (lineRecord_readable type h) starts, arranged_lineRecord]

end Json

namespace Workspace

open Value (arranged ofTexts)

/-- Opens a workspace for a tenant and saves records to one of its files. -/
def writing (tenant : Uuid) (file : RecordType) (rows : List (RecordType × Value)) :
    Act Workspace Unit := do
  prepare tenant
  rows.forM fun row => save tenant file row.1 row.2

/-- The text of the file after that. -/
def fileText (w : Workspace) (tenant : Uuid) (file : RecordType)
    (rows : List (RecordType × Value)) : String :=
  textAt ((writing tenant file rows).outcome w).2.tree (w.filePath tenant file)

/-- The lines of records; those that cannot be written are left out. -/
def linesOf (rows : List (RecordType × Value)) : List String :=
  rows.filterMap fun row => (Json.line row.1 row.2).toOption

variable {w : Workspace} {tenant : Uuid} {file : RecordType} {rows : List (RecordType × Value)}

/-- Records that can be written are saved line by line. -/
theorem outcome_saves (file : RecordType) {saved : List (RecordType × String)} (h : w.Sound)
    (hw : w.Holds tenant (.lines saved))
    (each : ∀ row ∈ rows, ∃ line, Json.line row.1 row.2 = .ok line) :
    ∃ w', (rows.forM fun row => save tenant file row.1 row.2).outcome w = (.ok (), w') ∧
      Changed tenant w w' (.lines (saved ++ (linesOf rows).map (file, ·))) := by
  induction rows generalizing w saved with
  | nil => exact ⟨w, rfl, h, .refl w tenant, by simpa [linesOf] using hw⟩
  | cons row rest ih =>
    obtain ⟨line, written⟩ := each row List.mem_cons_self
    have change := withLine_changed h hw file line
    obtain ⟨w', run, others⟩ := ih change.sound change.holds
      fun r hr => each r (List.mem_cons_of_mem _ hr)
    refine ⟨w', ?_, ?_⟩
    · show (save tenant file row.1 row.2 >>= fun _ =>
        rest.forM fun row => save tenant file row.1 row.2).outcome w = _
      rw [Act.outcome_bind_ok (outcome_save h hw written), run]
    · have lines : linesOf (row :: rest) = line :: linesOf rest := by
        simp [linesOf, written, Except.toOption]
      rw [lines, List.map_cons, ← List.singleton_append, ← List.append_assoc]
      exact change.trans others

/-- All records are saved, and the file has their lines. -/
theorem outcome_writing (h : w.Sound) (tenant : Uuid) (file : RecordType)
    (each : ∀ row ∈ rows, ∃ line, Json.line row.1 row.2 = .ok line) :
    ((writing tenant file rows).outcome w).1 = .ok () ∧
      w.fileText tenant file rows = Holding.textOf (linesOf rows) := by
  have opened := prepared_changed h tenant
  obtain ⟨w', run, change⟩ := outcome_saves file opened.sound opened.holds each
  have whole : (writing tenant file rows).outcome w = (.ok (), w') := by
    rw [writing, Act.outcome_bind_ok (outcome_prepare w tenant), run]
  have path : w.filePath tenant file = w'.filePath tenant file := by
    rw [filePath_eq, filePath_eq, change.beside.tenantPath_eq, opened.beside.tenantPath_eq]
  have lines : Holding.linesOf ([] ++ (linesOf rows).map (file, ·)) file = linesOf rows := by
    simp [Holding.linesOf, List.filter_map, Function.comp_def]
  rw [fileText, whole, path, change.holds.textAt_file, Holding.textsOf_getD, lines]
  exact ⟨rfl, rfl⟩

theorem parts_fileText (h : w.Sound) (tenant : Uuid) (file : RecordType)
    (each : ∀ row ∈ rows, ∃ line, Json.line row.1 row.2 = .ok line) :
    Text.parts '\n' (w.fileText tenant file rows) = linesOf rows ++ [""] := by
  rw [(outcome_writing h tenant file each).2]
  refine Holding.parts_textOf fun line hline => ?_
  obtain ⟨row, hrow, written⟩ := List.mem_filterMap.mp hline
  obtain ⟨line', written'⟩ := each row hrow
  rw [written'] at written
  cases written
  exact Json.break_notMem_line written'

/-- Every line is read as its record. -/
theorem map_read_linesOf (json : ∀ row ∈ rows, row.2.IsJson) :
    (linesOf rows).map Json.read = rows.map fun row => .ok (Json.lineContent row.1 row.2) := by
  induction rows with
  | nil => rfl
  | cons row rest ih =>
    obtain ⟨line, written, read⟩ := Json.read_line row.1 (json row List.mem_cons_self)
    have first : linesOf (row :: rest) = line :: linesOf rest := by
      simp [linesOf, written, Except.toOption]
    rw [first, List.map_cons, List.map_cons, read,
      ih fun r hr => json r (List.mem_cons_of_mem _ hr)]

theorem read_fileText (h : w.Sound) (tenant : Uuid) (file : RecordType)
    (json : ∀ row ∈ rows, row.2.IsJson) :
    (Text.parts '\n' (w.fileText tenant file rows)).dropLast.map Json.read =
      rows.map fun row => .ok (Json.lineContent row.1 row.2) := by
  have each : ∀ row ∈ rows, ∃ line, Json.line row.1 row.2 = .ok line := fun row hrow =>
    ⟨_, Json.line_eq row.1 (json row hrow)⟩
  rw [parts_fileText h tenant file each, List.dropLast_concat, map_read_linesOf json]

/-- What is read from a line tells the type of the record and its content, up to the order of the
entries of dictionaries. -/
theorem lineContent_inj {type other : RecordType} {content content' : Value}
    (h : Json.lineContent type content = Json.lineContent other content') :
    type = other ∧ arranged content = arranged content' := by
  simp only [Json.lineContent, ofTexts, List.map_cons, List.map_nil, Value.dict.injEq,
    List.cons.injEq, Prod.mk.injEq, Value.str.injEq, true_and, and_true] at h
  refine ⟨Holding.fileName_injective ?_, h.1⟩
  rw [fileName, fileName, h.2]

/-- A line that is written holds no line break. A file gives back the records that have been saved
to it: all of them are saved, and each of its lines is read as one of them. So files with the same
text hold the same records, up to the order of the entries of dictionaries. -/
theorem fileText_unambiguous (w w' : Workspace) (h : w.Sound) (h' : w'.Sound)
    (tenant tenant' : Uuid) (file file' : RecordType) :
    (∀ type content line, Json.line type content = .ok line →
      '\n' ∉ line.toList ∧ '\r' ∉ line.toList) ∧
    (∀ rows : List (RecordType × Value), (∀ row ∈ rows, row.2.IsJson) →
      ((writing tenant file rows).outcome w).1 = .ok () ∧
      (Text.parts '\n' (w.fileText tenant file rows)).dropLast.map Json.read =
        rows.map fun row => .ok (Json.lineContent row.1 row.2)) ∧
    ∀ rows others : List (RecordType × Value), (∀ row ∈ rows, row.2.IsJson) →
      (∀ row ∈ others, row.2.IsJson) →
      w.fileText tenant file rows = w'.fileText tenant' file' others →
      List.Forall₂ (fun row other => row.1 = other.1 ∧ arranged row.2 = arranged other.2)
        rows others := by
  refine ⟨fun type content line written => ?_, fun rows json => ⟨?_, read_fileText h tenant file json⟩,
    fun rows others json json' same => ?_⟩
  · have printed := Json.noControls_line written
    exact ⟨printed.notMem (by decide), printed.notMem (by decide)⟩
  · exact (outcome_writing h tenant file fun row hrow => ⟨_, Json.line_eq row.1 (json row hrow)⟩).1
  · have read := read_fileText h tenant file json
    rw [same, read_fileText h' tenant' file' json', ← List.forall₂_eq_eq_eq,
      List.forall₂_map_left_iff, List.forall₂_map_right_iff] at read
    exact read.flip.imp fun row other alike => lineContent_inj (Except.ok.inj alike.symm)

/-- Texts with quotes, backslashes and breaks do not disturb the lines. -/
theorem fileText_unambiguous_read :
    (new "data.tar").Sound ∧ (Text.parts '\n' ((new "data.tar").fileText ⟨7⟩ .device
      [(.device, .str "a\n\"\x7b\\"), (.asset, .list [.int (-1), .null])])).dropLast.map Json.read =
        [.ok (ofTexts [("data", .str "a\n\"\x7b\\"), ("type", .str "device")]),
          .ok (ofTexts [("data", .list [.int (-1), .null]), ("type", .str "asset")])] := by
  have sound := new_sound "data.tar"
  refine ⟨sound, ?_⟩
  refine ((fileText_unambiguous _ _ sound sound ⟨7⟩ ⟨7⟩ .device .device).2.1 _ ?_).2
  intro row hrow
  simp only [List.mem_cons, List.not_mem_nil, or_false] at hrow
  rcases hrow with rfl | rfl
  · exact .str _
  · refine .list _ fun v hv => ?_
    simp only [List.mem_cons, List.not_mem_nil, or_false] at hv
    rcases hv with rfl | rfl
    · exact .int _
    · exact .null

end Workspace

end Handover
