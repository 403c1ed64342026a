import Mathlib.Logic.Function.Basic
import Handover.Proofs.Line
import Handover.Storage.Workspace

namespace Handover

/-- What is held for a tenant: nothing, an open workspace with the texts of the files that have
been begun, or an archive. -/
inductive Holding where
  | nothing
  | files (texts : RecordType → Option String)
  | archive (members : Archive)

namespace Holding

/-- The archive that is held, if it is one. -/
def archive? : Holding → Option Archive
  | archive members => some members
  | _ => none

/-- The lines of records; those that cannot be written are left out. -/
def written (rows : List (RecordType × Value)) : List (RecordType × String) :=
  rows.filterMap fun row => (Json.line row.1 row.2).toOption.map fun line => (row.1, line)

/-- The lines of a type in the order in which they were saved. -/
def linesOf (saved : List (RecordType × String)) (type : RecordType) : List String :=
  (saved.filter fun row => row.1 = type).map (·.2)

def textOf (lines : List String) : String :=
  String.join (lines.map fun line => line ++ "\n")

/-- The text of the file of a type. There is one for each type with lines. -/
def textsOf (saved : List (RecordType × String)) (type : RecordType) : Option String :=
  if (linesOf saved type).isEmpty then none else some (textOf (linesOf saved type))

/-- The files of the lines that a job has saved so far, each with its type. -/
def lines (saved : List (RecordType × String)) : Holding :=
  files (textsOf saved)

/-- The text of the file with a name. -/
def fileNamed? (texts : RecordType → Option String) (name : String) : Option String :=
  (RecordType.all.find? fun type => Workspace.fileName type = name).bind texts

/-- What lies at a path below the folder of the tenant. -/
def node? (archiveName : String) : Holding → Path → Option Node
  | nothing, _ => none
  | files _, [] => some .folder
  | files _, [folder] => if folder = "data" then some .folder else none
  | files texts, [folder, name] =>
    if folder = "data" then (fileNamed? texts name).map .text else none
  | files _, _ => none
  | archive _, [] => some .folder
  | archive members, [name] => if name = archiveName then some (.archive members) else none
  | archive _, _ => none

/-- The archive of files: a member for each file that has been begun, in the order of their
names. -/
def packed (texts : RecordType → Option String) : Archive :=
  (RecordType.all.filterMap fun type =>
    (texts type).map fun text => (Workspace.fileName type, text)).mergeSort fun a b => a.1 ≤ b.1

/-- The archive of lines: a member for each type with lines, in the order of their names. -/
def archiveOf (saved : List (RecordType × String)) : Archive :=
  ((RecordType.all.filter fun type => !(linesOf saved type).isEmpty).map fun type =>
    (Workspace.fileName type, textOf (linesOf saved type))).mergeSort fun a b => a.1 ≤ b.1

@[simp] theorem lines_ne_nothing (saved : List (RecordType × String)) : lines saved ≠ nothing :=
  nofun

@[simp] theorem lines_ne_archive (saved : List (RecordType × String)) (members : Archive) :
    lines saved ≠ archive members :=
  nofun

theorem mem_all (type : RecordType) : type ∈ RecordType.all := by
  cases type <;> decide

theorem ofFileName (type : RecordType) :
    (RecordType.all.find? fun t => Workspace.fileName t = Workspace.fileName type) =
      some type := by
  cases type <;> decide +kernel

theorem fileName_injective {t u : RecordType} (h : Workspace.fileName t = Workspace.fileName u) :
    t = u := by
  have ht := ofFileName t
  rw [h, ofFileName u] at ht
  exact (Option.some.inj ht).symm

theorem fileName_endsWith : ∀ type ∈ RecordType.all,
    (Workspace.fileName type).endsWith ".jsonl" = true := by
  decide +kernel

theorem fileName_ne_up (type : RecordType) : Workspace.fileName type ≠ ".." := by
  cases type <;> decide

theorem textOf_concat (lines : List String) (line : String) :
    textOf (lines ++ [line]) = textOf lines ++ line ++ "\n" := by
  simp [textOf, String.join_append, String.append_assoc]

theorem linesOf_append (saved others : List (RecordType × String)) (type : RecordType) :
    linesOf (saved ++ others) type = linesOf saved type ++ linesOf others type := by
  simp [linesOf]

theorem linesOf_concat_self (saved : List (RecordType × String)) (type : RecordType)
    (line : String) : linesOf (saved ++ [(type, line)]) type = linesOf saved type ++ [line] := by
  simp [linesOf]

theorem linesOf_concat_of_ne (saved : List (RecordType × String)) {type other : RecordType}
    (h : other ≠ type) (line : String) :
    linesOf (saved ++ [(type, line)]) other = linesOf saved other := by
  simp [linesOf, Ne.symm h]

theorem textsOf_concat (saved : List (RecordType × String)) (type : RecordType) (line : String) :
    textsOf (saved ++ [(type, line)]) = Function.update (textsOf saved) type
      (some (textOf (linesOf saved type) ++ line ++ "\n")) := by
  funext other
  by_cases own : other = type
  · subst own
    rw [textsOf, Function.update_self, linesOf_concat_self, textOf_concat]
    simp
  · rw [textsOf, Function.update_of_ne own, linesOf_concat_of_ne saved own]
    rfl

theorem textsOf_getD (saved : List (RecordType × String)) (type : RecordType) :
    (textsOf saved type).getD "" = textOf (linesOf saved type) := by
  rw [textsOf]
  cases linesOf saved type with
  | nil => rfl
  | cons line rest => rfl

@[simp] theorem fileNamed?_fileName (texts : RecordType → Option String) (type : RecordType) :
    fileNamed? texts (Workspace.fileName type) = texts type := by
  rw [fileNamed?, ofFileName, Option.bind_some]

/-- Beside the file of a type, the files do not depend on its text. -/
theorem fileNamed?_update_of_ne (texts : RecordType → Option String) {type : RecordType}
    {name : String} (h : name ≠ Workspace.fileName type) (text : Option String) :
    fileNamed? (Function.update texts type text) name = fileNamed? texts name := by
  rw [fileNamed?, fileNamed?]
  cases hfind : RecordType.all.find? fun t => Workspace.fileName t = name with
  | none => rfl
  | some other =>
    have hname : Workspace.fileName other = name := by simpa using List.find?_some hfind
    have hne : other ≠ type := fun he => h (by rw [← hname, he])
    exact Function.update_of_ne hne _ _

theorem fileNamed?_isSome {texts : RecordType → Option String} {name : String} :
    (fileNamed? texts name).isSome ↔
      ∃ type, (texts type).isSome ∧ Workspace.fileName type = name := by
  constructor
  · intro h
    rw [fileNamed?] at h
    cases hfind : RecordType.all.find? fun t => Workspace.fileName t = name with
    | none => simp [hfind] at h
    | some type =>
      rw [hfind] at h
      exact ⟨type, h, by simpa using List.find?_some hfind⟩
  · rintro ⟨type, begun, rfl⟩
    rwa [fileNamed?_fileName]

/-- Without its files and with an archive, what has been held is that archive. -/
theorem node?_packed (held : Holding) (hheld : held ≠ .nothing) {archiveName : String}
    (other : archiveName ≠ "data") (members : Archive) (rest : Path) :
    (if ["data"] <+: rest then none
      else if rest = [archiveName] then some (.archive members) else held.node? archiveName rest) =
      (archive members).node? archiveName rest := by
  match rest with
  | [] =>
    cases held with
    | nothing => contradiction
    | files texts => rfl
    | archive kept => rfl
  | [name] =>
    have below : ["data"] <+: [name] ↔ name = "data" := by simp [eq_comm]
    simp only [below, List.cons.injEq, and_true]
    by_cases hname : name = archiveName
    · rw [if_neg (hname ▸ other), if_pos hname, Holding.node?, if_pos hname]
    · rw [if_neg hname, Holding.node?, if_neg hname]
      cases held <;> simp +contextual [Holding.node?, hname]
  | [folder, name] =>
    have below : ["data"] <+: [folder, name] ↔ folder = "data" := by simp [eq_comm]
    rw [if_neg (by simp : ¬[folder, name] = [archiveName])]
    simp only [below]
    cases held <;> simp +contextual [Holding.node?]
  | _ :: _ :: _ :: _ =>
    rw [if_neg (by simp : ¬_ = [archiveName])]
    cases held <;> simp [Holding.node?]

/-- Where an archive would lie there is no folder. -/
theorem node?_file (held : Holding) {archiveName : String} (other : archiveName ≠ "data") :
    held.node? archiveName [archiveName] ≠ some .folder := by
  cases held with
  | nothing => simp [node?]
  | files texts => simp [node?, other]
  | archive members => simp [node?]

theorem written_append (rows others : List (RecordType × Value)) :
    written (rows ++ others) = written rows ++ written others :=
  List.filterMap_append

theorem written_singleton {type : RecordType} {record : Value} {line : String}
    (h : Json.line type record = .ok line) : written [(type, record)] = [(type, line)] := by
  simp [written, h, Except.toOption]

theorem length_linesOf_written {rows : List (RecordType × Value)}
    (writable : ∀ row ∈ rows, ∃ line, Json.line row.1 row.2 = .ok line) (type : RecordType) :
    (linesOf (written rows) type).length = rows.countP fun row => row.1 = type := by
  induction rows with
  | nil => rfl
  | cons row rest ih =>
    obtain ⟨line, hline⟩ := writable row List.mem_cons_self
    rw [← List.singleton_append, written_append, linesOf_append, List.length_append,
      List.countP_append, ih fun row hrow => writable row (List.mem_cons_of_mem _ hrow),
      written_singleton hline]
    by_cases h : row.1 = type <;> simp [linesOf, h]

/-- A line is read back from the text of its file, where nothing but a last, empty part stands
after the lines. -/
theorem parts_textOf {lines : List String} (h : ∀ line ∈ lines, '\n' ∉ line.toList) :
    Text.parts '\n' (textOf lines) = lines ++ [""] := by
  have joined : (textOf lines).toList =
      ['\n'].intercalate (lines.map (·.toList) ++ [[]]) := by
    clear h
    induction lines with
    | nil => simp [textOf]
    | cons line rest ih =>
      rw [textOf, List.map_cons, String.join_cons, String.toList_append, String.toList_append]
      rw [textOf] at ih
      rw [ih, List.map_cons, List.cons_append]
      cases hrest : rest.map (·.toList) ++ [[]] with
      | nil => simp at hrest
      | cons next others => rw [List.intercalate_cons_cons]; simp
  rw [Text.parts, joined, List.splitOn_intercalate]
  · simp
  · intro part hpart
    rcases List.mem_append.mp hpart with hpart | hpart
    · obtain ⟨line, hline, rfl⟩ := List.mem_map.mp hpart
      exact h line hline
    · simp [List.mem_singleton.mp hpart]
  · simp

theorem break_notMem_written {rows : List (RecordType × Value)} {type : RecordType} {line : String}
    (h : line ∈ linesOf (written rows) type) : '\n' ∉ line.toList := by
  obtain ⟨row, hrow, rfl⟩ := List.mem_map.mp h
  obtain ⟨⟨t, record⟩, _, hline⟩ := List.mem_filterMap.mp (List.mem_filter.mp hrow).1
  cases hr : Json.line t record with
  | error failure => simp [hr, Except.toOption] at hline
  | ok line =>
    simp only [hr, Except.toOption, Option.map_some, Option.some.injEq] at hline
    subst hline
    exact Json.break_notMem_line hr

theorem all_nodup : RecordType.all.Nodup := by
  decide

theorem pairwise_mergeSort_key {α : Type} (key : α → String) (items : List α) :
    (items.mergeSort fun a b => key a ≤ key b).Pairwise fun a b => key a ≤ key b := by
  refine (List.pairwise_mergeSort ?_ ?_ items).imp fun h => by simpa using h
  · intro a b c hab hbc
    simp only [decide_eq_true_eq] at *
    exact String.le_trans hab hbc
  · intro a b
    simpa using String.le_total (key a) (key b)

theorem packed_textsOf (saved : List (RecordType × String)) :
    packed (textsOf saved) = archiveOf saved := by
  rw [packed, archiveOf, ← List.filterMap_eq_map, List.filterMap_filter]
  congr 2
  funext type
  by_cases none : (linesOf saved type).isEmpty <;> simp [textsOf, none]

/-- The archive can be made from the names of the files, in whichever order they are found. -/
theorem packed_eq {texts : RecordType → Option String} {names : List String}
    (distinct : names.Nodup)
    (mem : ∀ name, name ∈ names ↔ ∃ type, (texts type).isSome ∧ Workspace.fileName type = name)
    {text : String → String}
    (found : ∀ type written, texts type = some written →
      text (Workspace.fileName type) = written) :
    (names.mergeSort fun a b => a ≤ b).map (fun name => (name, text name)) = packed texts := by
  have files : (RecordType.all.filterMap fun type =>
      (texts type).map fun written => (Workspace.fileName type, written)) =
        ((RecordType.all.filter fun t => (texts t).isSome).map Workspace.fileName).map
          fun name => (name, text name) := by
    rw [List.map_map, ← List.filterMap_eq_map, List.filterMap_filter]
    congr 1
    funext type
    cases begun : texts type with
    | none => rfl
    | some written => simp [found type written begun]
  have same : names.Perm
      ((RecordType.all.filter fun t => (texts t).isSome).map Workspace.fileName) := by
    refine (List.perm_ext_iff_of_nodup distinct ?_).mpr fun name => ?_
    · exact List.pairwise_map.mpr
        ((all_nodup.filter _).imp fun hne he => hne (fileName_injective he))
    · rw [mem, List.mem_map]
      refine exists_congr fun type => and_congr_left fun _ => ?_
      rw [List.mem_filter, and_iff_right (mem_all type)]
  have members : ((names.mergeSort fun a b => a ≤ b).map fun name => (name, text name)).Perm
      (RecordType.all.filterMap fun type =>
        (texts type).map fun written => (Workspace.fileName type, written)) := by
    rw [files]
    exact ((List.mergeSort_perm _ _).trans same).map _
  refine @List.Perm.eq_of_pairwise _ (fun a b => a.1 ≤ b.1) _ _ ?_ ?_ ?_
    (members.trans (List.mergeSort_perm _ _).symm)
  · intro a b ha hb hab hba
    have ha' := members.mem_iff.mp ha
    have hb' := (List.mergeSort_perm _ _).mem_iff.mp hb
    rw [files, List.mem_map] at ha' hb'
    obtain ⟨first, _, rfl⟩ := ha'
    obtain ⟨second, _, rfl⟩ := hb'
    rw [show first = second from String.le_antisymm hab hba]
  · exact List.pairwise_map.mpr (pairwise_mergeSort_key id names)
  · exact pairwise_mergeSort_key Prod.fst _

end Holding

end Handover
