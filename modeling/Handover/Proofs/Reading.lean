import Handover.Json.Reader
import Handover.Proofs.KeyOrder

namespace Handover

namespace Json

/-- A letter after a backslash is read as the character that it stands for. -/
theorem readText_letter (start fuel offset : Nat) {letter c : Char} (more done : List Char)
    (stands : escapeOf? letter = some c) (short : letter ≠ 'u') :
    readText start (fuel + 1) ⟨'\\' :: letter :: more, offset⟩ done =
      readText start fuel ⟨more, offset + 2⟩ (c :: done) := by
  rw [readText]
  split
  next h => cases h
  next h => cases h
  next h => cases h
  next h => cases h; exact absurd rfl short
  next h =>
    cases h
    rw [stands]
    rfl
  next other h =>
    cases h
    exact (other letter more rfl rfl).elim

/-- Any other character is read as itself. -/
theorem readText_plain (start fuel offset : Nat) {c : Char} (more done : List Char)
    (quote : c ≠ '"') (slash : c ≠ '\\') (printed : ¬c.toNat < 32) :
    readText start (fuel + 1) ⟨c :: more, offset⟩ done =
      readText start fuel ⟨more, offset + 1⟩ (c :: done) := by
  rw [readText]
  split
  next h => cases h
  next h => cases h; exact absurd rfl quote
  next h => cases h; exact absurd rfl slash
  next h => cases h; exact absurd rfl slash
  next h => cases h; exact absurd rfl slash
  next h =>
    cases h
    rw [if_neg printed]
    rfl

/-- A control character is read from its four digits. -/
theorem readText_unit (start fuel offset : Nat) {c : Char} {more : List Char} (hmore : more ≠ [])
    (done : List Char) (control : c.toNat < 32) :
    readText start (fuel + 1) ⟨'\\' :: 'u' :: (Text.hexDigits 4 c.toNat ++ more), offset⟩ done =
      readText start fuel ⟨more, offset + 6⟩ (c :: done) := by
  have long : ¬(Text.hexDigits 4 c.toNat ++ more).length ≤ 4 := by
    have := List.length_pos_iff.mpr hmore
    rw [List.length_append, Text.length_hexDigits]
    omega
  have four : (Text.hexDigits 4 c.toNat ++ more).take 4 = Text.hexDigits 4 c.toNat :=
    List.take_left' (Text.length_hexDigits 4 _)
  have beyond : (Text.hexDigits 4 c.toNat ++ more).drop 4 = more :=
    List.drop_left' (Text.length_hexDigits 4 _)
  have value : (Cursor.mk (Text.hexDigits 4 c.toNat ++ more) (offset + 2)).fourDigits? =
      some c.toNat := by
    rw [Cursor.fourDigits?]
    dsimp only
    rw [four, if_pos (Text.length_hexDigits 4 _), Uuid.hexValue?_hexDigits (by omega)]
  have read : readUnicode ⟨Text.hexDigits 4 c.toNat ++ more, offset + 2⟩ =
      .ok (c, ⟨more, offset + 6⟩) := by
    have unit : readUnit ⟨Text.hexDigits 4 c.toNat ++ more, offset + 2⟩ =
        .ok (c.toNat, ⟨more, offset + 6⟩) := by
      rw [readUnit]
      dsimp only
      rw [if_neg long, value]
      dsimp only
      rw [Cursor.skip, beyond]
    rw [readUnicode, unit]
    show (if 0xD800 ≤ c.toNat ∧ _ then _ else _) = _
    rw [if_neg (by omega), unitChar, if_neg (by omega), Char.ofNat_toNat]
    rfl
  have past : (Cursor.mk ('\\' :: 'u' :: (Text.hexDigits 4 c.toNat ++ more)) offset).skip 2 =
      ⟨Text.hexDigits 4 c.toNat ++ more, offset + 2⟩ := rfl
  rw [readText]
  dsimp only
  rw [past, read]
  rfl

/-- The three ways in which a character is written. -/
inductive Escapes (c : Char) : List Char → Prop
  | letter (letter : Char) (stands : escapeOf? letter = some c) (short : letter ≠ 'u') :
    Escapes c ['\\', letter]
  | unit (control : c.toNat < 32) : Escapes c ('\\' :: 'u' :: Text.hexDigits 4 c.toNat)
  | plain (quote : c ≠ '"') (slash : c ≠ '\\') (printed : ¬c.toNat < 32) : Escapes c [c]

theorem escapes (c : Char) : Escapes c (escaped c) := by
  have special : ∀ {d letter : Char}, c = d → escapeOf? letter = some d → letter ≠ 'u' →
      Escapes c ['\\', letter] := by
    intro d letter h stands short
    exact .letter letter (h ▸ stands) short
  rw [escaped]
  split
  next h => exact special h rfl (by decide)
  next quote =>
    split
    next h => exact special h rfl (by decide)
    next slash =>
      split
      next h => exact special h rfl (by decide)
      split
      next h => exact special h rfl (by decide)
      split
      next h => exact special h rfl (by decide)
      split
      next h => exact special h rfl (by decide)
      split
      next h => exact special h rfl (by decide)
      split
      next control => exact .unit control
      next printed => exact .plain quote slash printed

/-- An escaped character is read back as itself. -/
theorem readText_escaped (start fuel offset : Nat) (c : Char) {more : List Char} (hmore : more ≠ [])
    (done : List Char) :
    ∃ offset', readText start (fuel + 1) ⟨escaped c ++ more, offset⟩ done =
      readText start fuel ⟨more, offset'⟩ (c :: done) := by
  have ways := escapes c
  generalize escaped c = written at ways
  cases ways with
  | letter letter stands short =>
    exact ⟨_, readText_letter start fuel offset more done stands short⟩
  | unit control => exact ⟨_, readText_unit start fuel offset hmore done control⟩
  | plain quote slash printed =>
    exact ⟨_, readText_plain start fuel offset more done quote slash printed⟩

/-- A text is read back up to its closing quote. -/
theorem readText_quoted (start offset : Nat) (cs : List Char) {fuel : Nat} (h : cs.length < fuel)
    (rest done : List Char) :
    ∃ offset', readText start fuel ⟨cs.flatMap escaped ++ '"' :: rest, offset⟩ done =
      .ok (String.ofList (done.reverse ++ cs), ⟨rest, offset'⟩) := by
  induction cs generalizing fuel offset done with
  | nil =>
    obtain ⟨fuel, rfl⟩ := Nat.exists_eq_succ_of_ne_zero (Nat.ne_of_gt h)
    refine ⟨offset + 1, ?_⟩
    rw [List.append_nil]
    rfl
  | cons c cs ih =>
    obtain ⟨fuel, rfl⟩ := Nat.exists_eq_succ_of_ne_zero (Nat.ne_of_gt (Nat.zero_lt_of_lt h))
    obtain ⟨offset₁, first⟩ := readText_escaped start fuel offset c
      (show cs.flatMap escaped ++ '"' :: rest ≠ [] by simp) done
    obtain ⟨offset₂, others⟩ := ih offset₁ (by simpa using h) (c :: done)
    refine ⟨offset₂, ?_⟩
    rw [List.flatMap_cons, List.append_assoc]
    refine first.trans (others.trans ?_)
    simp

/-- Whether a text goes on as it may after a value. -/
def Stops (rest : List Char) : Prop :=
  ∀ c ∈ rest.head?, c = ',' ∨ c = ']' ∨ c = '\x7d'

theorem takeWhile_digits {digits : List Char} (h : ∀ c ∈ digits, c.isDigit = true)
    (stops : Stops rest) : (digits ++ rest).takeWhile Char.isDigit = digits := by
  induction digits with
  | nil =>
    cases rest with
    | nil => rfl
    | cons c rest =>
      have stop : c.isDigit = false := by
        rcases stops c rfl with rfl | rfl | rfl <;> rfl
      simp [stop]
  | cons c digits ih =>
    rw [List.cons_append, List.takeWhile_cons_of_pos (h c List.mem_cons_self),
      ih fun d hd => h d (List.mem_cons_of_mem _ hd)]

theorem digitsValue?_eq {digits : List Char} (h : ∀ c ∈ digits, c.isDigit = true) :
    Binary64.digitsValue? digits = some (Nat.ofDigitChars 10 digits 0) := by
  suffices all : ∀ before, digits.foldl (fun value c => do
      let n ← value
      if c.isDigit then some (10 * n + (c.toNat - '0'.toNat)) else none) (some before) =
        some (Nat.ofDigitChars 10 digits before) from all 0
  induction digits with
  | nil => exact fun _ => rfl
  | cons c digits ih =>
    intro before
    rw [List.foldl_cons, Nat.ofDigitChars_cons]
    show digits.foldl _ (if c.isDigit then some (10 * before + (c.toNat - '0'.toNat)) else none) = _
    rw [if_pos (h c List.mem_cons_self)]
    exact ih (fun d hd => h d (List.mem_cons_of_mem _ hd)) _

/-- The first digit of a positive number is no zero. -/
theorem head_toDigits {n : Nat} (h : n ≠ 0) : (Nat.toDigits 10 n).head? ≠ some '0' := by
  induction n using Nat.strongRecOn with
  | ind n ih =>
    by_cases small : n < 10
    · rw [Nat.toDigits_of_lt_base small]
      simpa using h
    · have higher := ih (n / 10) (by omega) (by omega)
      rw [Nat.toDigits_of_base_le (by omega) (by omega)]
      cases written : Nat.toDigits 10 (n / 10) with
      | nil => exact absurd written Nat.toDigits_ne_nil
      | cons c more =>
        rw [written] at higher
        exact higher

theorem wholePart_toDigits (n : Nat) (stops : Stops rest) :
    wholePart (Nat.toDigits 10 n ++ rest) = Nat.toDigits 10 n := by
  have digits : ∀ c ∈ Nat.toDigits 10 n, c.isDigit = true := fun c hc =>
    Nat.isDigit_of_mem_toDigits (by omega) (by omega) hc
  by_cases h : n = 0
  · subst h
    rfl
  · have first := head_toDigits h
    have run := takeWhile_digits digits stops
    cases written : Nat.toDigits 10 n with
    | nil => exact absurd written Nat.toDigits_ne_nil
    | cons c more =>
      rw [written] at first run
      rw [List.cons_append, wholePart]
      · exact run
      · intro rest' same
        cases same
        exact first rfl

theorem fractionPart_of_stops (stops : Stops rest) : fractionPart rest = [] := by
  cases rest with
  | nil => rfl
  | cons c rest => rcases stops c rfl with rfl | rfl | rfl <;> rfl

theorem powerPart_of_stops (stops : Stops rest) : powerPart rest = [] := by
  cases rest with
  | nil => rfl
  | cons c rest => rcases stops c rfl with rfl | rfl | rfl <;> rfl

/-- The digits of a number after its sign are read up to where they stop. -/
theorem readNumber_eq (c : Cursor) (sign : List Char) (n : Nat) (stops : Stops rest)
    (signed : (if c.rest.head? = some '-' then ['-'] else []) = sign)
    (unsigned : c.rest.drop sign.length = Nat.toDigits 10 n ++ rest) :
    ∃ offset', readNumber c = .ok (.int (if sign.isEmpty then n else -n), ⟨rest, offset'⟩) := by
  have digits : ∀ d ∈ Nat.toDigits 10 n, d.isDigit = true := fun d hd =>
    Nat.isDigit_of_mem_toDigits (by omega) (by omega) hd
  have some' : ¬(Nat.toDigits 10 n).isEmpty = true := by
    simp
  have after : (Nat.toDigits 10 n ++ rest).drop (Nat.toDigits 10 n).length = rest :=
    List.drop_left
  have skipped : c.rest.drop (sign ++ Nat.toDigits 10 n).length = rest := by
    rw [List.length_append, ← List.drop_drop, unsigned, after]
  refine ⟨c.offset + (sign ++ Nat.toDigits 10 n).length, ?_⟩
  rw [readNumber]
  simp only [signed, unsigned, wholePart_toDigits n stops, after, fractionPart_of_stops stops,
    powerPart_of_stops stops, List.length_nil, Nat.add_zero, List.append_nil, if_neg some',
    List.isEmpty_nil, Bool.and_self, if_true, digitsValue?_eq digits,
    Nat.ofDigitChars_ten_toDigits, Cursor.skip, skipped]

/-- An integer is read back. -/
theorem readNumber_toString (n : Int) (offset : Nat) (stops : Stops rest) :
    ∃ offset', readNumber ⟨(toString n).toList ++ rest, offset⟩ = .ok (.int n, ⟨rest, offset'⟩) := by
  rw [Int.toString_eq_repr]
  cases n with
  | ofNat m =>
    have written : (Int.ofNat m).repr.toList = Nat.toDigits 10 m := Nat.toList_repr
    rw [written]
    refine readNumber_eq ⟨Nat.toDigits 10 m ++ rest, offset⟩ [] m stops ?_ rfl
    have digits : ∀ d ∈ Nat.toDigits 10 m, d.isDigit = true := fun d hd =>
      Nat.isDigit_of_mem_toDigits (by omega) (by omega) hd
    cases first : Nat.toDigits 10 m with
    | nil => exact absurd first Nat.toDigits_ne_nil
    | cons d more =>
      refine if_neg fun hyphen => ?_
      obtain rfl : d = '-' := by simpa using hyphen
      exact absurd (digits '-' (by simp [first])) (by decide)
  | negSucc m =>
    have written : (Int.negSucc m).repr.toList = '-' :: Nat.toDigits 10 (m + 1) := by
      show ("-" ++ Nat.repr (m + 1)).toList = _
      rw [String.toList_append, Nat.toList_repr]
      rfl
    rw [written]
    exact readNumber_eq ⟨'-' :: (Nat.toDigits 10 (m + 1) ++ rest), offset⟩ ['-'] (m + 1) stops rfl rfl

end Json

namespace Value

/-- The values that JSON is made of: null, truth values, integers, texts, lists, and dictionaries
with different texts for keys. -/
inductive IsJson : Value → Prop
  | null : IsJson null
  | bool (b : Bool) : IsJson (bool b)
  | int (n : Int) : IsJson (int n)
  | str (s : String) : IsJson (str s)
  | list (items : List Value) (each : ∀ v ∈ items, IsJson v) : IsJson (list items)
  | dict (entries : List (String × Value)) (distinct : (entries.map (·.1)).Nodup)
    (each : ∀ entry ∈ entries, IsJson entry.2) : IsJson (dict (named entries))

def nameOf (key : Value) : String :=
  (keyText? key).getD ""

mutual

/-- A value with the entries of every dictionary in it in the order of their keys. -/
def arranged : Value → Value
  | list items => list (arrangedItems items)
  | dict entries =>
    dict ((arrangedEntries entries).mergeSort fun a b => nameOf a.1 ≤ nameOf b.1)
  | v => v

def arrangedItems : List Value → List Value
  | [] => []
  | v :: rest => arranged v :: arrangedItems rest

def arrangedEntries : List (Value × Value) → List (Value × Value)
  | [] => []
  | (k, v) :: rest => (k, arranged v) :: arrangedEntries rest

end

theorem arrangedItems_eq (items : List Value) : arrangedItems items = items.map arranged := by
  induction items with
  | nil => rfl
  | cons v rest ih => rw [arrangedItems, ih, List.map_cons]

theorem arrangedEntries_named (entries : List (String × Value)) :
    arrangedEntries (named entries) = named (entries.map fun e => (e.1, arranged e.2)) := by
  induction entries with
  | nil => rfl
  | cons entry rest ih => rw [named_cons, arrangedEntries, ih, List.map_cons, named_cons]

theorem arranged_dict (entries : List (String × Value)) :
    arranged (dict (named entries)) =
      ofTexts ((inNameOrder entries).map fun e => (e.1, arranged e.2)) := by
  have sorted : (named (entries.map fun e => (e.1, arranged e.2))).mergeSort
      (fun a b => nameOf a.1 ≤ nameOf b.1) =
        named (inNameOrder (entries.map fun e => (e.1, arranged e.2))) := by
    symm
    exact List.map_mergeSort fun _ _ _ _ => rfl
  rw [arranged, arrangedEntries_named, sorted, inNameOrder_map]
  rfl

theorem putText_fresh {key : String} {done : List (String × Value)}
    (fresh : key ∉ done.map (·.1)) (value : Value) :
    putText key value done = done ++ [(key, value)] := by
  induction done with
  | nil => rfl
  | cons entry done ih =>
    have other : entry.1 ≠ key := fun same => fresh (by simp [same])
    rw [putText, if_neg other, ih fun hm => fresh (List.mem_cons_of_mem _ hm)]
    rfl

end Value

namespace Json

open Value

variable {rest : List Char}

/-- The text of a value that can be written. -/
def body (v : Value) : List Char :=
  (encoded v).toOption.getD []

/-- Whether a value can be written, and is read back from its text wherever that stands. -/
structure Readable (v : Value) : Prop where
  encoded : encoded v = .ok (body v)
  starts : ∃ c more, body v = c :: more ∧ Cursor.isBlank c = false ∧ c ≠ ']'
  reads : ∀ rest offset fuel, Stops rest → (body v).length ≤ fuel →
    ∃ offset', readValue fuel ⟨body v ++ rest, offset⟩ = .ok (arranged v, ⟨rest, offset'⟩)

theorem body_eq {v : Value} {cs : List Char} (h : Json.encoded v = .ok cs) : body v = cs := by
  rw [body, h]
  rfl

/-- How a text is read that is no text in quotes, list or dictionary. -/
def readScalar (c : Cursor) : Except Nat (Value × Cursor) :=
  match readWord? c with
  | some reading => .ok reading
  | none => readNumber c

theorem readValue_scalar (fuel offset : Nat) {c : Char} {more : List Char} (quote : c ≠ '"')
    (brace : c ≠ '\x7b') (bracket : c ≠ '[') :
    readValue (fuel + 1) ⟨c :: more, offset⟩ = readScalar ⟨c :: more, offset⟩ := by
  rw [readValue]
  split
  next h => cases h; exact absurd rfl quote
  next h => cases h; exact absurd rfl brace
  next h => cases h; exact absurd rfl bracket
  next => rfl

theorem readable_scalar {v : Value} {c : Char} {more : List Char}
    (written : Json.encoded v = .ok (c :: more)) (blank : Cursor.isBlank c = false)
    (marks : c ∉ [']', '"', '\x7b', '[']) (plain : arranged v = v)
    (reads : ∀ rest offset, Stops rest →
      ∃ offset', readScalar ⟨c :: more ++ rest, offset⟩ = .ok (v, ⟨rest, offset'⟩)) :
    Readable v := by
  simp only [List.mem_cons, List.not_mem_nil, or_false, not_or] at marks
  obtain ⟨close, quote, brace, bracket⟩ := marks
  refine ⟨by rw [body_eq written, written], ⟨c, more, body_eq written, blank, close⟩,
    fun rest offset fuel stops long => ?_⟩
  rw [body_eq written] at long ⊢
  obtain ⟨fuel, rfl⟩ := Nat.exists_eq_succ_of_ne_zero (show fuel ≠ 0 by
    intro zero
    simp [zero] at long)
  obtain ⟨offset', read⟩ := reads rest offset stops
  refine ⟨offset', ?_⟩
  rw [plain]
  exact (readValue_scalar fuel offset quote brace bracket).trans read

theorem readable_null : Readable .null :=
  readable_scalar rfl rfl (by decide) rfl fun _ _ _ => ⟨_, rfl⟩

theorem readable_bool (b : Bool) : Readable (.bool b) := by
  cases b with
  | true => exact readable_scalar rfl rfl (by decide) rfl fun _ _ _ => ⟨_, rfl⟩
  | false => exact readable_scalar rfl rfl (by decide) rfl fun _ _ _ => ⟨_, rfl⟩

theorem words_start : ∀ word ∈ words, ∃ c d more, word.1 = c :: d :: more ∧
    c.isDigit = false ∧ (c = '-' → d.isDigit = false) := by
  intro word hword
  simp only [words, List.mem_cons, List.not_mem_nil, or_false] at hword
  rcases hword with rfl | rfl | rfl | rfl | rfl | rfl <;>
    exact ⟨_, _, _, rfl, by decide, by decide⟩

/-- Neither a digit nor a sign before a digit starts a word. -/
theorem readWord?_number {c : Char} {more : List Char} (offset : Nat)
    (h : c.isDigit = true ∨ c = '-' ∧ ∃ d more', more = d :: more' ∧ d.isDigit = true) :
    readWord? ⟨c :: more, offset⟩ = none := by
  rw [readWord?, Option.map_eq_none_iff, List.find?_eq_none]
  intro word hword same
  obtain ⟨c', d', rest, spelled, letter, second⟩ := words_start word hword
  have same : (c :: more).take word.1.length = word.1 := by simpa using same
  rw [spelled] at same
  obtain ⟨rfl, tail⟩ := List.cons.inj same
  rcases h with digit | ⟨hyphen, d, more', rfl, digit⟩
  · rw [letter] at digit
    cases digit
  · obtain ⟨rfl, _⟩ := List.cons.inj tail
    rw [second hyphen] at digit
    cases digit

/-- The text of an integer starts with a digit, or with a sign and a digit. -/
theorem toString_starts (n : Int) : ∃ c more, (toString n).toList = c :: more ∧
    (c.isDigit = true ∨ c = '-' ∧ ∃ d more', more = d :: more' ∧ d.isDigit = true) := by
  have digits : ∀ m : Nat, ∃ d more, Nat.toDigits 10 m = d :: more ∧ d.isDigit = true := by
    intro m
    obtain ⟨d, more, written⟩ := List.exists_cons_of_ne_nil (Nat.toDigits_ne_nil (n := m) (b := 10))
    exact ⟨d, more, written, Nat.isDigit_of_mem_toDigits (by omega) (by omega)
      (written ▸ List.mem_cons_self)⟩
  rw [Int.toString_eq_repr]
  cases n with
  | ofNat m =>
    obtain ⟨d, more, written, digit⟩ := digits m
    exact ⟨d, more, Nat.toList_repr.trans written, Or.inl digit⟩
  | negSucc m =>
    obtain ⟨d, more, written, digit⟩ := digits (m + 1)
    refine ⟨'-', d :: more, ?_, Or.inr ⟨rfl, d, more, rfl, digit⟩⟩
    show ("-" ++ Nat.repr (m + 1)).toList = _
    rw [String.toList_append, Nat.toList_repr, written]
    rfl

theorem readable_int (n : Int) : Readable (.int n) := by
  obtain ⟨c, more, written, number⟩ := toString_starts n
  have marks : ∀ mark ∈ [' ', '\t', '\n', '\r', ']', '"', '\x7b', '['],
      mark.isDigit = false ∧ mark ≠ '-' := by
    simp
  have other : c ∉ [' ', '\t', '\n', '\r', ']', '"', '\x7b', '['] := by
    intro hm
    rcases number with digit | ⟨hyphen, _⟩
    · rw [(marks c hm).1] at digit
      cases digit
    · exact (marks c hm).2 hyphen
  have blank : Cursor.isBlank c = false := by
    simp only [List.mem_cons, not_or] at other
    simp [Cursor.isBlank, other]
  refine readable_scalar (by rw [← written]; rfl) blank
    (fun hm => other (List.mem_of_mem_drop (i := 4) hm)) rfl fun rest offset stops => ?_
  obtain ⟨offset', read⟩ := readNumber_toString n offset stops
  rw [written] at read
  refine ⟨offset', ?_⟩
  rw [readScalar, List.cons_append, readWord?_number offset ?_]
  · exact read
  · exact number.imp_right fun ⟨hyphen, d, more', same, digit⟩ =>
      ⟨hyphen, d, more' ++ rest, by rw [same]; rfl, digit⟩

theorem length_le_escaped (cs : List Char) : cs.length ≤ (cs.flatMap escaped).length := by
  induction cs with
  | nil => exact Nat.le_refl _
  | cons c cs ih =>
    have some' : 1 ≤ (escaped c).length := by
      have ways := escapes c
      generalize escaped c = written at ways
      cases ways <;> simp
    rw [List.flatMap_cons, List.length_append, List.length_cons]
    omega

/-- The text in quotes that stands for a text is read back. -/
theorem readText_literal (s : String) (start offset : Nat) (rest : List Char) :
    ∃ offset', readText start ((textLiteral s ++ rest).length + 1)
      (Cursor.skip ⟨textLiteral s ++ rest, offset⟩ 1) [] = .ok (s, ⟨rest, offset'⟩) := by
  have inside : Cursor.skip ⟨textLiteral s ++ rest, offset⟩ 1 =
      ⟨s.toList.flatMap escaped ++ '"' :: rest, offset + 1⟩ := by
    simp [Cursor.skip, textLiteral]
  have enough : s.toList.length < (textLiteral s ++ rest).length + 1 := by
    have := length_le_escaped s.toList
    simp only [textLiteral, List.cons_append, List.length_cons, List.length_append]
    omega
  obtain ⟨offset', read⟩ := readText_quoted start (offset + 1) s.toList enough rest []
  rw [inside]
  exact ⟨offset', by simpa using read⟩

theorem readable_str (s : String) : Readable (.str s) := by
  have written : body (.str s) = textLiteral s := body_eq rfl
  refine ⟨by rw [written]; rfl, ⟨'"', _, written, rfl, by decide⟩,
    fun rest offset fuel _ long => ?_⟩
  rw [written] at long ⊢
  obtain ⟨fuel, rfl⟩ := Nat.exists_eq_succ_of_ne_zero (show fuel ≠ 0 by
    intro zero
    simp [zero, textLiteral] at long)
  obtain ⟨offset', read⟩ := readText_literal s offset offset rest
  refine ⟨offset', ?_⟩
  show (readText offset ((textLiteral s ++ rest).length + 1)
    (Cursor.skip ⟨textLiteral s ++ rest, offset⟩ 1) [] >>= fun reading =>
      pure (Value.str reading.1, reading.2)) = _
  rw [read]
  rfl

/-- Nothing is skipped where no blank stands. -/
theorem skipBlanks_none {c : Char} (more : List Char) (offset : Nat)
    (h : Cursor.isBlank c = false) :
    Cursor.skipBlanks ⟨c :: more, offset⟩ = ⟨c :: more, offset⟩ := by
  rw [Cursor.skipBlanks]
  dsimp only
  rw [List.takeWhile_cons_of_neg (by simp [h])]
  rfl

theorem skipBlanks_one {c : Char} (more : List Char) (offset : Nat)
    (h : Cursor.isBlank c = false) :
    Cursor.skipBlanks ⟨' ' :: c :: more, offset⟩ = ⟨c :: more, offset + 1⟩ := by
  rw [Cursor.skipBlanks]
  dsimp only
  rw [List.takeWhile_cons_of_pos (by rfl), List.takeWhile_cons_of_neg (by simp [h])]
  rfl

theorem readItems_last {c : Cursor} {v : Value} {done : List Value} {fuel offset : Nat}
    (read : readValue fuel c = .ok (v, ⟨']' :: rest, offset⟩)) :
    readItems (fuel + 1) c done = .ok (.list (v :: done).reverse, ⟨rest, offset + 1⟩) := by
  rw [readItems, read]
  rfl

theorem readItems_next {c : Cursor} {v : Value} {done : List Value} {fuel offset : Nat} {d : Char}
    {more : List Char} (read : readValue fuel c = .ok (v, ⟨',' :: ' ' :: d :: more, offset⟩))
    (starts : Cursor.isBlank d = false) :
    readItems (fuel + 1) c done = readItems fuel ⟨d :: more, offset + 2⟩ (v :: done) := by
  have gap : (Cursor.skip ⟨',' :: ' ' :: d :: more, offset⟩ 1).skipBlanks =
      ⟨d :: more, offset + 2⟩ := skipBlanks_one more (offset + 1) starts
  rw [readItems, read, ← gap]
  rfl

/-- Parts start with the first character of the first one. -/
theorem separated_starts {first : List Char} {d : Char} {more : List Char}
    (starts : first = d :: more) (parts : List (List Char)) :
    ∃ more', separated (first :: parts) = d :: more' := by
  subst starts
  cases parts with
  | nil => exact ⟨more, by simp [separated]⟩
  | cons next parts =>
    rw [separated, List.intercalate_cons_cons]
    exact ⟨_, rfl⟩

/-- The items of a list are read one after the other up to its end. -/
theorem readItems_separated {items : List Value} (each : ∀ v ∈ items, Readable v)
    (some' : items ≠ []) (rest : List Char) (offset fuel : Nat) (done : List Value)
    (long : (separated (items.map body)).length + 1 ≤ fuel) :
    ∃ offset', readItems fuel ⟨separated (items.map body) ++ ']' :: rest, offset⟩ done =
      .ok (.list (done.reverse ++ items.map arranged), ⟨rest, offset'⟩) := by
  induction items generalizing offset fuel done with
  | nil => exact absurd rfl some'
  | cons v others ih =>
    obtain ⟨fuel, rfl⟩ := Nat.exists_eq_succ_of_ne_zero (show fuel ≠ 0 by omega)
    have readable := each v List.mem_cons_self
    cases others with
    | nil =>
      have alone : separated ([v].map body) = body v := by simp [separated]
      rw [alone] at long ⊢
      obtain ⟨offset₁, read⟩ := readable.reads (']' :: rest) offset fuel (by simp [Stops])
        (by omega)
      refine ⟨offset₁ + 1, ?_⟩
      rw [readItems_last read]
      simp
    | cons next others =>
      have several : separated ((v :: next :: others).map body) =
          body v ++ ',' :: ' ' :: separated ((next :: others).map body) := by
        simp [separated, List.intercalate_cons_cons]
      obtain ⟨d, more, starts, blank, _⟩ := (each next (by simp)).starts
      obtain ⟨more', begins⟩ := separated_starts starts (others.map body)
      rw [← List.map_cons] at begins
      have tail := ih (fun w hw => each w (List.mem_cons_of_mem _ hw)) (by simp)
      rw [several, begins] at long ⊢
      rw [begins] at tail
      obtain ⟨offset₁, read⟩ := readable.reads (',' :: ' ' :: d :: (more' ++ ']' :: rest)) offset
        fuel (by simp [Stops]) (by simp at long; omega)
      obtain ⟨offset₂, reads⟩ := tail (offset₁ + 2) fuel (arranged v :: done)
        (by simp at long ⊢; omega)
      refine ⟨offset₂, ?_⟩
      have split : body v ++ ',' :: ' ' :: d :: more' ++ ']' :: rest =
          body v ++ ',' :: ' ' :: d :: (more' ++ ']' :: rest) := by simp
      rw [split, readItems_next read blank]
      refine reads.trans ?_
      simp

theorem encodedItems_eq {items : List Value} (each : ∀ v ∈ items, Readable v) :
    encodedItems items = .ok (items.map body) := by
  induction items with
  | nil => rfl
  | cons v rest ih =>
    rw [encodedItems, (each v List.mem_cons_self).encoded,
      ih fun w hw => each w (List.mem_cons_of_mem _ hw)]
    rfl

theorem readable_list {items : List Value} (each : ∀ v ∈ items, Readable v) :
    Readable (.list items) := by
  have written : body (.list items) = '[' :: separated (items.map body) ++ [']'] := by
    refine body_eq ?_
    rw [Json.encoded, encodedItems_eq each]
    rfl
  have encoded : Json.encoded (.list items) = .ok (body (.list items)) := by
    rw [written, Json.encoded, encodedItems_eq each]
    rfl
  refine ⟨encoded, ⟨'[', _, written, rfl, by decide⟩, fun rest offset fuel _ long => ?_⟩
  rw [written] at long ⊢
  obtain ⟨fuel, rfl⟩ := Nat.exists_eq_succ_of_ne_zero (show fuel ≠ 0 by
    intro zero
    simp [zero] at long)
  have plain : arranged (.list items) = .list (items.map arranged) := by
    rw [arranged, arrangedItems_eq]
  rw [plain]
  cases items with
  | nil => exact ⟨offset + 2, rfl⟩
  | cons v others =>
    obtain ⟨d, more, starts, blank, close⟩ := (each v List.mem_cons_self).starts
    obtain ⟨more', begins⟩ := separated_starts starts (others.map body)
    obtain ⟨offset', reads⟩ := readItems_separated each (by simp) rest (offset + 1) fuel []
      (by simp at long ⊢; omega)
    refine ⟨offset', Eq.trans ?_ reads⟩
    rw [List.map_cons, begins]
    have inside : (Cursor.skip ⟨'[' :: (d :: more') ++ [']'] ++ rest, offset⟩ 1).skipBlanks =
        ⟨d :: more' ++ ']' :: rest, offset + 1⟩ := by
      have gap := skipBlanks_none (more' ++ ']' :: rest) (offset + 1) blank
      simpa [Cursor.skip] using gap
    show (if (Cursor.skip _ 1).skipBlanks.rest.head? = some ']' then _ else
      readItems fuel (Cursor.skip _ 1).skipBlanks []) = _
    rw [inside, if_neg (by simpa using close)]

/-- How the text of an entry is written. -/
def entryText (entry : String × Value) : List Char :=
  textLiteral entry.1 ++ ':' :: ' ' :: body entry.2

/-- How entries are read on after the value of one of them. -/
def readOn (fuel : Nat) (c : Cursor) (done : List (String × Value)) :
    Except Nat (Value × Cursor) :=
  let after := c.skipBlanks
  match after.rest with
  | '\x7d' :: _ => pure (Value.ofTexts done, after.skip 1)
  | ',' :: _ => readEntries fuel (after.skip 1).skipBlanks done
  | _ => .error after.offset

theorem readEntries_entry {entry : String × Value} (readable : Readable entry.2)
    (offset fuel : Nat) (more : List Char) (stops : Stops more)
    (long : (body entry.2).length ≤ fuel) (done : List (String × Value)) :
    ∃ offset', readEntries (fuel + 1) ⟨entryText entry ++ more, offset⟩ done =
      readOn fuel ⟨more, offset'⟩ (putText entry.1 (arranged entry.2) done) := by
  obtain ⟨offset₁, key⟩ := readText_literal entry.1 offset offset
    (':' :: ' ' :: (body entry.2 ++ more))
  obtain ⟨d, more', starts, blank, _⟩ := readable.starts
  obtain ⟨offset₂, value⟩ := readable.reads more (offset₁ + 2) fuel stops long
  have whole : entryText entry ++ more =
      textLiteral entry.1 ++ ':' :: ' ' :: (body entry.2 ++ more) := by
    simp [entryText]
  have colon : Cursor.skipBlanks ⟨':' :: ' ' :: (body entry.2 ++ more), offset₁⟩ =
      ⟨':' :: ' ' :: (body entry.2 ++ more), offset₁⟩ := skipBlanks_none _ _ rfl
  have gap : (Cursor.skip ⟨':' :: ' ' :: (body entry.2 ++ more), offset₁⟩ 1).skipBlanks =
      ⟨body entry.2 ++ more, offset₁ + 2⟩ := by
    rw [starts]
    exact skipBlanks_one (more' ++ more) (offset₁ + 1) blank
  refine ⟨offset₂, ?_⟩
  rw [whole, readEntries]
  dsimp only
  rw [if_pos (show (textLiteral entry.1 ++ _).head? = some '"' from rfl), key]
  simp only [bind, Except.bind]
  simp only [colon, List.head?_cons, if_true, gap, value]
  rfl

theorem length_le_separated (first : List Char) (parts : List (List Char)) :
    first.length ≤ (separated (first :: parts)).length := by
  cases parts with
  | nil => simp [separated]
  | cons next parts =>
    rw [separated, List.intercalate_cons_cons, List.length_append, List.length_append]
    omega

/-- The entries of a dictionary are read one after the other up to its end. -/
theorem readEntries_separated {entries : List (String × Value)}
    (each : ∀ entry ∈ entries, Readable entry.2) (some' : entries ≠ []) (rest : List Char)
    (offset fuel : Nat) (done : List (String × Value))
    (distinct : ((done ++ entries).map (·.1)).Nodup)
    (long : (separated (entries.map entryText)).length + 1 ≤ fuel) :
    ∃ offset', readEntries fuel ⟨separated (entries.map entryText) ++ '\x7d' :: rest, offset⟩ done =
      .ok (ofTexts (done ++ entries.map fun e => (e.1, arranged e.2)), ⟨rest, offset'⟩) := by
  induction entries generalizing offset fuel done with
  | nil => exact absurd rfl some'
  | cons entry others ih =>
    obtain ⟨fuel, rfl⟩ := Nat.exists_eq_succ_of_ne_zero (show fuel ≠ 0 by omega)
    have readable := each entry List.mem_cons_self
    have fits : (body entry.2).length ≤ fuel := by
      have whole := length_le_separated (entryText entry) (others.map entryText)
      have part : (body entry.2).length + 2 ≤ (entryText entry).length := by
        simp only [entryText, List.length_append, List.length_cons]
        omega
      rw [List.map_cons] at long
      omega
    have fresh : entry.1 ∉ done.map (·.1) := by
      rw [List.map_append, List.map_cons, List.nodup_append] at distinct
      exact fun hm => distinct.2.2 _ hm _ List.mem_cons_self rfl
    cases others with
    | nil =>
      have alone : separated ([entry].map entryText) = entryText entry := by simp [separated]
      rw [alone]
      obtain ⟨offset₁, read⟩ := readEntries_entry readable offset fuel ('\x7d' :: rest)
        (by simp [Stops]) fits done
      refine ⟨offset₁ + 1, read.trans ?_⟩
      rw [putText_fresh fresh]
      rfl
    | cons next others =>
      have several : separated ((entry :: next :: others).map entryText) =
          entryText entry ++ ',' :: ' ' :: separated ((next :: others).map entryText) := by
        simp [separated, List.intercalate_cons_cons]
      obtain ⟨more, begins⟩ := separated_starts (show entryText next = '"' :: _ from rfl)
        (others.map entryText)
      rw [← List.map_cons] at begins
      have tail := ih (fun e he => each e (List.mem_cons_of_mem _ he)) (by simp)
      rw [several, begins] at long ⊢
      rw [begins] at tail
      obtain ⟨offset₁, read⟩ := readEntries_entry readable offset fuel
        (',' :: ' ' :: '"' :: (more ++ '\x7d' :: rest)) (by simp [Stops]) fits done
      obtain ⟨offset₂, reads⟩ := tail (offset₁ + 2) fuel (done ++ [(entry.1, arranged entry.2)])
        (by simpa using distinct) (by simp at long ⊢; omega)
      refine ⟨offset₂, ?_⟩
      have split : entryText entry ++ ',' :: ' ' :: '"' :: more ++ '\x7d' :: rest =
          entryText entry ++ ',' :: ' ' :: '"' :: (more ++ '\x7d' :: rest) := by simp
      rw [split, read, putText_fresh fresh]
      refine Eq.trans ?_ (reads.trans ?_)
      · have gap : (Cursor.skip ⟨',' :: ' ' :: '"' :: (more ++ '\x7d' :: rest), offset₁⟩ 1).skipBlanks
            = ⟨'"' :: (more ++ '\x7d' :: rest), offset₁ + 2⟩ := skipBlanks_one _ (offset₁ + 1) rfl
        rw [← List.cons_append] at gap
        rw [← gap]
        rfl
      · simp

theorem mapM_eq {α β : Type} {f : α → Except Failure β} {g : α → β} {rows : List α}
    (h : ∀ row ∈ rows, f row = .ok (g row)) : rows.mapM f = .ok (rows.map g) := by
  induction rows with
  | nil => rfl
  | cons row rest ih =>
    rw [List.mapM_cons, h row List.mem_cons_self, ih fun r hr => h r (List.mem_cons_of_mem _ hr)]
    rfl

theorem encodedEntries_named {entries : List (String × Value)}
    (each : ∀ entry ∈ entries, Readable entry.2) :
    encodedEntries (named entries) =
      named (entries.map fun e => (e.1, Except.ok (body e.2))) := by
  induction entries with
  | nil => rfl
  | cons entry rest ih =>
    rw [named_cons, encodedEntries, (each entry List.mem_cons_self).encoded,
      ih fun e he => each e (List.mem_cons_of_mem _ he)]
    rfl

theorem encoded_dict {entries : List (String × Value)} (distinct : (entries.map (·.1)).Nodup)
    (each : ∀ entry ∈ entries, Readable entry.2) :
    Json.encoded (.dict (named entries)) =
      .ok ('\x7b' :: separated ((inNameOrder entries).map entryText) ++ ['\x7d']) := by
  have distinct' : ((entries.map fun e => (e.1, Except.ok (ε := Failure) (body e.2))).map
      (·.1)).Nodup := by
    rw [List.map_map]
    exact distinct
  have order := inNameOrder_map (fun v => Except.ok (ε := Failure) (body v)) entries
  rw [Json.encoded, encodedEntries_named each, object, inKeyOrder_eq distinct', order, named,
    List.map_map]
  show (List.mapM (m := Except Failure) _ (List.map _ (inNameOrder entries)) >>= fun parts =>
    pure ('\x7b' :: separated parts ++ ['\x7d'])) = _
  rw [List.mapM_map, mapM_eq (g := entryText)]
  · rfl
  · exact fun _ _ => rfl

theorem readable_dict {entries : List (String × Value)} (distinct : (entries.map (·.1)).Nodup)
    (each : ∀ entry ∈ entries, Readable entry.2) : Readable (.dict (named entries)) := by
  have encoded := encoded_dict distinct each
  have written := body_eq encoded
  refine ⟨by rw [written, encoded], ⟨'\x7b', _, written, rfl, by decide⟩,
    fun rest offset fuel _ long => ?_⟩
  rw [written] at long ⊢
  obtain ⟨fuel, rfl⟩ := Nat.exists_eq_succ_of_ne_zero (show fuel ≠ 0 by
    intro zero
    simp [zero] at long)
  have distinct' : ((inNameOrder entries).map (·.1)).Nodup :=
    ((inNameOrder_perm entries).map _).nodup_iff.mpr distinct
  have each' : ∀ entry ∈ inNameOrder entries, Readable entry.2 :=
    fun entry he => each entry ((inNameOrder_perm entries).mem_iff.mp he)
  rw [arranged_dict]
  cases sorted : inNameOrder entries with
  | nil => exact ⟨offset + 2, rfl⟩
  | cons entry others =>
    rw [sorted] at distinct' each' long
    obtain ⟨more, begins⟩ := separated_starts (show entryText entry = '"' :: _ from rfl)
      (others.map entryText)
    obtain ⟨offset', reads⟩ := readEntries_separated each' (by simp) rest (offset + 1) fuel []
      distinct' (by simp at long ⊢; omega)
    refine ⟨offset', Eq.trans ?_ reads⟩
    rw [List.map_cons, begins]
    have inside : (Cursor.skip ⟨'\x7b' :: ('"' :: more) ++ ['\x7d'] ++ rest, offset⟩ 1).skipBlanks =
        ⟨'"' :: more ++ '\x7d' :: rest, offset + 1⟩ := by
      have gap := skipBlanks_none (more ++ '\x7d' :: rest) (offset + 1) (c := '"') rfl
      simpa [Cursor.skip] using gap
    rw [readValue]
    simp only [List.cons_append, List.append_assoc] at inside ⊢
    simp only [inside, List.head?_cons]
    rw [if_neg (by simp)]

/-- Every value that JSON is made of is read back with its entries in order. -/
theorem readable {v : Value} (h : v.IsJson) : Readable v := by
  induction h with
  | null => exact readable_null
  | bool b => exact readable_bool b
  | int n => exact readable_int n
  | str s => exact readable_str s
  | list items _ each => exact readable_list each
  | dict entries distinct _ each => exact readable_dict distinct each

end Json

end Handover
