import Handover.Json.Line
import Handover.Proofs.Uuid

namespace Handover

/-- Whether no control character is among some characters. -/
def NoControls (cs : List Char) : Prop :=
  ∀ c ∈ cs, 32 ≤ c.toNat

namespace NoControls

variable {cs ds : List Char} {c : Char}

@[simp] theorem nil : NoControls [] := by
  simp [NoControls]

@[simp] theorem cons_iff : NoControls (c :: cs) ↔ 32 ≤ c.toNat ∧ NoControls cs := by
  simp [NoControls]

@[simp] theorem append_iff : NoControls (cs ++ ds) ↔ NoControls cs ∧ NoControls ds := by
  simp [NoControls, or_imp, forall_and]

theorem subset (h : NoControls ds) (sub : cs ⊆ ds) : NoControls cs :=
  fun c hc => h c (sub hc)

theorem replicate (n : Nat) (h : 32 ≤ c.toNat) : NoControls (List.replicate n c) := by
  intro d hd
  rw [List.eq_of_mem_replicate hd]
  exact h

theorem notMem (h : NoControls cs) (control : c.toNat < 32) : c ∉ cs := by
  intro hc
  have := h c hc
  omega

end NoControls

namespace Binary64

theorem noControls_decimalDigits (n : Nat) : NoControls (decimalDigits n) := by
  intro c hc
  have digit := Nat.isDigit_of_mem_toDigits (by omega) (by omega) hc
  simp only [Char.isDigit, Bool.and_eq_true, decide_eq_true_eq, ge_iff_le] at digit
  have : 48 ≤ c.toNat := digit.1
  omega

theorem noControls_positional {digits : List Char} (h : NoControls digits) (point : Int) :
    NoControls (positional digits point) := by
  have zeros : ∀ n, NoControls (List.replicate n '0') := fun n => .replicate n (by decide)
  rw [positional]
  split
  · simp [h, zeros]
  · split
    · simp [h, zeros]
    · have early := h.subset (List.take_subset point.toNat digits)
      have late := h.subset (List.drop_subset point.toNat digits)
      simp [early, late]

theorem noControls_withPower {digits : List Char} (h : NoControls digits) (power : Int) :
    NoControls (withPower digits power) := by
  have sign : 32 ≤ (if power < 0 then '-' else '+').toNat := by
    split <;> decide
  have zeros : ∀ n, NoControls (List.replicate n '0') := fun n => .replicate n (by decide)
  refine NoControls.append_iff.mpr ⟨NoControls.append_iff.mpr ⟨?_, ?_⟩,
    noControls_decimalDigits power.natAbs⟩
  · match digits, h with
    | [], h => exact h
    | [d], h => exact h
    | d :: e :: rest, h => simpa using h
  · exact NoControls.cons_iff.mpr ⟨by decide, NoControls.cons_iff.mpr ⟨sign, zeros _⟩⟩

theorem noControls_text (x : Binary64) : NoControls x.text.toList := by
  cases x with
  | nan => simp [text]
  | infinite negative => cases negative <;> simp [text]
  | finite negative significand exponent =>
    have digits : NoControls (shortest significand exponent).1 := by
      intro c hc
      rw [shortest, List.mem_reverse] at hc
      have written := (List.dropWhile_sublist _).subset hc
      exact noControls_decimalDigits _ c (List.mem_reverse.mp written)
    have body : NoControls (if significand = 0 then ['0', '.', '0']
        else if layout.positionalFrom < (shortest significand exponent).2 ∧
            (shortest significand exponent).2 ≤ layout.positionalBelow then
          positional (shortest significand exponent).1 (shortest significand exponent).2
        else withPower (shortest significand exponent).1
          ((shortest significand exponent).2 - 1)) := by
      split
      · simp
      · split
        · exact noControls_positional digits _
        · exact noControls_withPower digits _
    rw [text, String.toList_ofList]
    cases negative with
    | false => exact body
    | true => exact NoControls.cons_iff.mpr ⟨by decide, body⟩

end Binary64

namespace Value

variable {α : Type} {entry : Value × α} {entries sorted : List (Value × α)}

theorem mem_placeAll {rest : List (Value × α)} {before after : Array (Value × α)}
    (h : placeAll rest before = .ok after) (hm : entry ∈ after.toList) :
    entry ∈ rest ∨ entry ∈ before.toList := by
  induction rest generalizing before with
  | nil =>
    cases h
    exact Or.inr hm
  | cons first rest ih =>
    obtain ⟨place, _, h⟩ := ok_of_bind h
    rcases ih h with hm | hm
    · exact Or.inl (List.mem_cons_of_mem _ hm)
    · by_cases hplace : place ≤ before.toList.length
      · rcases (List.mem_insertIdx hplace).mp hm with rfl | hm
        · exact Or.inl (by simp)
        · exact Or.inr hm
      · rw [List.insertIdx_of_length_lt (by omega)] at hm
        exact Or.inr hm

theorem mem_inKeyOrder (h : inKeyOrder entries = .ok sorted) (hm : entry ∈ sorted) :
    entry ∈ entries := by
  match entries with
  | [] => cases h; exact hm
  | [single] => cases h; exact hm
  | first :: second :: rest =>
    obtain ⟨descends, _, h⟩ := ok_of_bind h
    cases descends with
    | true =>
      obtain ⟨run, _, h⟩ := ok_of_bind h
      obtain ⟨placed, hp, h⟩ := ok_of_bind h
      cases h
      rcases mem_placeAll hp hm with hm | hm
      · exact List.mem_of_mem_drop hm
      · exact List.mem_of_mem_take (List.mem_reverse.mp hm)
    | false =>
      obtain ⟨run, _, h⟩ := ok_of_bind h
      obtain ⟨placed, hp, h⟩ := ok_of_bind h
      cases h
      rcases mem_placeAll hp hm with hm | hm
      · exact List.mem_of_mem_drop hm
      · exact List.mem_of_mem_take hm

end Value

namespace Json

theorem noControls_escaped (c : Char) : NoControls (escaped c) := by
  have digits : NoControls (Text.hexDigits 4 c.toNat) := fun d hd => by
    obtain ⟨n, rfl⟩ := Text.mem_hexDigits hd
    exact Text.hexDigit_printed n
  rw [escaped]
  split
  · simp
  · split
    · simp
    · split
      · simp
      · split
        · simp
        · split
          · simp
          · split
            · simp
            · split
              · simp
              · split
                · simp [digits]
                · next printed => simpa using printed

theorem noControls_textLiteral (s : String) : NoControls (textLiteral s) := by
  have body : NoControls (s.toList.flatMap escaped) := fun c hc => by
    obtain ⟨d, _, hd⟩ := List.mem_flatMap.mp hc
    exact noControls_escaped d c hd
  simp [textLiteral, body]

theorem noControls_toString (n : Int) : NoControls (toString n).toList := by
  have digits : ∀ m : Nat, NoControls (Nat.repr m).toList := fun m => by
    rw [Nat.toList_repr]
    exact Binary64.noControls_decimalDigits m
  rw [Int.toString_eq_repr]
  cases n with
  | ofNat m => exact digits m
  | negSucc m =>
    show NoControls ("-" ++ Nat.repr (m + 1)).toList
    rw [String.toList_append, NoControls.append_iff]
    exact ⟨by simp, digits (m + 1)⟩

theorem noControls_numberText (x : Binary64) : NoControls (numberText x).toList := by
  cases x with
  | nan => simp [numberText]
  | infinite negative => cases negative <;> simp [numberText]
  | finite negative significand exponent => exact Binary64.noControls_text _

theorem noControls_separated {parts : List (List Char)} (h : ∀ part ∈ parts, NoControls part) :
    NoControls (separated parts) := by
  induction parts with
  | nil => simp [separated]
  | cons part rest ih =>
    have hpart := h part (by simp)
    have hrest := ih fun p hp => h p (List.mem_cons_of_mem _ hp)
    cases rest with
    | nil => simpa [separated] using hpart
    | cons next rest =>
      rw [separated, List.intercalate_cons_cons]
      simp only [NoControls.append_iff]
      exact ⟨⟨hpart, by simp⟩, hrest⟩

theorem exists_of_mem_mapM {α β : Type} {f : α → Except Failure β} {rows : List α} {parts : List β}
    (h : rows.mapM f = .ok parts) {part : β} (hm : part ∈ parts) :
    ∃ row ∈ rows, f row = .ok part := by
  induction rows generalizing parts with
  | nil =>
    rw [List.mapM_nil] at h
    cases h
    simp at hm
  | cons row rest ih =>
    rw [List.mapM_cons] at h
    obtain ⟨first, hfirst, h⟩ := ok_of_bind h
    obtain ⟨others, hothers, h⟩ := ok_of_bind h
    cases h
    rcases List.mem_cons.mp hm with rfl | hm
    · exact ⟨row, by simp, hfirst⟩
    · obtain ⟨r, hr, hf⟩ := ih hothers hm
      exact ⟨r, List.mem_cons_of_mem _ hr, hf⟩

theorem noControls_object {entries : List (Value × Except Failure (List Char))} {cs : List Char}
    (bodies : ∀ entry ∈ entries, ∀ body, entry.2 = .ok body → NoControls body)
    (h : object entries = .ok cs) : NoControls cs := by
  obtain ⟨sorted, hsorted, h⟩ := ok_of_bind h
  obtain ⟨parts, hparts, h⟩ := ok_of_bind h
  cases h
  have all : NoControls (separated parts) := by
    refine noControls_separated fun part hpart => ?_
    obtain ⟨⟨key, result⟩, hrow, hpart⟩ := exists_of_mem_mapM hparts hpart
    obtain ⟨name, _, hpart⟩ := ok_of_bind hpart
    obtain ⟨body, hbody, hpart⟩ := ok_of_bind hpart
    cases hpart
    have := bodies _ (Value.mem_inKeyOrder hsorted hrow) body hbody
    simp [this, noControls_textLiteral]
  simp [all]

mutual

theorem noControls_encoded (v : Value) {cs : List Char} (h : encoded v = .ok cs) :
    NoControls cs := by
  cases v with
  | null => cases h; simp
  | bool b => cases h; cases b <;> simp
  | int n => cases h; exact noControls_toString n
  | float x => cases h; exact noControls_numberText x
  | str s => cases h; exact noControls_textLiteral s
  | member m => cases h; exact noControls_textLiteral m.text
  | list items =>
    obtain ⟨parts, hparts, h⟩ := ok_of_bind h
    cases h
    simp [noControls_separated (noControls_encodedItems items hparts)]
  | tuple items =>
    obtain ⟨parts, hparts, h⟩ := ok_of_bind h
    cases h
    simp [noControls_separated (noControls_encodedItems items hparts)]
  | dict entries => exact noControls_object (noControls_encodedEntries entries) h
  | _ => cases h

theorem noControls_encodedItems (vs : List Value) {parts : List (List Char)}
    (h : encodedItems vs = .ok parts) : ∀ part ∈ parts, NoControls part := by
  cases vs with
  | nil =>
    cases h
    simp
  | cons v rest =>
    obtain ⟨first, hfirst, h⟩ := ok_of_bind h
    obtain ⟨others, hothers, h⟩ := ok_of_bind h
    cases h
    intro part hpart
    rcases List.mem_cons.mp hpart with rfl | hpart
    · exact noControls_encoded v hfirst
    · exact noControls_encodedItems rest hothers part hpart

theorem noControls_encodedEntries (es : List (Value × Value)) :
    ∀ entry ∈ encodedEntries es, ∀ body, entry.2 = .ok body → NoControls body := by
  cases es with
  | nil => simp [encodedEntries]
  | cons e rest =>
    obtain ⟨k, v⟩ := e
    intro entry hm body hbody
    rcases List.mem_cons.mp hm with rfl | hm
    · exact noControls_encoded v hbody
    · exact noControls_encodedEntries rest entry hm body hbody

end

theorem noControls_line {type : RecordType} {content : Value} {text : String}
    (h : line type content = .ok text) : NoControls text.toList := by
  obtain ⟨data, _, h⟩ := ok_of_bind h
  obtain ⟨body, hbody, h⟩ := ok_of_bind h
  cases h
  rw [String.toList_ofList]
  exact noControls_encoded _ hbody

theorem break_notMem_line {type : RecordType} {content : Value} {text : String}
    (h : line type content = .ok text) : '\n' ∉ text.toList :=
  (noControls_line h).notMem (by decide)

end Json

end Handover
