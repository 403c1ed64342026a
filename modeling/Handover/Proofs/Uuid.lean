import Handover.Uuid
import Mathlib.Algebra.Group.Nat.Defs

namespace Handover

namespace Text

theorem hexDigit_injective : ∀ {m n : Fin 16}, hexDigit m = hexDigit n → m = n := by
  decide

theorem hexDigit_ne_hyphen : ∀ n : Fin 16, hexDigit n ≠ '-' := by
  decide

theorem hexDigit_printed : ∀ n : Fin 16, 32 ≤ (hexDigit n).toNat := by
  decide

@[simp] theorem length_hexDigits (width n : Nat) : (hexDigits width n).length = width := by
  induction width generalizing n with
  | zero => rfl
  | succ width ih => rw [hexDigits, List.length_append, ih, List.length_singleton]

theorem mem_hexDigits {width n : Nat} {c : Char} (h : c ∈ hexDigits width n) :
    ∃ d : Fin 16, c = hexDigit d := by
  induction width generalizing n with
  | zero => simp [hexDigits] at h
  | succ width ih =>
    rcases List.mem_append.mp h with h | h
    · exact ih h
    · exact ⟨⟨n % 16, Nat.mod_lt n (by omega)⟩, List.mem_singleton.mp h⟩

theorem hexDigits_injective {width m n : Nat} (hm : m < 16 ^ width) (hn : n < 16 ^ width)
    (h : hexDigits width m = hexDigits width n) : m = n := by
  induction width generalizing m n with
  | zero => omega
  | succ width ih =>
    obtain ⟨hhigh, hlow⟩ := List.append_inj h (by simp)
    rw [Nat.pow_succ] at hm hn
    have high := ih (by omega) (by omega) hhigh
    have low := @hexDigit_injective ⟨m % 16, by omega⟩ ⟨n % 16, by omega⟩
      (List.singleton_inj.mp hlow)
    have := Fin.mk.inj low
    omega

end Text

namespace Uuid

theorem digits_injective {u v : Uuid} (h : u.digits = v.digits) : u = v := by
  have bound : ∀ w : Uuid, w.bits.toNat < 16 ^ 32 := fun w => w.bits.isLt
  have := Text.hexDigits_injective (bound u) (bound v) h
  cases u
  cases v
  exact congrArg mk (BitVec.eq_of_toNat_eq this)

theorem length_digits (u : Uuid) : u.digits.length = 32 :=
  Text.length_hexDigits 32 _

theorem mem_digits_ne_hyphen {u : Uuid} {c : Char} (h : c ∈ u.digits) : c ≠ '-' := by
  obtain ⟨d, rfl⟩ := Text.mem_hexDigits h
  exact Text.hexDigit_ne_hyphen d

theorem digits_groups (u : Uuid) : u.digits.take 8 ++ (u.digits.drop 8).take 4 ++
    (u.digits.drop 12).take 4 ++ (u.digits.drop 16).take 4 ++ u.digits.drop 20 = u.digits := by
  have join : ∀ m n, (u.digits.drop m).take n ++ u.digits.drop (m + n) = u.digits.drop m := by
    intro m n
    rw [← List.drop_drop, List.take_append_drop]
  rw [List.append_assoc, List.append_assoc, List.append_assoc, join 16 4, join 12 4, join 8 4,
    List.take_append_drop]

theorem text_filter (u : Uuid) : u.text.toList.filter (· ≠ '-') = u.digits := by
  have kept : ∀ part : List Char, part.Sublist u.digits → part.filter (· ≠ '-') = part := by
    intro part h
    refine List.filter_eq_self.mpr fun c hc => ?_
    simpa using mem_digits_ne_hyphen (h.subset hc)
  have piece : ∀ m n, ((u.digits.drop m).take n).filter (· ≠ '-') = (u.digits.drop m).take n :=
    fun m n => kept _ ((List.take_sublist n _).trans (List.drop_sublist m _))
  have first := kept (u.digits.take 8) (List.take_sublist 8 _)
  have last := kept (u.digits.drop 20) (List.drop_sublist 20 _)
  rw [text, String.toList_ofList]
  simp only [List.filter_append, List.filter_cons, piece, first, last, ne_eq, not_true_eq_false,
    decide_false, Bool.false_eq_true, if_false]
  exact u.digits_groups

theorem mem_text {u : Uuid} {c : Char} (h : c ∈ u.text.toList) :
    c = '-' ∨ ∃ d : Fin 16, c = Text.hexDigit d := by
  by_cases hyphen : c = '-'
  · exact .inl hyphen
  · refine .inr (@Text.mem_hexDigits 32 u.bits.toNat c ?_)
    show c ∈ u.digits
    rw [← text_filter]
    exact List.mem_filter.mpr ⟨h, by simpa using hyphen⟩

theorem text_injective {u v : Uuid} (h : u.text = v.text) : u = v :=
  digits_injective (by rw [← text_filter, ← text_filter, h])

theorem length_text (u : Uuid) : u.text.toList.length = 36 := by
  simp [text, length_digits]

theorem text_ne_up (u : Uuid) : u.text ≠ ".." := by
  intro h
  have := u.length_text
  rw [h] at this
  simp at this

theorem digitValue?_hexDigit : ∀ n : Fin 16, digitValue? (Text.hexDigit n) = some n.val := by
  decide

/-- Hexadecimal digits are read back if there are enough of them. -/
theorem hexValue?_hexDigits {width n : Nat} (h : n < 16 ^ width) :
    hexValue? (Text.hexDigits width n) = some n := by
  induction width generalizing n with
  | zero =>
    obtain rfl : n = 0 := by simpa using h
    rfl
  | succ width ih =>
    have high := ih (n := n / 16) (by rw [Nat.pow_succ] at h; omega)
    have low : digitValue? (Text.hexDigit (n % 16)) = some (n % 16) :=
      digitValue?_hexDigit ⟨n % 16, Nat.mod_lt n (by omega)⟩
    rw [hexValue?] at high
    rw [Text.hexDigits, hexValue?, List.foldl_append, high, List.foldl_cons, List.foldl_nil, low]
    show some (16 * (n / 16) + n % 16) = some n
    rw [Nat.div_add_mod]

theorem getElem?_hyphen {before rest : List Char} {n : Nat} (h : before.length = n) :
    (before ++ '-' :: rest)[n]? = some '-' := by
  rw [← h, List.getElem?_append_right (Nat.le_refl _), Nat.sub_self, List.getElem?_cons_zero]

theorem hyphenatedDigits?_groups {a b c d e : List Char} (ha : a.length = 8) (hb : b.length = 4)
    (hc : c.length = 4) (hd : d.length = 4) (he : e.length = 12) :
    hyphenatedDigits? (a ++ '-' :: b ++ '-' :: c ++ '-' :: d ++ '-' :: e) =
      some (a ++ b ++ c ++ d ++ e) := by
  have first : (a ++ '-' :: b ++ '-' :: c ++ '-' :: d ++ '-' :: e)[8]? = some '-' := by
    simp only [List.append_assoc, List.cons_append]
    exact getElem?_hyphen ha
  have second : (a ++ '-' :: b ++ '-' :: c ++ '-' :: d ++ '-' :: e)[13]? = some '-' := by
    simp only [List.append_assoc (a ++ '-' :: b), List.cons_append]
    exact getElem?_hyphen (by simp; omega)
  have third : (a ++ '-' :: b ++ '-' :: c ++ '-' :: d ++ '-' :: e)[18]? = some '-' := by
    simp only [List.append_assoc (a ++ '-' :: b ++ '-' :: c), List.cons_append]
    exact getElem?_hyphen (by simp; omega)
  have fourth : (a ++ '-' :: b ++ '-' :: c ++ '-' :: d ++ '-' :: e)[23]? = some '-' :=
    getElem?_hyphen (by simp; omega)
  have size : (a ++ '-' :: b ++ '-' :: c ++ '-' :: d ++ '-' :: e).length = 36 := by simp; omega
  rw [hyphenatedDigits?, if_pos ⟨size, first, second, third, fourth⟩]
  simp (disch := omega) [List.drop_append, List.drop_eq_nil_of_le, ha, hb, hc, hd]

theorem strictDigits?_text (u : Uuid) : strictDigits? u.text = some u.digits := by
  have size := u.length_digits
  have hyphens : u.text.toList = u.digits.take 8 ++ '-' :: (u.digits.drop 8).take 4 ++
      '-' :: (u.digits.drop 12).take 4 ++ '-' :: (u.digits.drop 16).take 4 ++
      '-' :: u.digits.drop 20 := by rw [text, String.toList_ofList]
  have plain : strictDigits? u.text = hyphenatedDigits? u.text.toList := by
    simp [strictDigits?, u.length_text]
  rw [plain, hyphens, hyphenatedDigits?_groups, digits_groups]
  all_goals simp [size]

/-- The text of an identifier is read back by a strict reader. -/
theorem ofStrictText?_text (u : Uuid) : ofStrictText? u.text = some u := by
  have value : hexValue? u.digits = some u.bits.toNat := hexValue?_hexDigits u.bits.isLt
  simp only [ofStrictText?, strictDigits?_text, Option.bind_eq_bind, Option.bind_some, value]
  rw [BitVec.ofNat_toNat, BitVec.setWidth_eq]
  rfl

end Uuid

end Handover
