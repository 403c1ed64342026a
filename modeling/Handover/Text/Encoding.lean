import Handover.Failure
import Handover.Text.Digits

namespace Handover

/-- A code point of a text: a character, or one of the surrogates, for which files have no bytes. -/
inductive CodePoint where
  | char (c : Char)
  | surrogate (n : Fin 2048)
  deriving DecidableEq, Repr

namespace CodePoint

def number : CodePoint → Nat
  | char c => c.toNat
  | surrogate n => 0xD800 + n

def char? : CodePoint → Option Char
  | char c => some c
  | surrogate _ => none

def isSurrogate (c : CodePoint) : Bool :=
  c.char?.isNone

end CodePoint

namespace Text

def codePoints (s : String) : List CodePoint :=
  s.toList.map .char

/-- The text that a file can hold for some code points. It is refused at the first surrogates. -/
def encoded (codes : List CodePoint) : Except Failure String :=
  match codes.findIdx? CodePoint.isSurrogate with
  | none => .ok (String.ofList (codes.filterMap CodePoint.char?))
  | some start =>
    .error (.notEncodable start (((codes.drop start).takeWhile (·.isSurrogate)).map (·.number)))

@[simp] theorem encoded_codePoints (s : String) : encoded (codePoints s) = .ok s := by
  have plain : (codePoints s).findIdx? CodePoint.isSurrogate = none := by
    rw [List.findIdx?_eq_none_iff]
    intro code hcode
    obtain ⟨c, _, rfl⟩ := List.mem_map.mp hcode
    rfl
  have chars : (codePoints s).filterMap CodePoint.char? = s.toList := by
    rw [codePoints, List.filterMap_map]
    exact List.filterMap_some
  rw [encoded, plain, chars, String.ofList_toList]

theorem map_char_filterMap {codes : List CodePoint} (h : ∀ code ∈ codes, ¬code.isSurrogate) :
    (codes.filterMap CodePoint.char?).map .char = codes := by
  induction codes with
  | nil => rfl
  | cons code rest ih =>
    have others := ih fun other hother => h other (List.mem_cons_of_mem _ hother)
    cases code with
    | char c => exact congrArg (CodePoint.char c :: ·) others
    | surrogate n => exact absurd rfl (h (.surrogate n) List.mem_cons_self)

/-- Only code points without surrogates make a text. -/
theorem encoded_eq_ok {codes : List CodePoint} {s : String} (h : encoded codes = .ok s) :
    codes = codePoints s := by
  rw [encoded] at h
  split at h
  next plain =>
    rw [List.findIdx?_eq_none_iff] at plain
    rw [← Except.ok.inj h, codePoints, String.toList_ofList]
    exact (map_char_filterMap fun code hcode => by simp [plain code hcode]).symm
  next => cases h

theorem encoded_eq_error {codes : List CodePoint} {failure : Failure}
    (h : encoded codes = .error failure) :
    ∃ start surrogates, failure = .notEncodable start surrogates := by
  rw [encoded] at h
  split at h
  next => cases h
  next start _ => exact ⟨start, _, (Except.error.inj h).symm⟩

end Text

end Handover
