/-!
# Code points

A code point is a Unicode character or half of a surrogate pair. A half by itself is no character
and has no form in UTF-8, but an escape in JSON can name one, and then a text holds it like any
other code point. Code points are numbered by the naturals below `0x110000`: `toNat` and `ofNat` are
inverse to each other.
-/

namespace TsQuery

/-- A Unicode character, or the half of a surrogate pair at an offset from the first half. -/
inductive CodePoint
  | char (c : Char)
  | half (offset : Fin 0x800)
  deriving DecidableEq

namespace CodePoint

instance : Coe Char CodePoint where
  coe := char

/-- The number of a code point. -/
def toNat : CodePoint → Nat
  | char c => c.toNat
  | half offset => 0xd800 + offset.val

/-- The code point of a number below `0x110000`. -/
def ofNat (n : Nat) : CodePoint :=
  if h : 0xd800 ≤ n ∧ n ≤ 0xdfff then half ⟨n - 0xd800, by omega⟩ else char (Char.ofNat n)

/-- Whether a code point is half of a surrogate pair. -/
def isHalf : CodePoint → Bool
  | char _ => false
  | half _ => true

/-- The byte for which a code point stands where bytes beyond ASCII that are no characters are kept
as halves: those from `U+DC80` to `U+DCFF` do so. -/
def escapedByte? : CodePoint → Option UInt8
  | char _ => none
  | half offset =>
    if 0x480 ≤ offset.val ∧ offset.val < 0x500 then some (UInt8.ofNat (offset.val - 0x400))
    else none

/-- Whether a code point is half of a surrogate pair and stands for no byte. -/
def isBareHalf (c : CodePoint) : Bool :=
  c.isHalf && c.escapedByte?.isNone

/-- Whether a code point is one of the ten ASCII digits. -/
def isDigit : CodePoint → Bool
  | char c => c.isDigit
  | half _ => false

/-- The small letter of an ASCII capital; every other code point is left as it is. -/
def toSmallAscii : CodePoint → CodePoint
  | char c => c.toLower
  | half offset => half offset

/-- The character that shows a code point where only characters can be shown; a half is shown by the
replacement character. -/
def toChar : CodePoint → Char
  | char c => c
  | half _ => '\ufffd'

/-- The numbers of characters leave out those of the halves. -/
theorem toNat_char (c : Char) :
    (char c).toNat < 0xd800 ∨ 0xdfff < (char c).toNat ∧ (char c).toNat < 0x110000 :=
  c.valid

theorem toNat_lt (c : CodePoint) : c.toNat < 0x110000 := by
  cases c with
  | char c => have := toNat_char c; omega
  | half offset => have := offset.isLt; simp only [toNat]; omega

theorem toNat_ofNat {n : Nat} (h : n < 0x110000) : (ofNat n).toNat = n := by
  unfold ofNat
  split
  · simp only [toNat]; omega
  · have valid : n.isValidChar := by simp only [Nat.isValidChar]; omega
    rw [Char.ofNat, dif_pos valid]
    rfl

theorem ofNat_toNat (c : CodePoint) : ofNat c.toNat = c := by
  cases c with
  | char c =>
    have := toNat_char c
    simp only [ofNat, dif_neg (show ¬(0xd800 ≤ (char c).toNat ∧ (char c).toNat ≤ 0xdfff) by omega)]
    exact congrArg char (Char.ofNat_toNat c)
  | half offset =>
    have := offset.isLt
    simp only [ofNat, toNat, dif_pos (show 0xd800 ≤ 0xd800 + offset.val ∧
      0xd800 + offset.val ≤ 0xdfff by omega), Nat.add_sub_cancel_left]

/-- Different code points have different numbers. -/
theorem toNat_inj {c d : CodePoint} : c.toNat = d.toNat ↔ c = d :=
  ⟨fun h => by rw [← ofNat_toNat c, h, ofNat_toNat], congrArg toNat⟩

end CodePoint

end TsQuery
