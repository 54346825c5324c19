import TsQuery.Text.Digit

/-!
# UTF-8

Bytes are decoded strictly: overlong forms, surrogates and code points beyond the last are faults. A
fault covers the longest beginning of a character at its place, and tells whether the bytes end
there or go on with a byte that cannot follow; a byte that begins no character is a fault by itself.

Halves of surrogate pairs have no bytes, so a text with one cannot be encoded. In the name of a file
some of them stand for bytes that are no characters, and only the others have no bytes.
-/

namespace TsQuery

/-- The content of a file. -/
abbrev Bytes := List UInt8

namespace Utf8

/-- Why bytes at some place are no character. -/
inductive Reason
  | invalidStart
  | invalidContinuation
  | unexpectedEnd
  deriving DecidableEq

/-- A place where bytes are no character: the bytes covered, their position, and the reason. -/
structure Fault where
  covered : Bytes
  position : Nat
  reason : Reason
  deriving DecidableEq

/-- The words for a reason. -/
def Reason.message : Reason → String
  | invalidStart => "invalid start byte"
  | invalidContinuation => "invalid continuation byte"
  | unexpectedEnd => "unexpected end of data"

/-- The message of a fault. -/
def Fault.message (fault : Fault) : Text :=
  let place : Text :=
    match fault.covered with
    | [byte] => "byte 0x" ++ hexText 2 byte.toNat ++ s!" in position {fault.position}"
    | bytes => s!"bytes in position {fault.position}-{fault.position + bytes.length - 1}"
  "'utf-8' codec can't decode " ++ place ++ s!": {fault.reason.message}"

/-- How many bytes follow a first byte, and its own share of the code point. -/
def lead? (byte : UInt8) : Option (Nat × Nat) :=
  let n := byte.toNat
  if n < 0x80 then some (0, n)
  else if 0xc2 ≤ n ∧ n ≤ 0xdf then some (1, n - 0xc0)
  else if 0xe0 ≤ n ∧ n ≤ 0xef then some (2, n - 0xe0)
  else if 0xf0 ≤ n ∧ n ≤ 0xf4 then some (3, n - 0xf0)
  else none

/-- Whether a byte can follow the bytes already read: any continuation byte, except after a first
byte with which some would give an overlong form, a surrogate or too great a code point. -/
def canFollow (read : Bytes) (byte : UInt8) : Bool :=
  let n := byte.toNat
  let (low, high) : Nat × Nat :=
    match read with
    | [0xe0] => (0xa0, 0xbf)
    | [0xed] => (0x80, 0x9f)
    | [0xf0] => (0x90, 0xbf)
    | [0xf4] => (0x80, 0x8f)
    | _ => (0x80, 0xbf)
  low ≤ n && n ≤ high

/-- Decodes bytes from a position on. `read` are the bytes of the character begun, of which
`missing` more must follow, and `share` is the code point so far. -/
def decodeFrom (position : Nat) (read : Bytes) (missing share : Nat) : Bytes → Except Fault Text
  | [] => if missing = 0 then .ok [] else .error ⟨read, position - read.length, .unexpectedEnd⟩
  | byte :: bytes =>
    match missing with
    | 0 =>
      match lead? byte with
      | none => .error ⟨[byte], position, .invalidStart⟩
      | some (0, code) => (decodeFrom (position + 1) [] 0 0 bytes).map (.ofNat code :: ·)
      | some (following, code) => decodeFrom (position + 1) [byte] following code bytes
    | missing + 1 =>
      if canFollow read byte then
        let code := 64 * share + byte.toNat % 64
        if missing = 0 then (decodeFrom (position + 1) [] 0 0 bytes).map (.ofNat code :: ·)
        else decodeFrom (position + 1) (read ++ [byte]) missing code bytes
      else .error ⟨read, position - read.length, .invalidContinuation⟩

/-- The text that bytes encode. -/
def decode (bytes : Bytes) : Except Fault Text :=
  decodeFrom 0 [] 0 0 bytes

/-- The byte that holds six bits of a code point. -/
def continuationByte (n : Nat) : UInt8 :=
  UInt8.ofNat (0x80 + n % 64)

/-- The bytes of a code point. Those of a half are never decoded. -/
def encodeChar (c : CodePoint) : Bytes :=
  let n := c.toNat
  if n < 0x80 then [UInt8.ofNat n]
  else if n < 0x800 then [UInt8.ofNat (0xc0 + n / 64), continuationByte n]
  else if n < 0x10000 then
    [UInt8.ofNat (0xe0 + n / 4096), continuationByte (n / 64), continuationByte n]
  else
    [UInt8.ofNat (0xf0 + n / 262144), continuationByte (n / 4096), continuationByte (n / 64),
      continuationByte n]

/-- The bytes of a text. -/
def encode (text : Text) : Bytes :=
  text.flatMap encodeChar

/-- The bytes of a name, in which some halves stand for bytes. -/
def encodeName (name : Text) : Bytes :=
  name.flatMap fun c =>
    match c.escapedByte? with
    | some byte => [byte]
    | none => encodeChar c

/-- A place where a text has no bytes: the halves there and the position of the first. -/
structure EncodingFault where
  halves : Text
  position : Nat
  deriving DecidableEq

/-- The message of a fault. -/
def EncodingFault.message (fault : EncodingFault) : Text :=
  let place : Text :=
    match fault.halves with
    | [half] => "character '\\u" ++ hexText 4 half.toNat ++ s!"' in position {fault.position}"
    | halves =>
      s!"characters in position {fault.position}-{fault.position + halves.length - 1}"
  "'utf-8' codec can't encode " ++ place ++ ": surrogates not allowed"

/-- The first place where a text has no bytes, given which code points have none; the fault covers
all halves in a row from there on. -/
def encodingFault? (lacksBytes : CodePoint → Bool) (text : Text) : Option EncodingFault :=
  match text.dropWhile fun c => !lacksBytes c with
  | [] => none
  | rest => some ⟨rest.takeWhile CodePoint.isHalf, text.length - rest.length⟩

/-- A text can be encoded exactly if each of its code points has bytes. -/
theorem encodingFault?_eq_none_iff {lacksBytes : CodePoint → Bool} {text : Text} :
    encodingFault? lacksBytes text = none ↔ ∀ c ∈ text, lacksBytes c = false := by
  have hdrop : (text.dropWhile fun c => !lacksBytes c) = [] ↔ ∀ c ∈ text, lacksBytes c = false := by
    induction text with
    | nil => exact iff_of_true rfl nofun
    | cons c text ih => cases h : lacksBytes c <;> simp [h, ih]
  rw [← hdrop]
  unfold encodingFault?
  split
  · next hnil => exact iff_of_true rfl hnil
  · next hrest => exact iff_of_false nofun hrest

end Utf8

end TsQuery
