import TsQuery.Json.Basic
import TsQuery.Number.Numeral
import TsQuery.Text.Digit

/-!
# Reading JSON

A text is read as one JSON value with blanks around it. Beyond the standard the words `NaN`,
`Infinity` and `-Infinity` are numbers. A number without fraction and exponent is an integer,
refused when it has more digits than an integer is read from. Two escapes that name the halves of a
surrogate pair, one after the other, stand for one character; a half without the other is kept as it
is, so strings and keys that differ in such halves are different.

A text that is not JSON has a fault at the first place where no continuation could be: what stood
wrong there, and the line, the column and the number of characters before it.
-/

namespace TsQuery

namespace Json

/-- What is wrong at some place of a text that is not JSON. -/
inductive Cause
  | byteOrderMark
  | expectingValue
  | expectingName
  | expectingColon
  | expectingComma
  | extraData
  | unterminatedString
  | controlCharacter
  | invalidEscape
  | invalidUnicodeEscape
  deriving DecidableEq

/-- The words for a cause. -/
def Cause.message : Cause → String
  | byteOrderMark => "Unexpected UTF-8 BOM (decode using utf-8-sig)"
  | expectingValue => "Expecting value"
  | expectingName => "Expecting property name enclosed in double quotes"
  | expectingColon => "Expecting ':' delimiter"
  | expectingComma => "Expecting ',' delimiter"
  | extraData => "Extra data"
  | unterminatedString => "Unterminated string starting at"
  | controlCharacter => "Invalid control character at"
  | invalidEscape => "Invalid \\escape"
  | invalidUnicodeEscape => "Invalid \\uXXXX escape"

/-- Why a text is not read: a fault at a place, or an integer with too many digits. -/
inductive ReadError
  | malformed (cause : Cause) (line column offset : Nat)
  | tooManyDigits (count : Nat)
  deriving DecidableEq

/-- The message of an error. -/
def ReadError.message : ReadError → String
  | malformed cause line column offset =>
    s!"{cause.message}: line {line} column {column} (char {offset})"
  | tooManyDigits count =>
    s!"Exceeds the limit ({maxDigits} digits) for integer string conversion: value has {count} " ++
      "digits; use sys.set_int_max_str_digits() to increase the limit"

/-- An error while reading, a place being given by the text from there on. -/
inductive Stop
  | malformed (cause : Cause) (rest : Text)
  | tooManyDigits (count : Nat)

/-- A stop in a text, its place counted in lines, columns and characters. -/
def Stop.toError (text : Text) : Stop → ReadError
  | malformed cause rest =>
    let before := text.take (text.length - rest.length)
    let lineFeed : CodePoint := '\n'
    .malformed cause (before.count lineFeed + 1)
      ((before.reverse.takeWhile (· != lineFeed)).length + 1) before.length
  | tooManyDigits count => .tooManyDigits count

/-- Something read at the beginning of a text, and what follows it. -/
structure Taken (α : Type) (text : Text) where
  value : α
  rest : Text
  shorter : rest.length < text.length

/-- The same thing read, the text before it being longer. -/
def Taken.after {α β : Type} {inner text : Text} (taken : Taken α inner) (f : α → β)
    (le : inner.length ≤ text.length) : Taken β text :=
  ⟨f taken.value, taken.rest, Nat.lt_of_lt_of_le taken.shorter le⟩

/-- Whether a character is a blank of JSON. -/
def isJsonBlank (c : CodePoint) : Bool :=
  c == ' ' || c == '\t' || c == '\n' || c == '\r'

/-- A text without the blanks that it begins with. -/
def skip (text : Text) : Text :=
  text.dropWhile isJsonBlank

theorem length_skip_le (text : Text) : (skip text).length ≤ text.length :=
  (List.dropWhile_sublist isJsonBlank).length_le

/-- The character of an escape of one letter. -/
def shortEscape? : CodePoint → Option CodePoint
  | '"' => some '"'
  | '\\' => some '\\'
  | '/' => some '/'
  | 'b' => some '\x08'
  | 'f' => some '\x0c'
  | 'n' => some '\n'
  | 'r' => some '\r'
  | 't' => some '\t'
  | _ => none

/-- Whether a code unit is the first half of a surrogate pair. -/
def isHighSurrogate (unit : Nat) : Bool :=
  0xd800 ≤ unit && unit ≤ 0xdbff

/-- Whether a code unit is the second half of a surrogate pair. -/
def isLowSurrogate (unit : Nat) : Bool :=
  0xdc00 ≤ unit && unit ≤ 0xdfff

/-- Reads the code unit of an escape, the text beginning at its letter `u`. Something must follow
the four digits, if only the quote. -/
def readUnit (text : Text) : Except Stop (Taken Nat text) :=
  match text with
  | 'u' :: a :: b :: c :: d :: e :: rest =>
    match hexValue? [a, b, c, d] with
    | some unit => .ok ⟨unit, e :: rest, by simp only [List.length_cons]; omega⟩
    | none => .error (.malformed .invalidUnicodeEscape text)
  | _ => .error (.malformed .invalidUnicodeEscape text)

/-- Reads the second half of a surrogate pair, if it follows; a malformed escape there is
a fault. -/
def readLowSurrogate? (text : Text) : Except Stop (Option (Taken Nat text)) :=
  match text with
  | '\\' :: rest =>
    if rest.head? = some 'u' ∧ 6 ≤ rest.length then
      (readUnit rest).map fun taken =>
        if isLowSurrogate taken.value then some (taken.after id (Nat.le_succ _)) else none
    else .ok none
  | _ => .ok none

/-- Reads an escape whose backslash stands at the end of what was read. Half a surrogate pair that
is not followed by the other half stands for itself. `opening` is the text from the quote of the
string on. -/
def readEscape (opening text : Text) : Except Stop (Taken CodePoint text) :=
  match text with
  | [] => .error (.malformed .unterminatedString opening)
  | c :: rest =>
    if c = 'u' then do
      let first ← readUnit (c :: rest)
      if isHighSurrogate first.value then
        match ← readLowSurrogate? first.rest with
        | some second =>
          let code := 0x10000 + (first.value - 0xd800) * 0x400 + (second.value - 0xdc00)
          return second.after (fun _ => .ofNat code) (Nat.le_of_lt first.shorter)
        | none => return first.after .ofNat (Nat.le_refl _)
      else return first.after .ofNat (Nat.le_refl _)
    else
      match shortEscape? c with
      | some char => .ok ⟨char, rest, Nat.lt_succ_self _⟩
      | none => .error (.malformed .invalidEscape ('\\' :: c :: rest))

/-- Reads the characters of a string up to its closing quote. `opening` is the text from its opening
quote on. -/
def readString (opening text : Text) : Except Stop (Taken Text text) :=
  match text with
  | [] => .error (.malformed .unterminatedString opening)
  | c :: rest =>
    if c = '"' then .ok ⟨[], rest, Nat.lt_succ_self _⟩
    else if c = '\\' then
      match readEscape opening rest with
      | .error stop => .error stop
      | .ok escape =>
        (readString opening escape.rest).map fun more =>
          more.after (escape.value :: ·) (Nat.le_succ_of_le (Nat.le_of_lt escape.shorter))
    else if c.toNat ≤ 0x1f then .error (.malformed .controlCharacter (c :: rest))
    else (readString opening rest).map fun more => more.after (c :: ·) (Nat.le_succ _)
termination_by text.length
decreasing_by
  · exact Nat.lt_succ_of_lt escape.shorter
  · exact Nat.lt_succ_self _

/-- The digits of the fraction that a text begins with, if a digit follows the point. -/
def fraction (text : Text) : Text :=
  match text with
  | '.' :: rest => rest.takeWhile CodePoint.isDigit
  | _ => []

/-- The sign and the digits of an exponent, the text beginning after its letter. -/
def exponentDigits (text : Text) : Bool × Text :=
  match text with
  | '-' :: rest => (true, rest.takeWhile CodePoint.isDigit)
  | '+' :: rest => (false, rest.takeWhile CodePoint.isDigit)
  | _ => (false, text.takeWhile CodePoint.isDigit)

/-- The value of the exponent that a text begins with and the number of its characters, if there is
one: the letter, a sign or none, and at least one digit. -/
def exponent? (text : Text) : Option (Int × Nat) :=
  match text with
  | letter :: rest =>
    let (negative, digits) := exponentDigits rest
    if (letter = 'e' ∨ letter = 'E') ∧ digits ≠ [] then
      let value : Int := Numeral.value (digits.filterMap Numeral.asciiDigit?)
      let signed := rest.head? = some '-' ∨ rest.head? = some '+'
      some (if negative then -value else value, digits.length + (if signed then 2 else 1))
    else none
  | [] => none

/-- The digits of the integer part that a text begins with: a zero alone, or digits that do not
begin with one. -/
def integerPart (text : Text) : Text :=
  match text with
  | '0' :: _ => ['0']
  | _ => text.takeWhile CodePoint.isDigit

/-- Reads a number without its sign and gives it the sign. The second component counts the
characters. -/
def readUnsigned (negative : Bool) (text : Text) : Option (Except Stop Json × Nat) :=
  let whole := integerPart text
  if whole = [] then none
  else
    let part := fraction (text.drop whole.length)
    let partLength := if part = [] then 0 else part.length + 1
    let digits := Numeral.value ((whole ++ part).filterMap Numeral.asciiDigit?)
    let read := whole.length + partLength
    match exponent? (text.drop read) with
    | some (exponent, length) =>
      some (.ok (.real (.ofDecimal negative digits (exponent - part.length))), read + length)
    | none =>
      if part ≠ [] then some (.ok (.real (.ofDecimal negative digits (-part.length))), read)
      else if maxDigits < whole.length then some (.error (.tooManyDigits whole.length), read)
      else some (.ok (.int (if negative then -digits else digits)), read)

/-- Reads a number. -/
def readNumber (text : Text) : Except Stop (Taken Json text) :=
  let (negative, unsigned) :=
    match text with
    | '-' :: rest => (true, rest)
    | _ => (false, text)
  match readUnsigned negative unsigned with
  | none => .error (.malformed .expectingValue text)
  | some (value, length) =>
    let rest := unsigned.drop length
    if h : rest.length < text.length then value.map fun value => ⟨value, rest, h⟩
    else .error (.malformed .expectingValue text)

/-- The values that are words. -/
def words : List (Text × Json) :=
  [("null", .null), ("true", .bool true), ("false", .bool false),
    ("NaN", .real .notANumber), ("Infinity", .real (.infinite false)),
    ("-Infinity", .real (.infinite true))]

/-- Reads a word or a number. -/
def readScalar (text : Text) : Except Stop (Taken Json text) :=
  match words.find? fun word => word.1.isPrefixOf text with
  | some (word, value) =>
    let rest := text.drop word.length
    if h : rest.length < text.length then .ok ⟨value, rest, h⟩
    else .error (.malformed .expectingValue text)
  | none => readNumber text

mutual

/-- Reads a value. -/
def readValue (text : Text) : Except Stop (Taken Json text) :=
  match text with
  | [] => .error (.malformed .expectingValue [])
  | c :: rest =>
    if c = '"' then
      (readString (c :: rest) rest).map fun taken => taken.after string (Nat.le_succ _)
    else if c = '[' then
      if (skip rest).head? = some ']' then
        .ok ⟨array [], (skip rest).tail, by
          have := length_skip_le rest; simp only [List.length_tail, List.length_cons]; omega⟩
      else
        (readElements (skip rest)).map fun taken =>
          taken.after array (Nat.le_succ_of_le (length_skip_le rest))
    else if c = '\x7b' then
      if (skip rest).head? = some '\x7d' then
        .ok ⟨object [], (skip rest).tail, by
          have := length_skip_le rest; simp only [List.length_tail, List.length_cons]; omega⟩
      else
        (readMembers (skip rest)).map fun taken =>
          taken.after (fun members => object (Members.setAll [] members))
            (Nat.le_succ_of_le (length_skip_le rest))
    else readScalar (c :: rest)
termination_by (text.length, 0)
decreasing_by
  · have := length_skip_le rest; exact Prod.Lex.left _ _ (Nat.lt_succ_of_le this)
  · have := length_skip_le rest; exact Prod.Lex.left _ _ (Nat.lt_succ_of_le this)

/-- Reads the elements of an array up to its closing bracket. -/
def readElements (text : Text) : Except Stop (Taken (List Json) text) :=
  match readValue text with
  | .error stop => .error stop
  | .ok first =>
    match h : skip first.rest with
    | [] => .error (.malformed .expectingComma [])
    | c :: rest =>
      have shorter : rest.length < text.length := by
        have := length_skip_le first.rest
        have := first.shorter
        simp only [h, List.length_cons] at *
        omega
      if c = ']' then .ok ⟨[first.value], rest, shorter⟩
      else if c = ',' then
        (readElements (skip rest)).map fun more =>
          more.after (first.value :: ·) (Nat.le_trans (length_skip_le rest) (Nat.le_of_lt shorter))
      else .error (.malformed .expectingComma (c :: rest))
termination_by (text.length, 1)
decreasing_by
  · exact Prod.Lex.right _ Nat.zero_lt_one
  · have := length_skip_le rest; exact Prod.Lex.left _ _ (Nat.lt_of_le_of_lt this shorter)

/-- Reads the members of an object up to its closing brace. -/
def readMembers (text : Text) : Except Stop (Taken Members text) :=
  match text with
  | [] => .error (.malformed .expectingName [])
  | quote :: body =>
    if quote = '"' then
      match readString (quote :: body) body with
      | .error stop => .error stop
      | .ok key =>
        match hColon : skip key.rest with
        | [] => .error (.malformed .expectingColon [])
        | colon :: afterColon =>
          have colonShorter : afterColon.length < body.length := by
            have := length_skip_le key.rest
            have := key.shorter
            simp only [hColon, List.length_cons] at *
            omega
          if colon = ':' then
            match readValue (skip afterColon) with
            | .error stop => .error stop
            | .ok value =>
              match h : skip value.rest with
              | [] => .error (.malformed .expectingComma [])
              | c :: rest =>
                have shorter : rest.length < body.length := by
                  have := length_skip_le value.rest
                  have := value.shorter
                  have := length_skip_le afterColon
                  simp only [h, List.length_cons] at *
                  omega
                if c = '\x7d' then
                  .ok ⟨[(key.value, value.value)], rest, Nat.lt_succ_of_lt shorter⟩
                else if c = ',' then
                  (readMembers (skip rest)).map fun more =>
                    more.after ((key.value, value.value) :: ·)
                      (Nat.le_succ_of_le
                        (Nat.le_trans (length_skip_le rest) (Nat.le_of_lt shorter)))
                else .error (.malformed .expectingComma (c :: rest))
          else .error (.malformed .expectingColon (colon :: afterColon))
    else .error (.malformed .expectingName (quote :: body))
termination_by (text.length, 1)
decreasing_by
  · have := length_skip_le afterColon
    exact Prod.Lex.left _ _ (Nat.lt_succ_of_lt (Nat.lt_of_le_of_lt this colonShorter))
  · have := length_skip_le rest
    exact Prod.Lex.left _ _ (Nat.lt_succ_of_lt (Nat.lt_of_le_of_lt this shorter))

end

/-- Reads a text that holds one value and nothing else, or stops. -/
def readAll (text : Text) : Except Stop Json :=
  if text.head? = some '\ufeff' then .error (.malformed .byteOrderMark text)
  else do
    let taken ← readValue (skip text)
    match skip taken.rest with
    | [] => return taken.value
    | rest => .error (.malformed .extraData rest)

/-- The JSON value that a text holds. -/
def read (text : Text) : Except ReadError Json :=
  (readAll text).mapError (Stop.toError text)

end Json

end TsQuery
