import TsQuery.Text.CodePoint

/-!
# Texts and character sets

A text is a list of code points, which are its characters for all that counts, compares or cuts
texts. A character set is a list of code point intervals in rising order; the runs of a text are its
maximal pieces of characters with one property, which is how blanks split a text into words. Blanks
are the white space of Unicode, with the four information separators counted in.

Texts compare character by character, a proper beginning before the longer text. A set of texts is
answered as the list of its members in this order, each once.
-/

namespace TsQuery

/-- A text, code point by code point. -/
abbrev Text := List CodePoint

namespace Text

/-- The text of characters. -/
def ofChars (chars : List Char) : Text :=
  chars.map .char

/-- The text of a string. -/
def ofString (s : String) : Text :=
  ofChars s.toList

instance : Coe String Text where
  coe := ofString

/-- The string that shows a text, with the replacement character for each half of a pair. -/
def toString (text : Text) : String :=
  String.ofList (text.map CodePoint.toChar)

end Text

/-- A set of code points as intervals in rising order, both ends included. -/
abbrev CharSet := List (Nat × Nat)

namespace CharSet

/-- Whether a code point lies in one of the intervals; the search stops at the first interval above
it. -/
def contains : CharSet → Nat → Bool
  | [], _ => false
  | (low, high) :: rest, n => low ≤ n && (n ≤ high || contains rest n)

end CharSet

namespace Text

/-- The runs of a text whose leading run, which can be empty, and later runs are known. -/
def closeRun (read : Text × List Text) : List Text :=
  if read.1.isEmpty then read.2 else read.1 :: read.2

/-- Reads one more character in front of a text whose leading run and later runs are known. -/
def consRun (keep : CodePoint → Bool) (c : CodePoint) (read : Text × List Text) :
    Text × List Text :=
  if keep c then (c :: read.1, read.2) else ([], closeRun read)

/-- The run that a text begins with, empty if its first character is not kept, and the
later runs. -/
def leadingRun (keep : CodePoint → Bool) (text : Text) : Text × List Text :=
  text.foldr (consRun keep) ([], [])

/-- The maximal non-empty runs of kept characters, in order. -/
def runs (keep : CodePoint → Bool) (text : Text) : List Text :=
  closeRun (leadingRun keep text)

/-- Whether all that was read is kept characters, and the later runs are not empty. -/
def AreRuns (keep : CodePoint → Bool) (read : Text × List Text) : Prop :=
  (∀ c ∈ read.1, keep c = true) ∧ ∀ run ∈ read.2, run ≠ [] ∧ ∀ c ∈ run, keep c = true

theorem AreRuns.of_mem_closeRun {keep : CodePoint → Bool} {read : Text × List Text} {run : Text}
    (h : AreRuns keep read) (mem : run ∈ closeRun read) : run ≠ [] ∧ ∀ c ∈ run, keep c = true := by
  unfold closeRun at mem
  split at mem
  · exact h.2 run mem
  · next nonempty =>
    cases mem with
    | head => exact ⟨fun eq => nonempty (by rw [eq]; rfl), h.1⟩
    | tail _ mem => exact h.2 run mem

theorem AreRuns.cons {keep : CodePoint → Bool} (c : CodePoint) {read : Text × List Text}
    (h : AreRuns keep read) : AreRuns keep (consRun keep c read) := by
  unfold consRun
  split
  · next kept => exact ⟨List.forall_mem_cons.2 ⟨kept, h.1⟩, h.2⟩
  · exact ⟨nofun, fun _ mem => h.of_mem_closeRun mem⟩

theorem areRuns_leadingRun (keep : CodePoint → Bool) (text : Text) :
    AreRuns keep (leadingRun keep text) := by
  induction text with
  | nil => exact ⟨nofun, nofun⟩
  | cons c text ih => exact ih.cons c

/-- A run is not empty and holds kept characters only. -/
theorem keep_of_mem_runs {keep : CodePoint → Bool} {text run : Text} (h : run ∈ runs keep text) :
    run ≠ [] ∧ ∀ c ∈ run, keep c = true :=
  (areRuns_leadingRun keep text).of_mem_closeRun h

/-- Texts one after another, with a separator between each two. -/
def joined (separator : Text) (texts : List Text) : Text :=
  separator.intercalate texts

/-- A text with every line break written as a line feed. -/
def withLineFeeds : Text → Text
  | [] => []
  | '\r' :: '\n' :: text => '\n' :: withLineFeeds text
  | c :: text => (if c = '\r' then '\n' else c) :: withLineFeeds text

end Text

/-! ### Blanks -/

/-- The blank characters: tab to carriage return, the information separators, and the space
separators. -/
def blankSet : CharSet :=
  [(0x9, 0xd), (0x1c, 0x20), (0x85, 0x85), (0xa0, 0xa0), (0x1680, 0x1680), (0x2000, 0x200a),
    (0x2028, 0x2029), (0x202f, 0x202f), (0x205f, 0x205f), (0x3000, 0x3000)]

/-- Whether a character is white space. -/
def isBlank (c : CodePoint) : Bool :=
  blankSet.contains c.toNat

namespace Text

/-- Whether a text holds nothing but blanks; the empty text does. -/
def isAllBlank (text : Text) : Bool :=
  text.all isBlank

/-- The pieces between blanks, none of them empty. -/
def pieces (text : Text) : List Text :=
  text.runs fun c => !isBlank c

end Text

/-! ### Order -/

namespace Text

/-- Whether one text comes no later than another in code point order. -/
def le : Text → Text → Bool
  | [], _ => true
  | _ :: _, [] => false
  | a :: s, b :: t => a.toNat < b.toNat || (a == b && le s t)

/-- Drops each member of a list that equals the next one. -/
def dropRepeats : List Text → List Text
  | [] => []
  | [word] => [word]
  | first :: second :: rest =>
    if first = second then dropRepeats (second :: rest)
    else first :: dropRepeats (second :: rest)

/-- The members of a list in code point order, each once. -/
def sortedSet (words : List Text) : List Text :=
  dropRepeats (words.mergeSort le)

theorem mem_dropRepeats {word : Text} {words : List Text} :
    word ∈ dropRepeats words ↔ word ∈ words := by
  fun_induction dropRepeats words with
  | case1 => rfl
  | case2 first => rfl
  | case3 first rest ih => rw [ih]; simp
  | case4 first second rest _ ih =>
    exact (List.mem_cons.trans (or_congr Iff.rfl ih)).trans List.mem_cons.symm

/-- A sorted set has the members of the list. -/
theorem mem_sortedSet {word : Text} {words : List Text} :
    word ∈ sortedSet words ↔ word ∈ words := by
  rw [sortedSet, mem_dropRepeats, List.mem_mergeSort]

end Text

end TsQuery
