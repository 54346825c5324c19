import TsQuery.Text.Utf8

/-!
# Paths

A path is a place to begin from and the names to follow from there. It is written with a slash
between names. Empty names and names of one dot are left out when a path is read, a name of two dots
stays. A path that begins with exactly two slashes keeps them, any other number of slashes is one.

On a disk a path is bytes: the halves of surrogate pairs for which there are bytes stand for one
byte each, and a path with any other half has no bytes.
-/

namespace TsQuery

/-- Where a path begins. -/
inductive Anchor
  | workingFolder
  | root
  | doubleRoot
  deriving DecidableEq

/-- The character between names. -/
def slash : CodePoint := '/'

namespace Anchor

/-- The beginning of a path that is written with a number of slashes in front. -/
def ofSlashes : Nat → Anchor
  | 0 => workingFolder
  | 2 => doubleRoot
  | _ => root

/-- The slashes in front of a path. -/
def slashes : Anchor → Text
  | workingFolder => []
  | root => [slash]
  | doubleRoot => [slash, slash]

end Anchor

/-- A path. -/
structure Path where
  anchor : Anchor
  names : List Text
  deriving DecidableEq

namespace Path

/-- Reads a path. -/
def ofText (text : Text) : Path :=
  { anchor := .ofSlashes (text.takeWhile (· == slash)).length
    names := (text.runs (· != slash)).filter (· != ".") }

/-- The path of an entry of a folder. -/
def child (path : Path) (name : Text) : Path :=
  { path with names := path.names ++ [name] }

/-- A path as it is written; the working folder by itself is a dot. -/
def toText (path : Path) : Text :=
  if path.anchor = .workingFolder ∧ path.names = [] then ['.']
  else path.anchor.slashes ++ Text.joined [slash] path.names

/-- Whether a path holds the null character, so that nothing can bear it. -/
def hasNull (path : Path) : Bool :=
  path.names.any (·.contains '\x00')

/-- The first place where a path has no bytes, if there is one. -/
def encodingFault? (path : Path) : Option Utf8.EncodingFault :=
  Utf8.encodingFault? CodePoint.isBareHalf path.toText

/-- The greatest number of bytes in a path. -/
def maxBytes : Nat := 4095

/-- Whether a path has too many bytes. -/
def isTooLong (path : Path) : Bool :=
  maxBytes < (Utf8.encodeName path.toText).length

end Path

end TsQuery
