import TsQuery.Disk.Path

/-!
# Disks

A disk has a node at some locations, a folder or a file with its bytes, and always a folder at the
root. Every node is in a folder: an entry whose folder is not there does not count, and what is put
at a location takes the place of all that was there and below. So a change to a location that is no
folder changes no other location, which is what `node?_erase_of_ne` and `node?_insert_of_ne` say.

Left out are links, so that every node is at one location only, under one name; other spellings of
a name, in which halves of surrogate pairs stand for the bytes of a character; all other kinds of
files; permissions; and disks that run full or fail half-way through a write. Whoever else uses the
disk does nothing meanwhile.
-/

namespace TsQuery

/-- The name of a node, then those of the folders around it, innermost first; the root has
no name. -/
abbrev Location := List Text

/-- What is at a location. -/
inductive Node
  | folder
  | file (content : Bytes)
  deriving DecidableEq

/-- A disk, with the folder from which relative paths are followed. -/
structure Disk where
  entries : List (Location × Node)
  workingFolder : Location

namespace Disk

/-- The node at a location. An entry counts only in a folder that is itself there. -/
def node? (disk : Disk) : Location → Option Node
  | [] => some .folder
  | name :: around =>
    if disk.node? around = some .folder then disk.entries.lookup (name :: around) else none

/-- The disk without what is at a location and below it. -/
def erase (disk : Disk) (location : Location) : Disk :=
  { disk with entries := disk.entries.filter fun entry => !location.isSuffixOf entry.1 }

/-- The disk with a node at a location in the place of what was there and below. -/
def insert (disk : Disk) (location : Location) (node : Node) : Disk :=
  { disk with entries := (location, node) :: (disk.erase location).entries }

/-- There is nothing below a location that is no folder. -/
theorem node?_eq_none_of_below {disk : Disk} {location other : Location}
    (noFolder : disk.node? location ≠ some .folder) (below : location <:+ other)
    (ne : other ≠ location) : disk.node? other = none := by
  induction other with
  | nil => exact absurd (List.suffix_nil.1 below).symm ne
  | cons name around ih =>
    have up : location <:+ around := (List.suffix_cons_iff.1 below).resolve_left (Ne.symm ne)
    have noFolderAround : disk.node? around ≠ some .folder := by
      by_cases eq : around = location
      · rwa [eq]
      · rw [ih up eq]
        nofun
    exact if_neg noFolderAround

theorem lookup_filter_of_not_suffix {location other : Location} (h : ¬location <:+ other)
    (entries : List (Location × Node)) :
    (entries.filter fun entry => !location.isSuffixOf entry.1).lookup other
      = entries.lookup other := by
  induction entries with
  | nil => rfl
  | cons entry rest ih =>
    obtain ⟨present, node⟩ := entry
    by_cases below : location <:+ present
    · have ne : other ≠ present := by
        rintro rfl
        exact h below
      simp only [List.filter, List.isSuffixOf_iff_suffix.2 below, Bool.not_true, List.lookup_cons,
        beq_false_of_ne ne, ih]
    · have kept : location.isSuffixOf present = false :=
        Bool.eq_false_iff.2 fun eq => below (List.isSuffixOf_iff_suffix.1 eq)
      simp only [List.filter, kept, Bool.not_false, List.lookup_cons, ih]

theorem lookup_filter_of_suffix {location other : Location} (h : location <:+ other)
    (entries : List (Location × Node)) :
    (entries.filter fun entry => !location.isSuffixOf entry.1).lookup other = none := by
  rw [List.lookup_eq_none_iff]
  intro entry mem
  have kept := (List.mem_filter.1 mem).2
  refine bne_iff_ne.2 ?_
  rintro rfl
  rw [List.isSuffixOf_iff_suffix.2 h] at kept
  cases kept

/-- Nothing changes outside of what is erased. -/
theorem node?_erase_of_not_suffix (disk : Disk) {location other : Location}
    (h : ¬location <:+ other) : (disk.erase location).node? other = disk.node? other := by
  induction other with
  | nil => rfl
  | cons name around ih =>
    have outside : ¬location <:+ around := fun up => h (up.trans (List.suffix_cons name around))
    simp only [node?, ih outside]
    rw [erase, lookup_filter_of_not_suffix h]

/-- Nothing is left at a location that is erased. -/
theorem node?_erase_self (disk : Disk) {location : Location} (h : location ≠ []) :
    (disk.erase location).node? location = none := by
  cases location with
  | nil => exact absurd rfl h
  | cons name around =>
    simp only [node?]
    rw [show (disk.erase (name :: around)).entries.lookup (name :: around) = none from
      lookup_filter_of_suffix (List.suffix_refl _) disk.entries]
    exact ite_self _

/-- Erasing what is no folder changes no other location. -/
theorem node?_erase_of_ne {disk : Disk} {location other : Location}
    (noFolder : disk.node? location ≠ some .folder) (ne : other ≠ location) :
    (disk.erase location).node? other = disk.node? other := by
  by_cases below : location <:+ other
  · rw [node?_eq_none_of_below noFolder below ne]
    refine node?_eq_none_of_below ?_ below ne
    rw [node?_erase_self disk ?_]
    · nofun
    · rintro rfl
      exact noFolder rfl
  · exact node?_erase_of_not_suffix disk below

/-- Nothing changes outside of what a node is put in the place of. -/
theorem node?_insert_of_not_suffix (disk : Disk) {location other : Location} (node : Node)
    (h : ¬location <:+ other) : (disk.insert location node).node? other = disk.node? other := by
  induction other with
  | nil => rfl
  | cons name around ih =>
    have outside : ¬location <:+ around := fun up => h (up.trans (List.suffix_cons name around))
    have ne : name :: around ≠ location := by
      rintro rfl
      exact h (List.suffix_refl _)
    simp only [node?, ih outside]
    rw [insert, List.lookup_cons, beq_false_of_ne ne, erase, lookup_filter_of_not_suffix h]

/-- A node that is put into a folder is there. -/
theorem node?_insert_self {disk : Disk} {name : Text} {around : Location}
    (h : disk.node? around = some .folder) (node : Node) :
    (disk.insert (name :: around) node).node? (name :: around) = some node := by
  have outside : ¬name :: around <:+ around := fun up =>
    Nat.not_succ_le_self around.length up.length_le
  rw [node?, node?_insert_of_not_suffix disk node outside, if_pos h]
  exact List.lookup_cons_self

/-- Putting a node where there is no folder changes no other location. -/
theorem node?_insert_of_ne {disk : Disk} {location other : Location} {node : Node}
    (noFolder : disk.node? location ≠ some .folder) (ne : other ≠ location) :
    (disk.insert location node).node? other = disk.node? other := by
  by_cases below : location <:+ other
  · rw [node?_eq_none_of_below noFolder below ne]
    cases other with
    | nil => exact absurd (List.suffix_nil.1 below).symm ne
    | cons name around =>
      rw [node?, insert, List.lookup_cons, beq_false_of_ne ne, erase, lookup_filter_of_suffix below]
      exact ite_self _
  · exact node?_insert_of_not_suffix disk node below

end Disk

end TsQuery
