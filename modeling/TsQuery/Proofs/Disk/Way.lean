import Mathlib
import TsQuery.Proofs.Disk.MakeFolders

/-!
# The way of a path

On its way to a folder a path passes folders only (`Disk.LeadsTo.isFolder_of_onWay`), and two disks
on which it leads there have the same locations on its way (`Disk.LeadsTo.onWay_congr`).  Making the
folders of a path makes folders on its way and nowhere else (`Disk.onWay_of_makeFolders`); a path
that leads up again, such as `x/..`, passes `x` as well.
-/

namespace TsQuery

namespace Disk

section

variable {disk other made : Disk} {here location found l : Location} {names : List Text}
  {result : Except DiskError Unit}

/-- Names lead to the same location on all disks on which they lead somewhere. -/
theorem walk_unique (h : disk.walk here names = .ok location)
    (hother : other.walk here names = .ok found) : found = location := by
  induction names generalizing here with
  | nil =>
    cases h
    cases hother
    rfl
  | cons name names ih =>
    rw [walk] at h hother
    cases hstep : disk.step here name with
    | error error =>
      rw [hstep] at h
      cases h
    | ok next =>
      cases hstepOther : other.step here name with
      | error error =>
        rw [hstepOther] at hother
        cases hother
      | ok nextOther =>
        have hnext : other.step here name = disk.step here name :=
          step_congr (node?_of_step hstep) (node?_of_step hstepOther)
        rw [hstep, hstepOther] at hnext
        cases hnext
        rw [hstep] at h
        rw [hstepOther] at hother
        exact ih h hother

/-- Where a beginning of names leads there is a folder, if there is one where all the names lead. -/
theorem isFolder_of_walk_append {more : List Text} (hbefore : disk.walk here names = .ok l)
    (hwalk : disk.walk here (names ++ more) = .ok location)
    (hfolder : disk.node? location = some .folder) : disk.node? l = some .folder := by
  rw [walk_append hbefore] at hwalk
  cases more with
  | nil =>
    cases hwalk
    exact hfolder
  | cons name more =>
    rw [walk] at hwalk
    split at hwalk
    · cases hwalk
    · next hstep => exact node?_of_step hstep

/-- A folder that is made is where a beginning of the names leads. -/
theorem exists_walk_of_made (h : disk.makeFoldersFrom here names = (made, result))
    (hbefore : disk.node? l = none) (hafter : made.node? l = some .folder) :
    ∃ before, before <+: names ∧ made.walk here before = .ok l := by
  have hne : made ≠ disk := by
    rintro rfl
    rw [hbefore] at hafter
    cases hafter
  fun_induction makeFoldersFrom disk here names with
  | case1 disk here =>
    cases h
    exact absurd rfl hne
  | case2 disk here name names error hstep =>
    cases h
    exact absurd rfl hne
  | case3 disk here name names next hstep content hnode =>
    cases h
    exact absurd rfl hne
  | case4 disk here name names next hstep hnode ih =>
    obtain ⟨before, hprefix, hwalk⟩ := ih h hbefore hne
    have hstep' := step_of_makeFoldersFrom h hstep
    exact ⟨name :: before, List.cons_prefix_cons.2 ⟨rfl, hprefix⟩, (walk_cons hstep').trans hwalk⟩
  | case5 disk here name names next hstep hnode ih =>
    have hstep' := step_of_makeFoldersFrom ((makeFoldersFrom_of_missing hstep hnode).trans h) hstep
    by_cases hl : l = next
    · subst hl
      exact ⟨[name], List.cons_prefix_cons.2 ⟨rfl, List.nil_prefix⟩, walk_cons hstep'⟩
    · have hsame : (disk.insert next .folder).node? l = disk.node? l :=
        node?_insert_of_ne (node?_ne_folder_of_eq_none hnode) hl
      have hmissing := hsame.trans hbefore
      have hneInserted : made ≠ disk.insert next .folder := by
        rintro rfl
        rw [hmissing] at hafter
        cases hafter
      obtain ⟨before, hprefix, hwalk⟩ := ih h hmissing hneInserted
      exact ⟨name :: before, List.cons_prefix_cons.2 ⟨rfl, hprefix⟩, (walk_cons hstep').trans hwalk⟩

end

/-! ### Paths -/

/-- Whether a location is on the way of a path: where a beginning of its names leads, or all of
them. -/
def OnWay (disk : Disk) (path : Path) (l : Location) : Prop :=
  ∃ names, names <+: path.names ∧ disk.walk (disk.start path) names = .ok l

variable {disk other made : Disk} {path : Path} {location l : Location}

/-- On the way to a folder there are folders only. -/
theorem LeadsTo.isFolder_of_onWay (h : disk.LeadsTo path location) (hl : disk.OnWay path l) :
    disk.node? l = some .folder := by
  obtain ⟨names, ⟨more, hmore⟩, hnames⟩ := hl
  have hwalk := h.walk
  rw [← hmore] at hwalk
  exact isFolder_of_walk_append hnames hwalk h.isFolder

/-- The same locations are on the way of a path on two disks, if on the second it leads to
a folder. -/
theorem LeadsTo.onWay_congr (h : other.LeadsTo path location)
    (hworking : other.workingFolder = disk.workingFolder) (hl : disk.OnWay path l) :
    other.OnWay path l := by
  obtain ⟨names, ⟨more, hmore⟩, hnames⟩ := hl
  have hwalk := h.walk
  rw [← hmore] at hwalk
  obtain ⟨found, hfound, -⟩ := exists_walk_of_append hwalk
  rw [← start_congr hworking path] at hnames
  obtain rfl := walk_unique hnames hfound
  exact ⟨names, ⟨more, hmore⟩, hfound⟩

/-- Making the folders of a path makes folders on its way only. -/
theorem onWay_of_makeFolders {result : Except DiskError Unit}
    (h : disk.makeFolders path = (made, result)) (hbefore : disk.node? l = none)
    (hafter : made.node? l = some .folder) : made.OnWay path l := by
  have hstart := start_congr (makeFolders_keeps h).1 path
  unfold makeFolders at h
  split at h
  · cases h
    rw [hbefore] at hafter
    cases hafter
  · obtain ⟨names, hprefix, hwalk⟩ := exists_walk_of_made h hbefore hafter
    exact ⟨names, hprefix, hstart ▸ hwalk⟩

end Disk

end TsQuery
