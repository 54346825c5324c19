import Mathlib
import TsQuery.Proofs.Disk.Walk

/-!
# Making folders

Making the folders of a path keeps everything that was there (`Disk.makeFolders_keeps`).  Afterwards
the path leads to a folder if that succeeded (`Disk.exists_leadsTo_of_makeFolders`), and nothing is
seen under it if not (`Disk.view_child_of_makeFolders`).

On a path that is plain from its first missing folder on (`Disk.IsPlainFrom`) the folders are made
or nothing is changed at all, and in both cases no other content is seen under the path than before
(`Disk.makeFoldersFrom_of_isPlainFrom`).  Other paths can do worse: where `x` is missing, making the
folders of `x/..` and the name `a` makes `x`, and the path leads to the `a` beside it.  So that does
not happen where no name leads up again (`Disk.IsDescendingPath.isPlainPath`).
-/

namespace TsQuery

namespace Disk

/-! ### Plain paths -/

/-- Whether names are plain from the first folder on that is missing where they lead. -/
def IsPlainFrom (disk : Disk) : Location → List Text → Prop
  | _, [] => True
  | here, name :: names =>
    match disk.step here name with
    | .error _ => True
    | .ok next =>
      match disk.node? next with
      | some .folder => disk.IsPlainFrom next names
      | some (.file _) => True
      | none => ∀ other ∈ names, IsPlainName other

/-- Whether a path is plain from its first missing folder on. -/
def IsPlainPath (disk : Disk) (path : Path) : Prop :=
  disk.IsPlainFrom (disk.start path) path.names

/-- Whether no name leads up again behind the first folder that is missing where names lead. -/
def DescendsFrom (disk : Disk) : Location → List Text → Prop
  | _, [] => True
  | here, name :: names =>
    match disk.step here name with
    | .error _ => True
    | .ok next =>
      match disk.node? next with
      | some .folder => disk.DescendsFrom next names
      | some (.file _) => True
      | none => ∀ other ∈ names, other ≠ ".."

/-- Whether no name of a path leads up again behind its first missing folder. -/
def IsDescendingPath (disk : Disk) (path : Path) : Prop :=
  disk.DescendsFrom (disk.start path) path.names

section

variable {disk other : Disk} {here next location : Location} {name : Text} {names : List Text}

/-- Names that lead somewhere are plain from the first missing folder on, as there is none. -/
theorem isPlainFrom_of_walk (h : disk.walk here names = .ok location) :
    disk.IsPlainFrom here names := by
  induction names generalizing here with
  | nil => trivial
  | cons name names ih =>
    rw [walk] at h
    unfold IsPlainFrom
    cases hstep : disk.step here name with
    | error error => trivial
    | ok next =>
      rw [hstep] at h
      dsimp only at h ⊢
      cases hnode : disk.node? next with
      | none =>
        cases names with
        | nil => exact List.forall_mem_nil _
        | cons second names =>
          rw [walk, step_of_node?_eq_none hnode] at h
          cases h
      | some node =>
        cases node with
        | folder => exact ih h
        | file content => trivial

/-- A plain name behind names that are plain from the first missing folder on. -/
theorem IsPlainFrom.append (h : disk.IsPlainFrom here names) (hname : IsPlainName name) :
    disk.IsPlainFrom here (names ++ [name]) := by
  induction names generalizing here with
  | nil =>
    rw [List.nil_append]
    unfold IsPlainFrom
    split
    · trivial
    · split
      · trivial
      · trivial
      · exact List.forall_mem_nil _
  | cons first names ih =>
    rw [List.cons_append]
    unfold IsPlainFrom at h ⊢
    split
    · trivial
    · next next hstep =>
      rw [hstep] at h
      dsimp only at h
      split
      · next hnode =>
        rw [hnode] at h
        exact ih h
      · trivial
      · next hnode =>
        rw [hnode] at h
        exact List.forall_mem_append.2 ⟨h, List.forall_mem_singleton.2 hname⟩

/-! ### What is made -/

/-- A step to where nothing is leads to an entry of the folder. -/
theorem eq_cons_of_step (h : disk.step here name = .ok next) (hnode : disk.node? next = none) :
    next = name :: here := by
  have hhere := node?_of_step h
  unfold step at h
  rw [hhere] at h
  dsimp only at h
  split_ifs at h with hdots hlong
  · -- The folder around a folder is there.
    cases h
    cases here with
    | nil => cases hnode
    | cons last around =>
      rw [node?] at hhere
      split at hhere
      · next haround =>
        rw [List.tail_cons, haround] at hnode
        cases hnode
      · cases hhere
  · cases h
    rfl

/-- Making folders keeps everything that was there, and makes folders only. -/
theorem makeFoldersFrom_keeps (disk : Disk) (here : Location) (names : List Text) :
    (disk.makeFoldersFrom here names).1.workingFolder = disk.workingFolder ∧
      ∀ l, (disk.makeFoldersFrom here names).1.node? l = disk.node? l ∨
        disk.node? l = none ∧ (disk.makeFoldersFrom here names).1.node? l = some .folder := by
  fun_induction makeFoldersFrom disk here names with
  | case1 disk here => exact ⟨rfl, fun l => .inl rfl⟩
  | case2 disk here name names error hstep => exact ⟨rfl, fun l => .inl rfl⟩
  | case3 disk here name names next hstep content hnode => exact ⟨rfl, fun l => .inl rfl⟩
  | case4 disk here name names next hstep hnode ih => exact ih
  | case5 disk here name names next hstep hnode ih =>
    obtain ⟨hworking, hkeeps⟩ := ih
    refine ⟨hworking, fun l => ?_⟩
    by_cases hl : l = next
    · subst hl
      obtain rfl := eq_cons_of_step hstep hnode
      have hinserted : (disk.insert (name :: here) .folder).node? (name :: here) = some .folder :=
        node?_insert_self (node?_of_step hstep) .folder
      refine .inr ⟨hnode, ?_⟩
      rcases hkeeps (name :: here) with hsame | ⟨hnone, -⟩
      · exact hsame.trans hinserted
      · rw [hinserted] at hnone
        cases hnone
    · have hsame : (disk.insert next .folder).node? l = disk.node? l :=
        node?_insert_of_ne (node?_ne_folder_of_eq_none hnode) hl
      rw [← hsame]
      exact hkeeps l

variable {made : Disk} {result : Except DiskError Unit}

/-- What was there is there when folders were made. -/
theorem node?_of_makeFoldersFrom {node : Node}
    (h : disk.makeFoldersFrom here names = (made, result))
    (hnode : disk.node? location = some node) : made.node? location = some node := by
  have hkeeps := (makeFoldersFrom_keeps disk here names).2 location
  rw [h, hnode] at hkeeps
  exact hkeeps.resolve_right nofun

/-- A step leads to the same location when folders were made. -/
theorem step_of_makeFoldersFrom {first : Location}
    (h : disk.makeFoldersFrom first names = (made, result))
    (hstep : disk.step here name = .ok next) : made.step here name = .ok next := by
  have hhere := node?_of_step hstep
  exact (step_congr hhere (node?_of_makeFoldersFrom h hhere)).trans hstep

/-- Where a step leads to a folder, the folders of the other names are made there. -/
theorem makeFoldersFrom_of_folder (hstep : disk.step here name = .ok next)
    (hnode : disk.node? next = some .folder) :
    disk.makeFoldersFrom here (name :: names) = disk.makeFoldersFrom next names := by
  rw [makeFoldersFrom, hstep]
  dsimp only
  rw [hnode]

/-- Where a step leads to nothing, a folder is made, and in it those of the other names. -/
theorem makeFoldersFrom_of_missing (hstep : disk.step here name = .ok next)
    (hnode : disk.node? next = none) :
    disk.makeFoldersFrom here (name :: names) =
      (disk.insert next .folder).makeFoldersFrom next names := by
  rw [makeFoldersFrom, hstep]
  dsimp only
  rw [hnode]

/-- When making folders succeeds, the names lead to a folder. -/
theorem exists_walk_of_makeFoldersFrom (hhere : disk.node? here = some .folder)
    (h : disk.makeFoldersFrom here names = (made, .ok ())) :
    ∃ location, made.walk here names = .ok location ∧ made.node? location = some .folder := by
  fun_induction makeFoldersFrom disk here names with
  | case1 disk here =>
    cases h
    exact ⟨here, rfl, hhere⟩
  | case2 disk here name names error hstep => cases h
  | case3 disk here name names next hstep content hnode => cases h
  | case4 disk here name names next hstep hnode ih =>
    obtain ⟨location, hwalk, hfolder⟩ := ih hnode h
    have hstep' := step_of_makeFoldersFrom h hstep
    exact ⟨location, (walk_cons hstep').trans hwalk, hfolder⟩
  | case5 disk here name names next hstep hnode ih =>
    have hstep' := step_of_makeFoldersFrom ((makeFoldersFrom_of_missing hstep hnode).trans h) hstep
    obtain rfl := eq_cons_of_step hstep hnode
    obtain ⟨location, hwalk, hfolder⟩ := ih (node?_insert_self hhere .folder) h
    exact ⟨location, (walk_cons hstep').trans hwalk, hfolder⟩

/-- When making folders fails, the names lead to no folder. -/
theorem not_folder_of_makeFoldersFrom {error : DiskError}
    (h : disk.makeFoldersFrom here names = (made, .error error))
    (hwalk : made.walk here names = .ok location) : made.node? location ≠ some .folder := by
  fun_induction makeFoldersFrom disk here names with
  | case1 disk here => cases h
  | case2 disk here name names error hstep =>
    cases h
    rw [walk, hstep] at hwalk
    cases hwalk
  | case3 disk here name names next hstep content hnode =>
    cases h
    rw [walk_cons hstep] at hwalk
    cases names with
    | nil =>
      cases hwalk
      exact node?_ne_folder_of_eq_file hnode
    | cons second names =>
      unfold walk step at hwalk
      rw [hnode] at hwalk
      cases hwalk
  | case4 disk here name names next hstep hnode ih =>
    have hstep' := step_of_makeFoldersFrom h hstep
    rw [walk_cons hstep'] at hwalk
    exact ih h hwalk
  | case5 disk here name names next hstep hnode ih =>
    have hstep' := step_of_makeFoldersFrom ((makeFoldersFrom_of_missing hstep hnode).trans h) hstep
    rw [walk_cons hstep'] at hwalk
    exact ih h hwalk

/-- Names of which folders are made are not too long. -/
theorem isPlainName_of_makeFoldersFrom (h : disk.makeFoldersFrom here names = (made, .ok ())) :
    ∀ name ∈ names, name ≠ ".." → IsPlainName name := by
  fun_induction makeFoldersFrom disk here names with
  | case1 disk here => exact List.forall_mem_nil _
  | case2 disk here name names error hstep => cases h
  | case3 disk here name names next hstep content hnode => cases h
  | case4 disk here name names next hstep hnode ih =>
    exact List.forall_mem_cons.2 ⟨isPlainName_of_step hstep, ih h⟩
  | case5 disk here name names next hstep hnode ih =>
    exact List.forall_mem_cons.2 ⟨isPlainName_of_step hstep, ih h⟩

/-- Names that do not lead up again are plain if their folders can be made. -/
theorem DescendsFrom.isPlainFrom (h : disk.DescendsFrom here names)
    (hmakes : disk.makeFoldersFrom here names = (made, .ok ())) : disk.IsPlainFrom here names := by
  induction names generalizing here with
  | nil => trivial
  | cons name names ih =>
    unfold DescendsFrom at h
    unfold IsPlainFrom
    cases hstep : disk.step here name with
    | error error => trivial
    | ok next =>
      rw [hstep] at h
      dsimp only at h ⊢
      cases hnode : disk.node? next with
      | none =>
        rw [hnode] at h
        rw [makeFoldersFrom_of_missing hstep hnode] at hmakes
        intro other hother
        exact isPlainName_of_makeFoldersFrom hmakes other hother (h other hother)
      | some node =>
        rw [hnode] at h
        cases node with
        | folder => exact ih h ((makeFoldersFrom_of_folder hstep hnode).symm.trans hmakes)
        | file content => trivial

/-- Plain names do not lead up again. -/
theorem IsPlainFrom.descendsFrom (h : disk.IsPlainFrom here names) :
    disk.DescendsFrom here names := by
  induction names generalizing here with
  | nil => trivial
  | cons name names ih =>
    unfold IsPlainFrom at h
    unfold DescendsFrom
    split
    · trivial
    · next next hstep =>
      rw [hstep] at h
      dsimp only at h
      split
      · next hnode =>
        rw [hnode] at h
        exact ih h
      · trivial
      · next hnode =>
        rw [hnode] at h
        exact fun other hother => (h other hother).1

/-- Making folders where names lead never complains about the path. -/
theorem isPathFault_of_makeFoldersFrom {error : DiskError}
    (h : disk.makeFoldersFrom here names = (made, .error error)) : error.isPathFault = false := by
  fun_induction makeFoldersFrom disk here names with
  | case1 disk here => cases h
  | case2 disk here name names error hstep =>
    cases h
    exact isPathFault_of_step hstep
  | case3 disk here name names next hstep content hnode =>
    cases h
    rfl
  | case4 disk here name names next hstep hnode ih => exact ih h
  | case5 disk here name names next hstep hnode ih => exact ih h

/-- Whether there is nothing below a location. -/
def IsEmptyBelow (disk : Disk) (here : Location) : Prop :=
  ∀ l, here <:+ l → l ≠ here → disk.node? l = none

/-- Below an empty folder all folders of plain names are made, the last one empty again. -/
theorem makeFoldersFrom_below (hhere : disk.node? here = some .folder)
    (hbelow : disk.IsEmptyBelow here) (hplain : ∀ name ∈ names, IsPlainName name) :
    ∃ made, disk.makeFoldersFrom here names = (made, .ok ()) ∧
      made.walk here names = .ok (names.reverse ++ here) ∧
      made.node? (names.reverse ++ here) = some .folder ∧
      made.IsEmptyBelow (names.reverse ++ here) := by
  induction names generalizing disk here with
  | nil => exact ⟨disk, rfl, rfl, hhere, hbelow⟩
  | cons name names ih =>
    obtain ⟨hname, hnames⟩ := List.forall_mem_cons.1 hplain
    have hne : name :: here ≠ here := fun heq => absurd (congrArg List.length heq) (by simp)
    have hnone : disk.node? (name :: here) = none :=
      hbelow _ (List.suffix_cons name here) hne
    have hno := node?_ne_folder_of_eq_none hnone
    have hinserted : (disk.insert (name :: here) .folder).IsEmptyBelow (name :: here) := by
      intro l hl hlne
      rw [node?_insert_of_ne hno hlne]
      refine hbelow l ((List.suffix_cons name here).trans hl) ?_
      rintro rfl
      exact absurd hl.length_le (by simp)
    obtain ⟨made, hmade, hwalk, hfolder, hempty⟩ :=
      ih (node?_insert_self hhere .folder) hinserted hnames
    have hstep := step_of_isPlainName hhere hname
    have hmakes := (makeFoldersFrom_of_missing hstep hnone).trans hmade
    have hreverse : (name :: names).reverse ++ here = names.reverse ++ name :: here := by simp
    rw [hreverse]
    refine ⟨made, hmakes, ?_, hfolder, hempty⟩
    exact (walk_cons (step_of_makeFoldersFrom hmakes hstep)).trans hwalk

/-- Where nothing is, names lead nowhere. -/
theorem viewFrom_of_node?_eq_none (h : disk.node? here = none) (hne : names ≠ []) :
    disk.viewFrom here names = .error .notFound := by
  obtain ⟨name, names, rfl⟩ := List.exists_cons_of_ne_nil hne
  rw [viewFrom, walk, step_of_node?_eq_none h]

/-- What is seen from a location is seen from where a step leads. -/
theorem viewFrom_cons (h : disk.step here name = .ok next) :
    disk.viewFrom here (name :: names) = disk.viewFrom next names := by
  rw [viewFrom, walk_cons h, viewFrom]

/-- Whether making the folders of names makes a folder where they lead, under which the same is seen
as before. -/
structure Makes (disk : Disk) (here : Location) (names : List Text) (made : Disk)
    (location : Location) : Prop where
  makes : disk.makeFoldersFrom here names = (made, .ok ())
  walk : made.walk here names = .ok location
  isFolder : made.node? location = some .folder
  viewFrom : ∀ entry, IsPlainName entry →
    made.viewFrom here (names ++ [entry]) = disk.viewFrom here (names ++ [entry])

/-- A step to a folder that is there comes before the names of which folders are made. -/
theorem Makes.cons {made : Disk} (h : disk.Makes next names made location)
    (hstep : disk.step here name = .ok next) (hnode : disk.node? next = some .folder) :
    disk.Makes here (name :: names) made location := by
  have hstep' := step_of_makeFoldersFrom h.makes hstep
  refine ⟨(makeFoldersFrom_of_folder hstep hnode).trans h.makes, (walk_cons hstep').trans h.walk,
    h.isFolder, fun entry hentry => ?_⟩
  rw [List.cons_append, viewFrom_cons hstep, viewFrom_cons hstep', h.viewFrom entry hentry]

/-- Where the first of plain names is missing, all their folders are made, and as before nothing is
seen under them. -/
theorem exists_makes_of_missing (hstep : disk.step here name = .ok next)
    (hnode : disk.node? next = none) (hplain : ∀ other ∈ names, IsPlainName other) :
    ∃ made location, disk.Makes here (name :: names) made location := by
  have hhere := node?_of_step hstep
  obtain rfl := eq_cons_of_step hstep hnode
  have hno := node?_ne_folder_of_eq_none hnode
  have hinserted : (disk.insert (name :: here) .folder).IsEmptyBelow (name :: here) := by
    intro l hl hlne
    rw [node?_insert_of_ne hno hlne]
    exact node?_eq_none_of_below hno hl hlne
  obtain ⟨made, hmade, hwalk, hfolder, hempty⟩ :=
    makeFoldersFrom_below (node?_insert_self hhere .folder) hinserted hplain
  have hmakes := (makeFoldersFrom_of_missing hstep hnode).trans hmade
  have hstep' := step_of_makeFoldersFrom hmakes hstep
  refine ⟨made, names.reverse ++ name :: here, hmakes, (walk_cons hstep').trans hwalk, hfolder,
    fun entry hentry => ?_⟩
  have hnone : made.node? (entry :: (names.reverse ++ name :: here)) = none :=
    hempty _ (List.suffix_cons _ _) (fun heq => absurd (congrArg List.length heq) (by simp))
  have hmore : names ++ [entry] ≠ [] :=
    List.append_ne_nil_of_right_ne_nil _ (List.cons_ne_nil _ _)
  have hbefore : disk.viewFrom (name :: here) (names ++ [entry]) = .error .notFound :=
    viewFrom_of_node?_eq_none hnode hmore
  have hafter : made.viewFrom (name :: here) (names ++ [entry]) = .error .notFound := by
    rw [viewFrom, walk_append hwalk, walk_cons (step_of_isPlainName hfolder hentry)]
    dsimp only [walk]
    rw [hnone]
  rw [List.cons_append, viewFrom_cons hstep, viewFrom_cons hstep', hbefore, hafter]

/-- On names that are plain from the first missing folder on, making folders changes nothing at all
or makes a folder where they lead; under a plain name the same is seen as before. -/
theorem makeFoldersFrom_of_isPlainFrom (hplain : disk.IsPlainFrom here names) (hne : names ≠ []) :
    (∃ error, disk.makeFoldersFrom here names = (disk, .error error)) ∨
      ∃ made location, disk.Makes here names made location := by
  induction names generalizing here with
  | nil => exact absurd rfl hne
  | cons name names ih =>
    unfold IsPlainFrom at hplain
    cases hstep : disk.step here name with
    | error error =>
      refine Or.inl ⟨error, ?_⟩
      rw [makeFoldersFrom, hstep]
    | ok next =>
      rw [hstep] at hplain
      dsimp only at hplain
      cases hnode : disk.node? next with
      | none =>
        rw [hnode] at hplain
        exact Or.inr (exists_makes_of_missing hstep hnode hplain)
      | some node =>
        cases node with
        | file content =>
          refine Or.inl ⟨.notFolder, ?_⟩
          rw [makeFoldersFrom, hstep]
          dsimp only
          rw [hnode]
        | folder =>
          rw [hnode] at hplain
          by_cases hnil : names = []
          · subst hnil
            have hhere : disk.Makes next [] disk next := ⟨rfl, rfl, hnode, fun _ _ => rfl⟩
            exact Or.inr ⟨disk, next, hhere.cons hstep hnode⟩
          · rcases ih hplain hnil with ⟨error, herror⟩ | ⟨made, location, hmakes⟩
            · exact Or.inl ⟨error, (makeFoldersFrom_of_folder hstep hnode).trans herror⟩
            · exact Or.inr ⟨made, location, hmakes.cons hstep hnode⟩

end

/-! ### Paths -/

variable {disk other : Disk} {path : Path} {location : Location} {name : Text}

/-- A path that leads to a folder is plain, as no folder is missing. -/
theorem LeadsTo.isPlainPath (h : disk.LeadsTo path location) : disk.IsPlainPath path :=
  isPlainFrom_of_walk h.walk

/-- A path is plain if that of an entry is which leads somewhere. -/
theorem isPlainPath_of_child (h : disk.LeadsTo (path.child name) location) :
    disk.IsPlainPath path := by
  obtain ⟨next, hnext, -⟩ := exists_walk_of_append h.walk
  exact isPlainFrom_of_walk hnext

theorem IsPlainPath.child (h : disk.IsPlainPath path) (hname : IsPlainName name) :
    disk.IsPlainPath (path.child name) :=
  IsPlainFrom.append h hname

/-- Making the folders of a path keeps everything that was there, and makes folders only. -/
theorem makeFolders_keeps {made : Disk} {result : Except DiskError Unit}
    (h : disk.makeFolders path = (made, result)) :
    made.workingFolder = disk.workingFolder ∧
      ∀ l, made.node? l = disk.node? l ∨ disk.node? l = none ∧ made.node? l = some .folder := by
  unfold makeFolders at h
  split at h
  · cases h
    exact ⟨rfl, fun _ => .inl rfl⟩
  · have hkeeps := makeFoldersFrom_keeps disk (disk.start path) path.names
    rwa [h] at hkeeps

/-- A path leads to the same folder when folders were made. -/
theorem LeadsTo.of_makeFolders {made : Disk} {result : Except DiskError Unit} {others : Path}
    (h : disk.LeadsTo path location)
    (hmakes : disk.makeFolders others = (made, result)) : made.LeadsTo path location := by
  obtain ⟨hworking, hkeeps⟩ := makeFolders_keeps hmakes
  refine h.of_folders (fun l hl => ?_) hworking
  exact ((hkeeps l).resolve_right fun hnone => nomatch hl.symm.trans hnone.1).trans hl

/-- When making the folders of a path succeeds, the path can be borne and leads to a folder. -/
theorem exists_leadsTo_of_makeFolders {made : Disk} (hne : path.names ≠ [])
    (h : disk.makeFolders path = (made, .ok ())) :
    pathError? path = none ∧ ∃ location, made.LeadsTo path location := by
  have hstart := start_congr (makeFolders_keeps h).1 path
  unfold makeFolders at h
  split at h
  · cases h
  · next herror =>
    have hhere : disk.node? (disk.start path) = some .folder := by
      obtain ⟨name, names, hnames⟩ := List.exists_cons_of_ne_nil hne
      rw [hnames, makeFoldersFrom] at h
      split at h
      · cases h
      · next hstep => exact node?_of_step hstep
    obtain ⟨location, hwalk, hfolder⟩ := exists_walk_of_makeFoldersFrom hhere h
    exact ⟨herror, location, by rw [hstart]; exact hwalk, hfolder⟩

/-- When making the folders of a path fails, nothing is seen under the path, afterwards
or before. -/
theorem view_child_of_makeFolders {made : Disk} {error : DiskError}
    (h : disk.makeFolders path = (made, .error error)) (name : Text) :
    (made.view (path.child name)).toOption = none ∧
      (disk.view (path.child name)).toOption = none := by
  have hnowhere : pathError? path = none → ∀ location, ¬made.LeadsTo path location := by
    intro herror location hleads
    have hwalk := hleads.walk
    rw [start_congr (makeFolders_keeps h).1] at hwalk
    rw [makeFolders, herror] at h
    exact not_folder_of_makeFoldersFrom h hwalk hleads.isFolder
  constructor
  · cases hview : made.view (path.child name) with
    | error error => rfl
    | ok node =>
      obtain ⟨herror, location, hleads⟩ := exists_leadsTo_of_view hview
      exact absurd hleads (hnowhere herror location)
  · cases hview : disk.view (path.child name) with
    | error error => rfl
    | ok node =>
      obtain ⟨herror, location, hleads⟩ := exists_leadsTo_of_view hview
      exact absurd (hleads.of_makeFolders h) (hnowhere herror location)

/-- A path that leads to a folder does not lead up again behind a missing one, as there is none. -/
theorem LeadsTo.isDescendingPath (h : disk.LeadsTo path location) : disk.IsDescendingPath path :=
  IsPlainFrom.descendsFrom h.isPlainPath

/-- A path that does not lead up again is plain if its folders can be made. -/
theorem IsDescendingPath.isPlainPath {made : Disk} (h : disk.IsDescendingPath path)
    (hmakes : disk.makeFolders path = (made, .ok ())) : disk.IsPlainPath path := by
  unfold makeFolders at hmakes
  split at hmakes
  · cases hmakes
  · exact DescendsFrom.isPlainFrom h hmakes

/-- Making folders complains about the path only if it is at fault, and then nothing is changed. -/
theorem makeFolders_of_isPathFault {made : Disk} {error : DiskError}
    (h : disk.makeFolders path = (made, .error error)) (hfault : error.isPathFault = true) :
    made = disk := by
  unfold makeFolders at h
  split at h
  · cases h
    rfl
  · rw [isPathFault_of_makeFoldersFrom h] at hfault
    cases hfault

/-- Making the folders of a path that is plain from the first missing folder on changes nothing at
all or makes a folder where the path leads; under a plain name the same is seen as before. -/
theorem makeFolders_of_isPlainPath (hplain : disk.IsPlainPath path) (hne : path.names ≠ []) :
    (∃ error, disk.makeFolders path = (disk, .error error)) ∨
      ∃ made location, disk.makeFolders path = (made, .ok ()) ∧ made.LeadsTo path location ∧
        made.workingFolder = disk.workingFolder ∧
        ∀ entry, IsPlainName entry →
          made.view (path.child entry) = disk.view (path.child entry) := by
  unfold makeFolders
  cases herror : pathError? path with
  | some error => exact Or.inl ⟨error, rfl⟩
  | none =>
    rcases makeFoldersFrom_of_isPlainFrom hplain hne with ⟨error, hmade⟩ |
      ⟨made, location, hmade, hwalk, hfolder, hview⟩
    · exact Or.inl ⟨error, hmade⟩
    · have hworking := (makeFoldersFrom_keeps disk (disk.start path) path.names).1
      rw [hmade] at hworking
      have hstart := start_congr hworking path
      have hleads : made.LeadsTo path location := ⟨by rw [hstart]; exact hwalk, hfolder⟩
      refine Or.inr ⟨made, location, hmade, hleads, hworking, fun entry hentry => ?_⟩
      unfold view
      cases pathError? (path.child entry) with
      | some error => rfl
      | none =>
        have hchild : made.start (path.child entry) = disk.start (path.child entry) := hstart
        dsimp only
        rw [hchild]
        exact hview entry hentry

end Disk

end TsQuery
