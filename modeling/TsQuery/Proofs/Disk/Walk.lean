import Mathlib
import TsQuery.Disk.Access
import TsQuery.Proofs.Text.Pieces

/-!
# Following paths

Where a path leads depends on the folders of a disk only: a path that leads somewhere leads there on
every disk that has the same folders and perhaps more (`Disk.walk_of_folders`).  What there is where
a path leads (`Disk.view`) decides whether the disk holds something there and what is read
(`Disk.holds_eq`, `Disk.read_eq`).  Under a folder to which a path leads, a plain name stands for
the location of that name (`Disk.LeadsTo.locate_child`), and nothing is seen under what is no folder
(`Disk.exists_leadsTo_of_view`).  An operation complains about a path that no disk can bear only if
it is given one (`Disk.pathError?_of_write`, `Disk.pathError?_of_move`).
-/

namespace TsQuery

namespace Disk

/-! ### Steps -/

/-- Whether a name stands for an entry of the folder in which it is followed: it is not the two dots
and not too long. -/
def IsPlainName (name : Text) : Prop :=
  name ≠ ".." ∧ (Utf8.encodeName name).length ≤ maxNameBytes

instance (name : Text) : Decidable (IsPlainName name) :=
  inferInstanceAs (Decidable (_ ∧ _))

section

variable {disk other : Disk} {here next location : Location} {name : Text} {names more : List Text}

/-- Names are followed in folders only. -/
theorem node?_of_step (h : disk.step here name = .ok next) : disk.node? here = some .folder := by
  unfold step at h
  split at h
  · cases h
  · cases h
  · next hfolder => exact hfolder

/-- In a folder a plain name stands for its location. -/
theorem step_of_isPlainName (hhere : disk.node? here = some .folder) (hname : IsPlainName name) :
    disk.step here name = .ok (name :: here) := by
  unfold step
  rw [hhere]
  dsimp only
  rw [if_neg hname.1, if_neg (not_lt.2 hname.2)]

/-- A name that was followed is plain unless it is the two dots. -/
theorem isPlainName_of_step (h : disk.step here name = .ok next) (hdots : name ≠ "..") :
    IsPlainName name := by
  have hhere := node?_of_step h
  unfold step at h
  rw [hhere] at h
  dsimp only at h
  rw [if_neg hdots] at h
  split_ifs at h with hlong
  exact ⟨hdots, not_lt.1 hlong⟩

/-- In a folder a name is followed in the same way on every disk. -/
theorem step_congr (hhere : disk.node? here = some .folder)
    (hother : other.node? here = some .folder) : other.step here name = disk.step here name := by
  unfold step
  rw [hhere, hother]

/-- Where nothing is, there is no folder. -/
theorem node?_ne_folder_of_eq_none (h : disk.node? here = none) :
    disk.node? here ≠ some .folder := by
  simp [h]

/-- Where a file is, there is no folder. -/
theorem node?_ne_folder_of_eq_file {content : Bytes} (h : disk.node? here = some (.file content)) :
    disk.node? here ≠ some .folder := by
  simp [h]

/-- What is not there has no entries. -/
theorem step_of_node?_eq_none (h : disk.node? here = none) :
    disk.step here name = .error .notFound := by
  unfold step
  rw [h]

/-! ### Walks -/

theorem walk_cons (h : disk.step here name = .ok next) :
    disk.walk here (name :: names) = disk.walk next names := by
  rw [walk, h]

/-- A walk goes on from where its beginning leads. -/
theorem walk_append (h : disk.walk here names = .ok next) :
    disk.walk here (names ++ more) = disk.walk next more := by
  induction names generalizing here with
  | nil =>
    cases h
    rfl
  | cons name names ih =>
    rw [List.cons_append, walk]
    cases hstep : disk.step here name with
    | error error =>
      rw [walk, hstep] at h
      cases h
    | ok middle =>
      rw [walk_cons hstep] at h
      exact ih h

/-- The beginning of a walk leads somewhere if the walk does. -/
theorem exists_walk_of_append (h : disk.walk here (names ++ more) = .ok location) :
    ∃ next, disk.walk here names = .ok next ∧ disk.walk next more = .ok location := by
  induction names generalizing here with
  | nil => exact ⟨here, rfl, h⟩
  | cons name names ih =>
    rw [List.cons_append, walk] at h
    cases hstep : disk.step here name with
    | error error =>
      rw [hstep] at h
      cases h
    | ok middle =>
      rw [hstep] at h
      obtain ⟨next, hnext, hmore⟩ := ih h
      exact ⟨next, (walk_cons hstep).trans hnext, hmore⟩

/-- A walk leads to the same location on every disk that has the same folders and perhaps more. -/
theorem walk_of_folders
    (hfolders : ∀ l, disk.node? l = some .folder → other.node? l = some .folder)
    (h : disk.walk here names = .ok location) : other.walk here names = .ok location := by
  induction names generalizing here with
  | nil => exact h
  | cons name names ih =>
    rw [walk] at h
    cases hstep : disk.step here name with
    | error error =>
      rw [hstep] at h
      cases h
    | ok next =>
      rw [hstep] at h
      have hhere := node?_of_step hstep
      rw [walk, step_congr hhere (hfolders here hhere), hstep]
      exact ih h

end

/-! ### Paths that nothing can bear -/

theorem pathError?_eq_none_iff {path : Path} :
    pathError? path = none ↔
      path.encodingFault? = none ∧ path.hasNull = false ∧ path.isTooLong = false := by
  unfold pathError?
  cases path.encodingFault? with
  | some fault => exact iff_of_false nofun nofun
  | none => cases path.hasNull <;> cases path.isTooLong <;> simp

/-- A path can be encoded exactly if each code point of its names has bytes. -/
theorem encodingFault?_path_eq_none_iff {path : Path} :
    path.encodingFault? = none ↔ ∀ name ∈ path.names, ∀ c ∈ name, c.isBareHalf = false := by
  have hslash : ∀ c ∈ [slash], c.isBareHalf = false := by decide
  have hslashes : ∀ c ∈ path.anchor.slashes, c.isBareHalf = false := by
    cases path.anchor <;> decide
  unfold Path.encodingFault? Path.toText
  rw [Utf8.encodingFault?_eq_none_iff]
  split_ifs with hdot
  · rw [hdot.2]
    exact iff_of_true (by decide) nofun
  · rw [List.forall_mem_append, Text.forall_mem_joined hslash]
    exact and_iff_right hslashes

theorem encodingFault?_child {path : Path} {name : Text} :
    (path.child name).encodingFault? = none ↔
      path.encodingFault? = none ∧ ∀ c ∈ name, c.isBareHalf = false := by
  rw [encodingFault?_path_eq_none_iff, encodingFault?_path_eq_none_iff, Path.child,
    List.forall_mem_append, List.forall_mem_singleton]

theorem hasNull_child (path : Path) (name : Text) :
    (path.child name).hasNull = (path.hasNull || name.contains '\x00') := by
  simp [Path.hasNull, Path.child]

/-- The path of an entry of a folder, as it is written, if that of the folder has names. -/
theorem toText_child {path : Path} (hnames : path.names ≠ []) (name : Text) :
    (path.child name).toText = path.toText ++ slash :: name := by
  have hmore : path.names ++ [name] ≠ [] := List.append_ne_nil_of_left_ne_nil hnames _
  have hlast : Text.joined [slash] [name] = name := List.intercalate_singleton
  rw [Path.toText, Path.toText, if_neg (fun h => hmore h.2), if_neg (fun h => hnames h.2),
    Path.child, Text.joined_append _ hnames (List.cons_ne_nil _ _), List.append_assoc, hlast]

/-- The path of an entry of a folder is too long if that of the folder is. -/
theorem isTooLong_child {path : Path} (name : Text) (h : path.isTooLong = true) :
    (path.child name).isTooLong = true := by
  have hnames : path.names ≠ [] := by
    obtain ⟨anchor, names⟩ := path
    rintro rfl
    revert h
    cases anchor <;> decide
  unfold Path.isTooLong at h ⊢
  rw [decide_eq_true_eq] at h ⊢
  rw [toText_child hnames, Utf8.encodeName, List.flatMap_append, List.length_append]
  exact Nat.lt_add_right _ h

/-- If an entry of a folder can be borne, the folder can. -/
theorem pathError?_eq_none_of_child {path : Path} {name : Text}
    (h : pathError? (path.child name) = none) : pathError? path = none := by
  obtain ⟨hfault, hnull, hlong⟩ := pathError?_eq_none_iff.1 h
  rw [hasNull_child, Bool.or_eq_false_iff] at hnull
  rw [← Bool.not_eq_true] at hlong
  refine pathError?_eq_none_iff.2 ⟨(encodingFault?_child.1 hfault).1, hnull.1, ?_⟩
  rw [← Bool.not_eq_true]
  exact mt (isTooLong_child name) hlong

/-- Where a folder can be borne, the path of an entry can only be too long, if the name of the entry
has bytes and no null character. -/
theorem isPathFault_of_child {path : Path} {name : Text} {error : DiskError}
    (hpath : pathError? path = none) (hname : ∀ c ∈ name, c.isBareHalf = false)
    (hnull : name.contains '\x00' = false) (h : pathError? (path.child name) = some error) :
    error.isPathFault = false := by
  obtain ⟨hfault, hnonull, -⟩ := pathError?_eq_none_iff.1 hpath
  have hnochild : (path.child name).hasNull = false := by
    rw [hasNull_child, hnonull, hnull]
    rfl
  unfold pathError? at h
  rw [encodingFault?_child.2 ⟨hfault, hname⟩, hnochild] at h
  dsimp only at h
  rw [if_neg Bool.false_ne_true] at h
  split_ifs at h
  cases h
  rfl

/-! ### What is seen -/

/-- What there is where names lead from a location. -/
def viewFrom (disk : Disk) (here : Location) (names : List Text) : Except DiskError Node :=
  match disk.walk here names with
  | .error error => .error error
  | .ok location =>
    match disk.node? location with
    | none => .error .notFound
    | some node => .ok node

/-- What there is where a path leads. -/
def view (disk : Disk) (path : Path) : Except DiskError Node :=
  match pathError? path with
  | some error => .error error
  | none => disk.viewFrom (disk.start path) path.names

/-- Whether there is a file where a path leads. -/
def HasFile (disk : Disk) (path : Path) : Prop :=
  ∃ content, disk.view path = .ok (.file content)

/-- A disk holds something where a path leads if something is seen there. -/
theorem holds_eq (disk : Disk) (path : Path) :
    disk.holds path =
      match disk.view path with
      | .ok _ => .ok true
      | .error .tooLong => .error .tooLong
      | .error _ => .ok false := by
  unfold holds locate view viewFrom
  cases pathError? path with
  | some error => cases error <;> rfl
  | none =>
    dsimp only
    cases disk.walk (disk.start path) path.names with
    | error error => cases error <;> rfl
    | ok location =>
      dsimp only
      cases disk.node? location <;> rfl

/-- What is read where a path leads is the content of the file that is seen there. -/
theorem read_eq (disk : Disk) (path : Path) :
    disk.read path =
      match disk.view path with
      | .ok (.file content) => .ok content
      | .ok .folder => .error .isFolder
      | .error error => .error error := by
  unfold read locate view viewFrom
  cases pathError? path with
  | some error => rfl
  | none =>
    dsimp only
    cases disk.walk (disk.start path) path.names with
    | error error => rfl
    | ok location =>
      dsimp only
      cases disk.node? location with
      | none => rfl
      | some node => cases node <;> rfl

/-- Removing a file if it is there erases it, or changes nothing. -/
theorem removeIfThere_fst (disk : Disk) (path : Path) :
    (disk.removeIfThere path).1 =
      match disk.locate path with
      | .error _ => disk
      | .ok location =>
        match disk.node? location with
        | some (.file _) => disk.erase location
        | _ => disk := by
  unfold removeIfThere holds remove
  cases disk.locate path with
  | error error => cases error <;> rfl
  | ok location =>
    dsimp only
    cases disk.node? location with
    | none => rfl
    | some node => cases node <;> rfl

/-! ### Changes -/

/-- Whether one disk is another one after changes at some locations only. -/
structure ChangesOnly (disk after : Disk) (changed : Location → Prop) : Prop where
  workingFolder_eq : after.workingFolder = disk.workingFolder
  node?_eq : ∀ l, ¬changed l → after.node? l = disk.node? l

section

variable {disk middle after : Disk} {changed others : Location → Prop} {location : Location}

theorem ChangesOnly.refl (disk : Disk) (changed : Location → Prop) :
    disk.ChangesOnly disk changed :=
  ⟨rfl, fun _ _ => rfl⟩

theorem ChangesOnly.trans (h : disk.ChangesOnly middle changed)
    (hmore : middle.ChangesOnly after changed) : disk.ChangesOnly after changed where
  workingFolder_eq := hmore.workingFolder_eq.trans h.workingFolder_eq
  node?_eq l hl := (hmore.node?_eq l hl).trans (h.node?_eq l hl)

theorem ChangesOnly.mono (h : disk.ChangesOnly after changed) (himp : ∀ l, changed l → others l) :
    disk.ChangesOnly after others where
  workingFolder_eq := h.workingFolder_eq
  node?_eq l hl := h.node?_eq l (mt (himp l) hl)

theorem changesOnly_insert (hno : disk.node? location ≠ some .folder) (node : Node) :
    disk.ChangesOnly (disk.insert location node) (· = location) :=
  ⟨rfl, fun _ hl => node?_insert_of_ne hno hl⟩

theorem changesOnly_erase (hno : disk.node? location ≠ some .folder) :
    disk.ChangesOnly (disk.erase location) (· = location) :=
  ⟨rfl, fun _ hl => node?_erase_of_ne hno hl⟩

end

/-! ### Entries of a folder -/

/-- Whether a path leads to a location with a folder. -/
structure LeadsTo (disk : Disk) (path : Path) (location : Location) : Prop where
  walk : disk.walk (disk.start path) path.names = .ok location
  isFolder : disk.node? location = some .folder

/-- Paths begin at the same location on disks with the same working folder. -/
theorem start_congr {disk other : Disk} (h : other.workingFolder = disk.workingFolder)
    (path : Path) : other.start path = disk.start path := by
  unfold start
  rw [h]

namespace LeadsTo

variable {disk other : Disk} {path : Path} {location : Location} {name : Text}

/-- A path leads to the same folder on every disk that has the same folders and perhaps more. -/
theorem of_folders (h : disk.LeadsTo path location)
    (hfolders : ∀ l, disk.node? l = some .folder → other.node? l = some .folder)
    (hworking : other.workingFolder = disk.workingFolder) : other.LeadsTo path location := by
  refine ⟨?_, hfolders location h.isFolder⟩
  rw [start_congr hworking]
  exact walk_of_folders hfolders h.walk

/-- A path leads to the same folder after changes to what is no folder. -/
theorem of_changesOnly {changed : Location → Prop} (h : disk.LeadsTo path location)
    (hchanges : disk.ChangesOnly other changed)
    (hno : ∀ l, changed l → disk.node? l ≠ some .folder) : other.LeadsTo path location := by
  refine h.of_folders (fun l hl => ?_) hchanges.workingFolder_eq
  rw [hchanges.node?_eq l (fun hchanged => hno l hchanged hl), hl]

theorem walk_child (h : disk.LeadsTo path location) (hname : IsPlainName name) :
    disk.walk (disk.start (path.child name)) (path.child name).names = .ok (name :: location) := by
  have hstart : disk.start (path.child name) = disk.start path := rfl
  rw [hstart, Path.child, walk_append h.walk, walk_cons (step_of_isPlainName h.isFolder hname)]
  rfl

/-- A plain name stands for the location of that name in the folder. -/
theorem locate_child (h : disk.LeadsTo path location) (hname : IsPlainName name)
    (herror : pathError? (path.child name) = none) :
    disk.locate (path.child name) = .ok (name :: location) := by
  rw [locate, herror]
  exact h.walk_child hname

/-- What is seen under a plain name is the node of that name in the folder. -/
theorem view_child (h : disk.LeadsTo path location) (hname : IsPlainName name)
    (herror : pathError? (path.child name) = none) :
    disk.view (path.child name) =
      match disk.node? (name :: location) with
      | none => .error .notFound
      | some node => .ok node := by
  rw [view, herror]
  dsimp only
  rw [viewFrom, h.walk_child hname]

/-- There is a file under a plain name exactly if the node of that name is one. -/
theorem hasFile_child_iff (h : disk.LeadsTo path location) (hname : IsPlainName name)
    (herror : pathError? (path.child name) = none) :
    disk.HasFile (path.child name) ↔
      ∃ content, disk.node? (name :: location) = some (.file content) := by
  unfold HasFile
  rw [h.view_child hname herror]
  cases disk.node? (name :: location) with
  | none => exact iff_of_false nofun nofun
  | some node => simp

/-- The same is seen under a plain name on two disks that have the same node there. -/
theorem view_child_congr (h : disk.LeadsTo path location) (hother : other.LeadsTo path location)
    (hname : IsPlainName name)
    (hnode : other.node? (name :: location) = disk.node? (name :: location)) :
    other.view (path.child name) = disk.view (path.child name) := by
  cases herror : pathError? (path.child name) with
  | some error => rw [view, view, herror]
  | none => rw [h.view_child hname herror, hother.view_child hname herror, hnode]

/-- A file can be written under a plain name unless there is a folder. -/
theorem fileLocation_child (h : disk.LeadsTo path location) (hname : IsPlainName name) :
    disk.fileLocation (path.child name) =
      match pathError? (path.child name) with
      | some error => .error error
      | none =>
        if disk.node? (name :: location) = some .folder then .error .isFolder
        else .ok (name :: location) := by
  unfold fileLocation
  cases herror : pathError? (path.child name) with
  | some error =>
    rw [locate, herror]
  | none =>
    have haround : disk.node? (name :: location).tail = some .folder := h.isFolder
    rw [h.locate_child hname herror]
    dsimp only
    rw [if_pos haround]

end LeadsTo

section

variable {disk after : Disk} {path source target : Path} {location : Location} {name : Text}

/-- Something is seen under a path only if the path can be borne and leads to a folder. -/
theorem exists_leadsTo_of_view {node : Node} (h : disk.view (path.child name) = .ok node) :
    pathError? path = none ∧ ∃ location, disk.LeadsTo path location := by
  unfold view at h
  split at h
  · cases h
  · next herror =>
    unfold viewFrom at h
    split at h
    · cases h
    · next found hwalk =>
      obtain ⟨location, hlocation, hentry⟩ := exists_walk_of_append hwalk
      refine ⟨pathError?_eq_none_of_child herror, location, hlocation, ?_⟩
      rw [walk] at hentry
      split at hentry
      · cases hentry
      · next hstep => exact node?_of_step hstep

/-! ### Complaints about paths -/

/-- Following a name never complains about the path. -/
theorem isPathFault_of_step {here : Location} {error : DiskError}
    (h : disk.step here name = .error error) : error.isPathFault = false := by
  unfold step at h
  split at h
  · cases h
    rfl
  · cases h
    rfl
  · split_ifs at h
    cases h
    rfl

theorem isPathFault_of_walk {here : Location} {names : List Text} {error : DiskError}
    (h : disk.walk here names = .error error) : error.isPathFault = false := by
  induction names generalizing here with
  | nil => cases h
  | cons name names ih =>
    rw [walk] at h
    split at h
    · next hstep =>
      cases h
      exact isPathFault_of_step hstep
    · exact ih h

section

variable {error : DiskError} (hfault : error.isPathFault = true)

include hfault

/-- An error of a path, where the path is followed, is what is wrong with it. -/
theorem pathError?_of_locate (h : disk.locate path = .error error) :
    pathError? path = some error := by
  unfold locate at h
  split at h
  · next herror =>
    cases h
    exact herror
  · rw [isPathFault_of_walk h] at hfault
    cases hfault

theorem pathError?_of_fileLocation (h : disk.fileLocation path = .error error) :
    pathError? path = some error := by
  unfold fileLocation at h
  split at h
  · next hlocate =>
    cases h
    exact pathError?_of_locate hfault hlocate
  · split_ifs at h <;> cases h <;> cases hfault

/-- Writing complains about a path only if the path is at fault. -/
theorem pathError?_of_write {content : Bytes}
    (h : disk.write path content = (after, .error error)) : pathError? path = some error := by
  unfold write at h
  split at h
  · next hfile =>
    cases h
    exact pathError?_of_fileLocation hfault hfile
  · cases h

/-- Moving complains about a path only if one of the two is at fault. -/
theorem pathError?_of_move (h : disk.move source target = (after, .error error)) :
    pathError? source = some error ∨ pathError? target = some error := by
  unfold move at h
  split at h
  · next hlocate =>
    cases h
    exact Or.inl (pathError?_of_locate hfault hlocate)
  · split at h
    · cases h
      cases hfault
    · cases h
      cases hfault
    · split at h
      · next hfile =>
        cases h
        exact Or.inr (pathError?_of_fileLocation hfault hfile)
      · cases h

end

end

end Disk

end TsQuery
