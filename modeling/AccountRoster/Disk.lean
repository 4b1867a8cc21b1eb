import AccountRoster.Disk.Path

/-! # Disks

A disk says what stands at each place: a text file, a file that is no text, a
folder, or nothing. A path is followed name by name through folders that are
there, so what it means depends on the disk.

## Implementation notes

A place is the list of plain names that lead to it from the root. The folder
around a place is the list without its last name, and the root is its own. What
a path means depends on the folders only: `walk_mono` and `site_mono` say that
it stays the same for as long as no folder goes. -/

namespace AccountRoster

/-- What can stand at a place. -/
inductive Node where
  | text (content : String)
  | binary
  | folder
  deriving DecidableEq

/-- Why an access failed. -/
inductive DiskFault where
  | missing
  | notFolder
  | isFolder
  | notText
  /-- A name or a path has too many bytes. -/
  | tooLong
  /-- No path holds this character. -/
  | nul
  | outage
  deriving DecidableEq, Repr

namespace DiskFault

/-- What a message says about a failed access. -/
def reason : DiskFault → String
  | missing => "No such file or directory"
  | notFolder => "Not a directory"
  | isFolder => "Is a directory"
  | notText => "stream did not contain valid UTF-8"
  | tooLong => "File name too long"
  | nul => "file name contained an unexpected NUL byte"
  | outage => "Input/output error"

end DiskFault

/-- What stands at every place but the root, which is a folder. Every access can
fail for reasons that cannot be foreseen: a disk carries the list of outages that
its next accesses meet. -/
structure Disk where
  nodes : List String → Option Node
  /-- The folder in which paths start that do not start at the root. -/
  home : List String := []
  outages : List Bool := []

/-- What a path leads to: a folder that is there, or a place in one. -/
inductive Site where
  | folder
  | entry (place : List String)
  deriving DecidableEq

namespace Disk

/-- A disk with nothing on it. -/
def empty : Disk := { nodes := fun _ => none }

/-- How many bytes a name can have. -/
def longestName : Nat := 255

/-- How many bytes a path can have. -/
def longestPath : Nat := 4095

/-- Put a node at a place, or take away what is there. -/
def place (d : Disk) (spot : List String) (node : Option Node) : Disk :=
  { d with nodes := fun names => if names = spot then node else d.nodes names }

@[simp] theorem nodes_place (d : Disk) (spot names : List String) (node : Option Node) :
    (d.place spot node).nodes names = if names = spot then node else d.nodes names := rfl

/-- The place of a plain name in a folder. -/
def entry (folder : List String) (name : String) : Except DiskFault (List String) :=
  if longestName < name.utf8ByteSize then .error .tooLong else .ok (folder ++ [name])

/-- The folder that a name leads to from another. -/
def enter (d : Disk) (folder : List String) (name : String) : Except DiskFault (List String) :=
  if name = ".." then .ok folder.dropLast
  else if Path.isPlain name then
    match entry folder name with
    | .error fault => .error fault
    | .ok spot =>
        match d.nodes spot with
        | some .folder => .ok spot
        | some _ => .error .notFolder
        | none => .error .missing
  else .ok folder

/-- Follow names from folder to folder. -/
def walk (d : Disk) (folder : List String) : List String → Except DiskFault (List String)
  | [] => .ok folder
  | name :: more =>
      match d.enter folder name with
      | .ok next => d.walk next more
      | .error fault => .error fault

/-- The folder in which a path starts. The empty path leads nowhere. -/
def start (d : Disk) (path : String) : Except DiskFault (List String) :=
  if path = "" then .error .missing
  else if path.toList.contains '\x00' then .error .nul
  else if longestPath < path.utf8ByteSize then .error .tooLong
  else .ok (if Path.isAbsolute path then [] else d.home)

/-- What a path leads to. -/
def site (d : Disk) (path : String) : Except DiskFault Site :=
  match d.start path with
  | .error fault => .error fault
  | .ok folder =>
      match d.walk folder (Path.names path).dropLast with
      | .error fault => .error fault
      | .ok folder =>
          if Path.isPlain (Path.last path) then (entry folder (Path.last path)).map Site.entry
          else .ok .folder

/-- What stands at the end of a path. -/
def look (d : Disk) (path : String) : Except DiskFault Node :=
  match d.site path with
  | .error fault => .error fault
  | .ok .folder => .ok .folder
  | .ok (.entry spot) =>
      match d.nodes spot with
      | some node => .ok node
      | none => .error .missing

/-- The text of the file at a path. -/
def contents (d : Disk) (path : String) : Except DiskFault String :=
  match d.look path with
  | .ok (.text content) => .ok content
  | .ok .binary => .error .notText
  | .ok .folder => .error .isFolder
  | .error fault => .error fault

/-- The place of a file at a path, whether or not it is there. -/
def spot (d : Disk) (path : String) : Except DiskFault (List String) :=
  match d.site path with
  | .ok (.entry spot) => .ok spot
  | .ok .folder => .error .isFolder
  | .error fault => .error fault

/-- Make the folders that are missing along names; where a name leads to no
folder, the rest is left. -/
def build (d : Disk) (folder : List String) : List String → Except DiskFault Unit × Disk
  | [] => (.ok (), d)
  | name :: more =>
      match d.enter folder name with
      | .ok next => d.build next more
      | .error .missing =>
          (d.place (folder ++ [name]) (some .folder)).build (folder ++ [name]) more
      | .error fault => (.error fault, d)

/-- Put a node at the end of a path, with the folders on the way to it, over what
stands there. Where nothing can stand, the disk stays as it is. -/
def mount (d : Disk) (path : String) (node : Node) : Disk :=
  match d.start path with
  | .error _ => d
  | .ok folder =>
      let d := (d.build folder (Path.names path).dropLast).2
      match d.spot path with
      | .ok spot => d.place spot (some node)
      | .error _ => d

/-- Whether every folder of one disk is one of another, from the same start. -/
def FoldersIn (d e : Disk) : Prop :=
  d.home = e.home ∧ ∀ spot, d.nodes spot = some .folder → e.nodes spot = some .folder

/-- Nothing but a folder goes when a node is put where no folder stands. -/
theorem foldersIn_place (d : Disk) (spot : List String) (node : Option Node)
    (h : d.nodes spot ≠ some .folder) : d.FoldersIn (d.place spot node) := by
  refine ⟨rfl, fun other ho => ?_⟩
  have hne : other ≠ spot := fun e => h (e ▸ ho)
  simpa [hne] using ho

theorem enter_mono {d e : Disk} (h : d.FoldersIn e) {folder next : List String} {name : String}
    (he : d.enter folder name = .ok next) : e.enter folder name = .ok next := by
  unfold enter at he ⊢
  split at he
  · rename_i hup
    rw [if_pos hup]
    exact he
  · rename_i hup
    rw [if_neg hup]
    split at he
    · rename_i hplain
      rw [if_pos hplain]
      split at he
      · cases he
      · rename_i spot hs
        split at he
        · rename_i hn
          simpa [hs, h.2 _ hn] using he
        · cases he
        · cases he
    · rename_i hplain
      rw [if_neg hplain]
      exact he

/-- Names go on leading to the same folder for as long as no folder goes. -/
theorem walk_mono {d e : Disk} (h : d.FoldersIn e) {folder last : List String}
    {names : List String} (hw : d.walk folder names = .ok last) :
    e.walk folder names = .ok last := by
  induction names generalizing folder with
  | nil => exact hw
  | cons name more ih =>
      cases hn : d.enter folder name with
      | error fault => simp [walk, hn] at hw
      | ok next =>
          simp only [walk, hn] at hw
          simp only [walk, enter_mono h hn]
          exact ih hw

/-- A path goes on leading to the same site for as long as no folder goes. -/
theorem site_mono {d e : Disk} (h : d.FoldersIn e) {path : String} {s : Site}
    (hs : d.site path = .ok s) : e.site path = .ok s := by
  have hstart : e.start path = d.start path := by simp [start, h.1]
  unfold site at hs ⊢
  rw [hstart]
  split at hs
  · cases hs
  · rename_i folder hf
    cases hw : d.walk folder (Path.names path).dropLast with
    | error fault => simp [hw] at hs
    | ok last =>
        rw [hw] at hs
        simpa [hf, walk_mono h hw] using hs

theorem spot_mono {d e : Disk} (h : d.FoldersIn e) {path : String} {place : List String}
    (hs : d.spot path = .ok place) : e.spot path = .ok place := by
  unfold spot at hs ⊢
  split at hs
  · rename_i hp
    rw [site_mono h hp]
    exact hs
  · cases hs
  · cases hs

/-- A path has a text if one stands at its place. -/
theorem contents_eq_ok_iff {d : Disk} {path content : String} :
    d.contents path = .ok content ↔
      ∃ place, d.spot path = .ok place ∧ d.nodes place = some (.text content) := by
  simp only [contents, look, spot]
  cases d.site path with
  | error fault => simp
  | ok s =>
      cases s with
      | folder => simp
      | entry place =>
          cases hn : d.nodes place with
          | none => simp [hn]
          | some node => cases node <;> simp [hn]

end Disk

end AccountRoster
