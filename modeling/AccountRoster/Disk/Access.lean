import AccountRoster.Disk

/-! # Accesses to a disk

Each access reads or changes one file, or makes the folders of a path. It fails
if the disk does not allow it, and whenever it meets an outage.

## Implementation notes

A failed access changes nothing on the disk, but for folders that were made on
the way to one that cannot be. A rename happens at once or not at all. -/

namespace AccountRoster.Disk

/-- Whether the next access meets an outage, and the disk after it. -/
def access (d : Disk) : Bool × Disk :=
  (d.outages.headD false, { d with outages := d.outages.tail })

/-- Read the text of the file at a path. -/
def read (d : Disk) (path : String) : Except DiskFault String × Disk :=
  let (out, d) := d.access
  if out then (.error .outage, d) else (d.contents path, d)

/-- Make the folder at a path, and those on the way to it. -/
def makeFolders (d : Disk) (path : String) : Except DiskFault Unit × Disk :=
  let (out, d) := d.access
  if out then (.error .outage, d)
  else
    match d.start path with
    | .ok folder => d.build folder (Path.names path)
    | .error fault => (.error fault, d)

/-- Write a text file, over a file that is there. -/
def write (d : Disk) (path content : String) : Except DiskFault Unit × Disk :=
  let (out, d) := d.access
  if out then (.error .outage, d)
  else
    match d.spot path with
    | .error fault => (.error fault, d)
    | .ok spot =>
        if d.nodes spot = some .folder then (.error .isFolder, d)
        else (.ok (), d.place spot (some (.text content)))

/-- Move the file at a path over what is at another, unless that is a folder. -/
def rename (d : Disk) (source target : String) : Except DiskFault Unit × Disk :=
  let (out, d) := d.access
  if out then (.error .outage, d)
  else
    match d.spot source, d.spot target with
    | .error fault, _ => (.error fault, d)
    | _, .error fault => (.error fault, d)
    | .ok old, .ok new =>
        match d.nodes old with
        | none => (.error .missing, d)
        | some node =>
            if node = .folder ∨ d.nodes new = some .folder then (.error .isFolder, d)
            else (.ok (), (d.place old none).place new (some node))

/-- Remove the file at a path. -/
def remove (d : Disk) (path : String) : Except DiskFault Unit × Disk :=
  let (out, d) := d.access
  if out then (.error .outage, d)
  else
    match d.spot path with
    | .error fault => (.error fault, d)
    | .ok spot =>
        match d.nodes spot with
        | none => (.error .missing, d)
        | some .folder => (.error .isFolder, d)
        | some _ => (.ok (), d.place spot none)

theorem foldersIn_access (d : Disk) : d.FoldersIn d.access.2 := ⟨rfl, fun _ h => h⟩

theorem access_foldersIn (d : Disk) : d.access.2.FoldersIn d := ⟨rfl, fun _ h => h⟩

/-- An outage moves no place. -/
theorem spot_access {d : Disk} {path : String} {place : List String} :
    d.access.2.spot path = .ok place ↔ d.spot path = .ok place :=
  ⟨spot_mono d.access_foldersIn, spot_mono d.foldersIn_access⟩

/-- What has been written is read. -/
theorem contents_write {d e : Disk} {path content : String}
    (h : d.write path content = (.ok (), e)) : e.contents path = .ok content := by
  simp only [write] at h
  split at h
  · cases h
  · split at h
    · cases h
    · rename_i spot hs
      split at h
      · cases h
      · rename_i hf
        cases h
        exact contents_eq_ok_iff.mpr
          ⟨spot, spot_mono (foldersIn_place _ spot (some (.text content)) hf) hs, by simp⟩

/-- A text that has been moved is read at its new path. -/
theorem contents_rename {d e : Disk} {source target content : String}
    (hc : d.contents source = .ok content) (h : d.rename source target = (.ok (), e)) :
    e.contents target = .ok content := by
  obtain ⟨place, hplace, hnode⟩ := contents_eq_ok_iff.mp hc
  simp only [rename] at h
  split at h
  · cases h
  · split at h
    · cases h
    · cases h
    · rename_i old new hold hnew
      obtain rfl : place = old := by
        have := spot_access.mpr hplace
        simpa [this] using hold
      have hold : d.access.2.nodes place = some (.text content) := hnode
      simp only [hold] at h
      split at h
      · cases h
      · rename_i hf
        have hfrom : d.access.2.FoldersIn (d.access.2.place place none) :=
          foldersIn_place _ _ _ (by simp [hold])
        have hto : (d.access.2.place place none).nodes new ≠ some .folder := by
          simp only [nodes_place]
          split
          · simp
          · exact fun e => hf (Or.inr e)
        cases h
        exact contents_eq_ok_iff.mpr
          ⟨new, spot_mono (foldersIn_place _ _ _ hto) (spot_mono hfrom hnew), by simp⟩

end AccountRoster.Disk
