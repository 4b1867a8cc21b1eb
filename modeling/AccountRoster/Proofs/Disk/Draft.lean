import AccountRoster.Backend.Keyfile
import AccountRoster.Proofs.Disk

/-!
# Files beside others

A text is first written to a draft beside the file that it is for. The draft never
stands at the place of that file, because the last name of a place is the last name of
the path that leads there. Whatever happens to the draft, the file stays as it is, and
so does what its path means as long as no folder goes.

## Implementation notes

`Leaves touched` compares two disks at every place that may not be touched. Folders that
were made on the way to a file are the only other difference that it allows, so that
failed and unfinished writes are followed access by access. For a draft, what is touched
is told by the last name; for a file of somebody else it is told by where paths lead.
-/

namespace AccountRoster

namespace Path

/-- The names of a path, cut at its last slash. -/
theorem getLast?_segments (cs : List Char) :
    (segments cs).getLast? = some (cs.reverse.takeWhile fun c => c != '/').reverse := by
  have hsplit := List.takeWhile_append_dropWhile (p := fun c => c != '/') (l := cs.reverse)
  have hname : '/' ∉ (cs.reverse.takeWhile fun c => c != '/').reverse := by
    intro hmem
    have hall := List.all_takeWhile (p := fun c => c != '/') (l := cs.reverse)
    have hslash := List.all_eq_true.mp hall '/' (List.mem_reverse.mp hmem)
    exact absurd hslash (by decide)
  have hcs : cs = (cs.reverse.dropWhile fun c => c != '/').reverse ++
      (cs.reverse.takeWhile fun c => c != '/').reverse := by
    rw [← List.reverse_append, hsplit, List.reverse_reverse]
  cases hrest : cs.reverse.dropWhile fun c => c != '/' with
  | nil =>
      rw [hrest, List.reverse_nil, List.nil_append] at hcs
      rw [← hcs] at hname ⊢
      rw [segments_of_not_mem hname, List.getLast?_singleton]
  | cons c before =>
      obtain rfl : c = '/' := by
        have hhead := List.head?_dropWhile_not (fun c => c != '/') cs.reverse
        rw [hrest] at hhead
        simpa using hhead
      rw [hrest, List.reverse_cons, List.append_assoc, List.singleton_append] at hcs
      calc
        (segments cs).getLast? = (segments (before.reverse ++ '/' ::
            (cs.reverse.takeWhile fun c => c != '/').reverse)).getLast? := by rw [← hcs]
        _ = some (cs.reverse.takeWhile fun c => c != '/').reverse := by
            rw [segments_append_slash, segments_of_not_mem hname, List.getLast?_concat]

theorem last_eq (path : String) :
    last path = String.ofList (path.toList.reverse.takeWhile fun c => c != '/').reverse := by
  rw [last, names, List.getLast?_map, getLast?_segments]
  rfl

/-- What follows the last slash is the last name. -/
theorem last_append_slash (folder : String) {name : String} (h : '/' ∉ name.toList) :
    last (folder ++ "/" ++ name) = name := by
  rw [last, names, String.toList_append, String.toList_append]
  change (List.map String.ofList (segments ((folder.toList ++ ['/']) ++ name.toList))).getLast?.getD
    "" = name
  rw [List.append_assoc, List.singleton_append, segments_append_slash, segments_of_not_mem h,
    List.map_append, List.map_singleton, List.getLast?_concat, Option.getD_some,
    String.ofList_toList]

theorem last_of_not_mem {name : String} (h : '/' ∉ name.toList) : last name = name := by
  rw [last, names, segments_of_not_mem h, List.map_singleton, List.getLast?_singleton,
    Option.getD_some, String.ofList_toList]

/-- A name that is joined to a folder is the last one. -/
theorem last_join (folder : String) {name : String} (h : '/' ∉ name.toList) :
    last (join folder name) = name := by
  have hslash := last_append_slash folder h
  unfold join
  split
  next hempty =>
    have hfolder : folder = "" := by simpa using hempty
    rw [hfolder, String.empty_append, last_of_not_mem h]
  next hlast =>
    obtain ⟨before, hbefore⟩ := List.getLast?_eq_some_iff.mp hlast
    have hfolder : folder = String.ofList before ++ "/" := by
      apply String.toList_injective
      rw [hbefore, String.toList_append, String.toList_ofList]
      rfl
    rw [hfolder, last_append_slash _ h]
  next => exact hslash

/-- A path that ends in a plain name means the file of that name. -/
theorem fileName?_eq_some_last {path : String} (h : isPlain (last path) = true) :
    fileName? path = some (last path) := by
  have htrim : trim path.toList.reverse = path.toList.reverse := by
    unfold trim
    split
    next rest hpath =>
      rw [last_eq, hpath, List.takeWhile_cons_of_neg (by decide)] at h
      exact absurd h (by decide)
    next rest hpath =>
      rw [last_eq, hpath, List.takeWhile_cons_of_pos (by decide),
        List.takeWhile_cons_of_neg (by decide)] at h
      exact absurd h (by decide)
    next => rfl
  rw [fileName?, htrim, cut, ← last_eq, if_pos h]

/-- The name at the end of a draft is longer than the one of the file. -/
theorem last_beside_ne {path : String} (h : isPlain (last path) = true) :
    last (beside path ".tmp") ≠ last path := by
  have hslash : '/' ∉ (last path ++ ".tmp").toList := by
    rw [String.toList_append, List.mem_append, last_eq, String.toList_ofList, List.mem_reverse]
    rintro (hmem | hmem)
    · have hall := List.all_takeWhile (p := fun c => c != '/') (l := path.toList.reverse)
      exact absurd (List.all_eq_true.mp hall '/' hmem) (by decide)
    · exact absurd hmem (by decide)
  rw [beside, fileName?_eq_some_last h]
  dsimp only
  rw [last_join _ hslash]
  intro heq
  have hlength := congrArg (fun s : String => s.toList.length) heq
  simp at hlength

end Path

namespace Disk

variable {d e f : Disk} {path name : String} {spot : List String}

/-- The place of a file ends in the last name of its path, which is plain. -/
theorem last_of_spot (h : d.spot path = .ok spot) :
    spot.getLast? = some (Path.last path) ∧ Path.isPlain (Path.last path) = true := by
  unfold Disk.spot at h
  split at h
  next found hsite =>
    cases h
    unfold site at hsite
    split at hsite
    next => cases hsite
    split at hsite
    next => cases hsite
    next folder _ =>
      split at hsite
      next hplain =>
        unfold entry at hsite
        split at hsite
        next => cases hsite
        next =>
          cases hsite
          exact ⟨List.getLast?_concat, hplain⟩
      next => cases hsite
  next => cases h
  next => cases h

theorem FoldersIn.trans (h : d.FoldersIn e) (h' : e.FoldersIn f) : d.FoldersIn f :=
  ⟨h.1.trans h'.1, fun place hfolder => h'.2 place (h.2 place hfolder)⟩

/-- Wherever a path leads once more folders are there, that place may be touched. -/
def LeadsInto (touched : List String → Prop) (path : String) (d : Disk) : Prop :=
  ∀ e, d.FoldersIn e → ∀ spot, e.spot path = .ok spot → touched spot

namespace LeadsInto

variable {touched : List String → Prop}

theorem mono (h : d.LeadsInto touched path) (hfolders : d.FoldersIn e) :
    e.LeadsInto touched path :=
  fun f hf => h f (hfolders.trans hf)

/-- A path that leads to a place goes on leading there. -/
theorem of_spot (hspot : d.spot path = .ok spot) (htouched : touched spot) :
    d.LeadsInto touched path := by
  intro e hfolders other hother
  obtain rfl : spot = other := Except.ok.inj ((spot_mono hfolders hspot).symm.trans hother)
  exact htouched

end LeadsInto

/-- Whether a place has a given name. -/
def Named (name : String) (place : List String) : Prop := place.getLast? = some name

theorem leadsInto_named (d : Disk) (path : String) : d.LeadsInto (Named (Path.last path)) path :=
  fun _ _ _ hspot => (last_of_spot hspot).1

/-- What is at a place that may not be touched is what was there, or a folder where
nothing was; no folder is gone. -/
structure Leaves (touched : List String → Prop) (d e : Disk) : Prop where
  folders : d.FoldersIn e
  nodes : ∀ place, ¬touched place →
    e.nodes place = d.nodes place ∨ (d.nodes place = none ∧ e.nodes place = some .folder)

/-- Nothing is where a missing folder is looked for. -/
theorem nodes_of_enter_missing {folder : List String}
    (h : d.enter folder name = .error .missing) : d.nodes (folder ++ [name]) = none := by
  unfold enter entry at h
  split at h
  next => cases h
  split at h
  next =>
    split at h
    next hlong =>
      split at hlong
      · cases hlong
        cases h
      · cases hlong
    next spot hentry =>
      split at hentry
      next => cases hentry
      next =>
        cases hentry
        split at h
        next => cases h
        next => cases h
        next hnone => exact hnone
  next => cases h

namespace Leaves

variable {touched : List String → Prop}

theorem refl (touched : List String → Prop) (d : Disk) : Leaves touched d d :=
  ⟨⟨rfl, fun _ h => h⟩, fun _ _ => Or.inl rfl⟩

theorem trans (h : Leaves touched d e) (h' : Leaves touched e f) : Leaves touched d f where
  folders := h.folders.trans h'.folders
  nodes := by
    intro place hplace
    rcases h.nodes place hplace with hsame | ⟨hnone, hfolder⟩
    · rw [← hsame]
      exact h'.nodes place hplace
    · exact Or.inr ⟨hnone, h'.folders.2 place hfolder⟩

theorem access (touched : List String → Prop) (d : Disk) : Leaves touched d d.access.2 :=
  ⟨d.foldersIn_access, fun _ _ => Or.inl rfl⟩

/-- Something is put where no folder is, at a place that may be touched. -/
theorem place (hfolder : d.nodes spot ≠ some .folder) (hspot : touched spot)
    (node : Option Node) : Leaves touched d (d.place spot node) := by
  refine ⟨foldersIn_place d spot node hfolder, fun other hother => Or.inl ?_⟩
  have hne : other ≠ spot := by
    rintro rfl
    exact hother hspot
  rw [nodes_place, if_neg hne]

/-- A folder is made where nothing was. -/
theorem makeFolder (touched : List String → Prop) (hnone : d.nodes spot = none) :
    Leaves touched d (d.place spot (some .folder)) := by
  refine ⟨foldersIn_place d spot _ (by simp [hnone]), fun other _ => ?_⟩
  by_cases heq : other = spot
  · subst heq
    exact Or.inr ⟨hnone, if_pos rfl⟩
  · exact Or.inl (if_neg heq)

theorem build (touched : List String → Prop) (d : Disk) (folder names : List String) :
    Leaves touched d (d.build folder names).2 := by
  induction names generalizing d folder with
  | nil => exact refl touched d
  | cons next more ih =>
      unfold Disk.build
      split
      next => exact ih _ _
      next hmissing =>
        refine (makeFolder touched (nodes_of_enter_missing hmissing)).trans (ih _ _)
      next => exact refl touched d

theorem makeFolders (touched : List String → Prop) (d : Disk) (path : String) :
    Leaves touched d (d.makeFolders path).2 := by
  have haccess := access touched d
  unfold Disk.makeFolders
  split
  next out d' heq =>
    rw [heq] at haccess
    split
    next => exact haccess
    next =>
      split
      next => exact haccess.trans (build touched _ _ _)
      next => exact haccess

section Accesses

variable {source target : String}

theorem write (hpath : d.LeadsInto touched path) (content : String) :
    Leaves touched d (d.write path content).2 := by
  have haccess := access touched d
  unfold Disk.write
  split
  next out d' heq =>
    obtain rfl : d.access.2 = d' := congrArg Prod.snd heq
    split
    next => exact haccess
    split
    next => exact haccess
    next spot hspot =>
      split
      next => exact haccess
      next hfolder => exact haccess.trans (place hfolder (hpath _ haccess.folders spot hspot) _)

theorem remove (hpath : d.LeadsInto touched path) : Leaves touched d (d.remove path).2 := by
  have haccess := access touched d
  unfold Disk.remove
  split
  next out d' heq =>
    obtain rfl : d.access.2 = d' := congrArg Prod.snd heq
    split
    next => exact haccess
    split
    next => exact haccess
    next spot hspot =>
      split
      next => exact haccess
      next => exact haccess
      next node hfile hnode =>
        refine haccess.trans (place ?_ (hpath _ haccess.folders spot hspot) _)
        rw [hnode]
        exact fun hfolder => hfile (Option.some_inj.mp hfolder)

/-- A rename that fails moves nothing. -/
theorem rename_failed (touched : List String → Prop) {fault : DiskFault}
    (h : d.rename source target = (.error fault, e)) : Leaves touched d e := by
  have haccess := access touched d
  unfold Disk.rename at h
  split at h
  next out d' heq =>
    rw [heq] at haccess
    split at h
    next =>
      cases h
      exact haccess
    split at h
    next =>
      cases h
      exact haccess
    next =>
      cases h
      exact haccess
    next =>
      split at h
      next =>
        cases h
        exact haccess
      next =>
        split at h
        next =>
          cases h
          exact haccess
        next => cases h

theorem rename (hsource : d.LeadsInto touched source) (htarget : d.LeadsInto touched target)
    (h : d.rename source target = (.ok (), e)) : Leaves touched d e := by
  have haccess := access touched d
  unfold Disk.rename at h
  split at h
  next out d' heq =>
    obtain rfl : d.access.2 = d' := congrArg Prod.snd heq
    split at h
    next => cases h
    split at h
    next => cases h
    next => cases h
    next old new hold hnew =>
      split at h
      next => cases h
      next node hnode =>
        split at h
        next => cases h
        next hfiles =>
          cases h
          obtain ⟨hfile, hfolder⟩ := not_or.mp hfiles
          have hgone : Leaves touched d.access.2 (d.access.2.place old none) :=
            place (by simpa [hnode] using hfile) (hsource _ haccess.folders old hold) none
          refine (haccess.trans hgone).trans (place ?_ (htarget _ haccess.folders new hnew) _)
          rw [nodes_place]
          split
          · exact nofun
          · exact hfolder

end Accesses

/-- A text at a place that may not be touched is still what its path holds. -/
theorem kept (h : Leaves touched d e) (hpath : ∀ spot, d.spot path = .ok spot → ¬touched spot)
    {text : String} (htext : d.contents path = .ok text) : e.contents path = .ok text := by
  obtain ⟨spot, hspot, hnode⟩ := contents_eq_ok_iff.mp htext
  refine contents_eq_ok_iff.mpr ⟨spot, spot_mono h.folders hspot, ?_⟩
  rcases h.nodes spot (hpath spot hspot) with hsame | ⟨hnone, -⟩
  · rw [hsame, hnode]
  · rw [hnone] at hnode
    cases hnode

end Leaves

/-- The text at a path is the one that it was, and a text that is there now was there
already, at the place that the path leads to now. -/
structure Intact (path : String) (d e : Disk) : Prop where
  kept : ∀ text, d.contents path = .ok text → e.contents path = .ok text
  found : ∀ text, e.contents path = .ok text →
    ∃ spot, e.spot path = .ok spot ∧ d.nodes spot = some (.text text)

/-- No place of a file has the name of a file beside it. -/
theorem not_named_beside (hspot : d.spot path = .ok spot) :
    ¬Named (Path.last (Path.beside path ".tmp")) spot := by
  obtain ⟨hlast, hplain⟩ := last_of_spot hspot
  rw [Named, hlast]
  exact fun heq => Path.last_beside_ne hplain (Option.some_inj.mp heq).symm

/-- What is done to a file beside another leaves the other intact. -/
theorem Leaves.intact (h : Leaves (Named (Path.last (Path.beside path ".tmp"))) d e) :
    Intact path d e where
  kept _ htext := h.kept (fun _ hspot => not_named_beside hspot) htext
  found := by
    intro text htext
    obtain ⟨spot, hspot, hnode⟩ := contents_eq_ok_iff.mp htext
    refine ⟨spot, hspot, ?_⟩
    rcases h.nodes spot (not_named_beside hspot) with hsame | ⟨-, hfolder⟩
    · rw [← hsame, hnode]
    · rw [hfolder] at hnode
      cases hnode

end Disk

namespace KeyfileStore

variable {d e : Disk} {path content : String} {fault : RosterError} {touched : List String → Prop}

/-- A text that cannot take the place of a file touches the draft at most. -/
theorem leaves_of_replace (hdraft : d.LeadsInto touched (draftPath path))
    (h : replace path content d = (.error fault, e)) : Disk.Leaves touched d e := by
  have hwrite := Disk.Leaves.write hdraft content
  unfold replace at h
  split at h
  next failed heq =>
    rw [heq] at hwrite
    cases h
    exact hwrite
  next written heq =>
    rw [heq] at hwrite
    split at h
    next => cases h
    next hrename =>
      cases h
      have hmoved := hwrite.trans (Disk.Leaves.rename_failed touched hrename)
      exact hmoved.trans (Disk.Leaves.remove (hdraft.mono hmoved.folders))

theorem intact_of_writeFile (h : writeFile path content d = (.error fault, e)) :
    Disk.Intact path d e := by
  apply Disk.Leaves.intact
  have hdraft (f : Disk) := f.leadsInto_named (draftPath path)
  unfold writeFile at h
  split at h
  next => exact leaves_of_replace (hdraft d) h
  next folder _ =>
    have hfolders := Disk.Leaves.makeFolders (Disk.Named (Path.last (draftPath path))) d folder
    split at h
    next heq =>
      rw [heq] at hfolders
      cases h
      exact hfolders
    next heq =>
      rw [heq] at hfolders
      exact hfolders.trans (leaves_of_replace (hdraft _) h)

/-- Whether or not a text takes the place of a file, the file and its draft are all that
is touched. -/
theorem leaves_replace (hpath : d.LeadsInto touched path)
    (hdraft : d.LeadsInto touched (draftPath path)) (content : String) :
    Disk.Leaves touched d (replace path content d).2 := by
  cases h : replace path content d with
  | mk answer e =>
      cases answer with
      | error fault => exact leaves_of_replace hdraft h
      | ok _ =>
          have hwrite := Disk.Leaves.write hdraft content
          unfold replace at h
          split at h
          next => cases h
          next written heq =>
            rw [heq] at hwrite
            split at h
            next hrename =>
              cases h
              exact hwrite.trans (Disk.Leaves.rename (hdraft.mono hwrite.folders)
                (hpath.mono hwrite.folders) hrename)
            next => cases h

theorem leaves_writeFile (hpath : d.LeadsInto touched path)
    (hdraft : d.LeadsInto touched (draftPath path)) (content : String) :
    Disk.Leaves touched d (writeFile path content d).2 := by
  unfold writeFile
  split
  next => exact leaves_replace hpath hdraft content
  next folder _ =>
    have hfolders := Disk.Leaves.makeFolders touched d folder
    split
    next heq =>
      rw [heq] at hfolders
      exact hfolders
    next heq =>
      rw [heq] at hfolders
      exact hfolders.trans
        (leaves_replace (hpath.mono hfolders.folders) (hdraft.mono hfolders.folders) content)

end KeyfileStore

end AccountRoster
