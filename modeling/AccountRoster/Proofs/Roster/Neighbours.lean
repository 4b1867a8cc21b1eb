import AccountRoster.Proofs.Backend.DirtyMark
import AccountRoster.Proofs.Roster.Coupling
import AccountRoster.Proofs.Roster.Custody
import AccountRoster.Proofs.Roster.LoadedKeyfiles

/-!
# Backends beside a key-file

The built-in backends leave the store of a key-file alone and push only what they are asked
for. Further key-files share the disk with it. Neither their files nor the drafts of these
may stand at the place of its own file, and then what its path holds is left alone, too.

## Implementation notes

Where a path leads depends on the disk, so that a key-file does not spare the file of
another in just any world. `World.SparesFile` therefore compares two worlds for as long as
something is true. For key-files this is `World.Apart`, which every one of them keeps true,
as no folder ever goes.
-/

namespace AccountRoster

variable {ε : Type}

/-- As long as something is true of the world, it stays true, and what a path holds stays
the same. -/
def World.SparesFile (J : World ε → Prop) (path : String) (w w' : World ε) : Prop :=
  J w → J w' ∧ w'.disk.contents path = w.disk.contents path

theorem World.sparesFile_refl (J : World ε → Prop) (path : String) (w : World ε) :
    World.SparesFile J path w w :=
  fun hJ => ⟨hJ, rfl⟩

/-! ### Plugins that spare a key-file -/

theorem KeyfileStore.spares_of_ne {slot other : Nat} (h : slot ≠ other) :
    (KeyfileStore.plugin ε other).Spares slot :=
  fun _ => KeyfileStore.keeps_of_visits fun w _ hw => (w.keyfiles_afterKeyfile_of_ne h _).trans hw

theorem MemoryStore.spares (slot other : Nat) (settings : MemorySettings) :
    (MemoryStore.plugin ε other settings).Spares slot :=
  fun _ => MemoryStore.keeps (fun _ _ _ h => h) other settings

/-- To push only what it is asked for is all that is expected of a plugin that leaves the
key-file alone. -/
theorem Plugin.Spares.tame_of_pushesOwn {plugin : Plugin (World ε)} {slot : Nat}
    (h : plugin.Spares slot) (hown : plugin.PushesOwn) (codec : Codec)
    (R : Record → Dict String → Prop) : plugin.Tame codec slot R fun _ _ => True where
  spares := h
  keeps _ := by constructor <;> intros <;> trivial
  pushes c account key w push hpush := Or.inl (hown c account key w push hpush)

/-! ### What a call on a store leaves -/

namespace KeyfileStore

variable {s : KeyfileStore} {d : Disk} {call : StoreCall} {touched : List String → Prop}

/-- Unless it is a commit, a call accesses the disk at most. -/
theorem ask_of_ne_commit (s : KeyfileStore) (d : Disk) (hcall : call ≠ .commit) :
    (s.ask d call).store.path = s.path ∧
      ((s.ask d call).disk = d ∨ (s.ask d call).disk = d.access.2) := by
  have hasked {t : KeyfileStore} (hloaded : t.loaded = true) (e : Disk) :
      (t.ask e call).store.path = t.path ∧ (t.ask e call).disk = e := by
    obtain ⟨hdisk, hstore⟩ := ask_of_loaded hloaded e hcall
    rw [hstore]
    exact ⟨(amendAll t _).2.2, hdisk⟩
  cases hloaded : s.loaded with
  | true =>
      obtain ⟨hpath, hdisk⟩ := hasked hloaded d
      exact ⟨hpath, Or.inl hdisk⟩
  | false =>
      rcases ensureLoaded_cases hloaded d with ⟨file, -, hensure⟩ | ⟨fault, -, hensure⟩
      · rw [ask_of_ensureLoaded hensure hcall]
        obtain ⟨hpath, hdisk⟩ := hasked (loaded_of_ensureLoaded hensure) d.access.2
        exact ⟨hpath, Or.inr hdisk⟩
      · rw [ask_of_unreadable hensure hcall]
        exact ⟨rfl, Or.inr rfl⟩

theorem path_ask (s : KeyfileStore) (d : Disk) (call : StoreCall) :
    (s.ask d call).store.path = s.path := by
  by_cases hcall : call = .commit
  · subst hcall
    change (s.commit d).store.path = s.path
    rcases s.commit_store d with heq | heq <;> rw [heq]
  · exact (s.ask_of_ne_commit d hcall).1

/-- A call touches the file of its store and the draft of that file. -/
theorem leaves_ask (hpath : d.LeadsInto touched s.path)
    (hdraft : d.LeadsInto touched (draftPath s.path)) (call : StoreCall) :
    Disk.Leaves touched d (s.ask d call).disk := by
  by_cases hcall : call = .commit
  · subst hcall
    change Disk.Leaves touched d (s.commit d).disk
    have hwrite := leaves_writeFile hpath hdraft s.file.toData
    unfold commit
    split
    next => exact Disk.Leaves.refl touched d
    next =>
      split
      next heq =>
        rw [heq] at hwrite
        exact hwrite
      next heq =>
        rw [heq] at hwrite
        exact hwrite
  · rcases (s.ask_of_ne_commit d hcall).2 with heq | heq
    · rw [heq]
      exact Disk.Leaves.refl touched d
    · rw [heq]
      exact Disk.Leaves.access touched d

theorem foldersIn_ask (s : KeyfileStore) (d : Disk) (call : StoreCall) :
    d.FoldersIn (s.ask d call).disk := by
  have hanywhere (path : String) : d.LeadsInto (fun _ => True) path := fun _ _ _ _ => trivial
  exact (leaves_ask (hanywhere s.path) (hanywhere _) call).folders

/-- Where a text is, there is one after a call. -/
theorem exists_text_ask {text : String} (htext : d.contents s.path = .ok text)
    (call : StoreCall) : ∃ later, (s.ask d call).disk.contents s.path = .ok later := by
  by_cases hcall : call = .commit
  · subst hcall
    change ∃ later, (s.commit d).disk.contents s.path = .ok later
    rcases s.commit_cases d with
      ⟨-, hcommit⟩ | ⟨-, -, ⟨e, hcommit, hwritten⟩ | ⟨fault, e, hcommit, hintact⟩⟩
    · rw [hcommit]
      exact ⟨text, htext⟩
    · rw [hcommit]
      exact ⟨s.file.toData, hwritten⟩
    · rw [hcommit]
      exact ⟨text, hintact.kept text htext⟩
  · refine ⟨text, ?_⟩
    rcases (s.ask_of_ne_commit d hcall).2 with heq | heq
    · rw [heq, htext]
    · rw [heq, Disk.contents_access, htext]

end KeyfileStore

/-! ### Files at other places -/

/-- Neither a file nor its draft comes to stand where a path leads. -/
def Disk.Apart (path other : String) (d : Disk) : Prop :=
  ∀ place, d.spot path = .ok place → d.LeadsInto (fun spot => spot ≠ place) other ∧
    d.LeadsInto (fun spot => spot ≠ place) (KeyfileStore.draftPath other)

/-- Files whose places are known are apart if the places differ. -/
theorem Disk.apart_of_spot {path other : String} {d : Disk} {place spot draft : List String}
    (hpath : d.spot path = .ok place) (hother : d.spot other = .ok spot)
    (hdraft : d.spot (KeyfileStore.draftPath other) = .ok draft) (hspot : spot ≠ place)
    (hbeside : draft ≠ place) : d.Apart path other := by
  intro found hfound
  obtain rfl : place = found := Except.ok.inj (hpath.symm.trans hfound)
  exact ⟨LeadsInto.of_spot hother hspot, LeadsInto.of_spot hdraft hbeside⟩

/-- The store in a slot has a file with a text in it, and the files of other stores are
apart from that one. -/
structure World.Apart (path : String) (slot : Nat) (others : Nat → Prop) (w : World ε) :
    Prop where
  path_eq : (w.keyfiles slot).path = path
  text : ∃ text, w.disk.contents path = .ok text
  apart : ∀ other, others other → w.disk.Apart path (w.keyfiles other).path

theorem World.path_keyfiles_visit (slot other : Nat) (call : StoreCall) (w : World ε) :
    ((w.visit slot call).keyfiles other).path = (w.keyfiles other).path := by
  by_cases heq : other = slot
  · subst heq
    rw [World.keyfiles_visit, KeyfileStore.path_ask]
  · rw [World.visit, w.keyfiles_afterKeyfile_of_ne heq]

namespace World.Apart

variable {path : String} {slot other : Nat} {others : Nat → Prop} {w : World ε}

/-- Files stay apart in a call on any store that leaves a text where one was. -/
theorem visit_of_text (h : World.Apart path slot others w) {called : Nat} {call : StoreCall}
    (htext : ∃ text, (w.visit called call).disk.contents path = .ok text) :
    World.Apart path slot others (w.visit called call) where
  path_eq := by rw [World.path_keyfiles_visit, h.path_eq]
  text := htext
  apart := by
    intro other hother place hplace
    have hfolders := (w.keyfiles called).foldersIn_ask w.disk call
    obtain ⟨text, hfound⟩ := h.text
    obtain ⟨found, hspot, -⟩ := Disk.contents_eq_ok_iff.mp hfound
    obtain rfl : found = place :=
      Except.ok.inj ((Disk.spot_mono hfolders hspot).symm.trans hplace)
    obtain ⟨hpath, hdraft⟩ := h.apart other hother found hspot
    rw [World.path_keyfiles_visit]
    exact ⟨hpath.mono hfolders, hdraft.mono hfolders⟩

theorem visit_self (h : World.Apart path slot others w) (call : StoreCall) :
    World.Apart path slot others (w.visit slot call) := by
  obtain ⟨text, htext⟩ := h.text
  rw [← h.path_eq] at htext
  have hlater := KeyfileStore.exists_text_ask htext call
  rw [h.path_eq] at hlater
  exact h.visit_of_text hlater

/-- A call on a store whose file is apart leaves what the path holds. -/
theorem contents_visit (h : World.Apart path slot others w) (hother : others other)
    (call : StoreCall) : (w.visit other call).disk.contents path = w.disk.contents path := by
  obtain ⟨text, htext⟩ := h.text
  obtain ⟨place, hplace, -⟩ := Disk.contents_eq_ok_iff.mp htext
  obtain ⟨hpath, hdraft⟩ := h.apart other hother place hplace
  have hleaves := KeyfileStore.leaves_ask hpath hdraft call
  have hkept : (w.visit other call).disk.contents path = .ok text := by
    refine hleaves.kept (fun spot hspot => not_not.mpr ?_) htext
    exact Except.ok.inj (hspot.symm.trans hplace)
  rw [hkept, htext]

theorem visit_other (h : World.Apart path slot others w) (hother : others other)
    (call : StoreCall) : World.Apart path slot others (w.visit other call) := by
  refine h.visit_of_text ?_
  rw [h.contents_visit hother]
  exact h.text

end World.Apart

section Backends

variable {path : String} {slot other : Nat} {others : Nat → Prop}

/-- A key-file keeps the files of others apart from its own. -/
theorem KeyfileStore.keeps_apart :
    (KeyfileStore.plugin ε slot).Keeps (World.Apart path slot others) :=
  KeyfileStore.keeps_of_visits fun _ call hw => hw.visit_self call

/-- A further key-file is tame if its file is apart. -/
theorem KeyfileStore.tame_of_apart (hne : slot ≠ other) (hother : others other) (codec : Codec)
    (R : Record → Dict String → Prop) : (KeyfileStore.plugin ε other).Tame codec slot R
      (World.SparesFile (World.Apart path slot others) path) where
  spares := KeyfileStore.spares_of_ne hne
  keeps w := by
    refine KeyfileStore.keeps_of_visits fun w' call hw hapart => ?_
    obtain ⟨hapart', hsame⟩ := hw hapart
    exact ⟨hapart'.visit_other hother call, (hapart'.contents_visit hother call).trans hsame⟩
  pushes c account key w push hpush :=
    Or.inl (KeyfileStore.pushesOwn ε other c account key w push hpush)

/-- An in-process store is tame, and does not touch the disk. -/
theorem MemoryStore.tame_of_apart (settings : MemorySettings) (codec : Codec)
    (R : Record → Dict String → Prop) : (MemoryStore.plugin ε other settings).Tame codec slot R
      (World.SparesFile (World.Apart path slot others) path) where
  spares := MemoryStore.spares slot other settings
  keeps w := by
    refine MemoryStore.keeps (fun w' n store hw hapart => ?_) other settings
    obtain ⟨hapart', hsame⟩ := hw hapart
    exact ⟨⟨hapart'.path_eq, hapart'.text, hapart'.apart⟩, hsame⟩
  pushes c account key w push hpush :=
    Or.inl (MemoryStore.pushesOwn ε other settings c account key w push hpush)

end Backends

end AccountRoster
