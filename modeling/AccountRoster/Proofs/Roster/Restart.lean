import AccountRoster.Proofs.Roster.Persistence

/-!
# What outlasts a restart

Edit a roster over a key-file, commit, and load the file in a new process. If
there was nothing to write, the new roster says what the old one said. Otherwise
the file was written and is read again, which settles every stored text: the new
roster says the same exactly if every text still reads as what was cached. It does
if the file was settled at first and all values that were written survive.

## Implementation notes

`Coherent.edit_cases` says once what an edit does to the world. From it follows by
induction that the disk is the one that was read at the start (`Edited`), and which
texts the file can hold (`MadeBy`).
-/

namespace AccountRoster

variable {ε : Type}

/-! ### What an edit does to the file -/

namespace Keyfile

variable {f : Keyfile} {account key text : String}

theorem value?_of_removeKey {group k : String}
    (h : (f.removeKey group k).2.value? account key = some text) :
    f.value? account key = some text := by
  rw [value?_removeKey] at h
  split at h
  · cases h
  · exact h

theorem value?_of_removeGroup {group : String}
    (h : (f.removeGroup group).2.value? account key = some text) :
    f.value? account key = some text := by
  rw [value?_removeGroup] at h
  split at h
  · cases h
  · exact h

/-- Every text after an update was there before, or the update wrote it. -/
theorem value?_updated_cases {codec : Codec} {u : Update}
    (h : (f.updated codec u).value? account key = some text) :
    f.value? account key = some text ∨ ∃ v, u.value = some v ∧ text = codec.escape v := by
  rw [updated] at h
  split at h
  next => exact Or.inl (value?_of_removeKey h)
  next v hv =>
    rcases setValue_cases f u.account u.key (codec.escape v) with heq | ⟨-, -, -, heq⟩
    · rw [heq] at h
      exact Or.inl h
    · rw [heq, value?_enter] at h
      split at h
      · cases h
        exact Or.inr ⟨v, hv, rfl⟩
      · exact Or.inl h

theorem separator_updated (f : Keyfile) (codec : Codec) (u : Update) :
    (f.updated codec u).separator = f.separator := by
  rw [updated]
  split
  · exact f.separator_removeKey u.account u.key
  · exact f.separator_setValue u.account u.key _

end Keyfile

/-- Whether a call writes a value that starts with a bare blank. -/
def Call.startsBare : Call → Bool
  | .setAttribute _ _ (some v) | .setParameter _ _ (some v) => v.startsBare
  | _ => false

/-- A file that a call made of another one: every text was there before, or it stands
for a value that survives if that of the call does. -/
structure Keyfile.MadeBy (codec : Codec) (call : Call) (f g : Keyfile) : Prop where
  separator_eq : g.separator = f.separator
  texts : ∀ account key text, g.value? account key = some text →
    f.value? account key = some text ∨
      ∃ v : Value, (call.startsBare = false → v.startsBare = false) ∧ text = codec.escape v

/-- An update by a call makes a file if its value survives with that of the call. -/
theorem Keyfile.madeBy_updated {codec : Codec} {call : Call} (f : Keyfile) {u : Update}
    (h : ∀ v, u.value = some v → call.startsBare = false → v.startsBare = false) :
    f.MadeBy codec call (f.updated codec u) where
  separator_eq := f.separator_updated codec u
  texts := by
    intro account key text htext
    rcases value?_updated_cases htext with hold | ⟨v, hv, heq⟩
    · exact Or.inl hold
    · exact Or.inr ⟨v, h v hv, heq⟩

/-- A call whose value survives makes a settled file of a settled one. -/
theorem Keyfile.MadeBy.settled {codec : Codec} {call : Call} {f g : Keyfile}
    (h : f.MadeBy codec call g) (hblank : Text.isBlank codec.separator = false)
    (hbare : call.startsBare = false) (hf : f.settled = f) : g.settled = g := by
  refine settled_eq_self_iff.mpr fun account key text htext => ?_
  rcases h.texts account key text htext with hold | ⟨v, hv, rfl⟩
  · exact settled_eq_self_iff.mp hf account key text hold
  · exact Codec.settle_escape hblank (hv hbare)

/-- A value that survives is coerced to one that does. -/
theorem Codec.startsBare_of_coerce {codec : Codec} (hblank : Text.isBlank codec.separator = false)
    {value v : Value} {type : ValueType} (h : codec.coerce value type = .ok v)
    (hbare : value.startsBare = false) : v.startsBare = false := by
  rw [coerce] at h
  split at h
  next =>
    cases h
    exact hbare
  next =>
    cases hv : v.startsBare with
    | false => rfl
    | true =>
        have hfront := startsBlank_of_unescape hblank h hv
        rw [startsBlank_escape hblank, hbare] at hfront
        exact absurd hfront Bool.false_ne_true

namespace Coherent

variable {codec : Codec} {slot : Nat} {identifier : Option (Identifier (World ε))}
  {s : Running (World ε)}

/-- An edit keeps to the store in memory, if it does anything. -/
theorem edit_cases (hblank : Text.isBlank codec.separator = false)
    (h : Coherent codec slot identifier s) {call : Call} (hedit : call.isEdit = true) :
    (s.perform call).world = s.world ∨
      ∃ file, Follows slot s.world (s.perform call).world file ∧
        (s.world.keyfiles slot).file.MadeBy codec call file := by
  cases call with
  | create provider manager protocol identification =>
      rcases h.create_cases provider manager protocol identification with
        heq | ⟨account, w, hname, hnew, hfollows, heq⟩
      · rw [Running.perform, heq]
        exact Or.inl rfl
      · rw [Running.perform, heq, (h.addCreated hname hnew hfollows).1]
        refine Or.inr ⟨_, hfollows, rfl, fun other key text htext => Or.inl ?_⟩
        rw [Keyfile.value?, Keyfile.entries_openGroup] at htext
        exact htext
  | createWithParameters => cases hedit
  | setAttribute account name value =>
      refine Roster.carryOut_keeps (P := fun t => t.world = s.world ∨ ∃ file,
        Follows slot s.world t.world file ∧ (s.world.keyfiles slot).file.MadeBy codec _ file)
        (Or.inl rfl) fun c u hplan => ?_
      obtain ⟨record, new, -, hrecord, hnew, rfl, rfl⟩ := Cache.planAttribute_eq_some hplan
      obtain ⟨entries, -, hmirrors⟩ := h.exists_entries hrecord
      have howner : (record.putAttribute name new).owner = 0 := hmirrors.owner
      have hfollows := h.dispatch_follows { account, key := name, value := new } howner
      refine Or.inr ⟨_, hfollows, Keyfile.madeBy_updated _ fun v hv hbare => ?_⟩
      cases hv
      obtain ⟨given, type, rfl, -, hcoerce⟩ := Cache.attributeValue_eq_some hnew
      rw [h.codec_eq] at hcoerce
      exact Codec.startsBare_of_coerce hblank hcoerce hbare
  | setParameter account name value =>
      refine Roster.carryOut_keeps (P := fun t => t.world = s.world ∨ ∃ file,
        Follows slot s.world t.world file ∧ (s.world.keyfiles slot).file.MadeBy codec _ file)
        (Or.inl rfl) fun c u hplan => ?_
      obtain ⟨record, hrecord, rfl, rfl⟩ := Cache.planParameter_eq_some hplan
      obtain ⟨entries, -, hmirrors⟩ := h.exists_entries hrecord
      have howner : (record.putTyped name value).owner = 0 := hmirrors.owner
      have hfollows := h.dispatch_follows
        { account, key := FlatKey.ofParameter name, value, secret := record.isSecret name } howner
      refine Or.inr ⟨_, hfollows, Keyfile.madeBy_updated _ fun v hv hbare => ?_⟩
      cases hv
      exact hbare
  | makeSecret account name => exact Or.inl rfl
  | delete account =>
      rcases h.delete_cases account with heq | ⟨w, hfollows, heq⟩
      · rw [Running.perform, heq]
        exact Or.inl rfl
      · rw [Running.perform, heq]
        refine Or.inr ⟨_, hfollows, Keyfile.separator_removeGroup _ account, ?_⟩
        exact fun _ _ _ htext => Or.inl (Keyfile.value?_of_removeGroup htext)
  | commit => cases hedit

end Coherent

/-- Since a store was loaded from a disk, nothing but edits happened to it. -/
structure Edited (slot : Nat) (store : KeyfileStore) (disk : Disk) (w : World ε) : Prop where
  disk_eq : w.disk = disk
  path_eq : (w.keyfiles slot).path = store.path
  separator_eq : (w.keyfiles slot).file.separator = store.file.separator
  eq_of_clean : (w.keyfiles slot).dirty = false → w.keyfiles slot = store

theorem Edited.follow {slot : Nat} {store : KeyfileStore} {disk : Disk} {w w' : World ε}
    (h : Edited slot store disk w) {file : Keyfile} (hfollows : Follows slot w w' file)
    (hseparator : file.separator = (w.keyfiles slot).file.separator) :
    Edited slot store disk w' where
  disk_eq := hfollows.disk.trans h.disk_eq
  path_eq := hfollows.store.path_eq.trans h.path_eq
  separator_eq := by
    rw [hfollows.store.file_eq, hseparator]
    exact h.separator_eq
  eq_of_clean := by
    intro hclean
    have hsame := hfollows.store.eq_of_dirty_eq_false hclean
    rw [hsame] at hclean ⊢
    exact h.eq_of_clean hclean

/-! ### Restarting -/

/-- After edits, cache and file agree, and the disk is the one that was read. -/
theorem edited_run {slot : Nat} {identifier : Option (Identifier (World ε))} {w : World ε}
    {path : String} {separator : Char} (hnew : w.keyfiles slot = KeyfileStore.new path separator)
    {file : Keyfile} {d : Disk}
    (hfile : (KeyfileStore.new path separator).readFile w.disk = (.ok file, d))
    {codec : Codec} (hfits : codec.FitsKeyfile) (hblank : Text.isBlank codec.separator = false)
    {start : Running (World ε)}
    (hstart : ((Roster.overKeyfile codec slot identifier).load w).running = start)
    (hcoherent : Coherent codec slot identifier start) {calls : List Call}
    (hedits : ∀ call ∈ calls, call.isEdit = true) :
    Coherent codec slot identifier (start.run calls) ∧
      Edited slot { KeyfileStore.new path separator with file, loaded := true } d
        (start.run calls).world := by
  have hworld : start.world = w.afterKeyfile slot (⟨.ok (),
      { KeyfileStore.new path separator with file, loaded := true }, d⟩ : StoreReply Unit) := by
    rw [← hstart, Roster.load_overKeyfile codec identifier hnew hfile]
    rfl
  have hedited : Edited slot { KeyfileStore.new path separator with file, loaded := true } d
      start.world := by
    rw [hworld]
    have hstore := w.keyfiles_afterKeyfile_self slot (⟨.ok (),
      { KeyfileStore.new path separator with file, loaded := true }, d⟩ : StoreReply Unit)
    exact ⟨rfl, by rw [hstore], by rw [hstore], fun _ => hstore⟩
  refine Running.run_keeps (P := fun s => Coherent codec slot identifier s ∧
    Edited slot { KeyfileStore.new path separator with file, loaded := true } d s.world)
    (fun call hcall s hs => ?_) ⟨hcoherent, hedited⟩
  refine ⟨hs.1.edit hfits (hedits call hcall), ?_⟩
  rcases hs.1.edit_cases hblank (hedits call hcall) with heq | ⟨file, hfollows, hmade⟩
  · rw [heq]
    exact hs.2
  · exact hs.2.follow hfollows hmade.separator_eq

/-- Edits with values that survive keep a file settled. -/
theorem settled_run {slot : Nat} {identifier : Option (Identifier (World ε))} {codec : Codec}
    (hfits : codec.FitsKeyfile) (hblank : Text.isBlank codec.separator = false)
    {start : Running (World ε)} (hcoherent : Coherent codec slot identifier start)
    (hsettled : (start.world.keyfiles slot).file.settled = (start.world.keyfiles slot).file)
    {calls : List Call} (hedits : ∀ call ∈ calls, call.isEdit = true)
    (hbare : ∀ call ∈ calls, call.startsBare = false) :
    ((start.run calls).world.keyfiles slot).file.settled =
      ((start.run calls).world.keyfiles slot).file := by
  have hrun : Coherent codec slot identifier (start.run calls) ∧
      ((start.run calls).world.keyfiles slot).file.settled =
        ((start.run calls).world.keyfiles slot).file := by
    refine Running.run_keeps (P := fun s => Coherent codec slot identifier s ∧
      (s.world.keyfiles slot).file.settled = (s.world.keyfiles slot).file)
      (fun call hcall s hs => ?_) ⟨hcoherent, hsettled⟩
    refine ⟨hs.1.edit hfits (hedits call hcall), ?_⟩
    rcases hs.1.edit_cases hblank (hedits call hcall) with heq | ⟨file, hfollows, hmade⟩
    · rw [heq]
      exact hs.2
    · rw [hfollows.store.file_eq]
      exact hmade.settled hblank (hbare call hcall) hs.2
  exact hrun.2

/-- After a commit the file in memory is read again, settled if it was written. -/
theorem Edited.read_again {slot : Nat} {w : World ε} {path : String} {separator : Char}
    {file : Keyfile} {first d : Disk}
    (h : Edited slot { KeyfileStore.new path separator with file, loaded := true } d w)
    (hfile : (KeyfileStore.new path separator).readFile first = (.ok file, d))
    (hseparator : file.separator = separator) (hloaded : (w.keyfiles slot).loaded = true)
    (hwell : (w.keyfiles slot).file.WellFormed)
    (hcommit : ((w.keyfiles slot).commit w.disk).answer = .ok true)
    (hcalm : ((w.keyfiles slot).commit w.disk).disk.access.1 = false) :
    ((KeyfileStore.new path separator).readFile ((w.keyfiles slot).commit w.disk).disk).1 =
      .ok (if (w.keyfiles slot).dirty then (w.keyfiles slot).file.settled
        else (w.keyfiles slot).file) := by
  cases hdirty : (w.keyfiles slot).dirty with
  | false =>
      -- nothing was written, so the disk still holds what was read at first
      have hsame : (w.keyfiles slot).file = file :=
        congrArg KeyfileStore.file (h.eq_of_clean hdirty)
      rw [KeyfileStore.commit_of_clean hdirty, h.disk_eq] at hcalm ⊢
      rw [KeyfileStore.readFile_again hfile hcalm, hsame]
      rfl
  | true =>
      have hpath : (w.keyfiles slot).path = path := h.path_eq
      have hsame : (w.keyfiles slot).file.separator = separator := h.separator_eq.trans hseparator
      have hcontents := KeyfileStore.contents_of_commit hloaded hdirty hcommit
      have hfileOf := KeyfileStore.fileOf_toData hwell path
      rw [hpath] at hcontents
      rw [hsame] at hfileOf
      rw [KeyfileStore.readFile_of_calm _ hcalm]
      change KeyfileStore.fileOf _ (Disk.contents _ path) = _
      rw [hcontents, hfileOf]
      rfl

/-- After edits and a commit a new roster loads, and it says what was cached exactly if
the texts that it reads do. -/
theorem Edited.load_again {slot : Nat} {identifier : Option (Identifier (World ε))} {codec : Codec}
    (hsafe : codec.Safe) {s : Running (World ε)} (hcoherent : Coherent codec slot identifier s)
    {path : String} {separator : Char} {file : Keyfile} {first d : Disk}
    (h : Edited slot { KeyfileStore.new path separator with file, loaded := true } d s.world)
    (hfile : (KeyfileStore.new path separator).readFile first = (.ok file, d))
    (hseparator : file.separator = separator) {fresh : World ε}
    (hfresh : fresh =
      (s.roster.commit none s.world).putKeyfile slot (KeyfileStore.new path separator))
    (hcommit : ((s.world.keyfiles slot).commit s.world.disk).answer = .ok true)
    (hcalm : fresh.disk.access.1 = false) :
    ((Roster.overKeyfile codec slot identifier).load fresh).answer = .ok () ∧
      (s.roster.cache.Persists
          ((Roster.overKeyfile codec slot identifier).load fresh).roster.cache ↔
        (s.world.keyfiles slot).dirty = false ∨
          ReadsAfter codec Keyfile.settle s.roster.cache (s.world.keyfiles slot).file) := by
  have hdisk : fresh.disk = ((s.world.keyfiles slot).commit s.world.disk).disk := by
    rw [hfresh]
    change (s.roster.commit none s.world).disk = _
    rw [Roster.commit, hcoherent.registry]
    rfl
  have hstore : fresh.keyfiles slot = KeyfileStore.new path separator := by
    rw [hfresh]
    exact World.keyfiles_putKeyfile_self _ slot _
  rw [hdisk] at hcalm
  have hagain := h.read_again hfile hseparator hcoherent.loaded hcoherent.wellFormed hcommit hcalm
  rw [← hdisk] at hagain
  have hloads := Roster.load_overKeyfile codec identifier hstore (Prod.ext hagain rfl)
  have hcache : ((Roster.overKeyfile codec slot identifier).load fresh).roster.cache =
      Cache.ofKeyfile codec 0 (if (s.world.keyfiles slot).dirty then
        (s.world.keyfiles slot).file.settled else (s.world.keyfiles slot).file) :=
    congrArg (fun reply => reply.roster.cache) hloads
  refine ⟨congrArg Reply.answer hloads, ?_⟩
  rw [hcache]
  cases (s.world.keyfiles slot).dirty with
  | false =>
      refine ⟨fun _ => Or.inl rfl, fun _ => ?_⟩
      refine (hcoherent.persists_iff id fun account => ?_).mpr (hcoherent.readsAfter_id hsafe)
      simp only [Dict.map_id, Option.map_id']
      rfl
  | true =>
      rw [if_pos rfl, hcoherent.persists_iff Keyfile.settle (Keyfile.get?_groups_settled _)]
      exact ⟨Or.inr, fun hor => hor.resolve_left (by decide)⟩

section DefaultSeparator

variable {slot : Nat} (identifier : Option (Identifier (World ε))) {w : World ε} {path : String}
  {separator : Char}

/-- Load a key-file that is missing or can be read, make edits, and commit them to
the disk without a failure. A new roster over the same path loads, and it says what
was cached exactly if there was nothing to write, or every stored text reads as what
is cached after it was settled. -/
theorem restart_persists_iff (hnew : w.keyfiles slot = KeyfileStore.new path separator)
    (hread : (KeyfileStore.new path separator).Readable w.disk) {calls : List Call}
    (hedits : ∀ call ∈ calls, call.isEdit = true) :
    let s := ((Roster.overKeyfile {} slot identifier).load w).running.run calls
    let store := s.world.keyfiles slot
    let fresh := (s.roster.commit none s.world).putKeyfile slot (KeyfileStore.new path separator)
    let again := (Roster.overKeyfile {} slot identifier).load fresh
    (store.commit s.world.disk).answer = .ok true → fresh.disk.access.1 = false →
      again.answer = .ok () ∧
        (s.roster.cache.Persists again.roster.cache ↔
          store.dirty = false ∨ ReadsAfter {} Keyfile.settle s.roster.cache store.file) := by
  intro s store fresh again hcommit hcalm
  obtain ⟨file, d, hfile, -, hseparator⟩ := hread.exists_wellFormed
  obtain ⟨hcoherent, hedited⟩ : Coherent {} slot identifier s ∧ Edited slot _ d s.world :=
    edited_run hnew hfile Codec.fitsKeyfile_default (by decide) rfl
      (coherent_load {} identifier hnew hread).2 hedits
  exact hedited.load_again Codec.fitsKeyfile_default.safe hcoherent hfile hseparator rfl hcommit hcalm

/-- A text that starts with an ideographic space is cached, committed and lost. -/
theorem restart_loses_ideographic_space :
    let w := (World.new Disk.empty ()).putKeyfile 0 (KeyfileStore.new "a.cfg" ',')
    let calls : List Call := [.create none "m" "p" "i",
      .setParameter "m/p/i0" "x" (some (.string "\u3000x"))]
    let s := ((Roster.overKeyfile {} 0 none).load w).running.run calls
    let fresh := (s.roster.commit none s.world).putKeyfile 0 (KeyfileStore.new "a.cfg" ',')
    let again := (Roster.overKeyfile {} 0 none).load fresh
    again.answer = .ok () ∧ ¬ s.roster.cache.Persists again.roster.cache := by
  have hnew := World.keyfiles_putKeyfile_self (World.new Disk.empty ()) 0
    (KeyfileStore.new "a.cfg" ',')
  have hmissing : (Disk.empty.read "a.cfg").1 = .error .missing := rfl
  have hedits : ∀ call ∈ [Call.create none "m" "p" "i",
      .setParameter "m/p/i0" "x" (some (.string "\u3000x"))], call.isEdit = true := by decide
  have hrestart := restart_persists_iff none hnew (Or.inl hmissing) hedits
    (Except.eq_ok_of_toOption (by decide +kernel)) (by decide +kernel)
  refine ⟨hrestart.1, hrestart.2.not.mpr ?_⟩
  rintro (hclean | hreads)
  · exact absurd hclean (by decide +kernel)
  · have hsurvives := hreads.parameters "m/p/i0" "x" (Codec.escape {} (.string "\u3000x"))
      (.string "\u3000x") (by decide) (by decide +kernel)
      (Except.eq_ok_of_toOption (by decide +kernel)) rfl
    have hsafe : Codec.Safe {} := Codec.fitsKeyfile_default.safe
    have hbare := (Codec.unescape_settle_escape_iff hsafe (by decide) rfl).mp hsurvives
    exact absurd hbare (by decide)

/-- A display name that starts with an ideographic space comes back without it. -/
theorem getAttribute_after_restart_ne :
    let w := (World.new Disk.empty ()).putKeyfile 0 (KeyfileStore.new "a.cfg" ',')
    let calls : List Call := [.create none "m" "p" "i",
      .setAttribute "m/p/i0" "DisplayName" (some (.string "\u3000x"))]
    let s := ((Roster.overKeyfile {} 0 none).load w).running.run calls
    let fresh := (s.roster.commit none s.world).putKeyfile 0 (KeyfileStore.new "a.cfg" ',')
    let again := (Roster.overKeyfile {} 0 none).load fresh
    s.roster.cache.getAttribute "m/p/i0" "DisplayName" none = .ok (.string "\u3000x") ∧
      again.roster.cache.getAttribute "m/p/i0" "DisplayName" none = .ok (.string "x") :=
  ⟨Except.eq_ok_of_toOption (by decide +kernel), Except.eq_ok_of_toOption (by decide +kernel)⟩

/-- If the file is settled when it is loaded, and every value that is written survives,
everything outlasts the restart. -/
theorem restart_persists (hnew : w.keyfiles slot = KeyfileStore.new path separator)
    (hread : (KeyfileStore.new path separator).Readable w.disk)
    (hsettled : ∀ file, ((KeyfileStore.new path separator).readFile w.disk).1 = .ok file →
      file.settled = file) {calls : List Call} (hedits : ∀ call ∈ calls, call.isEdit = true)
    (hbare : ∀ call ∈ calls, call.startsBare = false) :
    let s := ((Roster.overKeyfile {} slot identifier).load w).running.run calls
    let store := s.world.keyfiles slot
    let fresh := (s.roster.commit none s.world).putKeyfile slot (KeyfileStore.new path separator)
    let again := (Roster.overKeyfile {} slot identifier).load fresh
    (store.commit s.world.disk).answer = .ok true → fresh.disk.access.1 = false →
      again.answer = .ok () ∧ s.roster.cache.Persists again.roster.cache := by
  intro s store fresh again hcommit hcalm
  obtain ⟨file, d, hfile, -, hseparator⟩ := hread.exists_wellFormed
  have hcoherent := (coherent_load {} identifier hnew hread).2
  obtain ⟨hafter, hedited⟩ : Coherent {} slot identifier s ∧ Edited slot _ d s.world :=
    edited_run hnew hfile Codec.fitsKeyfile_default (by decide) rfl hcoherent hedits
  have hstart :
      (((Roster.overKeyfile {} slot identifier).load w).running.world.keyfiles slot).file = file := by
    rw [Roster.load_overKeyfile {} identifier hnew hfile]
    exact congrArg KeyfileStore.file (World.keyfiles_afterKeyfile_self _ _ _)
  have hkept : store.file.settled = store.file := by
    refine settled_run Codec.fitsKeyfile_default (by decide) hcoherent ?_ hedits hbare
    rw [hstart]
    exact hsettled file (congrArg Prod.fst hfile)
  have hloads := hedited.load_again Codec.fitsKeyfile_default.safe hafter hfile hseparator rfl
    hcommit hcalm
  exact ⟨hloads.1, hloads.2.mpr
    (Or.inr (hafter.readsAfter_settle Codec.fitsKeyfile_default.safe hkept))⟩

end DefaultSeparator

end AccountRoster
