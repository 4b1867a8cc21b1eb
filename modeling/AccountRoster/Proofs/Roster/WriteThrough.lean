import AccountRoster.Proofs.Roster.Coherence

/-!
# Write-through to a key-file

A roster that loads the file of a key-file in memory, after any calls, has the same
accounts with the same attributes, and the same texts of all parameters that a
key-file can hold.
-/

namespace AccountRoster

variable {ε : Type}

/-- A roster whose only plugin is the key-file in a slot. -/
def Roster.overKeyfile (codec : Codec) (slot : Nat) (identifier : Option (Identifier (World ε))) :
    Roster (World ε) :=
  { (Roster.new codec).register (KeyfileStore.plugin ε slot) with identifier }

/-- Two caches have the same accounts with the same attributes, and the same texts
of all parameters that a key-file can hold. -/
structure Cache.SameStored (c d : Cache) : Prop where
  accounts : ∀ account, c.contains account = d.contains account
  attributes : ∀ account,
    (c.record? account).map Record.attributes = (d.record? account).map Record.attributes
  texts : ∀ account name, Keyfile.isKeyName (FlatKey.ofParameter name) = true →
    c.text? account (FlatKey.ofParameter name) = d.text? account (FlatKey.ofParameter name)

/-- A key-file that can be read is loaded group by group. -/
theorem Roster.load_overKeyfile (codec : Codec) {slot : Nat}
    (identifier : Option (Identifier (World ε))) {w : World ε} {path : String} {separator : Char}
    (hnew : w.keyfiles slot = KeyfileStore.new path separator) {file : Keyfile} {d : Disk}
    (hfile : (KeyfileStore.new path separator).readFile w.disk = (.ok file, d)) :
    (overKeyfile codec slot identifier).load w =
      ⟨.ok (),
        { overKeyfile codec slot identifier with cache := Cache.ofKeyfile codec 0 file },
        w.afterKeyfile slot (⟨.ok (), { KeyfileStore.new path separator with
          file, loaded := true }, d⟩ : StoreReply Unit)⟩ := by
  have hload := KeyfileStore.ensureLoaded_of_readFile rfl hfile
  rw [← hnew] at hload
  rw [Roster.load_keyfile (r := overKeyfile codec slot identifier) rfl rfl hload, hnew]
  rfl

/-- A roster over a key-file that can be read is coherent once it was loaded. -/
theorem coherent_load (codec : Codec) {slot : Nat}
    (identifier : Option (Identifier (World ε))) {w : World ε}
    {path : String} {separator : Char} (hnew : w.keyfiles slot = KeyfileStore.new path separator)
    (hread : (KeyfileStore.new path separator).Readable w.disk) :
    ((Roster.overKeyfile codec slot identifier).load w).answer = .ok () ∧
      Coherent codec slot identifier
        ((Roster.overKeyfile codec slot identifier).load w).running := by
  obtain ⟨file, d, hfile, hwell, -⟩ := hread.exists_wellFormed
  have hstore := w.keyfiles_afterKeyfile_self slot
    (⟨.ok (), { KeyfileStore.new path separator with file, loaded := true }, d⟩ : StoreReply Unit)
  rw [Roster.load_overKeyfile codec identifier hnew hfile]
  refine ⟨rfl, rfl, rfl, rfl, ?_, ?_, ?_⟩
  · exact congrArg KeyfileStore.loaded hstore
  · rw [Reply.running, hstore]
    exact hwell
  · intro account
    rw [Reply.running, hstore]
    change Option.Rel _ ((Cache.ofKeyfile codec 0 file).record? account) (file.groups.get? account)
    rw [Cache.record?_ofKeyfile]
    cases file.groups.get? account with
    | none => exact Option.Rel.none
    | some entries => exact Option.Rel.some (Record.mirrors_ofEntries codec entries)

namespace Coherent

variable {codec : Codec} {slot : Nat} {identifier : Option (Identifier (World ε))}
  {s : Running (World ε)}

/-- A roster that loads the file in memory now has a record for every group. -/
theorem load_again (h : Coherent codec slot identifier s)
    (source : Option (Identifier (World ε))) :
    ((Roster.overKeyfile codec slot source).load s.world).answer = .ok () ∧
      ((Roster.overKeyfile codec slot source).load s.world).roster.cache =
        Cache.ofKeyfile codec 0 (s.world.keyfiles slot).file := by
  have hload := KeyfileStore.ensureLoaded_of_loaded h.loaded s.world.disk
  have hstart := Roster.load_keyfile (r := Roster.overKeyfile codec slot source) rfl rfl hload
  rw [hstart]
  exact ⟨rfl, rfl⟩

/-- What is cached is what the file in memory holds. -/
theorem sameStored (h : Coherent codec slot identifier s) :
    s.roster.cache.SameStored (Cache.ofKeyfile codec 0 (s.world.keyfiles slot).file) := by
  have hfresh (account : String) := Cache.record?_ofKeyfile codec 0
    (s.world.keyfiles slot).file account
  refine ⟨fun account => ?_, fun account => ?_, fun account name hname => ?_⟩
  · change (s.roster.cache.record? account).isSome = Option.isSome (Cache.record? _ account)
    rcases h.account_cases account with ⟨hnone, hgroup⟩ | ⟨_, _, hsome, hgroup, -⟩
    · rw [hfresh, hnone, hgroup]
      rfl
    · rw [hfresh, hsome, hgroup]
      rfl
  · rcases h.account_cases account with
      ⟨hnone, hgroup⟩ | ⟨record, entries, hsome, hgroup, hmirrors⟩
    · rw [hfresh, hnone, hgroup]
      rfl
    · have hattributes : record.attributes = (Record.ofEntries codec 0 entries).attributes := by
        apply Dict.ext_get?
        intro name
        rw [hmirrors.attributes, Record.attributes_ofEntries]
      rw [hfresh, hsome, hgroup]
      exact congrArg some hattributes
  · rw [Cache.text?, Cache.text?]
    rcases h.account_cases account with
      ⟨hnone, hgroup⟩ | ⟨record, entries, hsome, hgroup, hmirrors⟩
    · rw [hfresh, hnone, hgroup]
      rfl
    · rw [hfresh, hsome, hgroup]
      change record.text? s.roster.cache.codec (FlatKey.ofParameter name) =
        (Record.ofEntries codec 0 entries).text? codec (FlatKey.ofParameter name)
      rw [Record.text?, Record.text?, FlatKey.ofText_ofParameter, h.codec_eq]
      dsimp only
      rw [hmirrors.parameters name hname, Record.parameterText?_ofEntries]

end Coherent

/-- Start from a key-file that is missing or can be read, and make any calls on a
roster whose only plugin it is. A roster that loads the file in memory then has the
same accounts with the same attributes, and the same texts of all parameters that a
key-file can hold. -/
theorem write_through (codec : Codec)
    (hcodec : codec.separator ∉ ['\\', 's', 'n', 't', 'r', '\n', '\r']) {slot : Nat}
    {identifier : Option (Identifier (World ε))}
    (hspares : ∀ source, identifier = some source → source.SparesKeyfiles) {w : World ε}
    {path : String} {separator : Char} (hnew : w.keyfiles slot = KeyfileStore.new path separator)
    (hread : (KeyfileStore.new path separator).Readable w.disk) (calls : List Call) :
    let start := (Roster.overKeyfile codec slot identifier).load w
    let s := start.running.run calls
    let again := (Roster.overKeyfile codec slot none).load s.world
    start.answer = .ok () ∧ again.answer = .ok () ∧
      s.roster.cache.SameStored again.roster.cache := by
  intro start s again
  obtain ⟨hanswer, hstart⟩ := coherent_load codec identifier hnew hread
  have hs : Coherent codec slot identifier s :=
    (kept_coherent (Codec.fitsKeyfile_iff.mpr hcodec) slot hspares).run hstart calls
  obtain ⟨hagain, hcache⟩ := hs.load_again none
  refine ⟨hanswer, hagain, ?_⟩
  change s.roster.cache.SameStored
    ((Roster.overKeyfile codec slot none).load s.world).roster.cache
  rw [hcache]
  exact hs.sameStored

/-- The parameter of an account that has just been identified and created is there
when the file in memory is loaded. -/
theorem write_through_parameter :
    let w := (World.new Disk.empty ()).putKeyfile 0 (KeyfileStore.new "a.cfg" ',')
    let source : Identifier (World Unit) := ⟨fun _ _ _ w => (.atOnce (.ok "i"), w)⟩
    let s := ((Roster.overKeyfile {} 0 (some source)).load w).running.run
      [.createWithParameters none "m" "p" (Dict.empty.insert "port" (.uint32 1)) .never]
    let again := (Roster.overKeyfile {} 0 none).load s.world
    again.roster.cache.text? "m/p/i0" (FlatKey.ofParameter "port") = some "1" := by
  intro w source s again
  have hspares : ∀ given, some source = some given → given.SparesKeyfiles := by
    intro given hgiven
    cases hgiven
    exact fun _ _ _ _ => rfl
  have hnew : w.keyfiles 0 = KeyfileStore.new "a.cfg" ',' := World.keyfiles_putKeyfile_self _ 0 _
  have hmissing : (w.disk.read "a.cfg").1 = .error .missing := rfl
  have hsame := write_through {} (by decide) hspares hnew (Or.inl hmissing)
    [.createWithParameters none "m" "p" (Dict.empty.insert "port" (.uint32 1)) .never]
  have htext := hsame.2.2.texts "m/p/i0" "port" (by decide +kernel)
  refine htext.symm.trans ?_
  decide +kernel

end AccountRoster
