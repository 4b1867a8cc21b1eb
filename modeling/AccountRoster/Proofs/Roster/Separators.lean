import AccountRoster.Proofs.Codec.Separators
import AccountRoster.Proofs.Config
import AccountRoster.Proofs.Roster.GroupAccounts
import AccountRoster.Proofs.Roster.Neighbours

/-!
# Which separator governs a key-file

A key-file has a separator of its own, which its typed reads go by. What is written to it
through a roster comes with the separator of the roster, however the key-file was set up.
An attribute is therefore read back by the key-file if both separators are the same, or if
nothing is separated in its text, and in no other case.

## Implementation notes

Backends of a configuration have the slot of their position. A plugin that comes with no
configuration is only asked to leave the slot of the key-file alone.
-/

namespace AccountRoster

variable {ε : Type}

namespace StorageConfig

/-- Backends that stand later leave a slot alone. -/
theorem keyfiles_prepareAll_of_lt (backends : List BackendConfig) {n slot : Nat} (h : slot < n)
    (w : World ε) :
    ((backends.zipIdx n).foldl (fun w b => b.1.prepare w b.2) w).keyfiles slot =
      w.keyfiles slot := by
  induction backends generalizing n w with
  | nil => rfl
  | cons b rest ih =>
      rw [List.zipIdx_cons, List.foldl_cons, ih (Nat.lt_succ_of_lt h)]
      cases b with
      | keyfile path separator => exact if_neg (Nat.ne_of_lt h)
      | memory settings => rfl

/-- The key-file of a backend is put into the slot of its position, as new. -/
theorem keyfiles_prepareAll {backends : List BackendConfig} {k : Nat} {path : String}
    {separator : Char} (hk : backends[k]? = some (.keyfile path separator)) (n : Nat)
    (w : World ε) :
    ((backends.zipIdx n).foldl (fun w b => b.1.prepare w b.2) w).keyfiles (n + k) =
      KeyfileStore.new path separator := by
  induction backends generalizing k n w with
  | nil => cases hk
  | cons b rest ih =>
      rw [List.zipIdx_cons, List.foldl_cons]
      cases k with
      | zero =>
          cases hk
          exact (keyfiles_prepareAll_of_lt rest (Nat.lt_succ_self n) _).trans
            (w.keyfiles_putKeyfile_self n _)
      | succ k =>
          rw [show n + (k + 1) = n + 1 + k by omega]
          exact ih hk (n + 1) _

/-- A built-in backend is the key-file in a slot or leaves it alone. -/
theorem spares_or_eq_of_mem_plugins {config : StorageConfig} {plugin : Plugin (World ε)}
    (hplugin : plugin ∈ config.plugins ε) (slot : Nat) :
    plugin = KeyfileStore.plugin ε slot ∨ plugin.Spares slot := by
  obtain ⟨⟨b, other⟩, hb, rfl⟩ := List.mem_map.mp hplugin
  rw [List.mem_zipIdx_iff_getElem?] at hb
  cases b with
  | keyfile path' separator' =>
      by_cases heq : slot = other
      · exact Or.inl (congrArg (KeyfileStore.plugin ε) heq.symm)
      · exact Or.inr (KeyfileStore.spares_of_ne heq)
  | memory settings => exact Or.inr (MemoryStore.spares slot other settings)

/-- A roster that was built has every key-file of its configuration, as it was set up. -/
theorem housed_of_build {config : StorageConfig} {further : List (Plugin (World ε))}
    {identifier : Option (Identifier (World ε))} {w : World ε} {built : Roster (World ε) × World ε}
    (hbuild : config.build further identifier w = .ok built) {slot : Nat} {path : String}
    {separator : Char} (hslot : config.backends[slot]? = some (.keyfile path separator))
    (hfurther : ∀ plugin ∈ further, plugin.Spares slot)
    (hidentifier : ∀ source, identifier = some source → source.Spares slot) :
    config.validate = .ok () ∧ Housed ⟨config.separator⟩ slot separator ⟨built.1, built.2⟩ := by
  unfold build at hbuild
  split at hbuild
  next hvalid =>
    cases hbuild
    have hnew : ((config.prepare w).keyfiles slot).Orderly separator := by
      have hstore := keyfiles_prepareAll hslot 0 w
      rw [Nat.zero_add] at hstore
      rw [prepare, hstore]
      exact KeyfileStore.orderly_new path separator
    have hplugins : ∀ plugin ∈ config.plugins ε ++ further,
        plugin = KeyfileStore.plugin ε slot ∨ plugin.Spares slot := by
      intro plugin hplugin
      rcases List.mem_append.mp hplugin with hbuiltin | hforeign
      · exact spares_or_eq_of_mem_plugins hbuiltin slot
      · exact Or.inr (hfurther plugin hforeign)
    have hregistered := (Housed.start ⟨config.separator⟩ hnew).registerAll hplugins
    exact ⟨hvalid, hregistered.operate (.identifyBy identifier)
      fun source hsource => (hidentifier source hsource).tame⟩
  next => cases hbuild

end StorageConfig

/-- A value that is set for an account of the key-file is cached, and its file has the text
of the value, as the codec of the roster writes it. -/
theorem Housed.setAttribute {codec : Codec} {slot : Nat} {separator : Char}
    {s : Running (World ε)} (h : Housed codec slot separator s) (hn : codec.separator ≠ '\n')
    (hr : codec.separator ≠ '\r') {account name : String} {given : Value}
    (howner : s.roster.owner? account = some (KeyfileStore.plugin ε slot))
    (hanswer : (s.roster.setAttribute account name (some given) s.world).answer = .ok true) :
    let reply := s.roster.setAttribute account name (some given) s.world
    ∃ cached, Schema.attributeType name = some cached.type ∧
      reply.roster.cache.getAttribute account name none = .ok cached ∧
      (reply.world.keyfiles slot).file.value? account name = some (codec.escape cached) := by
  intro reply
  obtain ⟨record, new, -, hrecord, hnew, ⟨-, hsame⟩ | hreply⟩ := Roster.setAttribute_cases hanswer
  · rw [hsame] at hanswer
    cases hanswer
  have hreply : reply = _ := hreply
  cases new with
  | none => exact absurd hnew Cache.attributeValue_ne_none
  | some cached =>
      obtain ⟨_, type, -, htype, hcoerce⟩ := Cache.attributeValue_eq_some hnew
      obtain rfl := Codec.type_of_coerce hcoerce
      have hfollows := h.custody.follows_dispatch
        (u := { account, key := name, value := some cached }) howner hrecord
        (Record.owner_putAttribute record name (some cached))
      have hset := (s.world.keyfiles slot).file.setValue_of_valid (h.isGroupName howner)
        (Schema.attributeType_eq_some htype).1 (Codec.isOneLine_escape hn hr cached)
      refine ⟨cached, htype, ?_, ?_⟩
      · rw [hreply]
        dsimp only
        rw [Cache.getAttribute, Cache.find, Cache.record?_insert_self]
        dsimp only
        rw [Record.attributes_putAttribute, if_pos rfl]
        rfl
      · rw [hreply]
        dsimp only
        rw [hfollows.store.file_eq, Keyfile.updated]
        dsimp only
        rw [hset.1, Keyfile.value?_enter, if_pos ⟨rfl, rfl⟩]

/-- What a load has entered under the number of a plugin is owned by that plugin. -/
theorem Roster.owner?_load {W : Type} {r : Roster W} {w : W} {account : String} {n : Nat}
    (h : ((r.load w).roster.cache.record? account).map Record.owner = some n) :
    (r.load w).roster.owner? account = r.plugin? n := by
  obtain ⟨record, hrecord, rfl⟩ := Option.map_eq_some_iff.mp h
  have hloads := (Running.EditedFrom.refl ⟨r, w⟩ fun _ => False).load
  have hregistry : (r.load w).roster.registry = r.registry := hloads.registry
  rw [owner?, hrecord, Option.bind_some, plugin?, hregistry, plugin?]

/-- Build any configuration with a separator that is no escape letter, do anything with the
roster, and set an attribute of the schema for an account of one of its key-files. The
key-file keeps the separator that it was configured with, and reads the cached value back
exactly if that is the separator of the roster, or the value is no presence and no list
with items. -/
theorem keyfile_reads_back_iff {config : StorageConfig} {further : List (Plugin (World ε))}
    {identifier : Option (Identifier (World ε))} {w : World ε} {built : Roster (World ε) × World ε}
    (hbuild : config.build further identifier w = .ok built)
    (hsafe : config.separator ∉ ['\\', 's', 'n', 't', 'r']) {slot : Nat} {path : String}
    {separator : Char} (hslot : config.backends[slot]? = some (.keyfile path separator))
    (hfurther : ∀ plugin ∈ further, plugin.Spares slot)
    (hidentifier : ∀ source, identifier = some source → source.Spares slot)
    {s : Running (World ε)}
    (hs : (⟨built.1, built.2⟩ : Running (World ε)).Reaches ⟨config.separator⟩ slot
      (fun _ _ => True) (fun _ _ => True) s)
    {account name : String} {given : Value}
    (howner : s.roster.owner? account = some (KeyfileStore.plugin ε slot))
    (hanswer : (s.roster.setAttribute account name (some given) s.world).answer = .ok true) :
    let reply := s.roster.setAttribute account name (some given) s.world
    let file := (reply.world.keyfiles slot).file
    file.separator = separator ∧ ∃ cached, Schema.attributeType name = some cached.type ∧
      reply.roster.cache.getAttribute account name none = .ok cached ∧
      (file.typed? account name cached.type = .ok (some cached) ↔
        separator = config.separator ∨ cached.hasItems = false) := by
  intro reply file
  obtain ⟨hvalid, hbuilt⟩ := StorageConfig.housed_of_build hbuild hslot hfurther hidentifier
  have hhoused := hbuilt.reaches hs
  have hforbidden := StorageConfig.separator_notMem_of_validate hvalid
  have hn : config.separator ≠ '\n' := fun h => hforbidden (by rw [h]; decide)
  have hr : config.separator ≠ '\r' := fun h => hforbidden (by rw [h]; decide)
  have hseparator : file.separator = separator :=
    (hhoused.operate (.call (.setAttribute account name (some given))) trivial).orderly.2
  obtain ⟨cached, htype, hcached, htext⟩ := hhoused.setAttribute hn hr howner hanswer
  refine ⟨hseparator, cached, htype, hcached, ?_⟩
  have hnan : cached.isNan = false := by
    cases cached with
    | double d => exact absurd rfl (Schema.attributeType_eq_some htype).2
    | _ => rfl
  have hread : file.codec.unescape (Codec.escape ⟨config.separator⟩ cached) cached.type =
      .ok cached ↔ separator = config.separator ∨ cached.hasItems = false := by
    rw [← hseparator]
    exact Codec.unescape_escape_iff (show Codec.Safe ⟨config.separator⟩ from hsafe) hnan
  rw [← hread, Keyfile.typed?, htext]
  dsimp only
  cases file.codec.unescape (Codec.escape ⟨config.separator⟩ cached) cached.type with
  | error fault => exact ⟨nofun, nofun⟩
  | ok v => simp [Except.map]

/-- With the separator of the roster, a further key-file reads a list back. -/
theorem keyfile_reads_back_semicolon :
    let config : StorageConfig :=
      { keyfilePath := "a.cfg", separator := ';', extraBackends := [.keyfile "b.cfg" ';'] }
    let w := World.new (Disk.empty.mount "b.cfg" (.text "[a]\n")) ()
    let s := ((config.roster [] none).load (config.prepare w)).running
    let given := Value.stringArray ["x;y", "z"]
    let reply := s.roster.setAttribute "a" "URISchemes" (some given) s.world
    (reply.world.keyfiles 1).file.typed? "a" "URISchemes" .stringArray = .ok (some given) := by
  intro config w s given reply
  have hbuild : config.build [] none w = .ok (config.roster [] none, config.prepare w) := rfl
  have hs : (⟨config.roster [] none, config.prepare w⟩ : Running (World Unit)).Reaches
      ⟨config.separator⟩ 1 (fun _ _ => True) (fun _ _ => True) s :=
    Running.Reaches.start.step .load trivial
  have howner : s.roster.owner? "a" = some (KeyfileStore.plugin Unit 1) :=
    Roster.owner?_load (n := 1) (by decide +kernel)
  have hslot : config.backends[1]? = some (.keyfile "b.cfg" ';') := rfl
  have hanswer : reply.answer = .ok true := Except.eq_ok_of_toOption (by decide +kernel)
  obtain ⟨-, cached, -, hcached, hiff⟩ := keyfile_reads_back_iff hbuild (by decide) hslot
    (List.forall_mem_nil _) nofun hs howner hanswer
  have hsame : reply.roster.cache.getAttribute "a" "URISchemes" none = .ok given :=
    Except.eq_ok_of_toOption (by decide +kernel)
  obtain rfl : given = cached := Except.ok.inj (hsame.symm.trans hcached)
  have hseparators : ';' = config.separator := rfl
  have hread : (reply.world.keyfiles 1).file.typed? "a" "URISchemes" given.type =
      .ok (some given) := by
    with_reducible exact hiff.mpr (Or.inl hseparators)
  exact hread

/-- With a separator of its own, a further key-file finds one item in a list of two: the
list was written with the separator of the roster. -/
theorem keyfile_misreads_own_separator :
    let config : StorageConfig :=
      { keyfilePath := "a.cfg", extraBackends := [.keyfile "b.cfg" ';'] }
    let w := World.new (Disk.empty.mount "b.cfg" (.text "[a]\n")) ()
    let s := ((config.roster [] none).load (config.prepare w)).running
    let given := Value.stringArray ["x", "y"]
    let reply := s.roster.setAttribute "a" "URISchemes" (some given) s.world
    let file := (reply.world.keyfiles 1).file
    config.validate = .ok () ∧ s.roster.owner? "a" = some (KeyfileStore.plugin Unit 1) ∧
      reply.answer = .ok true ∧ file.separator = ';' ∧
      reply.roster.cache.getAttribute "a" "URISchemes" none = .ok given ∧
      file.typed? "a" "URISchemes" .stringArray = .ok (some (.stringArray ["x,y,"])) ∧
      file.typed? "a" "URISchemes" .stringArray ≠ .ok (some given) := by
  intro config w s given reply file
  have howner : s.roster.owner? "a" = some (KeyfileStore.plugin Unit 1) :=
    Roster.owner?_load (n := 1) (by decide +kernel)
  have hread : file.typed? "a" "URISchemes" .stringArray =
      .ok (some (.stringArray ["x,y,"])) := Except.eq_ok_of_toOption (by decide +kernel)
  refine ⟨Except.eq_ok_of_toOption (by decide +kernel), howner,
    Except.eq_ok_of_toOption (by decide +kernel), by decide +kernel,
    Except.eq_ok_of_toOption (by decide +kernel), hread, fun hsame => ?_⟩
  have hequal := Option.some_inj.mp (Except.ok.inj (hread.symm.trans hsame))
  exact absurd hequal (by decide)

end AccountRoster
