import AccountRoster.Proofs.Roster.Mirrors
import AccountRoster.Proofs.Roster.Plans

/-!
# Cache and key-file agree

With a key-file as the only plugin, the cache and the file in memory say the same
of every account, and no call makes them disagree.

## Implementation notes

`Coherent` relates every record to the group of its account. Each operation
changes the record and the group of one account together, and leaves the others
alone. `Follows` says what an operation does to the world: the disk stays, and
the store turns into what one call of the backend makes of it.
-/

namespace AccountRoster

variable {ε : Type}

/-- A source of identifiers that leaves the key-files alone. -/
def Identifier.SparesKeyfiles (source : Identifier (World ε)) : Prop :=
  ∀ manager protocol parameters w,
    (source.identify manager protocol parameters w).2.keyfiles = w.keyfiles

/-- One world follows another by a call that keeps to the store in memory. -/
structure Follows (slot : Nat) (w w' : World ε) (file : Keyfile) : Prop where
  disk : w'.disk = w.disk
  store : (w.keyfiles slot).Turns (w'.keyfiles slot) file

/-- The cache and the key-file in memory say the same of every account. -/
structure Coherent (codec : Codec) (slot : Nat) (identifier : Option (Identifier (World ε)))
    (s : Running (World ε)) : Prop where
  registry : s.roster.registry = [⟨0, KeyfileStore.plugin ε slot⟩]
  codec_eq : s.roster.cache.codec = codec
  identifier_eq : s.roster.identifier = identifier
  loaded : (s.world.keyfiles slot).loaded = true
  wellFormed : (s.world.keyfiles slot).file.WellFormed
  records : ∀ account, Option.Rel (Record.Mirrors codec) (s.roster.cache.record? account)
    ((s.world.keyfiles slot).file.groups.get? account)

/-! ### What the plugin is told -/

namespace Keyfile

/-- The file after an update was passed on to it. -/
def updated (f : Keyfile) (codec : Codec) (u : Update) : Keyfile :=
  match u.value with
  | none => (f.removeKey u.account u.key).2
  | some value => (f.setValue u.account u.key (codec.escape value)).2

theorem WellFormed.updated {f : Keyfile} (h : f.WellFormed) (codec : Codec) (u : Update) :
    (f.updated codec u).WellFormed := by
  unfold Keyfile.updated
  split
  · exact h.removeKey u.account u.key
  · exact h.setValue u.account u.key _

end Keyfile

namespace Roster

variable {r : Roster (World ε)} {slot : Nat} {w : World ε}

theorem owner?_keyfile (hregistry : r.registry = [⟨0, KeyfileStore.plugin ε slot⟩])
    {account : String} {record : Record} (hrecord : r.cache.record? account = some record)
    (howner : record.owner = 0) : r.owner? account = some (KeyfileStore.plugin ε slot) := by
  rw [owner?, hrecord, Option.bind_some, howner, plugin?, hregistry]
  rfl

/-- An update reaches a store in memory as one call. -/
theorem tell_keyfile (r : Roster (World ε)) (u : Update)
    (hloaded : (w.keyfiles slot).loaded = true) :
    Follows slot w (r.tell (KeyfileStore.plugin ε slot) u w)
      ((w.keyfiles slot).file.updated r.cache.codec u) := by
  rw [tell, Keyfile.updated]
  cases u.value with
  | none =>
    obtain ⟨hdisk, hturns⟩ := KeyfileStore.delete_key_of_loaded hloaded u.account u.key w.disk
    exact ⟨hdisk, by rwa [KeyfileStore.plugin, World.keyfiles_afterKeyfile_self]⟩
  | some value =>
    have hoffer : r.offer (KeyfileStore.plugin ε slot) u value w = (.ok .unimplemented, w) := by
      unfold offer
      split <;> rfl
    obtain ⟨hdisk, hturns⟩ := KeyfileStore.set_of_loaded hloaded u.account u.key
      (r.cache.codec.escape value) w.disk
    dsimp only
    rw [hoffer]
    exact ⟨hdisk, by rwa [KeyfileStore.plugin, World.keyfiles_afterKeyfile_self]⟩

/-- An update of a cached account reaches the store as one call. -/
theorem dispatch_keyfile (hregistry : r.registry = [⟨0, KeyfileStore.plugin ε slot⟩])
    {u : Update} {record : Record} (hrecord : r.cache.record? u.account = some record)
    (howner : record.owner = 0) (hloaded : (w.keyfiles slot).loaded = true) :
    Follows slot w (r.dispatch u w)
      ((w.keyfiles slot).file.updated r.cache.codec u) := by
  rw [dispatch, owner?_keyfile hregistry hrecord howner]
  exact tell_keyfile r u hloaded

end Roster

/-! ### Every operation keeps cache and file coherent -/

namespace Coherent

variable {codec : Codec} {slot : Nat} {identifier : Option (Identifier (World ε))}
  {s : Running (World ε)}

/-- An account is neither cached nor stored, or its record mirrors its group. -/
theorem account_cases (h : Coherent codec slot identifier s) (account : String) :
    (s.roster.cache.record? account = none ∧
        (s.world.keyfiles slot).file.groups.get? account = none) ∨
      ∃ record entries, s.roster.cache.record? account = some record ∧
        (s.world.keyfiles slot).file.groups.get? account = some entries ∧
        record.Mirrors codec entries := by
  have hrel := h.records account
  generalize s.roster.cache.record? account = found at hrel ⊢
  generalize (s.world.keyfiles slot).file.groups.get? account = group at hrel ⊢
  cases hrel with
  | none => exact Or.inl ⟨rfl, rfl⟩
  | some hmirrors => exact Or.inr ⟨_, _, rfl, rfl, hmirrors⟩

theorem exists_entries (h : Coherent codec slot identifier s) {account : String} {record : Record}
    (hrecord : s.roster.cache.record? account = some record) :
    ∃ entries, (s.world.keyfiles slot).file.groups.get? account = some entries ∧
      record.Mirrors codec entries := by
  rcases h.account_cases account with ⟨hnone, -⟩ | ⟨found, entries, hfound, hgroup, hmirrors⟩
  · rw [hnone] at hrecord
    cases hrecord
  · rw [hfound] at hrecord
    cases hrecord
    exact ⟨entries, hgroup, hmirrors⟩

theorem record?_eq_none (h : Coherent codec slot identifier s) {account : String}
    (hgroup : (s.world.keyfiles slot).file.groups.get? account = none) :
    s.roster.cache.record? account = none := by
  rcases h.account_cases account with ⟨hnone, -⟩ | ⟨_, _, -, hsome, -⟩
  · exact hnone
  · rw [hgroup] at hsome
    cases hsome

/-- A group has valid names. -/
theorem isGroupName (h : Coherent codec slot identifier s) {account : String} {entries : Dict String}
    (hgroup : (s.world.keyfiles slot).file.groups.get? account = some entries) :
    Keyfile.isGroupName account = true :=
  (h.wellFormed account entries hgroup).1

/-- Cache and file stay coherent when one record and its group change together. -/
theorem change (h : Coherent codec slot identifier s) {account : String} {record : Record}
    {entries : Dict String} (hmirrors : record.Mirrors codec entries) {w : World ε}
    {file : Keyfile} (hfollows : Follows slot s.world w file) (hwell : file.WellFormed)
    (hfile : ∀ other, file.groups.get? other =
      if account = other then some entries else (s.world.keyfiles slot).file.groups.get? other) :
    Coherent codec slot identifier
      ⟨{ s.roster with cache := s.roster.cache.insert account record }, w⟩ where
  registry := h.registry
  codec_eq := h.codec_eq
  identifier_eq := h.identifier_eq
  loaded := hfollows.store.loaded_eq.trans h.loaded
  wellFormed := by
    rw [hfollows.store.file_eq]
    exact hwell
  records := by
    intro other
    rw [hfollows.store.file_eq, hfile, Cache.record?_insert]
    split
    · exact Option.Rel.some hmirrors
    · exact h.records other

/-- The owner of an account is told of an update that its record has taken. -/
theorem dispatch_follows (h : Coherent codec slot identifier s) (u : Update) {record : Record}
    (howner : record.owner = 0) :
    Follows slot s.world
      (({ s.roster with cache := s.roster.cache.insert u.account record } :
        Roster (World ε)).dispatch u s.world)
      ((s.world.keyfiles slot).file.updated codec u) := by
  have hfollows := Roster.dispatch_keyfile
    (r := { s.roster with cache := s.roster.cache.insert u.account record }) (u := u)
    h.registry (Cache.record?_insert_self s.roster.cache u.account record) howner h.loaded
  rw [← h.codec_eq]
  exact hfollows

theorem setAttribute (hfits : codec.FitsKeyfile) (h : Coherent codec slot identifier s)
    (account name : String) (value : Option Value) :
    Coherent codec slot identifier (s.roster.setAttribute account name value s.world).running := by
  refine Roster.carryOut_keeps h fun c u hplan => ?_
  obtain ⟨record, new, hname, hrecord, hnew, rfl, rfl⟩ := Cache.planAttribute_eq_some hplan
  obtain ⟨entries, hgroup, hmirrors⟩ := h.exists_entries hrecord
  have howner : (record.putAttribute name new).owner = 0 := hmirrors.owner
  have hfollows := h.dispatch_follows { account, key := name, value := new } howner
  have hwell := h.wellFormed.updated codec { account, key := name, value := new }
  cases new with
  | none =>
      refine h.change (hmirrors.putAttribute_none hname) hfollows hwell fun other => ?_
      rw [Keyfile.updated, Keyfile.groups_removeKey]
      split
      next heq => rw [← heq, hgroup, Option.map_some]
      next => rfl
  | some v =>
      obtain ⟨given, type, -, htype, hcoerce⟩ := Cache.attributeValue_eq_some hnew
      have hread := Codec.readAttribute_escape hfits.safe htype (Codec.type_of_coerce hcoerce)
      refine h.change (hmirrors.putAttribute_some hname hread) hfollows hwell fun other => ?_
      have hset := (s.world.keyfiles slot).file.setValue_of_valid (h.isGroupName hgroup)
        (Schema.attributeType_eq_some htype).1 (Codec.isOneLine_escape hfits.ne_lf hfits.ne_cr v)
      change ((s.world.keyfiles slot).file.setValue account name _).2.groups.get? other = _
      rw [hset.1, Keyfile.groups_enter, Keyfile.entries_of_get? hgroup]

theorem setParameter (hfits : codec.FitsKeyfile) (h : Coherent codec slot identifier s)
    (account name : String) (value : Option Value) :
    Coherent codec slot identifier (s.roster.setParameter account name value s.world).running := by
  refine Roster.carryOut_keeps h fun c u hplan => ?_
  obtain ⟨record, hrecord, rfl, rfl⟩ := Cache.planParameter_eq_some hplan
  obtain ⟨entries, hgroup, hmirrors⟩ := h.exists_entries hrecord
  have howner : (record.putTyped name value).owner = 0 := hmirrors.owner
  have hfollows := h.dispatch_follows
    { account, key := FlatKey.ofParameter name, value, secret := record.isSecret name } howner
  have hwell := h.wellFormed.updated codec
    { account, key := FlatKey.ofParameter name, value, secret := record.isSecret name }
  cases value with
  | none =>
      refine h.change (hmirrors.putTyped_none name) hfollows hwell fun other => ?_
      rw [Keyfile.updated, Keyfile.groups_removeKey]
      split
      next heq => rw [← heq, hgroup, Option.map_some]
      next => rfl
  | some v =>
      cases hkey : Keyfile.isKeyName (FlatKey.ofParameter name) with
      | true =>
          refine h.change (hmirrors.putTyped_some name v) hfollows hwell fun other => ?_
          have hset := (s.world.keyfiles slot).file.setValue_of_valid (h.isGroupName hgroup) hkey
            (Codec.isOneLine_escape hfits.ne_lf hfits.ne_cr v)
          change ((s.world.keyfiles slot).file.setValue account _ _).2.groups.get? other = _
          rw [hset.1, Keyfile.groups_enter, Keyfile.entries_of_get? hgroup]
      | false =>
          refine h.change (hmirrors.putTyped_invalid hkey (some v)) hfollows hwell fun other => ?_
          rcases Keyfile.setValue_cases (s.world.keyfiles slot).file account
            (FlatKey.ofParameter name) (codec.escape v) with hsame | ⟨-, hvalid, -⟩
          · change ((s.world.keyfiles slot).file.setValue account _ _).2.groups.get? other = _
            rw [hsame]
            split
            next heq => rw [← heq, hgroup]
            next => rfl
          · rw [hkey] at hvalid
            cases hvalid

theorem makeSecret (h : Coherent codec slot identifier s) (account name : String) :
    Coherent codec slot identifier ⟨s.roster.makeSecret account name, s.world⟩ where
  registry := h.registry
  codec_eq := (Cache.codec_modify _ _ _).trans h.codec_eq
  identifier_eq := h.identifier_eq
  loaded := h.loaded
  wellFormed := h.wellFormed
  records := by
    intro other
    have hrel := h.records other
    rw [Roster.makeSecret, Cache.makeSecret, Cache.record?_modify]
    split
    next =>
      generalize s.roster.cache.record? other = found at hrel ⊢
      generalize (s.world.keyfiles slot).file.groups.get? other = group at hrel ⊢
      cases hrel with
      | none => exact Option.Rel.none
      | some hmirrors => exact Option.Rel.some (hmirrors.markSecret name)
    next => exact hrel

/-- A refused account leaves everything as it was; a new one has an empty group. -/
theorem plugin_create (h : Coherent codec slot identifier s) (cache : Cache)
    (manager protocol identification : String) :
    (∃ e, (KeyfileStore.plugin ε slot).create cache manager protocol identification s.world =
        (.error e, s.world)) ∨
      ∃ account w, (KeyfileStore.plugin ε slot).create cache manager protocol identification
          s.world = (.ok (some account), w) ∧
        Keyfile.isGroupName account = true ∧
        (s.world.keyfiles slot).file.groups.get? account = none ∧
        Follows slot s.world w ((s.world.keyfiles slot).file.openGroup account) := by
  rcases KeyfileStore.create_of_loaded h.loaded
    (cache.uniqueName manager protocol identification) s.world.disk with
    ⟨e, hcreate⟩ | ⟨hname, hnew, hcreate⟩
  · refine Or.inl ⟨e, ?_⟩
    simp only [KeyfileStore.plugin, hcreate, World.afterKeyfile_same]
  · have hplugin : (KeyfileStore.plugin ε slot).create cache manager protocol identification
        s.world = _ := congrArg
      (fun reply : StoreReply (Option String) => (reply.answer, s.world.afterKeyfile slot reply))
      hcreate
    refine Or.inr ⟨_, _, hplugin, hname, hnew, rfl, Or.inr ?_⟩
    exact World.keyfiles_afterKeyfile_self _ _ _

/-- A call that creates an account changes nothing, or enters an account that was
neither cached nor stored. -/
theorem create_cases (h : Coherent codec slot identifier s) (provider : Option String)
    (manager protocol identification : String) :
    (s.roster.create provider manager protocol identification s.world).running = s ∨
      ∃ account w, Keyfile.isGroupName account = true ∧
        (s.world.keyfiles slot).file.groups.get? account = none ∧
        Follows slot s.world w ((s.world.keyfiles slot).file.openGroup account) ∧
        s.roster.create provider manager protocol identification s.world =
          s.roster.addCreated ⟨0, KeyfileStore.plugin ε slot⟩ account w := by
  have hplugin := h.plugin_create s.roster.cache manager protocol identification
  unfold Roster.create
  split
  · exact Or.inl rfl
  split
  next provider =>
    rw [Roster.createWith, h.registry]
    cases hfind : [(⟨0, KeyfileStore.plugin ε slot⟩ : Registered (World ε))].find?
        fun p => p.plugin.provider == some provider with
    | none => exact Or.inl rfl
    | some p =>
        obtain rfl := List.mem_singleton.mp (List.mem_of_find?_eq_some hfind)
        dsimp only
        rcases hplugin with ⟨e, hcreate⟩ | ⟨account, w, hcreate, hname, hnew, hfollows⟩
        · rw [hcreate]
          exact Or.inl rfl
        · rw [hcreate]
          exact Or.inr ⟨account, w, hname, hnew, hfollows, rfl⟩
  next =>
    rw [h.registry, Roster.createFirst]
    rcases hplugin with ⟨e, hcreate⟩ | ⟨account, w, hcreate, hname, hnew, hfollows⟩
    · rw [hcreate]
      exact Or.inl rfl
    · rw [hcreate]
      exact Or.inr ⟨account, w, hname, hnew, hfollows, rfl⟩

/-- A new account has an empty record and an empty group. -/
theorem addCreated (h : Coherent codec slot identifier s) {account : String} {w : World ε}
    (hname : Keyfile.isGroupName account = true)
    (hnew : (s.world.keyfiles slot).file.groups.get? account = none)
    (hfollows : Follows slot s.world w ((s.world.keyfiles slot).file.openGroup account)) :
    s.roster.addCreated ⟨0, KeyfileStore.plugin ε slot⟩ account w =
        ⟨.ok account, { s.roster with
          cache := s.roster.cache.insert account (Record.ofEntries codec 0 Dict.empty) }, w⟩ ∧
      Coherent codec slot identifier
        (s.roster.addCreated ⟨0, KeyfileStore.plugin ε slot⟩ account w).running := by
  have hloaded : (w.keyfiles slot).loaded = true := hfollows.store.loaded_eq.trans h.loaded
  have hopen := Keyfile.groups_openGroup_of_none hnew
  have hgroup : (w.keyfiles slot).file.groups.get? account = some Dict.empty := by
    rw [hfollows.store.file_eq, hopen, if_pos rfl]
  have hadd : s.roster.addCreated ⟨0, KeyfileStore.plugin ε slot⟩ account w =
      ⟨.ok account, { s.roster with
        cache := s.roster.cache.insert account (Record.ofEntries codec 0 Dict.empty) }, w⟩ := by
    rw [Roster.addCreated, Roster.addAccount_keyfile 0 hloaded hgroup (h.record?_eq_none hnew),
      h.codec_eq]
    rfl
  refine ⟨hadd, ?_⟩
  rw [hadd]
  exact h.change (Record.mirrors_ofEntries codec Dict.empty) hfollows
    (h.wellFormed.openGroup hname) hopen

theorem create (h : Coherent codec slot identifier s) (provider : Option String)
    (manager protocol identification : String) :
    Coherent codec slot identifier
      (s.roster.create provider manager protocol identification s.world).running := by
  rcases h.create_cases provider manager protocol identification with
    heq | ⟨account, w, hname, hnew, hfollows, heq⟩
  · rwa [heq]
  · rw [heq]
    exact (h.addCreated hname hnew hfollows).2

/-- A deleted account leaves the cache, and its group leaves the file. -/
theorem delete_cases (h : Coherent codec slot identifier s) (account : String) :
    (s.roster.delete account s.world).running = s ∨
      ∃ w, Follows slot s.world w ((s.world.keyfiles slot).file.removeGroup account).2 ∧
        (s.roster.delete account s.world).running =
          ⟨{ s.roster with cache := s.roster.cache.erase account }, w⟩ := by
  unfold Roster.delete
  split
  next => exact Or.inl rfl
  next record hfind =>
    have hrecord := Cache.find_eq_ok hfind
    obtain ⟨entries, -, hmirrors⟩ := h.exists_entries hrecord
    obtain ⟨hdisk, hturns⟩ := KeyfileStore.delete_account_of_loaded h.loaded account s.world.disk
    rw [Roster.owner?_keyfile h.registry hrecord hmirrors.owner]
    refine Or.inr ⟨_, ⟨hdisk, ?_⟩, rfl⟩
    rwa [KeyfileStore.plugin, World.keyfiles_afterKeyfile_self]

theorem delete (h : Coherent codec slot identifier s) (account : String) :
    Coherent codec slot identifier (s.roster.delete account s.world).running := by
  rcases h.delete_cases account with heq | ⟨w, hfollows, heq⟩
  · rwa [heq]
  · rw [heq]
    refine ⟨h.registry, h.codec_eq, h.identifier_eq, hfollows.store.loaded_eq.trans h.loaded, ?_, ?_⟩
    · rw [hfollows.store.file_eq]
      exact h.wellFormed.removeGroup account
    · intro other
      rw [hfollows.store.file_eq, Keyfile.groups_removeGroup, Cache.record?_erase]
      split
      · exact Option.Rel.none
      · exact h.records other

/-- An edit keeps cache and file coherent. -/
theorem edit (hfits : codec.FitsKeyfile) (h : Coherent codec slot identifier s) {call : Call}
    (hedit : call.isEdit = true) : Coherent codec slot identifier (s.perform call) := by
  cases call with
  | create provider manager protocol identification =>
      exact h.create provider manager protocol identification
  | createWithParameters => cases hedit
  | setAttribute account name value => exact h.setAttribute hfits account name value
  | setParameter account name value => exact h.setParameter hfits account name value
  | makeSecret account name => exact h.makeSecret account name
  | delete account => exact h.delete account
  | commit => cases hedit

/-- The file in memory is all that coherence asks of the world. -/
theorem of_store (h : Coherent codec slot identifier s) {w : World ε}
    (hfile : (w.keyfiles slot).file = (s.world.keyfiles slot).file)
    (hloaded : (w.keyfiles slot).loaded = (s.world.keyfiles slot).loaded) :
    Coherent codec slot identifier ⟨s.roster, w⟩ := by
  refine ⟨h.registry, h.codec_eq, h.identifier_eq, hloaded.trans h.loaded, ?_, ?_⟩
  · rw [hfile]
    exact h.wellFormed
  · intro account
    rw [hfile]
    exact h.records account

theorem commit (h : Coherent codec slot identifier s) (account : Option String) :
    Coherent codec slot identifier ⟨s.roster, s.roster.commit account s.world⟩ := by
  have hplugin (c : Cache) : Coherent codec slot identifier
      ⟨s.roster, ((KeyfileStore.plugin ε slot).commit c account s.world).2⟩ := by
    have hstore := KeyfileStore.commit_store (s.world.keyfiles slot) s.world.disk
    refine h.of_store ?_ ?_
    · rw [KeyfileStore.plugin, World.keyfiles_afterKeyfile_self]
      rcases hstore with heq | heq
      · rw [heq]
      · rw [heq]
    · rw [KeyfileStore.plugin, World.keyfiles_afterKeyfile_self]
      rcases hstore with heq | heq
      · rw [heq]
      · rw [heq]
  cases account with
  | none =>
      rw [Roster.commit, h.registry]
      exact hplugin s.roster.cache
  | some account =>
      rw [Roster.commit]
      cases hrecord : s.roster.cache.record? account with
      | none =>
          rw [Roster.owner?, hrecord]
          exact h
      | some record =>
          obtain ⟨entries, -, hmirrors⟩ := h.exists_entries hrecord
          rw [Roster.owner?_keyfile h.registry hrecord hmirrors.owner]
          exact hplugin s.roster.cache

theorem identify (hspares : ∀ source, identifier = some source → source.SparesKeyfiles)
    (h : Coherent codec slot identifier s) (manager protocol : String)
    (parameters : Parameters) (cancellation : Cancellation) :
    Coherent codec slot identifier
      ⟨s.roster, (s.roster.identify manager protocol parameters cancellation s.world).2⟩ := by
  apply Roster.identify_keeps h
  intro source hsource
  have hkeyfiles := hspares source (h.identifier_eq.symm.trans hsource) manager protocol
    parameters s.world
  apply h.of_store
  · rw [hkeyfiles]
  · rw [hkeyfiles]

end Coherent

/-- No operation makes cache and file disagree. -/
theorem kept_coherent {codec : Codec} (hfits : codec.FitsKeyfile) (slot : Nat)
    {identifier : Option (Identifier (World ε))}
    (hspares : ∀ source, identifier = some source → source.SparesKeyfiles) :
    Kept (Coherent codec slot identifier) where
  create := fun h => h.create
  setAttribute := fun h => h.setAttribute hfits
  setParameter := fun h => h.setParameter hfits
  makeSecret := fun h => h.makeSecret
  delete := fun h => h.delete
  commit := fun h => h.commit
  identify := fun h => h.identify hspares

end AccountRoster
