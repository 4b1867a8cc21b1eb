import AccountRoster.Proofs.Cache.Edits
import AccountRoster.Proofs.Cache.UniqueName
import AccountRoster.Proofs.Roster.Backends
import AccountRoster.Proofs.Roster.Plans

/-!
# Cache and in-process stores agree

With built-in backends as the only plugins, an account is in an in-process store
exactly if it is cached and belongs to that store, and what is stored backs the cached
record. No call makes this false.

## Implementation notes

`BackedBy` and `CoupledTo` speak of a cache and a world, and have a lemma for every
way in which both change: an account is entered, written, marked or dropped. `Coupled`
is about a roster, and its lemmas find out which change an operation makes. `BackedBy`
stands alone because it is the half that holds all the way through a load.
-/

namespace AccountRoster

variable {ε : Type}

namespace Cache

/-- A cache in which an account of a given owner was entered. -/
structure Enters (c : Cache) (account : String) (n : Nat) (c' : Cache) : Prop where
  codec_eq : c'.codec = c.codec
  owner : (c'.record? account).map Record.owner = some n
  others : ∀ other, other ≠ account → c'.record? other = c.record? other

theorem enters_insert (c : Cache) (account : String) (record : Record) :
    c.Enters account record.owner (c.insert account record) where
  codec_eq := rfl
  owner := by rw [record?_insert_self, Option.map_some]
  others := fun other hne => (record?_insert c account other record).trans (if_neg hne.symm)

/-- What is pushed for the account itself changes nothing else. -/
theorem Enters.takeAll {c c' : Cache} {account : String} {n : Nat} (h : c.Enters account n c')
    {pushes : List Push} (hpushes : ∀ push ∈ pushes, push.account = account) :
    c.Enters account n (c'.takeAll pushes) where
  codec_eq := (codec_takeAll c' pushes).trans h.codec_eq
  owner := (owner_takeAll c' pushes account).trans h.owner
  others := by
    intro other hne
    have hother : ∀ push ∈ pushes, push.account ≠ other := by
      rintro push hpush rfl
      exact hne (hpushes push hpush)
    exact (record?_takeAll_of_ne c' hother).trans (h.others other hne)

/-- Every record of an in-process store is backed by what is stored there. -/
def BackedBy (built : List (Nat × BackendConfig)) (c : Cache) (w : World ε) : Prop :=
  ∀ slot account record, c.record? account = some record → OnMemory built slot record.owner →
    ∃ a, (w.memories slot).accounts.get? account = some a ∧ a.Backs c.codec record

/-- The records of in-process stores and what is stored there are the same accounts, and
the one is backed by the other. -/
structure CoupledTo (built : List (Nat × BackendConfig)) (c : Cache) (w : World ε) : Prop where
  backed : BackedBy built c w
  cached : ∀ slot account a, (∃ n, OnMemory built slot n) →
    (w.memories slot).accounts.get? account = some a →
      ∃ record, c.record? account = some record ∧ OnMemory built slot record.owner

variable {built : List (Nat × BackendConfig)} {c c' : Cache} {w w' : World ε} {account : String}

theorem BackedBy.of_sameAccounts (h : BackedBy built c w) (hsame : w.SameAccounts w') :
    BackedBy built c w' := by
  intro slot
  rw [hsame slot]
  exact h slot

/-- An account is entered; if it belongs to an in-process store, it is backed there. -/
theorem BackedBy.enter {n : Nat} (h : BackedBy built c w) (henters : c.Enters account n c')
    (hothers : ∀ slot other, other ≠ account →
      (w'.memories slot).accounts.get? other = (w.memories slot).accounts.get? other)
    (hbacked : ∀ slot record, OnMemory built slot n → c'.record? account = some record →
      ∃ a, (w'.memories slot).accounts.get? account = some a ∧ a.Backs c'.codec record) :
    BackedBy built c' w' := by
  intro slot other record hrecord hon
  by_cases heq : other = account
  · subst heq
    have howner := henters.owner
    rw [hrecord, Option.map_some] at howner
    rw [Option.some_inj.mp howner] at hon
    exact hbacked slot record hon hrecord
  · rw [henters.others other heq] at hrecord
    rw [hothers slot other heq, henters.codec_eq]
    exact h slot other record hrecord hon

namespace CoupledTo

theorem of_sameAccounts (h : CoupledTo built c w) (hsame : w.SameAccounts w') :
    CoupledTo built c w' where
  backed := h.backed.of_sameAccounts hsame
  cached := by
    intro slot
    rw [hsame slot]
    exact h.cached slot

/-- A new account is created in the store of its owner and entered into the cache. -/
theorem enter {n : Nat} (h : CoupledTo built c w) (hnew : c.record? account = none)
    (henters : c.Enters account n c') (hchanges : Changes built n (·.create account) w w')
    (hrecord : ∀ slot, OnMemory built slot n → c'.record? account = some (Record.new n)) :
    CoupledTo built c' w' where
  backed := by
    refine h.backed.enter henters (fun slot other hne => ?_) fun slot record hon hfound => ?_
    · by_cases hon : OnMemory built slot n
      · rw [hchanges.hit slot hon]
        exact (Dict.get?_insert _ account other _).trans (if_neg hne.symm)
      · rw [hchanges.miss slot hon]
    · rw [hrecord slot hon] at hfound
      cases hfound
      refine ⟨{}, ?_, StoredAccount.backs_new n⟩
      rw [hchanges.hit slot hon]
      exact Dict.get?_insert_self _ account _
  cached := by
    intro slot other a hslot hget
    have hold : other ≠ account → (w.memories slot).accounts.get? other = some a →
        ∃ record, c'.record? other = some record ∧ OnMemory built slot record.owner := by
      intro hne hstored
      rw [henters.others other hne]
      exact h.cached slot other a hslot hstored
    by_cases hon : OnMemory built slot n
    · by_cases heq : other = account
      · rw [heq, hrecord slot hon]
        exact ⟨Record.new n, rfl, hon⟩
      · rw [hchanges.hit slot hon] at hget
        exact hold heq (((Dict.get?_insert _ account other _).trans
          (if_neg fun he => heq he.symm)).symm.trans hget)
    · rw [hchanges.miss slot hon] at hget
      refine hold ?_ hget
      rintro rfl
      obtain ⟨record, hfound, -⟩ := h.cached slot other a hslot hget
      rw [hnew] at hfound
      cases hfound

/-- A record and what is stored of its account are changed together. -/
theorem write (h : CoupledTo built c w) {record record' : Record}
    (hrecord : c.record? account = some record) (howner : record'.owner = record.owner)
    {change : StoredAccount → StoredAccount}
    (hchanges : Changes built record.owner (·.update account change) w w')
    (hbacks : ∀ a : StoredAccount, a.Backs c.codec record → (change a).Backs c.codec record') :
    CoupledTo built (c.insert account record') w' where
  backed := by
    have henters := c.enters_insert account record'
    refine h.backed.enter henters (fun slot other hne => ?_) fun slot found hon hfound => ?_
    · by_cases hon : OnMemory built slot record.owner
      · rw [hchanges.hit slot hon]
        exact (Dict.get?_insert _ account other _).trans (if_neg hne.symm)
      · rw [hchanges.miss slot hon]
    · rw [record?_insert_self] at hfound
      cases hfound
      rw [howner] at hon
      obtain ⟨a, hstored, ha⟩ := h.backed slot account record hrecord hon
      refine ⟨change a, ?_, hbacks a ha⟩
      rw [hchanges.hit slot hon, MemoryStore.get?_update, if_pos rfl,
        MemoryStore.account_of_get? hstored]
  cached := by
    intro slot other a hslot hget
    rw [record?_insert]
    by_cases heq : account = other
    · rw [if_pos heq]
      refine ⟨record', rfl, ?_⟩
      rw [howner]
      by_contra hoff
      rw [hchanges.miss slot hoff, ← heq] at hget
      obtain ⟨found, hfound, hon⟩ := h.cached slot account a hslot hget
      rw [hrecord] at hfound
      cases hfound
      exact hoff hon
    · rw [if_neg heq]
      by_cases hon : OnMemory built slot record.owner
      · rw [hchanges.hit slot hon, MemoryStore.get?_update, if_neg heq] at hget
        exact h.cached slot other a hslot hget
      · rw [hchanges.miss slot hon] at hget
        exact h.cached slot other a hslot hget

/-- Marking a parameter as secret asks nothing of what is stored. -/
theorem markSecret (h : CoupledTo built c w) (account name : String) :
    CoupledTo built (c.makeSecret account name) w := by
  rw [makeSecret, modify]
  split
  next record hrecord =>
    have hsame : Changes built record.owner (·.update account id) w w := by
      refine ⟨fun slot hon => ?_, fun _ _ => rfl⟩
      obtain ⟨a, hstored, -⟩ := h.backed slot account record hrecord hon
      exact (Dict.insert_of_get? (MemoryStore.account_of_get? hstored ▸ hstored)).symm
    exact h.write hrecord (record.owner_markSecret name) hsame fun a ha => ha.markSecret name
  next => exact h

/-- A record is dropped together with what is stored of its account. -/
theorem erase (h : CoupledTo built c w) {record : Record}
    (hrecord : c.record? account = some record)
    (hchanges : Changes built record.owner (fun s => (s.delete account none).2) w w') :
    CoupledTo built (c.erase account) w' where
  backed := by
    intro slot other found hfound hon
    rw [record?_erase] at hfound
    by_cases heq : account = other
    · rw [if_pos heq] at hfound
      cases hfound
    · rw [if_neg heq] at hfound
      obtain ⟨a, hstored, ha⟩ := h.backed slot other found hfound hon
      refine ⟨a, ?_, ha⟩
      by_cases hown : OnMemory built slot record.owner
      · rw [hchanges.hit slot hown]
        exact (Dict.get?_erase _ account other).trans ((if_neg heq).trans hstored)
      · rw [hchanges.miss slot hown]
        exact hstored
  cached := by
    intro slot other a hslot hget
    by_cases hown : OnMemory built slot record.owner
    · rw [hchanges.hit slot hown] at hget
      have herased := (Dict.get?_erase (w.memories slot).accounts account other).symm.trans hget
      by_cases heq : account = other
      · rw [if_pos heq] at herased
        cases herased
      · rw [if_neg heq] at herased
        rw [record?_erase, if_neg heq]
        exact h.cached slot other a hslot herased
    · rw [hchanges.miss slot hown] at hget
      obtain ⟨found, hfound, hon⟩ := h.cached slot other a hslot hget
      have hne : account ≠ other := by
        rintro rfl
        rw [hrecord] at hfound
        cases hfound
        exact hown hon
      rw [record?_erase, if_neg hne]
      exact ⟨found, hfound, hon⟩

end CoupledTo

end Cache

/-! ### What the backends push -/

/-- A plugin that pushes only what it is asked for. -/
def Plugin.PushesOwn {W : Type} (plugin : Plugin W) : Prop :=
  ∀ c account key w, ∀ push ∈ (plugin.get c account key w).2.1, push.account = account

/-- A key-file pushes for the account that it is asked for. -/
theorem KeyfileStore.account_of_mem_pushes (s : KeyfileStore) (account : String)
    (key : Option String) (d : Disk) :
    ∀ push ∈ pushesOf (s.get account key d).answer, push.account = account := by
  unfold get whenLoaded
  split
  next s' d' _ =>
    dsimp only
    split
    · intro push hpush
      cases key with
      | none =>
          obtain ⟨e, -, rfl⟩ := List.mem_map.mp hpush
          rfl
      | some key =>
          rw [List.mem_singleton.mp hpush]
          rfl
    · exact nofun
  next => exact nofun

theorem KeyfileStore.pushesOwn (ε : Type) (slot : Nat) :
    (KeyfileStore.plugin ε slot).PushesOwn :=
  fun _ account key w => (w.keyfiles slot).account_of_mem_pushes account key w.disk

theorem MemoryStore.pushesOwn (ε : Type) (slot : Nat) (settings : MemorySettings) :
    (MemoryStore.plugin ε slot settings).PushesOwn := by
  intro c account key w push hpush
  change push ∈ ((w.memories slot).get account key).2 at hpush
  unfold get at hpush
  split at hpush
  next =>
    unfold pushes at hpush
    rcases List.mem_append.mp hpush with hpush | htext
    · rcases List.mem_append.mp hpush with hattr | hparam
      · obtain ⟨e, -, rfl⟩ := List.mem_map.mp hattr
        rfl
      · obtain ⟨e, -, rfl⟩ := List.mem_map.mp hparam
        rfl
    · obtain ⟨e, -, rfl⟩ := List.mem_map.mp htext
      rfl
  next => cases hpush

/-- An account that has just been created has nothing to push. -/
theorem MemoryStore.get_create (s : MemoryStore) (account : String) :
    (s.create account).get account none = (true, []) := by
  have hget : (s.create account).accounts.get? account = some {} := Dict.get?_insert_self _ _ _
  rw [get, Dict.contains_eq, hget, Option.isSome_some, if_pos rfl, pushes, account_of_get? hget]
  rfl

/-! ### Every operation keeps cache and stores coupled -/

/-- A source of identifiers that leaves the in-process stores alone. -/
def Identifier.SparesMemories (source : Identifier (World ε)) : Prop :=
  ∀ manager protocol parameters w,
    (source.identify manager protocol parameters w).2.memories = w.memories

/-- The plugins of a roster are backends, and its cache is coupled to them. -/
structure Coupled (built : List (Nat × BackendConfig)) (identifier : Option (Identifier (World ε)))
    (s : Running (World ε)) : Prop where
  registry : BuiltFrom built s.roster.registry
  identifier_eq : s.roster.identifier = identifier
  coupled : s.roster.cache.CoupledTo built s.world

namespace Coupled

variable {built : List (Nat × BackendConfig)} {identifier : Option (Identifier (World ε))}
  {r : Roster (World ε)} {w w' : World ε}

theorem of_sameAccounts (h : Coupled built identifier ⟨r, w⟩) (hsame : w.SameAccounts w') :
    Coupled built identifier ⟨r, w'⟩ :=
  ⟨h.registry, h.identifier_eq, h.coupled.of_sameAccounts hsame⟩

/-- A record is changed, and its owner is told. -/
theorem write (h : Coupled built identifier ⟨r, w⟩) {u : Update} {record record' : Record}
    (hrecord : r.cache.record? u.account = some record) (howner : record'.owner = record.owner)
    (hbacks : ∀ a : StoredAccount, a.Backs r.cache.codec record →
      (a.updated u).Backs r.cache.codec record') :
    Coupled built identifier ⟨{ r with cache := r.cache.insert u.account record' },
      ({ r with cache := r.cache.insert u.account record' } : Roster (World ε)).dispatch u w⟩ := by
  have hstored : ∀ slot, OnMemory built slot record'.owner →
      (w.memories slot).accounts.contains u.account = true := by
    intro slot hon
    rw [howner] at hon
    obtain ⟨a, hget, -⟩ := h.coupled.backed slot u.account record hrecord hon
    rw [Dict.contains_eq, show (w.memories slot).accounts.get? u.account = some a from hget]
    rfl
  have hchanges : Changes built record'.owner (·.update u.account (·.updated u)) w
      (({ r with cache := r.cache.insert u.account record' } : Roster (World ε)).dispatch u w) := by
    refine Roster.changes_dispatch ?_ (Cache.record?_insert_self _ _ _) hstored
    exact h.registry
  rw [howner] at hchanges
  exact ⟨h.registry, h.identifier_eq, h.coupled.write hrecord howner hchanges hbacks⟩

theorem setAttribute (h : Coupled built identifier ⟨r, w⟩) (account name : String)
    (value : Option Value) :
    Coupled built identifier (r.setAttribute account name value w).running := by
  refine Roster.carryOut_keeps h fun c u hplan => ?_
  obtain ⟨record, new, hname, hrecord, hnew, rfl, rfl⟩ := Cache.planAttribute_eq_some hplan
  have hvalue : new.bind (r.cache.codec.takeAttribute name) = new := by
    cases new with
    | none => rfl
    | some v =>
        obtain ⟨given, type, -, htype, hcoerce⟩ := Cache.attributeValue_eq_some hnew
        rw [← Codec.type_of_coerce hcoerce] at htype
        exact Codec.takeAttribute_of_type htype
  exact h.write hrecord (record.owner_putAttribute name new) fun a ha =>
    ha.putAttribute hname hvalue

theorem setParameter (h : Coupled built identifier ⟨r, w⟩) (account name : String)
    (value : Option Value) :
    Coupled built identifier (r.setParameter account name value w).running := by
  refine Roster.carryOut_keeps h fun c u hplan => ?_
  obtain ⟨record, hrecord, rfl, rfl⟩ := Cache.planParameter_eq_some hplan
  exact h.write hrecord (record.owner_putTyped name value) fun a ha =>
    ha.putTyped account name value

theorem makeSecret (h : Coupled built identifier ⟨r, w⟩) (account name : String) :
    Coupled built identifier ⟨r.makeSecret account name, w⟩ :=
  ⟨h.registry, h.identifier_eq, h.coupled.markSecret account name⟩

theorem delete (h : Coupled built identifier ⟨r, w⟩) (account : String) :
    Coupled built identifier (r.delete account w).running := by
  cases hrecord : r.cache.record? account with
  | none =>
      rw [Roster.delete, Cache.find, hrecord]
      exact h
  | some record =>
      have hchanges := Roster.changes_delete (w := w) h.registry hrecord
      have hdelete : (r.delete account w).running =
          ⟨{ r with cache := r.cache.erase account }, (r.delete account w).world⟩ := by
        rw [Roster.delete, Cache.find, hrecord]
        rfl
      rw [hdelete]
      exact ⟨h.registry, h.identifier_eq, h.coupled.erase hrecord hchanges⟩

theorem commit (h : Coupled built identifier ⟨r, w⟩) (account : Option String) :
    Coupled built identifier ⟨r, r.commit account w⟩ :=
  h.of_sameAccounts (Roster.sameAccounts_commit h.registry account)

theorem identify (hspares : ∀ source, identifier = some source → source.SparesMemories)
    (h : Coupled built identifier ⟨r, w⟩) (manager protocol : String) (parameters : Parameters)
    (cancellation : Cancellation) :
    Coupled built identifier
      ⟨r, (r.identify manager protocol parameters cancellation w).2⟩ := by
  apply Roster.identify_keeps h
  intro source hsource
  have hmemories := hspares source (h.identifier_eq.symm.trans hsource) manager protocol
    parameters w
  exact h.of_sameAccounts (World.sameAccounts_of_memories hmemories)

/-- A key-file enters its accounts without the in-process stores. -/
theorem addAccount_keyfile (h : Coupled built identifier ⟨r, w⟩) {p : Registered (World ε)}
    {slot : Nat} {path : String} {separator : Char}
    (hn : built[p.id]? = some (slot, .keyfile path separator))
    (hplugin : p.plugin = KeyfileStore.plugin ε slot) (account : String) :
    Coupled built identifier (r.addAccount p account w).running := by
  rcases r.addAccount_cases p account w with ⟨-, heq⟩ | ⟨hnew, heq⟩
  · rwa [heq]
  · rw [heq, hplugin]
    have henters := (r.cache.enters_insert account (Record.new p.id)).takeAll
      ((w.keyfiles slot).account_of_mem_pushes account none w.disk)
    have hnot := not_onMemory_of_keyfile hn
    refine ⟨h.registry, h.identifier_eq, h.coupled.enter hnew henters ?_ ?_⟩
    · exact Changes.of_sameAccounts (World.sameAccounts_of_memories rfl) hnot
    · exact fun other hon => (hnot other hon).elim

/-- An in-process store enters an account that it has just created under a new name. -/
theorem addAccount_memory (h : Coupled built identifier ⟨r, w⟩) {p : Registered (World ε)}
    {slot : Nat} {settings : MemorySettings} (hn : built[p.id]? = some (slot, .memory settings))
    (hplugin : p.plugin = MemoryStore.plugin ε slot settings) {account : String}
    (hnew : r.cache.record? account = none) :
    Coupled built identifier
      (r.addAccount p account (w.putMemory slot ((w.memories slot).create account))).running := by
  rcases r.addAccount_cases p account (w.putMemory slot ((w.memories slot).create account)) with
    ⟨hold, -⟩ | ⟨-, heq⟩
  · exact (hold hnew).elim
  · have hget (c : Cache) : (MemoryStore.plugin ε slot settings).get c account none
        (w.putMemory slot ((w.memories slot).create account)) =
          (.ok true, [], w.putMemory slot ((w.memories slot).create account)) := by
      dsimp only [MemoryStore.plugin]
      rw [World.memories_putMemory_self, MemoryStore.get_create]
    rw [heq, hplugin, Roster.fetch, hget]
    refine ⟨h.registry, h.identifier_eq, ?_⟩
    exact h.coupled.enter hnew (r.cache.enters_insert account (Record.new p.id))
      (Changes.putMemory hn) fun _ _ => Cache.record?_insert_self _ _ _

theorem create (h : Coupled built identifier ⟨r, w⟩) (provider : Option String)
    (manager protocol identification : String) :
    Coupled built identifier (r.create provider manager protocol identification w).running := by
  apply Roster.create_keeps h
  · intro p hp w hw hnone
    rcases hw.registry.plugin_cases hp with ⟨slot, path, separator, hn, hplugin⟩ |
      ⟨slot, settings, hn, hplugin⟩
    · rw [hplugin]
      exact hw.of_sameAccounts (World.sameAccounts_of_memories rfl)
    · rw [hplugin] at hnone ⊢
      dsimp only [MemoryStore.plugin] at hnone ⊢
      split
      · exact hw
      next hrefuse => exact (hnone _ (congrArg Prod.fst (if_neg hrefuse))).elim
  · intro p hp w hw account hcreated
    rcases hw.registry.plugin_cases hp with ⟨slot, path, separator, hn, hplugin⟩ |
      ⟨slot, settings, hn, hplugin⟩
    · rw [hplugin]
      have hasked : Coupled built identifier ⟨r,
          ((KeyfileStore.plugin ε slot).create r.cache manager protocol identification w).2⟩ :=
        hw.of_sameAccounts (World.sameAccounts_of_memories rfl)
      exact hasked.addAccount_keyfile hn hplugin account
    · rw [hplugin] at hcreated ⊢
      dsimp only [MemoryStore.plugin] at hcreated ⊢
      split at hcreated
      next => cases hcreated
      next hrefuse =>
        cases hcreated
        rw [if_neg hrefuse]
        exact hw.addAccount_memory hn hplugin (Cache.record?_uniqueName _ _ _ _)

end Coupled

/-- No operation uncouples the cache from the in-process stores. -/
theorem kept_coupled (built : List (Nat × BackendConfig))
    {identifier : Option (Identifier (World ε))}
    (hspares : ∀ source, identifier = some source → source.SparesMemories) :
    Kept (Coupled built identifier) where
  create := Coupled.create
  setAttribute := Coupled.setAttribute
  setParameter := Coupled.setParameter
  makeSecret := Coupled.makeSecret
  delete := Coupled.delete
  commit := Coupled.commit
  identify := Coupled.identify hspares

end AccountRoster
