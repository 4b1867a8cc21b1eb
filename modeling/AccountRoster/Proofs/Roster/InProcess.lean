import AccountRoster.Proofs.Roster.Coupling
import AccountRoster.Proofs.Roster.LoadOutcome

/-!
# In-process stores through a session

A load of built-in backends makes a record for everything that is stored in-process,
and from then on cache and stores stay together. What a store pushes for one of its
accounts is then what the cache already holds.

## Implementation notes

Stores are only ever seeded with attributes before a load, so that what they push is
all there is. The load is followed twice: records are backed from one account to the
next (`Backing`), and the outcome of the load says that every stored account was
entered.
-/

namespace AccountRoster

variable {ε : Type} {built : List (Nat × BackendConfig)}

/-- A load of backends goes on: the stores are as they were, and back every record. -/
structure Backing (built : List (Nat × BackendConfig)) (r : Roster (World ε)) (w : World ε)
    (s : Running (World ε)) : Prop where
  registry_eq : s.roster.registry = r.registry
  identifier_eq : s.roster.identifier = r.identifier
  memories_eq : s.world.memories = w.memories
  backed : s.roster.cache.BackedBy built s.world

/-- All accounts of the in-process stores only have attributes. -/
def World.Plain (built : List (Nat × BackendConfig)) (w : World ε) : Prop :=
  ∀ slot n account a, OnMemory built slot n →
    (w.memories slot).accounts.get? account = some a → a.Plain

namespace Backing

variable {r t : Roster (World ε)} {w v v' : World ε}

theorem of_memories (h : Backing built r w ⟨t, v⟩) (hsame : v'.memories = v.memories) :
    Backing built r w ⟨t, v'⟩ :=
  ⟨h.registry_eq, h.identifier_eq, hsame.trans h.memories_eq,
    h.backed.of_sameAccounts (World.sameAccounts_of_memories hsame)⟩

theorem addAccount_keyfile (h : Backing built r w ⟨t, v⟩) {p : Registered (World ε)} {slot : Nat}
    {path : String} {separator : Char} (hn : built[p.id]? = some (slot, .keyfile path separator))
    (hplugin : p.plugin = KeyfileStore.plugin ε slot) (account : String) :
    Backing built r w (t.addAccount p account v).running := by
  rcases t.addAccount_cases p account v with ⟨-, heq⟩ | ⟨-, heq⟩
  · rwa [heq]
  · rw [heq, hplugin]
    have henters := (t.cache.enters_insert account (Record.new p.id)).takeAll
      ((v.keyfiles slot).account_of_mem_pushes account none v.disk)
    refine ⟨h.registry_eq, h.identifier_eq, h.memories_eq, ?_⟩
    refine h.backed.enter henters (fun _ _ _ => rfl) fun other _ hon => ?_
    exact (not_onMemory_of_keyfile hn other hon).elim

/-- A stored account is entered with the record that is made of it. -/
theorem addAccount_memory (h : Backing built r w ⟨t, v⟩) {p : Registered (World ε)} {slot : Nat}
    {settings : MemorySettings} (hn : built[p.id]? = some (slot, .memory settings))
    (hplugin : p.plugin = MemoryStore.plugin ε slot settings) {account : String} {a : StoredAccount}
    (hstored : (v.memories slot).accounts.get? account = some a) (ha : a.Plain) :
    Backing built r w (t.addAccount p account v).running := by
  rcases t.addAccount_cases p account v with ⟨-, heq⟩ | ⟨-, heq⟩
  · rwa [heq]
  · have hget (c : Cache) : (MemoryStore.plugin ε slot settings).get c account none v =
        (.ok true, (v.memories slot).pushes account none, v) := by
      dsimp only [MemoryStore.plugin]
      rw [MemoryStore.get, Dict.contains_eq, hstored, Option.isSome_some, if_pos rfl]
    have htake := MemoryStore.takeAll_pushes hstored ha.escaped t.cache p.id
    have howner : (a.toRecord t.cache.codec p.id).owner = p.id :=
      StoredAccount.owner_toRecord t.cache.codec p.id a
    have henters := t.cache.enters_insert account (a.toRecord t.cache.codec p.id)
    rw [heq, hplugin, Roster.fetch, hget]
    refine ⟨h.registry_eq, h.identifier_eq, h.memories_eq, ?_⟩
    change Cache.BackedBy built ((t.cache.insert account (Record.new p.id)).takeAll _) v
    rw [htake]
    refine h.backed.enter henters (fun _ _ _ => rfl) fun other record hon hrecord => ?_
    obtain ⟨_, hother⟩ := hon
    rw [howner, hn] at hother
    cases hother
    rw [Cache.record?_insert_self] at hrecord
    cases hrecord
    exact ⟨a, hstored, ha.backs p.id⟩

/-- Whatever a plugin lists, the records stay backed. -/
theorem keptByLoading (hbuilt : BuiltFrom built r.registry) (hplain : w.Plain built) :
    Roster.KeptByLoading (Backing built r w) r.registry where
  list := by
    intro s hs p hp
    rcases hbuilt.plugin_cases hp with ⟨slot, path, separator, hn, hplugin⟩ |
      ⟨slot, settings, hn, hplugin⟩
    · rw [hplugin]
      exact hs.of_memories rfl
    · rw [hplugin]
      exact hs
  add := by
    intro s t hs ht p hp accounts hlist account haccount
    rcases hbuilt.plugin_cases hp with ⟨slot, path, separator, hn, hplugin⟩ |
      ⟨slot, settings, hn, hplugin⟩
    · exact ht.addAccount_keyfile hn hplugin account
    · rw [hplugin] at hlist
      cases hlist
      rw [Dict.mem_keys_iff, Dict.contains_eq, Option.isSome_iff_exists, hs.memories_eq] at haccount
      obtain ⟨a, hstored⟩ := haccount
      have ha := hplain slot p.id account a ⟨settings, hn⟩ hstored
      rw [← ht.memories_eq] at hstored
      exact ht.addAccount_memory hn hplugin hstored ha

end Backing

/-- After a load without conflict, the cache is coupled to the in-process stores. -/
theorem coupled_load {r : Roster (World ε)} (hbuilt : BuiltFrom built r.registry)
    (hempty : r.cache.accounts = Dict.empty) {w : World ε} (hplain : w.Plain built)
    (hok : (r.load w).answer = .ok ()) : Coupled built r.identifier (r.load w).running := by
  have hkept := Backing.keptByLoading hbuilt hplain
  have hstart : Backing built r w ⟨r, w⟩ := by
    refine ⟨rfl, rfl, rfl, fun slot account record hrecord => ?_⟩
    rw [Cache.record?, hempty] at hrecord
    cases hrecord
  have hend : Backing built r w (r.load w).running := hkept.load hstart
  have hentering := Roster.entering_loadPlugins hbuilt.nodup (fun _ => List.mem_reverse.mp)
    (Roster.Holds.nil hempty) List.nodup_nil w
  have hholds : (r.load w).roster.Holds
      ((Roster.heard r.registry.reverse r w).flatMap Listing.claims) := by
    cases hentering with
    | entered hanswer hdistinct hholds => exact hholds
    | conflict first second done rest hclaims hfirst hsame hdistinct hanswer hholds =>
        cases hok.symm.trans hanswer
  refine ⟨hend.registry_eq.symm ▸ hbuilt, hend.identifier_eq, hend.backed, ?_⟩
  rintro slot account a ⟨n, settings, hn⟩ hstored
  rw [hend.memories_eq] at hstored
  -- the plugin of the store has been asked, and has listed the account
  have hp : (⟨n, MemoryStore.plugin ε slot settings⟩ : Registered (World ε)) ∈ r.registry :=
    (hbuilt.mem_iff _).mpr ⟨_, hn, rfl⟩
  rw [← List.mem_reverse, ← Roster.heard_of_ok hok] at hp
  obtain ⟨listing, hlisting, hplugin⟩ := List.mem_map.mp hp
  obtain ⟨s, hs, hanswer⟩ := Roster.exists_of_mem_heard
    (hkept.of_subset fun _ => List.mem_reverse.mp) hstart hlisting
  have hclaim : (⟨account, ⟨n, MemoryStore.plugin ε slot settings⟩⟩ : Claim (World ε)) ∈
      (Roster.heard r.registry.reverse r w).flatMap Listing.claims := by
    refine List.mem_flatMap.mpr ⟨listing, hlisting, ?_⟩
    have hkeys : listing.answer = .ok (w.memories slot).accounts.keys := by
      rw [hanswer, hplugin, ← hs.memories_eq]
      rfl
    rw [Listing.claims, hkeys, hplugin]
    refine List.mem_map.mpr ⟨account, ?_, rfl⟩
    rw [Dict.mem_keys_iff, Dict.contains_eq, hstored]
    rfl
  obtain ⟨record, hrecord, howner⟩ := Option.map_eq_some_iff.mp (hholds.owner _ hclaim)
  exact ⟨record, hrecord, settings, howner ▸ hn⟩

namespace Coupled

variable {identifier : Option (Identifier (World ε))} {s : Running (World ε)} {slot : Nat}

/-- A stored account has a record, which it backs. -/
theorem exists_record (h : Coupled built identifier s) (hslot : ∃ n, OnMemory built slot n)
    {account : String} {a : StoredAccount}
    (hstored : (s.world.memories slot).accounts.get? account = some a) :
    ∃ record, s.roster.cache.record? account = some record ∧ OnMemory built slot record.owner ∧
      a.Backs s.roster.cache.codec record := by
  obtain ⟨record, hrecord, hon⟩ := h.coupled.cached slot account a hslot hstored
  obtain ⟨b, hb, hbacks⟩ := h.coupled.backed slot account record hrecord hon
  rw [hstored] at hb
  cases hb
  exact ⟨record, hrecord, hon, hbacks⟩

/-- The stored accounts are the cached ones that belong to the store. -/
theorem contains_iff (h : Coupled built identifier s) (hslot : ∃ n, OnMemory built slot n)
    (account : String) :
    (s.world.memories slot).accounts.contains account = true ↔
      ∃ record settings, s.roster.cache.record? account = some record ∧
        built[record.owner]? = some (slot, .memory settings) ∧
        s.roster.owner? account = some (MemoryStore.plugin ε slot settings) := by
  rw [Dict.contains_eq, Option.isSome_iff_exists]
  constructor
  · rintro ⟨a, hstored⟩
    obtain ⟨record, hrecord, ⟨settings, hon⟩, -⟩ := h.exists_record hslot hstored
    refine ⟨record, settings, hrecord, hon, ?_⟩
    rw [Roster.owner?, hrecord, Option.bind_some, Roster.plugin?_of_builtFrom h.registry, hon]
    rfl
  · rintro ⟨record, settings, hrecord, hon, -⟩
    obtain ⟨a, hstored, -⟩ := h.coupled.backed slot account record hrecord ⟨settings, hon⟩
    exact ⟨a, hstored⟩

/-- What is pushed for a stored account into an empty record makes it the cached one. -/
theorem takeAll_get (h : Coupled built identifier s) (hslot : ∃ n, OnMemory built slot n)
    {account : String} {record : Record} (hrecord : s.roster.cache.record? account = some record)
    (hcontains : (s.world.memories slot).accounts.contains account = true) (owner : Nat) :
    ((s.world.memories slot).get account none).1 = true ∧
      ∃ pushed, ((({ codec := s.roster.cache.codec } : Cache).insert account
          (Record.new owner)).takeAll
            ((s.world.memories slot).get account none).2).record? account = some pushed ∧
        pushed.attributes = record.attributes ∧ pushed.typed = record.typed ∧
        pushed.escaped = record.escaped := by
  obtain ⟨a, hstored⟩ := Option.isSome_iff_exists.mp hcontains
  obtain ⟨found, hfound, -, hbacks⟩ := h.exists_record hslot hstored
  rw [hrecord] at hfound
  cases hfound
  rw [MemoryStore.get, if_pos hcontains]
  refine ⟨rfl, a.toRecord s.roster.cache.codec owner, ?_, hbacks.toRecord_eq owner⟩
  rw [MemoryStore.takeAll_pushes hstored hbacks.noText, Cache.record?_insert_self]

/-- What is stored as secret is cached as secret. -/
theorem isSecret (h : Coupled built identifier s) (hslot : ∃ n, OnMemory built slot n)
    {account name : String} (hsecret : (s.world.memories slot).isSecret account name = true) :
    s.roster.cache.isSecret account name = true := by
  cases hstored : (s.world.memories slot).accounts.get? account with
  | none =>
      rw [MemoryStore.isSecret, MemoryStore.account, hstored] at hsecret
      cases hsecret
  | some a =>
      obtain ⟨record, hrecord, -, hbacks⟩ := h.exists_record hslot hstored
      rw [MemoryStore.isSecret, MemoryStore.account_of_get? hstored] at hsecret
      rw [Cache.isSecret, hrecord]
      exact hbacks.secrets name hsecret

end Coupled

/-- Start from in-process stores that were seeded with attributes, load them together
with any key-files, and make any calls. Every in-process store then has exactly the
cached accounts that belong to it, pushes for each of them exactly what is cached, and
holds nothing as secret that is not cached as secret. -/
theorem memory_write_through (codec : Codec) (built : List (Nat × BackendConfig))
    {identifier : Option (Identifier (World ε))}
    (hspares : ∀ source, identifier = some source → source.SparesMemories) {w : World ε}
    (hseeded : ∀ slot settings, (slot, BackendConfig.memory settings) ∈ built →
      ∃ attributes, w.memories slot = MemoryStore.seeded attributes)
    (hload : ((Roster.ofBackends codec built identifier).load w).answer = .ok ())
    (calls : List Call) :
    let s := ((Roster.ofBackends codec built identifier).load w).running.run calls
    ∀ slot settings, (slot, BackendConfig.memory settings) ∈ built →
      (∀ account, (s.world.memories slot).accounts.contains account = true ↔
        ∃ record own, s.roster.cache.record? account = some record ∧
          built[record.owner]? = some (slot, .memory own) ∧
          s.roster.owner? account = some (MemoryStore.plugin ε slot own)) ∧
      (∀ account record, s.roster.cache.record? account = some record →
        (s.world.memories slot).accounts.contains account = true →
        let found := (s.world.memories slot).get account none
        let empty : Cache := { codec := s.roster.cache.codec }
        found.1 = true ∧ ∃ pushed,
          ((empty.insert account (Record.new record.owner)).takeAll found.2).record? account =
            some pushed ∧
          pushed.attributes = record.attributes ∧ pushed.typed = record.typed ∧
          pushed.escaped = record.escaped) ∧
      ∀ account name, (s.world.memories slot).isSecret account name = true →
        s.roster.cache.isSecret account name = true := by
  intro s slot settings hmem
  have hplain : w.Plain built := by
    rintro slot n account a ⟨settings, hn⟩ hstored
    obtain ⟨attributes, heq⟩ := hseeded slot settings (List.mem_of_getElem? hn)
    rw [heq] at hstored
    exact MemoryStore.plain_of_seeded attributes hstored
  have hempty : (Roster.ofBackends codec built identifier).cache.accounts = Dict.empty :=
    congrArg Cache.accounts (Roster.cache_registerAll (Roster.new codec) _)
  have hstart := coupled_load (Roster.builtFrom_ofBackends codec built identifier) hempty hplain
    hload
  have hs : Coupled built identifier s := (kept_coupled built hspares).run hstart calls
  obtain ⟨n, hn⟩ := List.mem_iff_getElem?.mp hmem
  have hslot : ∃ n, OnMemory built slot n := ⟨n, settings, hn⟩
  refine ⟨hs.contains_iff hslot, fun account record hrecord hcontains => ?_, fun account name => ?_⟩
  · exact hs.takeAll_get hslot hrecord hcontains record.owner
  · exact hs.isSecret hslot

/-- A secret of a seeded account, written through a roster with a key-file, is a secret
on both sides. -/
theorem memory_write_through_seeded :
    let built : List (Nat × BackendConfig) :=
      [(0, .keyfile "a.cfg" ','), (0, .memory { name := "memory" })]
    let w := ((World.new Disk.empty ()).putKeyfile 0 (.new "a.cfg" ',')).putMemory 0
      (MemoryStore.seeded [("a", "Enabled", .string "1"), ("a", "odd", .boolean true)])
    let s := ((Roster.ofBackends {} built none).load w).running.run
      [.makeSecret "a" "password", .setParameter "a" "password" (some (.string "x"))]
    (s.world.memories 0).isSecret "a" "password" = true ∧
      s.roster.cache.isSecret "a" "password" = true := by
  intro built w s
  have hseeded : ∀ slot settings, (slot, BackendConfig.memory settings) ∈ built →
      ∃ attributes, w.memories slot = MemoryStore.seeded attributes := by
    intro slot settings hmem
    have hslot : slot = 0 := by
      rcases List.mem_cons.mp hmem with h | h
      · cases h
      · exact congrArg Prod.fst (List.mem_singleton.mp h)
    rw [hslot]
    exact ⟨_, World.memories_putMemory_self _ 0 _⟩
  have hload : ((Roster.ofBackends {} built none).load w).answer = .ok () := by decide +kernel
  have hspares : ∀ source : Identifier (World Unit), none = some source →
      source.SparesMemories := by
    intro source h
    cases h
  have hwritten := memory_write_through {} built hspares hseeded hload
    [.makeSecret "a" "password", .setParameter "a" "password" (some (.string "x"))]
    0 { name := "memory" } (by decide)
  have hsecret : (s.world.memories 0).isSecret "a" "password" = true := by decide +kernel
  exact ⟨hsecret, hwritten.2.2 "a" "password" hsecret⟩

end AccountRoster
