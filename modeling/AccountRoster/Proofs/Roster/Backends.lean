import AccountRoster.Config
import AccountRoster.Proofs.Backend.Memory
import AccountRoster.Proofs.Roster.Registry
import AccountRoster.Roster.Lifecycle

/-!
# Rosters of built-in backends

The plugins are key-files and in-process stores, each on a slot of the world. What
such a plugin is asked to do reaches the in-process store in its own slot, if it has
one there, and no other: a key-file leaves all of them alone.

## Implementation notes

A backend is known by its position in the order of registration, which is the number
of its plugin. `Changes` speaks of the stored accounts only, as nothing else of an
in-process store is ever read.
-/

namespace AccountRoster

variable {ε : Type}

/-- A roster of backends, registered in order, each on its slot. -/
def Roster.ofBackends (codec : Codec) (built : List (Nat × BackendConfig))
    (identifier : Option (Identifier (World ε))) : Roster (World ε) :=
  { (Roster.new codec).registerAll (built.map fun b => b.2.plugin ε b.1) with identifier }

/-- The plugins of a registry are backends, each numbered by its position. -/
structure BuiltFrom (built : List (Nat × BackendConfig))
    (registry : List (Registered (World ε))) : Prop where
  nodup : (registry.map Registered.id).Nodup
  mem_iff : ∀ p, p ∈ registry ↔ ∃ b, built[p.id]? = some b ∧ p.plugin = b.2.plugin ε b.1

/-- Whether the plugin of a given number is the in-process store in a slot. -/
def OnMemory (built : List (Nat × BackendConfig)) (slot n : Nat) : Prop :=
  ∃ settings, built[n]? = some (slot, .memory settings)

/-- What is done to the in-process store of a plugin, if it is one, is done to no other. -/
structure Changes (built : List (Nat × BackendConfig)) (n : Nat)
    (change : MemoryStore → MemoryStore) (w w' : World ε) : Prop where
  hit : ∀ slot, OnMemory built slot n →
    (w'.memories slot).accounts = (change (w.memories slot)).accounts
  miss : ∀ slot, ¬OnMemory built slot n → (w'.memories slot).accounts = (w.memories slot).accounts

/-- The stored accounts are the same in two worlds. -/
def World.SameAccounts (w w' : World ε) : Prop :=
  ∀ slot, (w'.memories slot).accounts = (w.memories slot).accounts

theorem World.sameAccounts_of_memories {w w' : World ε} (h : w'.memories = w.memories) :
    w.SameAccounts w' := by
  intro slot
  rw [h]

namespace Changes

variable {built : List (Nat × BackendConfig)} {n slot : Nat} {change : MemoryStore → MemoryStore}
  {w w' : World ε}

/-- A plugin that is not in-process leaves the stored accounts alone. -/
theorem of_sameAccounts (h : w.SameAccounts w') (hnot : ∀ slot, ¬OnMemory built slot n) :
    Changes built n change w w' :=
  ⟨fun slot hon => (hnot slot hon).elim, fun slot _ => h slot⟩

theorem putMemory {settings : MemorySettings} (hn : built[n]? = some (slot, .memory settings)) :
    Changes built n change w (w.putMemory slot (change (w.memories slot))) where
  hit := by
    rintro other ⟨_, hother⟩
    rw [hn] at hother
    cases hother
    rw [World.memories_putMemory_self]
  miss := by
    intro other hnot
    have hne : other ≠ slot := by
      rintro rfl
      exact hnot ⟨settings, hn⟩
    exact congrArg MemoryStore.accounts (if_neg hne)

/-- A change that leaves the accounts alone leaves all of them alone. -/
theorem sameAccounts (h : Changes built n change w w')
    (hsame : ∀ s : MemoryStore, (change s).accounts = s.accounts) : w.SameAccounts w' := by
  intro slot
  by_cases hon : OnMemory built slot n
  · exact (h.hit slot hon).trans (hsame _)
  · exact h.miss slot hon

end Changes

/-- A registered plugin is a key-file or an in-process store. -/
theorem BuiltFrom.plugin_cases {built : List (Nat × BackendConfig)}
    {registry : List (Registered (World ε))} (h : BuiltFrom built registry)
    {p : Registered (World ε)} (hp : p ∈ registry) :
    (∃ slot path separator, built[p.id]? = some (slot, .keyfile path separator) ∧
        p.plugin = KeyfileStore.plugin ε slot) ∨
      ∃ slot settings, built[p.id]? = some (slot, .memory settings) ∧
        p.plugin = MemoryStore.plugin ε slot settings := by
  obtain ⟨⟨slot, config⟩, hb, hplugin⟩ := (h.mem_iff p).mp hp
  cases config with
  | keyfile path separator => exact Or.inl ⟨slot, path, separator, hb, hplugin⟩
  | memory settings => exact Or.inr ⟨slot, settings, hb, hplugin⟩

theorem not_onMemory_of_keyfile {built : List (Nat × BackendConfig)} {n slot : Nat} {path : String}
    {separator : Char} (hn : built[n]? = some (slot, .keyfile path separator)) (other : Nat) :
    ¬OnMemory built other n := by
  rintro ⟨settings, hother⟩
  rw [hn] at hother
  cases hother

namespace Roster

variable {built : List (Nat × BackendConfig)} {r : Roster (World ε)} {n : Nat} {w : World ε}

theorem builtFrom_ofBackends (codec : Codec) (built : List (Nat × BackendConfig))
    (identifier : Option (Identifier (World ε))) :
    BuiltFrom built (ofBackends codec built identifier).registry where
  nodup := ((numbered_new codec).registerAll _).nodup
  mem_iff := by
    intro p
    change p ∈ ((Roster.new codec).registerAll (built.map fun b => b.2.plugin ε b.1)).registry ↔ _
    have hlength : (Roster.new codec : Roster (World ε)).registry.length = 0 := rfl
    rw [mem_registerAll, hlength]
    constructor
    · rintro (hnil | ⟨k, hid, hk⟩)
      · cases hnil
      · rw [List.getElem?_map] at hk
        obtain ⟨b, hb, hplugin⟩ := Option.map_eq_some_iff.mp hk
        rw [Nat.zero_add] at hid
        exact ⟨b, by rwa [hid], hplugin.symm⟩
    · rintro ⟨b, hb, hplugin⟩
      refine Or.inr ⟨p.id, (Nat.zero_add _).symm, ?_⟩
      rw [List.getElem?_map, hb, hplugin]
      rfl

theorem plugin?_of_builtFrom (h : BuiltFrom built r.registry) (n : Nat) :
    r.plugin? n = (built[n]?).map fun b => b.2.plugin ε b.1 := by
  apply Option.ext
  intro plugin
  rw [plugin?_eq_some_iff h.nodup, h.mem_iff, Option.map_eq_some_iff]
  constructor
  · rintro ⟨b, hb, hplugin⟩
    exact ⟨b, hb, hplugin.symm⟩
  · rintro ⟨b, hb, hplugin⟩
    exact ⟨b, hb, hplugin.symm⟩

/-- What a plugin is asked to do reaches its own store. -/
theorem changes_ask (h : BuiltFrom built r.registry)
    {change : MemoryStore → MemoryStore} {ask : Plugin (World ε) → World ε}
    (hkeyfile : ∀ slot, (ask (KeyfileStore.plugin ε slot)).memories = w.memories)
    (hmemory : ∀ slot settings, built[n]? = some (slot, .memory settings) →
      ask (MemoryStore.plugin ε slot settings) = w.putMemory slot (change (w.memories slot))) :
    Changes built n change w ((r.plugin? n).elim w ask) := by
  rw [plugin?_of_builtFrom h]
  cases hn : built[n]? with
  | none =>
      refine Changes.of_sameAccounts (fun _ => rfl) ?_
      rintro slot ⟨settings, hother⟩
      rw [hn] at hother
      cases hother
  | some b =>
      obtain ⟨slot, config⟩ := b
      cases config with
      | keyfile path separator =>
          exact Changes.of_sameAccounts (World.sameAccounts_of_memories (hkeyfile slot))
            (not_onMemory_of_keyfile hn)
      | memory settings =>
          rw [Option.map_some, Option.elim_some]
          change Changes built n change w (ask (MemoryStore.plugin ε slot settings))
          rw [hmemory slot settings hn]
          exact Changes.putMemory hn

/-- An update of an account reaches what is stored of it. -/
theorem changes_dispatch (h : BuiltFrom built r.registry)
    {u : Update} {record : Record} (hrecord : r.cache.record? u.account = some record)
    (hstored : ∀ slot, OnMemory built slot record.owner →
      (w.memories slot).accounts.contains u.account = true) :
    Changes built record.owner (·.update u.account (·.updated u)) w (r.dispatch u w) := by
  have hdispatch : r.dispatch u w =
      (r.plugin? record.owner).elim w fun plugin => r.tell plugin u w := by
    rw [dispatch, owner?, hrecord, Option.bind_some]
    cases r.plugin? record.owner <;> rfl
  rw [hdispatch]
  apply changes_ask h
  · intro slot
    unfold tell offer
    cases u.value with
    | none => rfl
    | some v => cases FlatKey.ofText u.key <;> rfl
  · intro slot settings hn
    exact r.tell_memory (hstored slot ⟨settings, hn⟩)

/-- A deleted account is gone from the store of its owner. -/
theorem changes_delete (h : BuiltFrom built r.registry)
    {account : String} {record : Record} (hrecord : r.cache.record? account = some record) :
    Changes built record.owner (fun s => (s.delete account none).2) w
      (r.delete account w).world := by
  have hdelete : (r.delete account w).world =
      (r.plugin? record.owner).elim w fun plugin => (plugin.delete r.cache account none w).2 := by
    rw [delete, Cache.find, hrecord, owner?, hrecord, Option.bind_some]
    cases r.plugin? record.owner <;> rfl
  rw [hdelete]
  apply changes_ask h
  · exact fun _ => rfl
  · exact fun _ _ _ => rfl

/-- A commit leaves the stored accounts alone. -/
theorem sameAccounts_commit (h : BuiltFrom built r.registry)
    (account : Option String) : w.SameAccounts (r.commit account w) := by
  have hplugin (n : Nat) (w : World ε) : w.SameAccounts
      ((r.plugin? n).elim w fun plugin => (plugin.commit r.cache account w).2) := by
    have hchanges : Changes built n (·.commit account) w
        ((r.plugin? n).elim w fun plugin => (plugin.commit r.cache account w).2) :=
      changes_ask h (fun _ => rfl) fun _ _ _ => rfl
    exact hchanges.sameAccounts fun _ => rfl
  cases account with
  | some account =>
      rw [commit, owner?]
      cases r.cache.record? account with
      | none => exact fun _ => rfl
      | some record =>
          rw [Option.bind_some]
          have hsame := hplugin record.owner w
          cases hp : r.plugin? record.owner with
          | none => exact fun _ => rfl
          | some plugin => rwa [hp] at hsame
  | none =>
      have hfold : ∀ (plugins : List (Registered (World ε))) (w' : World ε),
          plugins ⊆ r.registry → w.SameAccounts w' →
          w.SameAccounts (plugins.foldl (fun w p => (p.plugin.commit r.cache none w).2) w') := by
        intro plugins
        induction plugins with
        | nil => exact fun w' _ hw => hw
        | cons p more ih =>
            intro w' hsubset hw
            obtain ⟨hp, hmore⟩ := List.cons_subset.mp hsubset
            apply ih _ hmore
            have hsame := hplugin p.id w'
            rw [(plugin?_eq_some_iff h.nodup).mpr hp] at hsame
            exact fun slot => (hsame slot).trans (hw slot)
      exact hfold r.registry w (fun _ hp => hp) fun _ => rfl

end Roster

end AccountRoster
