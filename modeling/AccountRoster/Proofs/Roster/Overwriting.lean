import AccountRoster.Proofs.Backend.StoreCalls
import AccountRoster.Proofs.Roster.InProcess
import AccountRoster.Proofs.Roster.Visits

/-!
# What the creation of an account leaves of stored data

The name of a new account is free in the cache, which says nothing of the backends: an
account may be stored that was never loaded. A key-file takes no account whose group it
has. An in-process store puts an account without data over one of the same name.

## Implementation notes

For in-process stores the creation is followed to its outcome, as it is to be said when
data is lost and not only that it may be.
-/

namespace AccountRoster

variable {ε : Type}

/-! ### Key-files -/

namespace KeyfileStore

variable {s t : KeyfileStore} {d e : Disk}

/-- No group that is stored is lost or changed, and every path holds what it held. -/
structure Preserves (s : KeyfileStore) (d : Disk) (t : KeyfileStore) (e : Disk) : Prop where
  contents : ∀ path, e.contents path = d.contents path
  group : ∀ account entries, s.group? d account = some entries → t.group? e account = some entries

/-- To read a key-file changes nothing that is stored. -/
theorem preserves_ensureLoaded (s : KeyfileStore) (d : Disk) :
    s.Preserves d (s.ensureLoaded d).store (s.ensureLoaded d).disk where
  contents := s.contents_ensureLoaded d
  group account entries hgroup := by
    rwa [group?, kept_ensureLoaded]

/-- A call that preserves what is stored if the file is in memory also does if the file has
to be read first. -/
theorem preserves_whenLoaded {α : Type}
    {next : KeyfileStore → Except RosterError α × KeyfileStore}
    (hloaded : ∀ (t : KeyfileStore) (e : Disk), t.loaded = true →
      t.Preserves e (t.whenLoaded e next).store (t.whenLoaded e next).disk)
    (s : KeyfileStore) (d : Disk) :
    s.Preserves d (s.whenLoaded d next).store (s.whenLoaded d next).disk := by
  have hread := s.preserves_ensureLoaded d
  cases hensure : s.ensureLoaded d with
  | mk answer t e =>
      rw [hensure] at hread
      cases answer with
      | error fault =>
          rw [whenLoaded, hensure]
          exact hread
      | ok _ =>
          have ht := loaded_of_ensureLoaded hensure
          have hcall := hloaded t e ht
          rw [whenLoaded_of_loaded ht] at hcall
          rw [whenLoaded, hensure]
          exact ⟨hread.contents, fun account entries hgroup =>
            hcall.group account entries (hread.group account entries hgroup)⟩

theorem preserves_get (s : KeyfileStore) (account : String) (key : Option String) (d : Disk) :
    s.Preserves d (s.get account key d).store (s.get account key d).disk := by
  refine preserves_whenLoaded (fun t e ht => ?_) s d
  rw [whenLoaded_of_loaded ht]
  split <;> exact ⟨fun _ => rfl, fun _ _ h => h⟩

/-- A group is added where there is none. -/
theorem preserves_create (s : KeyfileStore) (name : String) (d : Disk) :
    s.Preserves d (s.create name d).store (s.create name d).disk := by
  refine preserves_whenLoaded (fun t e ht => ?_) s d
  change t.Preserves e (t.create name e).store (t.create name e).disk
  rcases create_of_loaded ht name e with ⟨fault, hrefused⟩ | ⟨-, hnew, hcreated⟩
  · rw [hrefused]
    exact ⟨fun _ => rfl, fun _ _ h => h⟩
  · rw [hcreated]
    refine ⟨fun _ => rfl, fun account entries hgroup => ?_⟩
    rw [group?_of_loaded ht] at hgroup
    have hne : name ≠ account := by
      rintro rfl
      rw [hnew] at hgroup
      cases hgroup
    rw [group?_of_loaded (by exact ht)]
    dsimp only
    rwa [Keyfile.groups_openGroup_of_none hnew, if_neg hne]

end KeyfileStore

namespace World

/-- What is stored of an account by the key-file in a slot. -/
def group? (w : World ε) (slot : Nat) (account : String) : Option (Dict String) :=
  (w.keyfiles slot).group? w.disk account

/-- No group of a key-file is lost or changed, and every path holds what it held. -/
structure PreservesKeyfiles (w w' : World ε) : Prop where
  contents : ∀ path, w'.disk.contents path = w.disk.contents path
  group : ∀ slot account entries, w.group? slot account = some entries →
    w'.group? slot account = some entries

namespace PreservesKeyfiles

variable {w w' w'' : World ε}

theorem refl (w : World ε) : w.PreservesKeyfiles w := ⟨fun _ => rfl, fun _ _ _ h => h⟩

theorem trans (h : w.PreservesKeyfiles w') (h' : w'.PreservesKeyfiles w'') :
    w.PreservesKeyfiles w'' where
  contents path := (h'.contents path).trans (h.contents path)
  group slot account entries hgroup :=
    h'.group slot account entries (h.group slot account entries hgroup)

/-- A call on one key-file leaves the groups of the others alone. -/
theorem afterKeyfile {α : Type} {slot : Nat} {reply : StoreReply α}
    (h : (w.keyfiles slot).Preserves w.disk reply.store reply.disk) :
    w.PreservesKeyfiles (w.afterKeyfile slot reply) where
  contents := h.contents
  group := forall_keyfiles_afterKeyfile
    (P := fun n s => ∀ account entries, w.group? n account = some entries →
      s.group? reply.disk account = some entries)
    h.group fun n _ account entries hgroup => by
      rwa [KeyfileStore.group?_congr (h.contents _)]

end PreservesKeyfiles

end World

namespace Roster

variable {built : List (Nat × BackendConfig)} {r : Roster (World ε)} {w : World ε}

theorem preservesKeyfiles_addAccount (hbuilt : BuiltFrom built r.registry)
    {p : Registered (World ε)} (hp : p ∈ r.registry) (account : String) (w : World ε) :
    w.PreservesKeyfiles (r.addAccount p account w).world := by
  rcases r.addAccount_cases p account w with ⟨-, heq⟩ | ⟨-, heq⟩
  · rw [show (r.addAccount p account w).world = w from congrArg Running.world heq]
    exact .refl w
  · rw [show (r.addAccount p account w).world = _ from congrArg Running.world heq]
    rcases hbuilt.plugin_cases hp with ⟨slot, -, -, -, hplugin⟩ | ⟨slot, settings, -, hplugin⟩
    · rw [hplugin]
      exact .afterKeyfile ((w.keyfiles slot).preserves_get account none w.disk)
    · rw [hplugin]
      exact .refl w

/-- Whatever comes of the creation of an account, the key-files keep what they have. -/
theorem preservesKeyfiles_create (hbuilt : BuiltFrom built r.registry) (provider : Option String)
    (manager protocol identification : String) (w : World ε) :
    w.PreservesKeyfiles (r.create provider manager protocol identification w).world := by
  have hasked {p : Registered (World ε)} (hp : p ∈ r.registry) (w : World ε) :
      w.PreservesKeyfiles (p.plugin.create r.cache manager protocol identification w).2 := by
    rcases hbuilt.plugin_cases hp with ⟨slot, -, -, -, hplugin⟩ | ⟨slot, settings, -, hplugin⟩
    · rw [hplugin]
      exact .afterKeyfile ((w.keyfiles slot).preserves_create _ w.disk)
    · rw [hplugin]
      dsimp only [MemoryStore.plugin]
      split
      · exact .refl w
      · exact ⟨fun _ => rfl, fun _ _ _ h => h⟩
  refine create_keeps (P := fun s => w.PreservesKeyfiles s.world) (.refl w) provider manager
    protocol identification (fun p hp w' hw _ => hw.trans (hasked hp w')) ?_
  intro p hp w' hw account _
  exact (hw.trans (hasked hp w')).trans (preservesKeyfiles_addAccount hbuilt hp account _)

end Roster

/-! ### In-process stores -/

/-- No account of an in-process store is lost or changed. -/
def World.PreservesMemories (w w' : World ε) : Prop :=
  ∀ slot account data, (w.memories slot).accounts.get? account = some data →
    (w'.memories slot).accounts.get? account = some data

/-- What the creation of an account under a name that is free in the cache comes to: the
in-process stores are as they were, or the account has an owner, whose store, if it is
in-process, has a new account without data. -/
inductive Founding (built : List (Nat × BackendConfig)) (r : Roster (World ε)) (w : World ε)
    (name : String) (s : Running (World ε)) : Prop
  | refused (hcache : s.roster.cache = r.cache) (hsame : w.SameAccounts s.world)
  | founded (n : Nat) (howner : (s.roster.cache.record? name).map Record.owner = some n)
      (hchanges : Changes built n (·.create name) w s.world)

namespace Roster

variable {built : List (Nat × BackendConfig)} {r : Roster (World ε)} {w : World ε}

/-- A backend enters an account that is new to the cache, without a change to what is stored
in-process. -/
theorem addAccount_new (hbuilt : BuiltFrom built r.registry) {p : Registered (World ε)}
    (hp : p ∈ r.registry) {account : String} (hnew : r.cache.record? account = none)
    (w : World ε) :
    ((r.addAccount p account w).roster.cache.record? account).map Record.owner = some p.id ∧
      (r.addAccount p account w).world.memories = w.memories := by
  rcases r.addAccount_cases p account w with ⟨hold, -⟩ | ⟨-, heq⟩
  · exact absurd hnew hold
  · rw [show (r.addAccount p account w).roster = _ from congrArg Running.roster heq,
      show (r.addAccount p account w).world = _ from congrArg Running.world heq]
    refine ⟨(Cache.owner_takeAll _ _ account).trans ?_, ?_⟩
    · rw [Cache.record?_insert_self]
      rfl
    · rcases hbuilt.plugin_cases hp with ⟨slot, -, -, -, hplugin⟩ | ⟨slot, settings, -, hplugin⟩
      · rw [hplugin]
        rfl
      · rw [hplugin]
        rfl

theorem founding_create (hbuilt : BuiltFrom built r.registry) (provider : Option String)
    (manager protocol identification : String) (w : World ε) :
    Founding built r w (r.cache.uniqueName manager protocol identification)
      (r.create provider manager protocol identification w).running := by
  have hfresh := r.cache.record?_uniqueName manager protocol identification
  -- as long as plugins are asked, none has created the account
  have hsame {w' : World ε} (hw : Founding built r w
      (r.cache.uniqueName manager protocol identification) ⟨r, w'⟩) : w.SameAccounts w' := by
    cases hw with
    | refused hcache hsame => exact hsame
    | founded n howner hchanges =>
        rw [hfresh] at howner
        cases howner
  refine create_keeps (.refused rfl fun _ => rfl) provider manager protocol identification ?_ ?_
  · intro p hp w' hw hnone
    have hbefore := hsame hw
    refine .refused rfl ?_
    rcases hbuilt.plugin_cases hp with ⟨slot, -, -, -, hplugin⟩ | ⟨slot, settings, -, hplugin⟩
    · rw [hplugin]
      exact hbefore
    · rw [hplugin] at hnone ⊢
      dsimp only [MemoryStore.plugin] at hnone ⊢
      split
      · exact hbefore
      next hrefuse => exact absurd (congrArg Prod.fst (if_neg hrefuse)) (hnone _)
  · intro p hp w' hw account hcreated
    rcases hbuilt.plugin_cases hp with ⟨slot, path, separator, hn, hplugin⟩ |
      ⟨slot, settings, hn, hplugin⟩
    · rw [hplugin] at hcreated
      obtain ⟨rfl, -⟩ := KeyfileStore.create_eq_some hcreated
      obtain ⟨howner, hmemories⟩ := addAccount_new hbuilt hp hfresh
        (p.plugin.create r.cache manager protocol identification w').2
      refine .founded p.id howner (Changes.of_sameAccounts (fun other => ?_)
        (not_onMemory_of_keyfile hn))
      change ((r.addAccount p _ _).world.memories other).accounts = _
      rw [hmemories, hplugin]
      exact hsame hw other
    · have hmade : p.plugin.create r.cache manager protocol identification w' =
          (.ok (some (r.cache.uniqueName manager protocol identification)), w'.putMemory slot
            ((w'.memories slot).create (r.cache.uniqueName manager protocol identification))) := by
        rw [hplugin] at hcreated ⊢
        dsimp only [MemoryStore.plugin] at hcreated ⊢
        split at hcreated
        next => cases hcreated
        next hrefuse => exact if_neg hrefuse
      rw [hmade] at hcreated ⊢
      cases hcreated
      -- the cache then asks for the account, which is no change
      obtain ⟨howner, hmemories⟩ := addAccount_new hbuilt hp hfresh
        (w'.putMemory slot ((w'.memories slot).create
          (r.cache.uniqueName manager protocol identification)))
      have hput : Changes built p.id
          (·.create (r.cache.uniqueName manager protocol identification)) w'
          (w'.putMemory slot ((w'.memories slot).create
            (r.cache.uniqueName manager protocol identification))) := Changes.putMemory hn
      refine .founded p.id howner ⟨fun other hon => ?_, fun other hoff => ?_⟩
      · change ((r.addAccount p _ _).world.memories other).accounts = _
        rw [hmemories, hput.hit other hon]
        exact congrArg (Dict.insert · _ {}) (hsame hw other)
      · change ((r.addAccount p _ _).world.memories other).accounts = _
        rw [hmemories, hput.miss other hoff]
        exact hsame hw other

end Roster

/-- Data is lost if the name of the new account is that of a stored one with data. -/
theorem Founding.preservesMemories_iff {built : List (Nat × BackendConfig)}
    {r : Roster (World ε)} {w : World ε} {name : String} {s : Running (World ε)}
    (h : Founding built r w name s) (hfresh : r.cache.record? name = none) :
    w.PreservesMemories s.world ↔ ∀ slot data record,
      (w.memories slot).accounts.get? name = some data →
      s.roster.cache.record? name = some record → OnMemory built slot record.owner →
      data = {} := by
  cases h with
  | refused hcache hsame =>
      constructor
      · intro _ slot data record _ hrecord
        rw [hcache, hfresh] at hrecord
        cases hrecord
      · intro _ slot account data hstored
        rwa [hsame slot]
  | founded n howner hchanges =>
      constructor
      · intro hkept slot data record hstored hrecord hon
        rw [hrecord] at howner
        cases howner
        have hafter := hkept slot name data hstored
        have hnew : ((w.memories slot).create name).accounts.get? name = some {} :=
          Dict.get?_insert_self _ name _
        rw [hchanges.hit slot hon, hnew] at hafter
        exact (Option.some_inj.mp hafter).symm
      · intro hempty slot account data hstored
        by_cases hon : OnMemory built slot n
        · rw [hchanges.hit slot hon]
          change ((w.memories slot).accounts.insert name {}).get? account = some data
          rw [Dict.get?_insert]
          by_cases heq : name = account
          · subst heq
            obtain ⟨record, hrecord, rfl⟩ := Option.map_eq_some_iff.mp howner
            rw [if_pos rfl, hempty slot data record hstored hrecord hon]
          · rwa [if_neg heq]
        · rwa [hchanges.miss slot hon]

/-- Whatever the cache of a roster of backends holds and whatever comes of the creation of an
account: the key-files and the disk keep what they have. The in-process stores keep what they
have exactly if the account does not go to a store that has data under its name already; and
that it does not, as long as the cache has the accounts that are stored. -/
theorem create_overwrites_iff {built : List (Nat × BackendConfig)} {r : Roster (World ε)}
    (hbuilt : BuiltFrom built r.registry) (provider : Option String)
    (manager protocol identification : String) (w : World ε) :
    let reply := r.create provider manager protocol identification w
    let name := r.cache.uniqueName manager protocol identification
    w.PreservesKeyfiles reply.world ∧
      (w.PreservesMemories reply.world ↔ ∀ slot data record,
        (w.memories slot).accounts.get? name = some data →
        reply.roster.cache.record? name = some record → OnMemory built slot record.owner →
        data = {}) ∧
      ((∀ slot n account, OnMemory built slot n →
          (w.memories slot).accounts.contains account = true → r.cache.contains account = true) →
        w.PreservesMemories reply.world) := by
  intro reply name
  have hfresh := r.cache.record?_uniqueName manager protocol identification
  have hiff := (Roster.founding_create hbuilt provider manager protocol identification
    w).preservesMemories_iff hfresh
  refine ⟨Roster.preservesKeyfiles_create hbuilt provider manager protocol identification w, hiff,
    fun hcached => hiff.mpr fun slot data record hstored _ hon => ?_⟩
  have hcontains := hcached slot record.owner name hon (Option.isSome_of_eq_some hstored)
  rw [Cache.contains, Dict.contains_eq, ← Cache.record?, hfresh] at hcontains
  cases hcontains

/-- After a load, the names of both backends are taken. -/
theorem create_overwrites_nothing_loaded :
    let built : List (Nat × BackendConfig) :=
      [(0, .keyfile "a.cfg" ','), (0, .memory { name := "memory" })]
    let disk := Disk.empty.mount "a.cfg" (.text "[m/p/i0]\nNickname=bob\n")
    let w := ((World.new disk ()).putKeyfile 0 (.new "a.cfg" ',')).putMemory 0
      (MemoryStore.seeded [("m/p/i1", "DisplayName", .string "x")])
    let s := ((Roster.ofBackends {} built none).load w).running
    let reply := s.roster.create none "m" "p" "i" s.world
    reply.answer = .ok "m/p/i2" ∧ s.world.PreservesKeyfiles reply.world ∧
      s.world.PreservesMemories reply.world := by
  intro built disk w s reply
  have hbuilt := Roster.builtFrom_ofBackends (ε := Unit) {} built none
  have hplain : w.Plain built := by
    rintro slot n account a ⟨settings, hn⟩ hstored
    have hslot : slot = 0 := by
      match n, hn with
      | 0, hn => cases hn
      | 1, hn => exact (congrArg Prod.fst (Option.some_inj.mp hn)).symm
    subst hslot
    exact MemoryStore.plain_of_seeded _ hstored
  have hcoupled : Coupled built none s :=
    coupled_load hbuilt rfl hplain (Except.eq_ok_of_toOption (by decide +kernel))
  obtain ⟨hkeyfiles, -, hmemories⟩ := create_overwrites_iff hcoupled.registry none "m" "p" "i"
    s.world
  refine ⟨Except.eq_ok_of_toOption (by decide +kernel), hkeyfiles,
    hmemories fun slot n account hon hcontains => ?_⟩
  obtain ⟨a, hstored⟩ := Option.isSome_iff_exists.mp hcontains
  obtain ⟨record, hrecord, -⟩ := hcoupled.coupled.cached slot account a ⟨n, hon⟩ hstored
  exact Option.isSome_of_eq_some hrecord

/-- Before a load, a seeded account is unknown, and a new one of its name takes its place. -/
theorem create_overwrites_seeded :
    let built : List (Nat × BackendConfig) := [(0, .memory { name := "memory" })]
    let w := (World.new Disk.empty ()).putMemory 0
      (MemoryStore.seeded [("m/p/i0", "DisplayName", .string "x")])
    let reply := (Roster.ofBackends {} built none).create none "m" "p" "i" w
    reply.answer = .ok "m/p/i0" ∧
      (w.memories 0).attribute? "m/p/i0" "DisplayName" = some (.string "x") ∧
      (reply.world.memories 0).attribute? "m/p/i0" "DisplayName" = none ∧
      ¬w.PreservesMemories reply.world := by
  intro built w reply
  have hbefore : (w.memories 0).accounts.get? "m/p/i0" =
      some { attributes := Dict.empty.insert "DisplayName" (.string "x") } := by
    decide +kernel
  have hafter : (reply.world.memories 0).accounts.get? "m/p/i0" = some {} := by decide +kernel
  refine ⟨Except.eq_ok_of_toOption (by decide +kernel), by decide +kernel, by decide +kernel,
    fun hkept => ?_⟩
  have hlost := (hkept 0 "m/p/i0" _ hbefore).symm.trans hafter
  exact absurd (Option.some_inj.mp hlost) (by decide)

end AccountRoster
