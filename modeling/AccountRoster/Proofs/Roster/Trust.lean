import AccountRoster.Proofs.Cache.UniqueName
import AccountRoster.Proofs.Roster.Visits

/-!
# The accounts that a key-file holds in trust

A key-file is one plugin of many. The others leave its store alone and push nothing
into the accounts that it owns, so that every such account stands for a group of a file
in memory, and the record and the group change together.

## Implementation notes

What record and group have to do with each other is left open: any relation will do
that is kept by the ways in which the two change (`Upkeep`). `Trust` is the invariant
for a fixed registry, through which the steps of an operation are followed.

The same key-file may be registered several times. Whether it owns an account is
therefore asked of the registry and not of a number.
-/

namespace AccountRoster

variable {ε : Type}

/-- No call of a plugin touches the key-file in a slot. -/
def Plugin.Spares (plugin : Plugin (World ε)) (slot : Nat) : Prop :=
  ∀ store, plugin.Keeps fun w => w.keyfiles slot = store

/-- No question to a source of identifiers touches the key-file in a slot. -/
def Identifier.Spares (source : Identifier (World ε)) (slot : Nat) : Prop :=
  ∀ store, source.Keeps fun w => w.keyfiles slot = store

/-- A relation between records and groups that is kept by every way of changing both. -/
structure Upkeep (codec : Codec) (R : Record → Dict String → Prop) : Prop where
  entered : ∀ owner entries, R (Record.ofEntries codec owner entries) entries
  removed_attribute : ∀ record entries name, FlatKey.isParameter name = false → R record entries →
    R (record.putAttribute name none) (entries.erase name)
  removed_parameter : ∀ record entries name, R record entries →
    R (record.putTyped name none) (entries.erase (FlatKey.ofParameter name))
  /-- A value may be too much for the file, and then stays out of it. -/
  set_attribute : ∀ record entries name v, FlatKey.isParameter name = false → R record entries →
    R (record.putAttribute name (some v)) entries ∧
      R (record.putAttribute name (some v)) (entries.insert name (codec.escape v))
  set_parameter : ∀ record entries name v, R record entries →
    R (record.putTyped name (some v)) entries ∧
      R (record.putTyped name (some v))
        (entries.insert (FlatKey.ofParameter name) (codec.escape v))
  secret : ∀ record entries name, R record entries → R (record.markSecret name) entries

/-- Records and groups need not have anything to do with each other. -/
theorem upkeep_true (codec : Codec) : Upkeep codec fun _ _ => True where
  entered _ _ := trivial
  removed_attribute _ _ _ _ _ := trivial
  removed_parameter _ _ _ _ := trivial
  set_attribute _ _ _ _ _ _ := ⟨trivial, trivial⟩
  set_parameter _ _ _ _ _ := ⟨trivial, trivial⟩
  secret _ _ _ _ := trivial

/-- A push after which a record is still related to the group of its account. -/
def Push.Harmless (codec : Codec) (R : Record → Dict String → Prop) (push : Push) : Prop :=
  ∀ (c : Cache) record later entries, c.codec = codec → c.record? push.account = some record →
    (c.take push).record? push.account = some later → R record entries → R later entries

/-- A plugin that leaves the key-file in a slot alone, does no more to the world than is
allowed, and pushes what it is asked for or what does no harm. -/
structure Plugin.Tame (codec : Codec) (slot : Nat) (R : Record → Dict String → Prop)
    (allowed : World ε → World ε → Prop) (plugin : Plugin (World ε)) : Prop where
  spares : plugin.Spares slot
  keeps : ∀ w, plugin.Keeps (allowed w)
  pushes : ∀ c account key w, ∀ push ∈ (plugin.get c account key w).2.1,
    push.account = account ∨ push.Harmless codec R

/-- A source of identifiers that leaves the key-file in a slot alone, and does no more to
the world than is allowed. -/
structure Identifier.Tame (slot : Nat) (allowed : World ε → World ε → Prop)
    (source : Identifier (World ε)) : Prop where
  spares : source.Spares slot
  keeps : ∀ w, source.Keeps (allowed w)

/-- A plugin that leaves the key-file in a slot alone may do anything else. -/
theorem Plugin.Spares.tame {plugin : Plugin (World ε)} {slot : Nat} (h : plugin.Spares slot)
    (codec : Codec) : plugin.Tame codec slot (fun _ _ => True) fun _ _ => True where
  spares := h
  keeps _ := by constructor <;> intros <;> trivial
  pushes _ _ _ _ _ _ := Or.inr fun _ _ _ _ _ _ _ _ => trivial

theorem Identifier.Spares.tame {source : Identifier (World ε)} {slot : Nat}
    (h : source.Spares slot) : source.Tame slot fun _ _ => True where
  spares := h
  keeps _ _ _ _ _ _ := trivial

/-- The owner of a record is the key-file in a slot. -/
def Record.OwnedBy (registry : List (Registered (World ε))) (slot : Nat) (record : Record) : Prop :=
  ⟨record.owner, KeyfileStore.plugin ε slot⟩ ∈ registry

/-- The accounts of a key-file are groups of a file in memory, and if they are complete,
its groups are accounts. -/
structure Trust (registry : List (Registered (World ε))) (codec : Codec) (slot : Nat)
    (R : Record → Dict String → Prop) (complete : Prop) (s : Running (World ε)) : Prop where
  registry_eq : s.roster.registry = registry
  codec_eq : s.roster.cache.codec = codec
  source : ∀ source, s.roster.identifier = some source → source.Spares slot
  related : ∀ account record, s.roster.cache.record? account = some record →
    record.OwnedBy registry slot → (s.world.keyfiles slot).loaded = true ∧
      R record ((s.world.keyfiles slot).file.entries account)
  stored : complete → (s.world.keyfiles slot).loaded = true ∧
    ∀ account, (s.world.keyfiles slot).file.hasGroup account = true →
      ∃ record, s.roster.cache.record? account = some record ∧ record.OwnedBy registry slot

namespace Trust

variable {registry : List (Registered (World ε))} {codec : Codec} {slot : Nat}
  {R : Record → Dict String → Prop} {complete : Prop} {r : Roster (World ε)} {w w' : World ε}

/-- The world changes, but not a file in memory. -/
theorem elapse (h : Trust registry codec slot R complete ⟨r, w⟩)
    (hw : World.Undisturbed slot w w') : Trust registry codec slot R complete ⟨r, w'⟩ where
  registry_eq := h.registry_eq
  codec_eq := h.codec_eq
  source := h.source
  related := by
    intro account record hrecord howned
    obtain ⟨hloaded, hrelated⟩ := h.related account record hrecord howned
    obtain ⟨hloaded', hfile⟩ := hw hloaded
    refine ⟨hloaded', ?_⟩
    rw [hfile]
    exact hrelated
  stored := by
    intro hcomplete
    obtain ⟨hloaded, hstored⟩ := h.stored hcomplete
    obtain ⟨hloaded', hfile⟩ := hw hloaded
    refine ⟨hloaded', ?_⟩
    rw [hfile]
    exact hstored

/-- Records change, but no account changes hands, and those that the key-file owns stay
related to their groups. -/
theorem recache (h : Trust registry codec slot R complete ⟨r, w⟩) {c : Cache}
    (hcodec : c.codec = r.cache.codec)
    (hback : ∀ account later, c.record? account = some later → later.OwnedBy registry slot →
      ∃ record, r.cache.record? account = some record ∧ record.OwnedBy registry slot ∧
        ∀ entries, R record entries → R later entries)
    (hforth : ∀ account record, r.cache.record? account = some record →
      record.OwnedBy registry slot →
        ∃ later, c.record? account = some later ∧ later.OwnedBy registry slot) :
    Trust registry codec slot R complete ⟨{ r with cache := c }, w⟩ where
  registry_eq := h.registry_eq
  codec_eq := hcodec.trans h.codec_eq
  source := h.source
  related := by
    intro account later hlater howned
    obtain ⟨record, hrecord, hold, hkept⟩ := hback account later hlater howned
    obtain ⟨hloaded, hrelated⟩ := h.related account record hrecord hold
    exact ⟨hloaded, hkept _ hrelated⟩
  stored := by
    intro hcomplete
    obtain ⟨hloaded, hstored⟩ := h.stored hcomplete
    refine ⟨hloaded, fun account hgroup => ?_⟩
    obtain ⟨record, hrecord, howned⟩ := hstored account hgroup
    exact hforth account record hrecord howned

/-- The record and the group of one account change together. -/
theorem change (h : Trust registry codec slot R complete ⟨r, w⟩) (account : String) {c : Cache}
    (hcodec : c.codec = r.cache.codec) (hloaded : (w'.keyfiles slot).loaded = true)
    (hrecords : ∀ other, account ≠ other → c.record? other = r.cache.record? other)
    (hgroups : (w.keyfiles slot).loaded = true → ∀ other, account ≠ other →
      (w'.keyfiles slot).file.groups.get? other = (w.keyfiles slot).file.groups.get? other)
    (hrelated : ∀ record, c.record? account = some record → record.OwnedBy registry slot →
      R record ((w'.keyfiles slot).file.entries account))
    (hstored : complete → (w'.keyfiles slot).file.hasGroup account = true →
      ∃ record, c.record? account = some record ∧ record.OwnedBy registry slot) :
    Trust registry codec slot R complete ⟨{ r with cache := c }, w'⟩ where
  registry_eq := h.registry_eq
  codec_eq := hcodec.trans h.codec_eq
  source := h.source
  related := by
    intro other record hrecord howned
    refine ⟨hloaded, ?_⟩
    by_cases heq : account = other
    · subst heq
      exact hrelated record hrecord howned
    · have hold : r.cache.record? other = some record := (hrecords other heq).symm.trans hrecord
      obtain ⟨hbefore, hother⟩ := h.related other record hold howned
      have hentries := Keyfile.entries_of_groups_eq (hgroups hbefore other heq)
      change R record ((w'.keyfiles slot).file.entries other)
      rw [hentries]
      exact hother
  stored := by
    intro hcomplete
    obtain ⟨hbefore, hold⟩ := h.stored hcomplete
    refine ⟨hloaded, fun other hgroup => ?_⟩
    by_cases heq : account = other
    · subst heq
      exact hstored hcomplete hgroup
    · have hgroup' : (w.keyfiles slot).file.hasGroup other = true := by
        rw [Keyfile.hasGroup, Dict.contains_eq] at hgroup ⊢
        rwa [← hgroups hbefore other heq]
      obtain ⟨record, hrecord, howned⟩ := hold other hgroup'
      exact ⟨record, (hrecords other heq).trans hrecord, howned⟩

/-- A record of another owner is put in the place of one, or of none. -/
theorem insert_aside (h : Trust registry codec slot R complete ⟨r, w⟩) {account : String}
    {record : Record} (hother : ¬record.OwnedBy registry slot)
    (hbefore : ∀ old, r.cache.record? account = some old → ¬old.OwnedBy registry slot) :
    Trust registry codec slot R complete
      ⟨{ r with cache := r.cache.insert account record }, w⟩ := by
  refine h.recache rfl (fun other later hlater howned => ?_) fun other old hold howned => ?_
  · rw [Cache.record?_insert] at hlater
    split at hlater
    next =>
      cases hlater
      exact absurd howned hother
    next => exact ⟨later, hlater, howned, fun _ hR => hR⟩
  · have hne : account ≠ other := by
      rintro rfl
      exact hbefore old hold howned
    rw [Cache.record?_insert, if_neg hne]
    exact ⟨old, hold, howned⟩

/-- A record of another owner is dropped, if there is one. -/
theorem erase_aside (h : Trust registry codec slot R complete ⟨r, w⟩) {account : String}
    (hbefore : ∀ old, r.cache.record? account = some old → ¬old.OwnedBy registry slot) :
    Trust registry codec slot R complete ⟨{ r with cache := r.cache.erase account }, w⟩ := by
  refine h.recache rfl (fun other later hlater howned => ?_) fun other old hold howned => ?_
  · rw [Cache.record?_erase] at hlater
    split at hlater
    next => cases hlater
    next => exact ⟨later, hlater, howned, fun _ hR => hR⟩
  · have hne : account ≠ other := by
      rintro rfl
      exact hbefore old hold howned
    rw [Cache.record?_erase, if_neg hne]
    exact ⟨old, hold, howned⟩

/-- A push that does no harm. -/
theorem take (h : Trust registry codec slot R complete ⟨r, w⟩) {push : Push}
    (hpush : push.Harmless codec R ∨
      ∀ record, r.cache.record? push.account = some record → ¬record.OwnedBy registry slot) :
    Trust registry codec slot R complete ⟨{ r with cache := r.cache.take push }, w⟩ := by
  have hcodec : (r.cache.take push).codec = r.cache.codec := r.cache.codec_takeAll [push]
  have howner (account : String) : ((r.cache.take push).record? account).map Record.owner =
      (r.cache.record? account).map Record.owner := r.cache.owner_takeAll [push] account
  have hsame {account : String} {record later : Record}
      (hrecord : r.cache.record? account = some record)
      (hlater : (r.cache.take push).record? account = some later) :
      later.OwnedBy registry slot ↔ record.OwnedBy registry slot := by
    have howners := howner account
    rw [hrecord, hlater] at howners
    rw [Record.OwnedBy, Record.OwnedBy, Option.some_inj.mp howners]
  refine h.recache hcodec (fun account later hlater howned => ?_)
    fun account record hrecord howned => ?_
  · obtain ⟨record, hrecord⟩ : ∃ record, r.cache.record? account = some record := by
      have howners := congrArg Option.isSome (howner account)
      rw [hlater, Option.isSome_map, Option.isSome_map] at howners
      exact Option.isSome_iff_exists.mp howners.symm
    have hold := (hsame hrecord hlater).mp howned
    refine ⟨record, hrecord, hold, fun entries hR => ?_⟩
    by_cases heq : push.account = account
    · subst heq
      rcases hpush with hharmless | haside
      · exact hharmless r.cache record later entries h.codec_eq hrecord hlater hR
      · exact absurd hold (haside record hrecord)
    · have hunchanged : (r.cache.takeAll [push]).record? account = r.cache.record? account :=
        r.cache.record?_takeAll_of_ne (by simpa using heq)
      change (r.cache.take push).record? account = _ at hunchanged
      rw [hunchanged, hrecord] at hlater
      cases hlater
      exact hR
  · obtain ⟨later, hlater⟩ : ∃ later, (r.cache.take push).record? account = some later := by
      have howners := congrArg Option.isSome (howner account)
      rw [hrecord, Option.isSome_map, Option.isSome_map] at howners
      exact Option.isSome_iff_exists.mp howners
    exact ⟨later, hlater, (hsame hrecord hlater).mpr howned⟩

theorem takeAll (h : Trust registry codec slot R complete ⟨r, w⟩) {pushes : List Push}
    {account : String}
    (haside : ∀ record, r.cache.record? account = some record → ¬record.OwnedBy registry slot)
    (hpushes : ∀ push ∈ pushes, push.account = account ∨ push.Harmless codec R) :
    Trust registry codec slot R complete ⟨{ r with cache := r.cache.takeAll pushes }, w⟩ := by
  induction pushes generalizing r with
  | nil => exact h
  | cons push more ih =>
      obtain ⟨hpush, hmore⟩ := List.forall_mem_cons.mp hpushes
      have htaken : Trust registry codec slot R complete
          ⟨{ r with cache := r.cache.take push }, w⟩ := by
        apply h.take
        rcases hpush with rfl | hharmless
        · exact Or.inr haside
        · exact Or.inl hharmless
      refine ih htaken (fun record hrecord howned => ?_) hmore
      have howner := r.cache.owner_takeAll [push] account
      change ((r.cache.take push).record? account).map Record.owner = _ at howner
      change (r.cache.take push).record? account = some record at hrecord
      rw [hrecord] at howner
      obtain ⟨old, hold, hsame⟩ := Option.map_eq_some_iff.mp howner.symm
      apply haside old hold
      rw [Record.OwnedBy, hsame]
      exact howned

/-! ### What the operations keep -/

section Operations

variable {allowed : World ε → World ε → Prop} (hids : (registry.map Registered.id).Nodup)
  (hplugins : ∀ p ∈ registry,
    p.plugin = KeyfileStore.plugin ε slot ∨ p.plugin.Tame codec slot R allowed)
  (hR : Upkeep codec R)

section Plugins

include hids

/-- A number names one plugin. -/
theorem owner?_eq_some_iff (hregistry : r.registry = registry) {account : String} {record : Record}
    (hrecord : r.cache.record? account = some record) :
    r.owner? account = some (KeyfileStore.plugin ε slot) ↔ record.OwnedBy registry slot := by
  subst hregistry
  exact Roster.owner?_eq_some_iff hids hrecord

theorem not_ownedBy {p : Registered (World ε)} (hp : p ∈ registry)
    (hother : p.plugin ≠ KeyfileStore.plugin ε slot) {record : Record}
    (howner : record.owner = p.id) :
    ¬record.OwnedBy registry slot := by
  intro howned
  rw [Record.OwnedBy, howner] at howned
  have heq := List.inj_on_of_nodup_map hids hp howned rfl
  exact hother (congrArg Registered.plugin heq)

include hplugins in
/-- Another owner is a plugin that leaves the key-file alone. -/
theorem tame_of_owner? (hregistry : r.registry = registry) {account : String} {record : Record}
    (hrecord : r.cache.record? account = some record) (hother : ¬record.OwnedBy registry slot)
    {plugin : Plugin (World ε)} (howner : r.owner? account = some plugin) :
    plugin.Tame codec slot R allowed := by
  obtain ⟨p, hp, rfl⟩ := Roster.exists_of_owner? howner
  rcases hplugins p (hregistry ▸ hp) with hkeyfile | htame
  · rw [hkeyfile] at howner
    exact absurd ((owner?_eq_some_iff hids hregistry hrecord).mp howner) hother
  · exact htame

/-- Another plugin enters an account of its own. -/
theorem addAccount_aside (h : Trust registry codec slot R complete ⟨r, w⟩)
    {p : Registered (World ε)} (hp : p ∈ registry)
    (hother : p.plugin ≠ KeyfileStore.plugin ε slot) (htame : p.plugin.Tame codec slot R allowed)
    (account : String) :
    Trust registry codec slot R complete (r.addAccount p account w).running := by
  rcases r.addAccount_cases p account w with ⟨-, heq⟩ | ⟨hnew, heq⟩
  · rwa [heq]
  · rw [heq]
    have hnone : ∀ old, r.cache.record? account = some old → ¬old.OwnedBy registry slot := by
      intro old hold
      rw [hnew] at hold
      cases hold
    have hnew : (Record.new p.id).owner = p.id := rfl
    have hentered := h.insert_aside (not_ownedBy hids hp hother hnew) hnone
    have haside : ∀ record,
        (r.cache.insert account (Record.new p.id)).record? account = some record →
          ¬record.OwnedBy registry slot := by
      intro record hrecord
      rw [Cache.record?_insert_self] at hrecord
      cases hrecord
      exact not_ownedBy hids hp hother rfl
    have hpushed := hentered.takeAll haside
      (htame.pushes (r.cache.insert account (Record.new p.id)) account none w)
    exact hpushed.elapse (World.Undisturbed.of_eq ((htame.spares _).get _ account none w rfl))

end Plugins

include hR

/-- The key-file enters an account with the group that it has in memory. -/
theorem addAccount (h : Trust registry codec slot R complete ⟨r, w⟩) {n : Nat}
    (hn : ⟨n, KeyfileStore.plugin ε slot⟩ ∈ registry) (hloaded : (w.keyfiles slot).loaded = true)
    (account : String) :
    Trust registry codec slot R complete
        (r.addAccount ⟨n, KeyfileStore.plugin ε slot⟩ account w).running ∧
      (r.addAccount ⟨n, KeyfileStore.plugin ε slot⟩ account w).world = w := by
  cases hrecord : r.cache.record? account with
  | some record =>
      have hconflict :
          (r.addAccount ⟨n, KeyfileStore.plugin ε slot⟩ account w).running = ⟨r, w⟩ := by
        rw [Roster.addAccount, hrecord]
        rfl
      rw [hconflict]
      exact ⟨h, congrArg Running.world hconflict⟩
  | none =>
      rw [Roster.addAccount_of_loaded n hloaded hrecord, h.codec_eq]
      refine ⟨h.change account rfl hloaded (fun other hne => ?_) (fun _ _ _ => rfl)
        (fun record hentered _ => ?_) (fun _ _ => ⟨_, Cache.record?_insert_self _ _ _, ?_⟩), rfl⟩
      · rw [Cache.record?_insert, if_neg hne]
      · rw [Cache.record?_insert_self] at hentered
        cases hentered
        exact hR.entered n _
      · rw [Record.OwnedBy, Record.owner_ofEntries]
        exact hn

theorem addAccounts (h : Trust registry codec slot R complete ⟨r, w⟩) {n : Nat}
    (hn : ⟨n, KeyfileStore.plugin ε slot⟩ ∈ registry) (hloaded : (w.keyfiles slot).loaded = true)
    (accounts : List String) :
    Trust registry codec slot R complete
        (Roster.addAccounts ⟨n, KeyfileStore.plugin ε slot⟩ accounts r w).running ∧
      (Roster.addAccounts ⟨n, KeyfileStore.plugin ε slot⟩ accounts r w).world = w := by
  refine Roster.addAccounts_keeps
    (P := fun s => Trust registry codec slot R complete s ∧ s.world = w) ⟨h, rfl⟩ ?_
  rintro account - ⟨r', w'⟩ ⟨htrust, rfl⟩
  exact addAccount hR htrust hn hloaded account

include hids hplugins

theorem loadPlugin (h : Trust registry codec slot R complete ⟨r, w⟩) {p : Registered (World ε)}
    (hp : p ∈ registry) : Trust registry codec slot R complete (r.loadPlugin p w).running := by
  obtain ⟨n, plugin⟩ := p
  by_cases hkeyfile : plugin = KeyfileStore.plugin ε slot
  · subst hkeyfile
    -- only a file in memory lists accounts, so that no account is entered without one
    obtain ⟨w', hw, ⟨hloaded, hlist⟩ | ⟨-, e, hlist⟩⟩ := KeyfileStore.exists_listed slot r.cache w
    · rw [Roster.loadPlugin_of_list hlist]
      exact ((h.elapse hw).addAccounts hR hp hloaded _).1
    · rw [Roster.loadPlugin_of_list_error hlist]
      exact h.elapse hw
  · have htame := (hplugins _ hp).resolve_left hkeyfile
    refine Roster.loadPlugin_keeps ?_ fun accounts _ account _ s hs => ?_
    · exact h.elapse (World.Undisturbed.of_eq ((htame.spares _).list _ w rfl))
    · exact hs.addAccount_aside hids hp hkeyfile htame account

theorem loadPlugins (h : Trust registry codec slot R complete ⟨r, w⟩)
    {plugins : List (Registered (World ε))} (hsubset : plugins ⊆ registry) :
    Trust registry codec slot R complete (Roster.loadPlugins plugins r w).running := by
  induction plugins generalizing r w with
  | nil => exact h
  | cons p more ih =>
      obtain ⟨hp, hmore⟩ := List.cons_subset.mp hsubset
      exact Reply.andThen_keeps (h.loadPlugin hids hplugins hR hp) fun _ _ _ hs => ih hs hmore

theorem load (h : Trust registry codec slot R complete ⟨r, w⟩) :
    Trust registry codec slot R complete (r.load w).running :=
  h.loadPlugins hids hplugins hR fun _ hp => h.registry_eq ▸ List.mem_reverse.mp hp

omit hR in
/-- A cached record and what its owner stores change together. -/
theorem write (h : Trust registry codec slot R complete ⟨r, w⟩) {u : Update} {record later : Record}
    (hrecord : r.cache.record? u.account = some record) (howner : later.owner = record.owner)
    (hupdated : ∀ f : Keyfile, R record (f.entries u.account) →
      R later ((f.updated codec u).entries u.account)) :
    Trust registry codec slot R complete
      ⟨{ r with cache := r.cache.insert u.account later },
        ({ r with cache := r.cache.insert u.account later } : Roster (World ε)).dispatch u w⟩ := by
  have hlater := Cache.record?_insert_self r.cache u.account later
  have hsame : later.OwnedBy registry slot ↔ record.OwnedBy registry slot := by
    rw [Record.OwnedBy, Record.OwnedBy, howner]
  by_cases howned : record.OwnedBy registry slot
  · obtain ⟨hloaded, hrelated⟩ := h.related u.account record hrecord howned
    have hkeyfile := (owner?_eq_some_iff (r := { r with cache := r.cache.insert u.account later })
      hids h.registry_eq hlater).mpr (hsame.mpr howned)
    have hfollows :=
      Roster.tell_keyfile { r with cache := r.cache.insert u.account later } u hloaded
    have hcodec : (r.cache.insert u.account later).codec = codec := h.codec_eq
    dsimp only at hfollows
    rw [hcodec] at hfollows
    rw [Roster.dispatch, hkeyfile]
    refine h.change u.account rfl (hfollows.store.loaded_eq.trans hloaded) (fun other hne => ?_)
      (fun _ other hne => ?_) (fun new hnew _ => ?_)
      (fun _ _ => ⟨later, hlater, hsame.mpr howned⟩)
    · rw [Cache.record?_insert, if_neg hne]
    · rw [hfollows.store.file_eq, Keyfile.groups_updated_of_ne _ _ hne]
    · rw [hlater] at hnew
      cases hnew
      rw [hfollows.store.file_eq]
      exact hupdated _ hrelated
  · have hput : Trust registry codec slot R complete
        ⟨{ r with cache := r.cache.insert u.account later }, w⟩ := by
      refine h.insert_aside (fun hlater => howned (hsame.mp hlater)) fun old hold => ?_
      rw [hrecord] at hold
      cases hold
      exact howned
    unfold Roster.dispatch
    split
    next plugin hplugin =>
      have htame := tame_of_owner? hids hplugins
        (r := { r with cache := r.cache.insert u.account later }) h.registry_eq hlater
        (fun hlater => howned (hsame.mp hlater)) hplugin
      exact hput.elapse (World.Undisturbed.of_eq ((htame.spares _).tell _ u rfl))
    next => exact hput

theorem setAttribute (h : Trust registry codec slot R complete ⟨r, w⟩) (account name : String)
    (value : Option Value) :
    Trust registry codec slot R complete (r.setAttribute account name value w).running := by
  refine Roster.carryOut_keeps h fun c u hplan => ?_
  obtain ⟨record, new, hname, hrecord, -, rfl, rfl⟩ := Cache.planAttribute_eq_some hplan
  refine h.write hids hplugins (u := { account, key := name, value := new }) hrecord
    (Record.owner_putAttribute record name new) fun f hrelated => ?_
  cases new with
  | none =>
      rw [Keyfile.updated, Keyfile.entries_removeKey, if_pos rfl]
      exact hR.removed_attribute record _ name hname hrelated
  | some v =>
      obtain ⟨hkept, hset⟩ := hR.set_attribute record _ name v hname hrelated
      rcases f.entries_setValue account name (codec.escape v) with heq | heq
      · rw [Keyfile.updated, heq]
        exact hkept
      · rw [Keyfile.updated, heq]
        exact hset

theorem setParameter (h : Trust registry codec slot R complete ⟨r, w⟩) (account name : String)
    (value : Option Value) :
    Trust registry codec slot R complete (r.setParameter account name value w).running := by
  refine Roster.carryOut_keeps h fun c u hplan => ?_
  obtain ⟨record, hrecord, rfl, rfl⟩ := Cache.planParameter_eq_some hplan
  refine h.write hids hplugins
    (u := { account, key := FlatKey.ofParameter name, value, secret := record.isSecret name })
    hrecord (Record.owner_putTyped record name value) fun f hrelated => ?_
  cases value with
  | none =>
      rw [Keyfile.updated, Keyfile.entries_removeKey, if_pos rfl]
      exact hR.removed_parameter record _ name hrelated
  | some v =>
      obtain ⟨hkept, hset⟩ := hR.set_parameter record _ name v hrelated
      rcases f.entries_setValue account (FlatKey.ofParameter name) (codec.escape v) with heq | heq
      · rw [Keyfile.updated, heq]
        exact hkept
      · rw [Keyfile.updated, heq]
        exact hset

omit hR in
theorem delete (h : Trust registry codec slot R complete ⟨r, w⟩) (account : String) :
    Trust registry codec slot R complete (r.delete account w).running := by
  unfold Roster.delete
  split
  next => exact h
  next record hfind =>
    have hrecord := Cache.find_eq_ok hfind
    have hgone : (r.cache.erase account).record? account = none := by
      rw [Cache.record?_erase, if_pos rfl]
    have hothers : ∀ other, account ≠ other →
        (r.cache.erase account).record? other = r.cache.record? other := by
      intro other hne
      rw [Cache.record?_erase, if_neg hne]
    by_cases howned : record.OwnedBy registry slot
    · obtain ⟨hloaded, -⟩ := h.related account record hrecord howned
      rw [(owner?_eq_some_iff hids h.registry_eq hrecord).mpr howned]
      obtain ⟨-, hturns⟩ := KeyfileStore.delete_account_of_loaded hloaded account w.disk
      have hstore : (((KeyfileStore.plugin ε slot).delete r.cache account none w).2).keyfiles slot =
          ((w.keyfiles slot).delete account none w.disk).store :=
        World.keyfiles_afterKeyfile_self _ _ _
      rw [← hstore] at hturns
      refine h.change account rfl (hturns.loaded_eq.trans hloaded) hothers (fun _ other hne => ?_)
        (fun later hlater _ => ?_) (fun _ hgroup => ?_)
      · rw [hturns.file_eq, Keyfile.groups_removeGroup, if_neg hne]
      · rw [hgone] at hlater
        cases hlater
      · rw [hturns.file_eq, Keyfile.hasGroup, Dict.contains_eq, Keyfile.groups_removeGroup,
          if_pos rfl] at hgroup
        cases hgroup
    · have herased : Trust registry codec slot R complete
          ⟨{ r with cache := r.cache.erase account }, w⟩ := by
        refine h.erase_aside fun old hold => ?_
        rw [hrecord] at hold
        cases hold
        exact howned
      dsimp only
      split
      next plugin hplugin =>
        have htame := tame_of_owner? hids hplugins h.registry_eq hrecord howned hplugin
        exact herased.elapse (World.Undisturbed.of_eq ((htame.spares _).delete _ _ _ w rfl))
      next => exact herased

omit hids hR in
/-- A commit leaves every file in memory as it is. -/
theorem undisturbed_commit (hregistry : r.registry = registry) (account : Option String)
    (w : World ε) : World.Undisturbed slot w (r.commit account w) := by
  have hcommit (p : Registered (World ε)) (hp : p ∈ registry) (w : World ε) :
      World.Undisturbed slot w (p.plugin.commit r.cache account w).2 := by
    rcases hplugins p hp with hkeyfile | htame
    · rw [hkeyfile]
      exact KeyfileStore.undisturbed_commit r.cache account
    · exact World.Undisturbed.of_eq ((htame.spares _).commit r.cache account w rfl)
  unfold Roster.commit
  split
  next account =>
    split
    next plugin howner =>
      obtain ⟨p, hp, rfl⟩ := Roster.exists_of_owner? howner
      exact hcommit p (hregistry ▸ hp) w
    next => exact World.Undisturbed.of_eq rfl
  next =>
    rw [hregistry]
    exact List.foldlRecOn (motive := World.Undisturbed slot w) registry _
      (World.Undisturbed.of_eq rfl) fun w' hw p hp => hw.trans (hcommit p hp w')

omit hids hR in
theorem commit (h : Trust registry codec slot R complete ⟨r, w⟩) (account : Option String) :
    Trust registry codec slot R complete ⟨r, r.commit account w⟩ :=
  h.elapse (undisturbed_commit hplugins h.registry_eq account w)

omit hids hR in
theorem ready (h : Trust registry codec slot R complete ⟨r, w⟩) :
    Trust registry codec slot R complete ⟨r, r.ready w⟩ := by
  rw [Roster.ready, h.registry_eq]
  refine List.foldlRecOn (motive := fun w => Trust registry codec slot R complete ⟨r, w⟩) registry
    _ h fun w hw p hp => hw.elapse ?_
  rcases hplugins p hp with hkeyfile | htame
  · rw [hkeyfile]
    exact World.Undisturbed.of_eq rfl
  · exact World.Undisturbed.of_eq ((htame.spares _).ready r.cache w rfl)

omit hids hplugins hR in
theorem identify (h : Trust registry codec slot R complete ⟨r, w⟩) (manager protocol : String)
    (parameters : Parameters) (cancellation : Cancellation) : Trust registry codec slot R complete
      ⟨r, (r.identify manager protocol parameters cancellation w).2⟩ := by
  apply Roster.identify_keeps h
  intro source hsource
  exact h.elapse (World.Undisturbed.of_eq (h.source source hsource _ _ _ _ w rfl))

omit hids hplugins in
/-- An account that the key-file has created is new to the cache and to the file. -/
theorem created (h : Trust registry codec slot R complete ⟨r, w⟩) {n : Nat}
    (hn : ⟨n, KeyfileStore.plugin ε slot⟩ ∈ registry)
    {manager protocol identification account : String}
    (hcreated : ((KeyfileStore.plugin ε slot).create r.cache manager protocol identification w).1 =
      .ok (some account)) :
    Trust registry codec slot R complete
      (r.addAccount ⟨n, KeyfileStore.plugin ε slot⟩ account
        ((KeyfileStore.plugin ε slot).create r.cache manager protocol identification
          w).2).running := by
  obtain ⟨rfl, hloaded, file, hfile, hnew, hopened⟩ := KeyfileStore.create_eq_some hcreated
  have hstore : (((KeyfileStore.plugin ε slot).create r.cache manager protocol identification
      w).2).keyfiles slot = ((w.keyfiles slot).create
        (r.cache.uniqueName manager protocol identification) w.disk).store :=
    World.keyfiles_afterKeyfile_self _ _ _
  rw [← hstore] at hloaded hopened
  generalize ((KeyfileStore.plugin ε slot).create r.cache manager protocol identification w).2 = w'
    at hloaded hopened ⊢
  rw [Roster.addAccount_of_loaded n hloaded (r.cache.record?_uniqueName _ _ _), h.codec_eq]
  refine h.change _ rfl hloaded (fun other hne => ?_) (fun hbefore other hne => ?_)
    (fun record hentered _ => ?_) (fun _ _ => ⟨_, Cache.record?_insert_self _ _ _, ?_⟩)
  · rw [Cache.record?_insert, if_neg hne]
  · rw [hopened, Keyfile.groups_openGroup_of_none hnew, if_neg hne, hfile hbefore]
  · rw [Cache.record?_insert_self] at hentered
    cases hentered
    exact hR.entered n _
  · rw [Record.OwnedBy, Record.owner_ofEntries]
    exact hn

omit hids hR in
/-- A plugin that is asked to create an account, and does not. -/
theorem refused (h : Trust registry codec slot R complete ⟨r, w⟩) {p : Registered (World ε)}
    (hp : p ∈ registry) {manager protocol identification : String}
    (hnone : ∀ account, (p.plugin.create r.cache manager protocol identification w).1 ≠
      .ok (some account)) : Trust registry codec slot R complete
        ⟨r, (p.plugin.create r.cache manager protocol identification w).2⟩ := by
  rcases hplugins p hp with hkeyfile | htame
  · rw [hkeyfile] at hnone ⊢
    exact h.elapse (KeyfileStore.undisturbed_create hnone)
  · exact h.elapse (World.Undisturbed.of_eq ((htame.spares _).create r.cache _ _ _ w rfl))

/-- A plugin creates an account, which is entered. -/
theorem accepted (h : Trust registry codec slot R complete ⟨r, w⟩) {p : Registered (World ε)}
    (hp : p ∈ registry) {manager protocol identification account : String}
    (hcreated : (p.plugin.create r.cache manager protocol identification w).1 =
      .ok (some account)) : Trust registry codec slot R complete (r.addAccount p account
        (p.plugin.create r.cache manager protocol identification w).2).running := by
  obtain ⟨n, plugin⟩ := p
  by_cases hkeyfile : plugin = KeyfileStore.plugin ε slot
  · subst hkeyfile
    exact h.created hR hp hcreated
  · have htame := (hplugins _ hp).resolve_left hkeyfile
    have hasked := h.elapse (World.Undisturbed.of_eq
      ((htame.spares _).create r.cache manager protocol identification w rfl))
    exact hasked.addAccount_aside hids hp hkeyfile htame account

theorem createFirst (h : Trust registry codec slot R complete ⟨r, w⟩)
    (manager protocol identification : String) {plugins : List (Registered (World ε))}
    (hsubset : plugins ⊆ registry) : Trust registry codec slot R complete
      (r.createFirst manager protocol identification plugins w).running :=
  Roster.createFirst_keeps h (fun _ hp _ hw hnone => hw.refused hplugins (hsubset hp) hnone)
    fun _ hp _ hw _ hcreated => hw.accepted hids hplugins hR (hsubset hp) hcreated

theorem create (h : Trust registry codec slot R complete ⟨r, w⟩) (provider : Option String)
    (manager protocol identification : String) : Trust registry codec slot R complete
      (r.create provider manager protocol identification w).running :=
  Roster.create_keeps h provider manager protocol identification
    (fun _ hp _ hw hnone => hw.refused hplugins (h.registry_eq ▸ hp) hnone)
    fun _ hp _ hw _ hcreated => hw.accepted hids hplugins hR (h.registry_eq ▸ hp) hcreated

omit hids hplugins in
theorem makeSecret (h : Trust registry codec slot R complete ⟨r, w⟩) (account name : String) :
    Trust registry codec slot R complete ⟨r.makeSecret account name, w⟩ := by
  have hpush : (Push.makeSecret account name).Harmless codec R := by
    intro c record later entries _ hrecord hlater hrelated
    have hmodified := c.record?_modify account account fun record => record.markSecret name
    change (c.take (Push.makeSecret account name)).record? account = _ at hmodified
    change c.record? account = some record at hrecord
    rw [if_pos rfl, hrecord, Option.map_some] at hmodified
    rw [Push.account, hmodified] at hlater
    cases hlater
    exact hR.secret record entries name hrelated
  exact h.take (Or.inl hpush)

/-- No call of a client breaks the trust. -/
theorem kept : Kept (Trust registry codec slot R complete) where
  create h := h.create hids hplugins hR
  setAttribute h := h.setAttribute hids hplugins hR
  setParameter h := h.setParameter hids hplugins hR
  identify h := h.identify
  makeSecret h := h.makeSecret hR
  delete h := h.delete hids hplugins
  commit h := h.commit hplugins

end Operations

end Trust

end AccountRoster
