import AccountRoster.Proofs.Backend.DirtyMark
import AccountRoster.Proofs.Roster.Custody

/-!
# Accounts that can be written to a key-file

The accounts of a key-file are the groups that it has listed and those that it has
created, so that they have names which a group may have, and no write is refused for the
name of its account. The file keeps the separator that it was set up with.

## Implementation notes

A file is read with the separator of the store, and no edit changes it. `Orderly` says
this together with the valid names, as both are needed of a file that lists its groups.
-/

namespace AccountRoster

variable {ε : Type}

namespace KeyfileStore

variable {s : KeyfileStore} {separator : Char}

/-- The file of a store has valid names and values, and a given separator. -/
def Orderly (separator : Char) (s : KeyfileStore) : Prop :=
  s.file.WellFormed ∧ s.file.separator = separator

theorem orderly_new (path : String) (separator : Char) : (new path separator).Orderly separator :=
  ⟨Keyfile.wellFormed_new separator, rfl⟩

theorem Orderly.isGroupName (h : s.Orderly separator) {account : String}
    (hgroup : s.file.hasGroup account = true) : Keyfile.isGroupName account = true := by
  obtain ⟨entries, hentries⟩ := Option.isSome_iff_exists.mp hgroup
  exact (h.1 account entries hentries).1

/-- Every call on a store keeps it orderly. -/
theorem Orderly.ask (h : s.Orderly separator) (d : Disk) (call : StoreCall) :
    (s.ask d call).store.Orderly separator := by
  by_cases hcall : call = .commit
  · subst hcall
    change (s.commit d).store.Orderly separator
    rcases s.commit_store d with heq | heq
    · rwa [heq]
    · rwa [heq]
  · have hloaded {t : KeyfileStore} (ht : t.loaded = true) (horderly : t.Orderly separator)
        (e : Disk) : (t.ask e call).store.Orderly separator := by
      rw [Orderly, (ask_of_loaded ht e hcall).2, (amendAll t _).1]
      exact wellFormed_editAll horderly _
    cases hread : s.loaded with
    | true => exact hloaded hread h d
    | false =>
        rcases ensureLoaded_cases hread d with ⟨file, hfile, hensure⟩ | ⟨e, -, hensure⟩
        · obtain ⟨found, e, hfound, hwell, hseparator⟩ :=
            (readable_of_readFile hfile).exists_wellFormed
          rw [hfile] at hfound
          cases hfound
          rw [ask_of_ensureLoaded hensure hcall]
          exact hloaded rfl ⟨hwell, hseparator.trans h.2⟩ _
        · rw [ask_of_unreadable hensure hcall]
          exact h

theorem keeps_orderly (slot : Nat) (separator : Char) :
    (plugin ε slot).Keeps fun w => (w.keyfiles slot).Orderly separator := by
  refine keeps_of_visits fun w call hw => ?_
  rw [World.keyfiles_visit]
  exact hw.ask w.disk call

end KeyfileStore

/-! ### The names of the accounts -/

/-- The accounts of the key-file in a slot have names of groups. -/
def Cache.NamesGroups (registry : List (Registered (World ε))) (slot : Nat) (c : Cache) : Prop :=
  ∀ account record, c.record? account = some record → record.OwnedBy registry slot →
    Keyfile.isGroupName account = true

namespace Cache.NamesGroups

variable {registry : List (Registered (World ε))} {slot : Nat} {c : Cache}

theorem insert (h : c.NamesGroups registry slot) {account : String} {record : Record}
    (hnew : record.OwnedBy registry slot → Keyfile.isGroupName account = true) :
    (c.insert account record).NamesGroups registry slot := by
  intro other later hlater howned
  rw [record?_insert] at hlater
  split at hlater
  next heq =>
    cases hlater
    exact heq ▸ hnew howned
  next => exact h other later hlater howned

/-- A cached record is replaced by one of the same owner. -/
theorem replace (h : c.NamesGroups registry slot) {account : String} {record later : Record}
    (hrecord : c.record? account = some record) (howner : later.owner = record.owner) :
    (c.insert account later).NamesGroups registry slot := by
  refine h.insert fun howned => h account record hrecord ?_
  rwa [Record.OwnedBy, ← howner]

theorem erase (h : c.NamesGroups registry slot) (account : String) :
    (c.erase account).NamesGroups registry slot := by
  intro other later hlater howned
  rw [record?_erase] at hlater
  split at hlater
  next => cases hlater
  next => exact h other later hlater howned

theorem takeAll (h : c.NamesGroups registry slot) (pushes : List Push) :
    (c.takeAll pushes).NamesGroups registry slot := by
  intro account later hlater howned
  have howners := c.owner_takeAll pushes account
  rw [hlater] at howners
  obtain ⟨record, hrecord, howner⟩ := Option.map_eq_some_iff.mp howners.symm
  refine h account record hrecord ?_
  rwa [Record.OwnedBy, howner]

end Cache.NamesGroups

/-- The key-file in a slot is orderly, and its accounts have names of groups. -/
structure Grouped (registry : List (Registered (World ε)))
    (kind : Identifier (World ε) → Prop) (slot : Nat) (separator : Char) (s : Running (World ε)) :
    Prop extends Guarded registry kind (fun w => (w.keyfiles slot).Orderly separator) s where
  named : s.roster.cache.NamesGroups registry slot

namespace Grouped

variable {registry : List (Registered (World ε))} {kind : Identifier (World ε) → Prop}
  {slot : Nat} {separator : Char} {r : Roster (World ε)} {w : World ε}
  (hids : (registry.map Registered.id).Nodup)
  (hplugins : ∀ p ∈ registry, p.plugin.Keeps fun w => (w.keyfiles slot).Orderly separator)

include hids hplugins

theorem addAccount (h : Grouped registry kind slot separator ⟨r, w⟩) {p : Registered (World ε)}
    (hp : p ∈ registry) {account : String}
    (hname : p.plugin = KeyfileStore.plugin ε slot → Keyfile.isGroupName account = true) :
    Grouped registry kind slot separator (r.addAccount p account w).running := by
  refine ⟨h.toGuarded.addAccount hplugins hp account, ?_⟩
  rcases r.addAccount_cases p account w with ⟨-, heq⟩ | ⟨-, heq⟩
  · rw [heq]
    exact h.named
  · rw [heq]
    refine (h.named.insert fun howned => hname ?_).takeAll _
    exact (congrArg Registered.plugin (List.inj_on_of_nodup_map hids hp howned rfl))

/-- A key-file lists the groups of its file. -/
theorem keptByLoading : Roster.KeptByLoading (Grouped registry kind slot separator) registry where
  list hs _ hp := ⟨(Guarded.keptByLoading hplugins).list hs.toGuarded hp, hs.named⟩
  add {s t} hs ht p hp accounts hlist account haccount := by
    refine ht.addAccount hids hplugins hp fun hkeyfile => ?_
    have horderly := (hplugins p hp).list s.roster.cache s.world hs.holds
    rw [hkeyfile] at hlist horderly
    obtain ⟨w', -, ⟨-, hlisted⟩ | ⟨-, e, hlisted⟩⟩ :=
      KeyfileStore.exists_listed slot s.roster.cache s.world
    · rw [hlisted] at hlist horderly
      cases hlist
      exact horderly.isGroupName (Dict.mem_keys_iff.mp haccount)
    · rw [hlisted] at hlist
      cases hlist

theorem load (h : Grouped registry kind slot separator ⟨r, w⟩) :
    Grouped registry kind slot separator (r.load w).running := by
  have hkept : Roster.KeptByLoading (Grouped registry kind slot separator) r.registry :=
    (keptByLoading hids hplugins).of_subset fun _ hp => h.registry_eq ▸ hp
  exact hkept.load h

/-- A key-file opens a group for an account that it creates. -/
theorem create (h : Grouped registry kind slot separator ⟨r, w⟩) (provider : Option String)
    (manager protocol identification : String) : Grouped registry kind slot separator
      (r.create provider manager protocol identification w).running := by
  have hasked {p : Registered (World ε)} (hp : p ∈ r.registry) {w : World ε}
      (hw : Grouped registry kind slot separator ⟨r, w⟩) :
      Grouped registry kind slot separator
        ⟨r, (p.plugin.create r.cache manager protocol identification w).2⟩ :=
    ⟨⟨hw.registry_eq, hw.source, (hplugins p (h.registry_eq ▸ hp)).create _ _ _ _ w hw.holds⟩,
      hw.named⟩
  refine Roster.create_keeps h provider manager protocol identification
    (fun p hp w hw _ => hasked hp hw) fun p hp w hw account hcreated => ?_
  refine (hasked hp hw).addAccount hids hplugins (h.registry_eq ▸ hp) fun hkeyfile => ?_
  have horderly := (hasked hp hw).holds
  dsimp only at horderly
  rw [hkeyfile] at hcreated horderly
  obtain ⟨rfl, -, file, -, -, hopened⟩ := KeyfileStore.create_eq_some hcreated
  refine horderly.isGroupName ?_
  rw [KeyfileStore.plugin, World.keyfiles_afterKeyfile_self, hopened]
  exact Option.isSome_of_eq_some (Dict.get?_insert_self _ _ _)

omit hids in
theorem carryOut (h : Grouped registry kind slot separator ⟨r, w⟩)
    {plan : Except RosterError (Option (Cache × Update))}
    (hplan : ∀ c u, plan = .ok (some (c, u)) → c.NamesGroups registry slot) :
    Grouped registry kind slot separator (r.carryOut w plan).running := by
  refine Roster.carryOut_keeps h fun c u hsettled => ?_
  have hguarded := h.toGuarded.turn c h.holds
  exact ⟨hguarded.turn c (hguarded.dispatch hplugins u), hplan c u hsettled⟩

/-- No call of a client gives the key-file an account of another name. -/
theorem kept (hkind : ∀ source, kind source →
      source.Keeps fun w => (w.keyfiles slot).Orderly separator) :
    Kept (Grouped registry kind slot separator) where
  create h := h.create hids hplugins
  setAttribute h account name value := by
    refine h.carryOut hplugins fun c u hplan => ?_
    obtain ⟨record, new, -, hrecord, -, rfl, -⟩ := Cache.planAttribute_eq_some hplan
    exact h.named.replace hrecord (Record.owner_putAttribute record name new)
  setParameter h account name value := by
    refine h.carryOut hplugins fun c u hplan => ?_
    obtain ⟨record, hrecord, rfl, -⟩ := Cache.planParameter_eq_some hplan
    exact h.named.replace hrecord (Record.owner_putTyped record name value)
  identify h manager protocol parameters cancellation :=
    ⟨h.toGuarded.identify hkind manager protocol parameters cancellation, h.named⟩
  makeSecret h account name :=
    ⟨h.toGuarded.turn _ h.holds, h.named.takeAll [.makeSecret account name]⟩
  delete {s} h account := by
    refine ⟨h.toGuarded.delete hplugins account, ?_⟩
    unfold Roster.delete
    split
    · exact h.named
    · exact h.named.erase account
  commit h account := ⟨(Guarded.kept hplugins hkind).commit h.toGuarded account, h.named⟩

theorem operate {s : Running (World ε)} (h : Grouped registry kind slot separator s)
    (hkind : ∀ source, kind source →
      source.Keeps fun w => (w.keyfiles slot).Orderly separator)
    {operation : Operation (World ε)}
    (hrespects : operation.Respects kind fun w => (w.keyfiles slot).Orderly separator) :
    Grouped registry kind slot separator (s.operate operation) := by
  cases operation with
  | register plugin => exact hrespects.elim
  | identifyBy source => exact ⟨⟨h.registry_eq, hrespects, h.holds⟩, h.named⟩
  | load => exact h.load hids hplugins
  | startup =>
      have hstartup : Grouped registry kind slot separator (s.roster.startup s.world).running :=
        Reply.andThen_keeps (h.load hids hplugins) fun _ _ _ ht =>
          ⟨⟨ht.registry_eq, ht.source, ht.toGuarded.ready hplugins⟩, ht.named⟩
      exact hstartup
  | call call => exact (kept hids hplugins hkind).perform h call
  | report push => exact ⟨h.toGuarded.turn _ h.holds, h.named.takeAll [push]⟩
  | elapse world => exact ⟨⟨h.registry_eq, h.source, hrespects⟩, h.named⟩

end Grouped

/-- A key-file with a given separator holds its accounts in trust, and they have names of
groups. -/
structure Housed (codec : Codec) (slot : Nat) (separator : Char) (s : Running (World ε)) :
    Prop where
  custody : Custody codec slot (fun _ _ => True) (fun _ _ => True) False s
  orderly : (s.world.keyfiles slot).Orderly separator
  named : s.roster.cache.NamesGroups s.roster.registry slot

namespace Housed

variable {codec : Codec} {slot : Nat} {separator : Char} {s t : Running (World ε)}

theorem start (codec : Codec) {w : World ε} (h : (w.keyfiles slot).Orderly separator) :
    Housed codec slot separator ⟨Roster.new codec, w⟩ where
  custody := Custody.start codec slot _ _ w
  orderly := h
  named := nofun

theorem operate (h : Housed codec slot separator s) (operation : Operation (World ε))
    (hadmitted : operation.Admitted codec slot (fun _ _ => True) (fun _ _ => True) s) :
    Housed codec slot separator (s.operate operation) := by
  have hcustody := h.custody.operate (upkeep_true codec) (fun _ => trivial) operation hadmitted
  have hlasting : World.Lasting slot (fun _ _ => True)
      fun w : World ε => (w.keyfiles slot).Orderly separator := by
    intro w w' hstore _ hw
    rwa [hstore]
  -- `Grouped` is about one registry, and a registration is what changes it
  rcases operation.register_cases with ⟨plugin, rfl⟩ | hplain
  · exact ⟨hcustody, h.orderly, fun account record hrecord howned => h.named account record hrecord
      ((h.custody.ownedBy_register_iff plugin hrecord).mp howned)⟩
  · have hgrouped : Grouped s.roster.registry
        (fun source => source.Tame slot fun _ _ => True) slot separator s :=
      ⟨⟨rfl, h.custody.source, h.orderly⟩, h.named⟩
    have hafter := hgrouped.operate h.custody.ids_nodup
      (h.custody.keeps_of_mem (fun _ => trivial) hlasting (KeyfileStore.keeps_orderly slot separator))
      (fun _ htame => hlasting.keeps_source (fun _ => trivial) htame)
      (hlasting.respects hadmitted h.orderly hplain)
    refine ⟨hcustody, hafter.holds, ?_⟩
    rw [hafter.registry_eq]
    exact hafter.named

theorem reaches (h : Housed codec slot separator s)
    (ht : s.Reaches codec slot (fun _ _ => True) (fun _ _ => True) t) :
    Housed codec slot separator t := by
  induction ht with
  | start => exact h
  | step _ operation hadmitted ih => exact ih.operate operation hadmitted

theorem registerAll (h : Housed codec slot separator s) {plugins : List (Plugin (World ε))}
    (hplugins : ∀ plugin ∈ plugins, plugin = KeyfileStore.plugin ε slot ∨ plugin.Spares slot) :
    Housed codec slot separator ⟨s.roster.registerAll plugins, s.world⟩ := by
  induction plugins generalizing s with
  | nil => exact h
  | cons plugin more ih =>
      obtain ⟨hplugin, hmore⟩ := List.forall_mem_cons.mp hplugins
      exact ih (h.operate (.register plugin) (hplugin.imp_right (·.tame codec))) hmore

theorem isGroupName (h : Housed codec slot separator s) {account : String}
    (howner : s.roster.owner? account = some (KeyfileStore.plugin ε slot)) :
    Keyfile.isGroupName account = true := by
  obtain ⟨record, hrecord, -, -⟩ := h.custody.exists_record howner
  exact h.named account record hrecord ((h.custody.owner?_eq_some_iff hrecord).mp howner)

end Housed

end AccountRoster
