import AccountRoster.Proofs.Cache.GroupNames
import AccountRoster.Proofs.Roster.Neighbours

/-!
# A key-file takes new accounts

Once a load has entered the groups of a key-file, every group is an account, whatever is
done later. A name that no account has is then that of no group, and the key-file takes a
new account unless its name may not be one of a group. Only the protocol can be the reason
for that, as it is the one part of the name that is not made an identifier.

## Implementation notes

Plugins that are asked before the key-file may take the account, or name one that is
there already. Both end the search, so that what these plugins come to by themselves is
part of the statement. Nothing has to be assumed about what they answer.
-/

namespace AccountRoster

variable {ε : Type} {slot : Nat}

theorem Plugin.Spares.loadPlugin {p : Registered (World ε)} (h : p.plugin.Spares slot)
    (r : Roster (World ε)) (w : World ε) :
    (r.loadPlugin p w).world.keyfiles slot = w.keyfiles slot := by
  refine Roster.loadPlugin_keeps
    (P := fun s : Running (World ε) => s.world.keyfiles slot = w.keyfiles slot)
    ((h _).list r.cache w rfl) fun accounts _ account _ (s : Running (World ε)) hs => ?_
  rcases s.roster.addAccount_cases p account s.world with ⟨-, heq⟩ | ⟨-, heq⟩
  · rwa [heq]
  · rw [heq]
    exact (h _).get _ account none s.world hs

namespace Roster

variable {W : Type} {r : Roster W}

theorem addCreated_ne_noStorageAvailable (p : Registered W) (account : String) (w : W) :
    (r.addCreated p account w).answer ≠ .error .noStorageAvailable := by
  unfold addCreated addAccount
  split <;> nofun

/-- Plugins end the search for one that creates an account, or leave it to the others in
the world that they have made of it. -/
theorem createFirst_append (manager protocol identification : String)
    (preferred : List (Registered W)) (w : W) :
    let first := r.createFirst manager protocol identification preferred w
    (first.answer ≠ .error .noStorageAvailable ∧ ∀ others,
        r.createFirst manager protocol identification (preferred ++ others) w = first) ∨
      (first.answer = .error .noStorageAvailable ∧ first.roster = r ∧ ∀ others,
        r.createFirst manager protocol identification (preferred ++ others) w =
          r.createFirst manager protocol identification others first.world) := by
  induction preferred generalizing w with
  | nil => exact Or.inr ⟨rfl, rfl, fun _ => rfl⟩
  | cons p more ih =>
      dsimp only [List.cons_append, createFirst]
      rcases p.plugin.create r.cache manager protocol identification w with ⟨e | _ | account, w'⟩
      · exact ih w'
      · exact ih w'
      · exact Or.inl ⟨addCreated_ne_noStorageAvailable p account w', fun _ => rfl⟩

end Roster

namespace Trust

variable {registry : List (Registered (World ε))} {codec : Codec}
  {R : Record → Dict String → Prop} {complete : Prop} {r : Roster (World ε)} {w : World ε}

/-- It is known which groups there are. -/
theorem completed {s : Running (World ε)} (h : Trust registry codec slot R complete s)
    {known : Prop}
    (hstored : known → (s.world.keyfiles slot).loaded = true ∧
      ∀ account, (s.world.keyfiles slot).file.hasGroup account = true →
        ∃ record, s.roster.cache.record? account = some record ∧ record.OwnedBy registry slot) :
    Trust registry codec slot R known s where
  registry_eq := h.registry_eq
  codec_eq := h.codec_eq
  source := h.source
  related := h.related
  stored := hstored

/-! ### The groups of a loaded key-file are accounts -/

section Loading

variable {allowed : World ε → World ε → Prop} (hids : (registry.map Registered.id).Nodup)
  (hplugins : ∀ p ∈ registry,
    p.plugin = KeyfileStore.plugin ε slot ∨ p.plugin.Tame codec slot R allowed)
  (hR : Upkeep codec R)

include hids hplugins hR

/-- After a key-file had its turn, its groups are accounts if they are in memory. -/
theorem listed (h : Trust registry codec slot R complete ⟨r, w⟩) {n : Nat}
    (hn : ⟨n, KeyfileStore.plugin ε slot⟩ ∈ registry)
    (hanswer : (r.loadPlugin ⟨n, KeyfileStore.plugin ε slot⟩ w).answer = .ok ()) :
    Trust registry codec slot R
      (((r.loadPlugin ⟨n, KeyfileStore.plugin ε slot⟩ w).world.keyfiles slot).loaded = true)
      (r.loadPlugin ⟨n, KeyfileStore.plugin ε slot⟩ w).running := by
  refine (h.loadPlugin hids hplugins hR hn).completed fun hloaded => ?_
  refine ⟨hloaded, fun account hgroup => ?_⟩
  obtain ⟨w', hw, ⟨hread, hlist⟩ | ⟨hunread, e, hlist⟩⟩ :=
    KeyfileStore.exists_listed slot r.cache w
  · obtain ⟨-, hworld⟩ := (h.elapse hw).addAccounts hR hn hread (w'.keyfiles slot).file.groupNames
    rw [Roster.loadPlugin_of_list hlist] at hanswer hgroup ⊢
    have hmem : account ∈ (w'.keyfiles slot).file.groupNames := by
      rw [Reply.running, hworld] at hgroup
      exact Dict.mem_keys_iff.mpr hgroup
    obtain ⟨record, hrecord, howner⟩ :=
      Option.map_eq_some_iff.mp (Roster.owner_addAccounts hanswer hmem)
    refine ⟨record, hrecord, ?_⟩
    rw [Record.OwnedBy, howner]
    exact hn
  · rw [Roster.loadPlugin_of_list_error hlist, hunread] at hloaded
    cases hloaded

/-- If a key-file is among the plugins that are still to be asked, or has been asked, its
groups are accounts in the end, provided that they are in memory. -/
theorem listedAmong {plugins : List (Registered (World ε))} (hsubset : plugins ⊆ registry)
    (h : Trust registry codec slot R complete ⟨r, w⟩) {n : Nat}
    (hn : ⟨n, KeyfileStore.plugin ε slot⟩ ∈ plugins ∨
      Trust registry codec slot R ((w.keyfiles slot).loaded = true) ⟨r, w⟩)
    (hanswer : (Roster.loadPlugins plugins r w).answer = .ok ()) :
    Trust registry codec slot R
      (((Roster.loadPlugins plugins r w).world.keyfiles slot).loaded = true)
      (Roster.loadPlugins plugins r w).running := by
  induction plugins generalizing r w with
  | nil => exact hn.resolve_left List.not_mem_nil
  | cons p more ih =>
      obtain ⟨hp, hmore⟩ := List.cons_subset.mp hsubset
      rw [Roster.loadPlugins, Reply.andThen] at hanswer ⊢
      cases hfirst : (r.loadPlugin p w).answer with
      | error e =>
          rw [hfirst] at hanswer
          cases hanswer
      | ok _ =>
          rw [hfirst] at hanswer
          refine ih hmore (h.loadPlugin hids hplugins hR hp) ?_ hanswer
          obtain ⟨m, plugin⟩ := p
          by_cases hkeyfile : plugin = KeyfileStore.plugin ε slot
          · subst hkeyfile
            exact Or.inr (h.listed hids hplugins hR hp hfirst)
          · rcases hn with hmem | hasked
            · refine Or.inl ((List.mem_cons.mp hmem).resolve_left fun heq => hkeyfile ?_)
              exact (congrArg Registered.plugin heq).symm
            · have hspares := ((hplugins _ hp).resolve_left hkeyfile).spares.loadPlugin r w
              have hkept := hasked.loadPlugin hids hplugins hR hp
              rw [← hspares] at hkept
              exact Or.inr hkept

end Loading

/-! ### A key-file that is asked for an account -/

/-- If all groups are accounts, the key-file takes a new account if its name is one of a
group, and else is as it was. -/
theorem create_keyfile (h : Trust registry codec slot R True ⟨r, w⟩)
    (manager protocol identification : String) :
    ((∀ c ∈ protocol.toList, Keyfile.IsNameChar c) ∧
        ∃ w', (KeyfileStore.plugin ε slot).create r.cache manager protocol identification w =
          (.ok (some (r.cache.uniqueName manager protocol identification)), w')) ∨
      ((¬∀ c ∈ protocol.toList, Keyfile.IsNameChar c) ∧
        ∃ e, (KeyfileStore.plugin ε slot).create r.cache manager protocol identification w =
          (.error e, w)) := by
  obtain ⟨hloaded, hgroups⟩ := h.stored trivial
  have hnew : (w.keyfiles slot).file.hasGroup
      (r.cache.uniqueName manager protocol identification) = false := by
    refine Bool.eq_false_iff.mpr fun hgroup => ?_
    obtain ⟨record, hrecord, -⟩ := hgroups _ hgroup
    rw [Cache.record?_uniqueName] at hrecord
    cases hrecord
  rw [← r.cache.isGroupName_uniqueName manager protocol identification]
  dsimp only [KeyfileStore.plugin]
  generalize r.cache.uniqueName manager protocol identification = name at hnew ⊢
  rw [KeyfileStore.create, KeyfileStore.whenLoaded_of_loaded hloaded, Keyfile.addGroup, hnew]
  by_cases hname : Keyfile.isGroupName name = true
  · rw [hname]
    exact Or.inl ⟨rfl, _, rfl⟩
  · refine Or.inr ⟨hname, .codec (.invalidName name), ?_⟩
    rw [if_pos (by simpa using hname)]
    exact Prod.ext rfl (w.afterKeyfile_same slot _)

/-- An account is created if the key-file gets its turn and may use the name, or if the
other plugins create it without the key-file. -/
theorem create_iff {allowed : World ε → World ε → Prop} (hids : (registry.map Registered.id).Nodup)
    (hplugins : ∀ p ∈ registry,
      p.plugin = KeyfileStore.plugin ε slot ∨ p.plugin.Tame codec slot R allowed)
    (hR : Upkeep codec R) (h : Trust registry codec slot R True ⟨r, w⟩)
    {preferred others : List (Registered (World ε))} {n : Nat}
    (hregistry : registry = preferred ++ ⟨n, KeyfileStore.plugin ε slot⟩ :: others)
    {manager protocol : String} (hmanager : manager ≠ "") (hprotocol : protocol ≠ "")
    (identification : String) :
    (∃ account, (r.create none manager protocol identification w).answer = .ok account) ↔
      ((∀ c ∈ protocol.toList, Keyfile.IsNameChar c) ∧
          (r.createFirst manager protocol identification preferred w).answer =
            .error .noStorageAvailable) ∨
        ∃ account, (r.createFirst manager protocol identification (preferred ++ others) w).answer =
          .ok account := by
  have hcreate : r.create none manager protocol identification w =
      r.createFirst manager protocol identification
        (preferred ++ ⟨n, KeyfileStore.plugin ε slot⟩ :: others) w := by
    rw [Roster.create, if_neg (by simp [hmanager, hprotocol])]
    rw [h.registry_eq, hregistry]
  rw [hcreate]
  rcases r.createFirst_append manager protocol identification preferred w with
    ⟨hended, hsame⟩ | ⟨hleft, hroster, hsame⟩
  · rw [hsame, hsame]
    exact ⟨Or.inr, fun hor => hor.resolve_left fun hand => hended hand.2⟩
  · have hsubset : preferred ⊆ registry := fun p hp => hregistry ▸ List.mem_append_left _ hp
    have hlater := h.createFirst hids hplugins hR manager protocol identification hsubset
    rw [Reply.running, hroster] at hlater
    rw [hsame, hsame, Roster.createFirst]
    rcases hlater.create_keyfile manager protocol identification with
      ⟨hvalid, w', hcreated⟩ | ⟨hinvalid, e, hrefused⟩
    · have hnew := r.cache.record?_uniqueName manager protocol identification
      rw [hcreated]
      refine ⟨fun _ => Or.inl ⟨hvalid, hleft⟩,
        fun _ => ⟨r.cache.uniqueName manager protocol identification, ?_⟩⟩
      dsimp only
      rw [Roster.addCreated, Roster.addAccount, hnew]
      rfl
    · rw [hrefused]
      exact ⟨Or.inr, fun hor => hor.resolve_left fun hand => hinvalid hand.1⟩

end Trust

namespace Custody

variable {codec : Codec} {R : Record → Dict String → Prop} {allowed : World ε → World ε → Prop}
  {complete : Prop} {s : Running (World ε)}

/-- After a load in which the key-file was read, its groups are accounts. -/
theorem loaded (hR : Upkeep codec R) (hrefl : ∀ w, allowed w w)
    (h : Custody codec slot R allowed complete s) {n : Nat}
    (hn : ⟨n, KeyfileStore.plugin ε slot⟩ ∈ s.roster.registry)
    (hanswer : (s.roster.load s.world).answer = .ok ())
    (hread : ((s.roster.load s.world).world.keyfiles slot).loaded = true) :
    Custody codec slot R allowed True (s.roster.load s.world).running := by
  have hlisted := h.trust.listedAmong h.ids_nodup h.plugins hR
    (fun _ => List.mem_reverse.mp) (Or.inl (List.mem_reverse.mpr hn)) hanswer
  have hleads : s.LeadsTo (fun _ => True) (s.operate .load) := s.leadsTo_operate fun _ _ => trivial
  have hafter := h.operate hR hrefl .load trivial
  exact h.of_trust hleads hafter.source (hlisted.completed fun _ => hlisted.stored hread)

end Custody

/-- After a load that found the file of a key-file missing or could read it, and whatever
else was done, an account that is created has a name that was not cached. It is created
exactly if the protocol has neither brackets nor control characters and no plugin that is
asked before the key-file ends the search, or if the other plugins create it without the
key-file. -/
theorem created_over_keyfile_iff {codec : Codec} {w : World ε} {s t : Running (World ε)}
    (hs : (⟨Roster.new codec, w⟩ : Running (World ε)).Reaches codec slot (fun _ _ => True)
      (fun _ _ => True) s)
    {n : Nat} (hn : ⟨n, KeyfileStore.plugin ε slot⟩ ∈ s.roster.registry)
    (hanswer : (s.roster.load s.world).answer = .ok ())
    (hread : ((s.roster.load s.world).world.keyfiles slot).loaded = true)
    (ht : (s.roster.load s.world).running.Reaches codec slot (fun _ _ => True) (fun _ _ => True) t)
    {manager protocol : String} (hmanager : manager ≠ "") (hprotocol : protocol ≠ "")
    (identification : String) :
    let reply := t.roster.create none manager protocol identification t.world
    let asking (plugins : List (Registered (World ε))) :=
      t.roster.createFirst manager protocol identification plugins t.world
    (∀ account, reply.answer = .ok account → t.roster.cache.record? account = none) ∧
    ∃ preferred others,
      t.roster.registry = preferred ++ ⟨n, KeyfileStore.plugin ε slot⟩ :: others ∧
      ((∃ account, reply.answer = .ok account) ↔
        ((∀ c ∈ protocol.toList, Keyfile.IsNameChar c) ∧
            (asking preferred).answer = .error .noStorageAvailable) ∨
          ∃ account, (asking (preferred ++ others)).answer = .ok account) := by
  intro reply asking
  have hR := upkeep_true codec
  have hcustody := ((Custody.start codec slot _ _ w).reaches hR (fun _ => trivial) hs).loaded hR
    (fun _ => trivial) hn hanswer hread
  have hlater := hcustody.reaches hR (fun _ => trivial) ht
  have hregistered : ⟨n, KeyfileStore.plugin ε slot⟩ ∈ t.roster.registry := by
    have hload : s.LeadsTo (fun _ => True) (s.operate .load) :=
      s.leadsTo_operate fun _ _ => trivial
    exact ht.leadsTo.subset (hload.subset hn)
  obtain ⟨preferred, others, hsplit⟩ := List.append_of_mem hregistered
  exact ⟨fun account hcreated => (Roster.create_eq_ok hcreated).1, preferred, others, hsplit,
    hlater.trust.create_iff hlater.ids_nodup hlater.plugins hR hsplit hmanager hprotocol
      identification⟩

/-- A key-file that was read takes an account that a preferred plugin has refused, under a
name that none of its groups has. -/
theorem created_over_keyfile_read :
    let text := "[m/p/i0]\nNickname=bob\n"
    let w := (World.new (Disk.empty.mount "a.cfg" (.text text)) ()).putKeyfile 0
      (KeyfileStore.new "a.cfg" ',')
    let memory := MemoryStore.plugin Unit 0 { name := "memory", refuseCreate := true }
    let start : Running (World Unit) := ⟨Roster.new {}, w⟩
    let s := start.operateAll [.register (KeyfileStore.plugin Unit 0), .register memory]
    let t := s.operateAll [.load, .call (.create none "m" "p" "i")]
    ∃ account, (t.roster.create none "m" "p" "i" t.world).answer = .ok account ∧
      t.roster.cache.record? account = none := by
  intro text w memory start s t
  have hspares : memory.Spares 0 := MemoryStore.spares 0 0 _
  have hs : start.Reaches {} 0 (fun _ _ => True) (fun _ _ => True) s :=
    (Running.Reaches.start.step (.register (KeyfileStore.plugin Unit 0)) (Or.inl rfl)).step
      (.register memory) (Or.inr (hspares.tame {}))
  have ht : (s.roster.load s.world).running.Reaches {} 0 (fun _ _ => True) (fun _ _ => True) t :=
    Running.Reaches.start.step (.call (.create none "m" "p" "i")) trivial
  have hprotocol : ∀ c ∈ "p".toList, Keyfile.IsNameChar c := by
    intro c hc
    rw [List.mem_singleton.mp hc]
    decide
  obtain ⟨hfresh, preferred, others, hsplit, hiff⟩ := created_over_keyfile_iff hs
    (List.mem_of_getElem? (i := 1) rfl) (Except.eq_ok_of_toOption (by decide +kernel))
    (by decide +kernel) ht (show "m" ≠ "" by decide) (show "p" ≠ "" by decide) "i"
  have hregistry : t.roster.registry = [⟨1, memory⟩, ⟨0, KeyfileStore.plugin Unit 0⟩] :=
    ((Running.EditedFrom.refl s fun _ => False).load.create none "m" "p" "i").registry
  obtain ⟨rfl, rfl⟩ : preferred = [⟨1, memory⟩] ∧ others = [] := by
    rw [hregistry] at hsplit
    match preferred, hsplit with
    | [], hsplit => exact absurd (congrArg Registered.id (List.cons.inj hsplit).1) (by decide)
    | [p], hsplit =>
        obtain ⟨hfirst, hrest⟩ := List.cons.inj hsplit
        exact ⟨by rw [hfirst], (List.cons.inj hrest).2.symm⟩
    | p :: q :: more, hsplit => simp at hsplit
  obtain ⟨account, hcreated⟩ := hiff.mpr (Or.inl ⟨hprotocol, rfl⟩)
  exact ⟨account, hcreated, hfresh account hcreated⟩

/-- A bracket in the protocol would end the header of the group, and no plugin takes the
account, although the key-file is there and was loaded. -/
theorem created_over_keyfile_bracket :
    let w := (World.new Disk.empty ()).putKeyfile 0 (KeyfileStore.new "a.cfg" ',')
    let start : Running (World Unit) := ⟨Roster.new {}, w⟩
    let s := start.operateAll [.register (KeyfileStore.plugin Unit 0)]
    let loaded := s.roster.load s.world
    loaded.answer = .ok () ∧ (loaded.world.keyfiles 0).loaded = true ∧
      (loaded.roster.create none "m" "p]" "i" loaded.world).answer =
        .error .noStorageAvailable := by
  intro w start s loaded
  exact ⟨Except.eq_ok_of_toOption (by decide +kernel), by decide +kernel, by decide +kernel⟩

end AccountRoster
