import AccountRoster.Proofs.Roster.Trust

/-!
# Custody of a key-file

Whatever is done with a roster, a key-file holds its accounts in trust, as long as the
plugins that join leave it alone.

## Implementation notes

`Custody` adds to `Trust` that owners are registered, which keeps a plugin that is
registered later from finding accounts of its own. It is kept by every single operation
(`Custody.operate`), and so by all that can be done in any order (`Custody.reaches`).
-/

namespace AccountRoster

variable {ε : Type}

/-- An operation that brings in nothing but the key-file in a slot itself and what is
tame, and by which the world changes as it is allowed to. -/
def Operation.Admitted (codec : Codec) (slot : Nat) (R : Record → Dict String → Prop)
    (allowed : World ε → World ε → Prop) (s : Running (World ε)) : Operation (World ε) → Prop
  | .register plugin =>
      plugin = KeyfileStore.plugin ε slot ∨ plugin.Tame codec slot R allowed
  | .identifyBy source => ∀ given, source = some given → given.Tame slot allowed
  | .report push => push.Harmless codec R
  | .elapse world => world.keyfiles slot = s.world.keyfiles slot ∧ allowed s.world world
  | _ => True

/-- The states that such operations lead to. -/
inductive Running.Reaches (codec : Codec) (slot : Nat) (R : Record → Dict String → Prop)
    (allowed : World ε → World ε → Prop) (s : Running (World ε)) : Running (World ε) → Prop
  | start : Reaches codec slot R allowed s s
  | step {t : Running (World ε)} (h : Reaches codec slot R allowed s t)
      (operation : Operation (World ε)) (hadmitted : operation.Admitted codec slot R allowed t) :
      Reaches codec slot R allowed s (t.operate operation)

theorem Running.Reaches.leadsTo {codec : Codec} {slot : Nat} {R : Record → Dict String → Prop}
    {allowed : World ε → World ε → Prop} {s t : Running (World ε)}
    (h : s.Reaches codec slot R allowed t) : s.LeadsTo (fun _ => True) t := by
  induction h with
  | start => exact (Running.EditedFrom.refl s _).leadsTo
  | step _ operation _ ih => exact ih.trans (Running.leadsTo_operate _ fun _ _ => trivial)

/-- Plugins are numbered, owners are registered, and every plugin is tame or the key-file
itself, which holds its accounts in trust. -/
structure Custody (codec : Codec) (slot : Nat) (R : Record → Dict String → Prop)
    (allowed : World ε → World ε → Prop) (complete : Prop) (s : Running (World ε)) : Prop where
  numbered : s.roster.Numbered
  sound : s.roster.cache.Sound s.roster.HasNumber
  plugins : ∀ p ∈ s.roster.registry,
    p.plugin = KeyfileStore.plugin ε slot ∨ p.plugin.Tame codec slot R allowed
  source : ∀ source, s.roster.identifier = some source → source.Tame slot allowed
  trust : Trust s.roster.registry codec slot R complete s

/-- What nothing that is tame makes false. -/
def World.Lasting (slot : Nat) (allowed : World ε → World ε → Prop) (I : World ε → Prop) : Prop :=
  ∀ w w' : World ε, w'.keyfiles slot = w.keyfiles slot → allowed w w' → I w → I w'

namespace World.Lasting

variable {slot : Nat} {allowed : World ε → World ε → Prop} {I : World ε → Prop}

theorem keeps (hI : World.Lasting slot allowed I) (hrefl : ∀ w, allowed w w) {codec : Codec}
    {R : Record → Dict String → Prop} {plugin : Plugin (World ε)}
    (h : plugin.Tame codec slot R allowed) : plugin.Keeps I where
  list c w := hI w _ ((h.spares _).list c w rfl) ((h.keeps w).list c w (hrefl w))
  get c account key w := hI w _ ((h.spares _).get c account key w rfl)
    ((h.keeps w).get c account key w (hrefl w))
  set c account key escaped w := hI w _ ((h.spares _).set c account key escaped w rfl)
    ((h.keeps w).set c account key escaped w (hrefl w))
  setAttribute c account name v w := hI w _ ((h.spares _).setAttribute c account name v w rfl)
    ((h.keeps w).setAttribute c account name v w (hrefl w))
  setParameter c account name v secret w :=
    hI w _ ((h.spares _).setParameter c account name v secret w rfl)
      ((h.keeps w).setParameter c account name v secret w (hrefl w))
  delete c account key w := hI w _ ((h.spares _).delete c account key w rfl)
    ((h.keeps w).delete c account key w (hrefl w))
  commit c account w := hI w _ ((h.spares _).commit c account w rfl)
    ((h.keeps w).commit c account w (hrefl w))
  create c manager protocol identification w :=
    hI w _ ((h.spares _).create c manager protocol identification w rfl)
      ((h.keeps w).create c manager protocol identification w (hrefl w))
  ready c w := hI w _ ((h.spares _).ready c w rfl) ((h.keeps w).ready c w (hrefl w))

theorem keeps_source (hI : World.Lasting slot allowed I) (hrefl : ∀ w, allowed w w)
    {source : Identifier (World ε)} (h : source.Tame slot allowed) : source.Keeps I :=
  fun manager protocol parameters w => hI w _ (h.spares _ manager protocol parameters w rfl)
    (h.keeps w manager protocol parameters w (hrefl w))

/-- An admitted operation that is no registration respects what lasts. -/
theorem respects (hI : World.Lasting slot allowed I) {codec : Codec}
    {R : Record → Dict String → Prop} {s : Running (World ε)} {operation : Operation (World ε)}
    (hadmitted : operation.Admitted codec slot R allowed s) (hs : I s.world)
    (hplain : ∀ plugin, operation ≠ .register plugin) :
    operation.Respects (fun source => source.Tame slot allowed) I := by
  cases operation with
  | register plugin => exact absurd rfl (hplain plugin)
  | identifyBy source => exact hadmitted
  | elapse world => exact hI s.world world hadmitted.1 hadmitted.2 hs
  | load => trivial
  | startup => trivial
  | call call => trivial
  | report push => trivial

end World.Lasting

namespace Custody

variable {codec : Codec} {slot : Nat} {R : Record → Dict String → Prop}
  {allowed : World ε → World ε → Prop} {complete : Prop} {s t : Running (World ε)}

theorem start (codec : Codec) (slot : Nat) (R : Record → Dict String → Prop)
    (allowed : World ε → World ε → Prop) (w : World ε) :
    Custody codec slot R allowed False ⟨Roster.new codec, w⟩ where
  numbered := Roster.numbered_new codec
  sound := nofun
  plugins := nofun
  source := nofun
  trust := {
    registry_eq := rfl
    codec_eq := rfl
    source := nofun
    related := nofun
    stored := False.elim }

theorem ids_nodup (h : Custody codec slot R allowed complete s) :
    (s.roster.registry.map Registered.id).Nodup := h.numbered.nodup

/-- The key-file owns the accounts whose records name it. -/
theorem owner?_eq_some_iff (h : Custody codec slot R allowed complete s) {account : String}
    {record : Record} (hrecord : s.roster.cache.record? account = some record) :
    s.roster.owner? account = some (KeyfileStore.plugin ε slot) ↔
      record.OwnedBy s.roster.registry slot :=
  Trust.owner?_eq_some_iff h.ids_nodup rfl hrecord

/-- An account of the key-file is a group of a file in memory. -/
theorem exists_record (h : Custody codec slot R allowed complete s) {account : String}
    (howner : s.roster.owner? account = some (KeyfileStore.plugin ε slot)) :
    ∃ record, s.roster.cache.record? account = some record ∧
      (s.world.keyfiles slot).loaded = true ∧
      R record ((s.world.keyfiles slot).file.entries account) := by
  obtain ⟨record, hrecord, -⟩ := Option.bind_eq_some_iff.mp howner
  have howned := (h.owner?_eq_some_iff hrecord).mp howner
  exact ⟨record, hrecord, h.trust.related account record hrecord howned⟩

/-- The key-file is told of an update that the record of its account has taken. -/
theorem follows_dispatch (h : Custody codec slot R allowed complete s) {u : Update}
    (howner : s.roster.owner? u.account = some (KeyfileStore.plugin ε slot)) {record later : Record}
    (hrecord : s.roster.cache.record? u.account = some record)
    (hsame : later.owner = record.owner) :
    Follows slot s.world
      (({ s.roster with cache := s.roster.cache.insert u.account later } :
        Roster (World ε)).dispatch u s.world)
      ((s.world.keyfiles slot).file.updated codec u) := by
  obtain ⟨-, -, hloaded, -⟩ := h.exists_record howner
  have howner' : ({ s.roster with cache := s.roster.cache.insert u.account later } :
      Roster (World ε)).owner? u.account = some (KeyfileStore.plugin ε slot) := by
    rw [Roster.owner?, hrecord] at howner
    rw [Roster.owner?, Cache.record?_insert_self, Option.bind_some, hsame]
    exact howner
  have hfollows := Roster.tell_keyfile
    { s.roster with cache := s.roster.cache.insert u.account later } u hloaded
  rw [Roster.dispatch, howner', ← h.trust.codec_eq]
  exact hfollows

/-- A plugin that is registered gets a number that owns nothing yet. -/
theorem ownedBy_register_iff (h : Custody codec slot R allowed complete s)
    (plugin : Plugin (World ε)) {account : String} {record : Record}
    (hrecord : s.roster.cache.record? account = some record) :
    record.OwnedBy (s.roster.register plugin).registry slot ↔
      record.OwnedBy s.roster.registry slot := by
  obtain ⟨-, owner, howner⟩ := h.sound account record hrecord
  rw [Record.OwnedBy, Roster.mem_register]
  refine ⟨fun hmem => hmem.resolve_left fun hnew => ?_, Or.inr⟩
  have hlt : record.owner < s.roster.registry.length := by
    have hrange := h.numbered.subset (List.mem_map_of_mem howner)
    exact List.mem_range.mp hrange
  have hnumber : record.owner = s.roster.registry.length := congrArg Registered.id hnew
  omega

theorem register (h : Custody codec slot R allowed complete s) {plugin : Plugin (World ε)}
    (hplugin : plugin = KeyfileStore.plugin ε slot ∨ plugin.Tame codec slot R allowed) :
    Custody codec slot R allowed complete ⟨s.roster.register plugin, s.world⟩ := by
  refine ⟨h.numbered.register plugin, fun account record hrecord => ?_, fun p hp => ?_, h.source,
    ⟨rfl, h.trust.codec_eq, h.trust.source, fun account record hrecord hnow => ?_,
      fun hcomplete => ?_⟩⟩
  · obtain ⟨hconsistent, owner, howner⟩ := h.sound account record hrecord
    exact ⟨hconsistent, owner, Roster.mem_register.mpr (Or.inr howner)⟩
  · rcases Roster.mem_register.mp hp with rfl | hold
    · exact hplugin
    · exact h.plugins p hold
  · exact h.trust.related account record hrecord
      ((h.ownedBy_register_iff plugin hrecord).mp hnow)
  · obtain ⟨hloaded, hstored⟩ := h.trust.stored hcomplete
    refine ⟨hloaded, fun account hgroup => ?_⟩
    obtain ⟨record, hrecord, hold⟩ := hstored account hgroup
    exact ⟨record, hrecord, (h.ownedBy_register_iff plugin hrecord).mpr hold⟩

/-- What keeps the plugins, the source and the trust keeps custody. -/
theorem of_trust (h : Custody codec slot R allowed complete s) {complete' : Prop}
    (hleads : s.LeadsTo (fun _ => True) t)
    (hsource : ∀ source, t.roster.identifier = some source → source.Tame slot allowed)
    (htrust : Trust s.roster.registry codec slot R complete' t) :
    Custody codec slot R allowed complete' t := by
  have hregistry := htrust.registry_eq
  refine ⟨hleads.numbered h.numbered, ?_, fun p hp => ?_, hsource, ?_⟩
  · apply hleads.edits.sound
    intro account record hrecord
    obtain ⟨hconsistent, owner, howner⟩ := h.sound account record hrecord
    exact ⟨hconsistent, owner, hleads.subset howner⟩
  · exact h.plugins p (hregistry ▸ hp)
  · rw [hregistry]
    exact htrust

/-- What lasts is kept by all plugins if it is kept by the key-file. -/
theorem keeps_of_mem (h : Custody codec slot R allowed complete s) (hrefl : ∀ w, allowed w w)
    {I : World ε → Prop} (hI : World.Lasting slot allowed I)
    (hkeyfile : (KeyfileStore.plugin ε slot).Keeps I) :
    ∀ p ∈ s.roster.registry, p.plugin.Keeps I := by
  intro p hp
  rcases h.plugins p hp with heq | htame
  · rwa [heq]
  · exact hI.keeps hrefl htame

/-- What lasts is kept by every admitted operation that is no registration, if it is kept
by the key-file; and so are the plugins and what is tame of the source. -/
theorem guarded (h : Custody codec slot R allowed complete s) (hrefl : ∀ w, allowed w w)
    {I : World ε → Prop} (hI : World.Lasting slot allowed I)
    (hkeyfile : (KeyfileStore.plugin ε slot).Keeps I) (hs : I s.world)
    {operation : Operation (World ε)} (hadmitted : operation.Admitted codec slot R allowed s)
    (hplain : ∀ plugin, operation ≠ .register plugin) :
    Guarded s.roster.registry (fun source => source.Tame slot allowed) I
      (s.operate operation) := by
  have hguarded : Guarded s.roster.registry (fun source => source.Tame slot allowed) I s :=
    ⟨rfl, h.source, hs⟩
  exact hguarded.operate (h.keeps_of_mem hrefl hI hkeyfile)
    (fun _ htame => hI.keeps_source hrefl htame) (hI.respects hadmitted hs hplain)

/-- What lasts and is kept by the key-file stays true. -/
theorem holds (h : Custody codec slot R allowed complete s) (hrefl : ∀ w, allowed w w)
    {I : World ε → Prop} (hI : World.Lasting slot allowed I)
    (hkeyfile : (KeyfileStore.plugin ε slot).Keeps I) (hs : I s.world)
    {operation : Operation (World ε)} (hadmitted : operation.Admitted codec slot R allowed s) :
    I (s.operate operation).world := by
  rcases operation.register_cases with ⟨plugin, rfl⟩ | hplain
  · exact hs
  · exact (h.guarded hrefl hI hkeyfile hs hadmitted hplain).holds

theorem operate (hR : Upkeep codec R) (hrefl : ∀ w, allowed w w)
    (h : Custody codec slot R allowed complete s) (operation : Operation (World ε))
    (hadmitted : operation.Admitted codec slot R allowed s) :
    Custody codec slot R allowed complete (s.operate operation) := by
  have hleads : s.LeadsTo (fun _ => True) (s.operate operation) :=
    s.leadsTo_operate fun _ _ => trivial
  have hguarded := h.guarded hrefl (I := fun _ => True) (fun _ _ _ _ _ => trivial)
    (KeyfileStore.keeps_of_visits fun _ _ _ => trivial) trivial hadmitted
  have htrust : Kept (Trust s.roster.registry codec slot R complete) :=
    Trust.kept h.ids_nodup h.plugins hR
  have hload := h.trust.load h.ids_nodup h.plugins hR
  cases operation with
  | register plugin => exact h.register hadmitted
  | identifyBy source =>
      exact h.of_trust hleads hadmitted ⟨rfl, h.trust.codec_eq,
        fun given hgiven => (hadmitted given hgiven).spares, h.trust.related, h.trust.stored⟩
  | load => exact h.of_trust hleads (hguarded nofun).source hload
  | startup =>
      refine h.of_trust hleads (hguarded nofun).source ?_
      exact Reply.andThen_keeps hload fun _ _ _ ht => ht.ready h.plugins
  | call call => exact h.of_trust hleads (hguarded nofun).source (htrust.perform h.trust call)
  | report push =>
      exact h.of_trust hleads (hguarded nofun).source (h.trust.take (Or.inl hadmitted))
  | elapse world =>
      exact h.of_trust hleads (hguarded nofun).source
        (h.trust.elapse (World.Undisturbed.of_eq hadmitted.1))

/-- Whatever is done, the key-file holds its accounts in trust. -/
theorem reaches (hR : Upkeep codec R) (hrefl : ∀ w, allowed w w)
    (h : Custody codec slot R allowed complete s) (ht : s.Reaches codec slot R allowed t) :
    Custody codec slot R allowed complete t := by
  induction ht with
  | start => exact h
  | step _ operation hadmitted ih => exact ih.operate hR hrefl operation hadmitted

end Custody

end AccountRoster
