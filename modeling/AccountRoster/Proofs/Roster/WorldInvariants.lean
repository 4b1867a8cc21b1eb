import AccountRoster.Proofs.Roster.Operations
import AccountRoster.Proofs.Roster.Watching

/-!
# What plugins keep true of the world

A roster acts on the world through its plugins and its source of identifiers, and in
no other way. What none of them makes false therefore stays true, whatever is done
with the roster, as long as no other plugin joins.

## Implementation notes

Plugins are named by the registry, which no operation but a registration changes. A
source of identifiers may be exchanged, so that it is a class of sources that has to
keep what is kept.
-/

namespace AccountRoster

variable {W : Type}

/-- No call of a plugin makes something false of the world. -/
structure Plugin.Keeps (plugin : Plugin W) (I : W → Prop) : Prop where
  list : ∀ c w, I w → I (plugin.list c w).2
  get : ∀ c account key w, I w → I (plugin.get c account key w).2.2
  set : ∀ c account key escaped w, I w → I (plugin.set c account key escaped w).2
  setAttribute : ∀ c account name v w, I w → I (plugin.setAttribute c account name v w).2
  setParameter : ∀ c account name v secret w, I w →
    I (plugin.setParameter c account name v secret w).2
  delete : ∀ c account key w, I w → I (plugin.delete c account key w).2
  commit : ∀ c account w, I w → I (plugin.commit c account w).2
  create : ∀ c manager protocol identification w, I w →
    I (plugin.create c manager protocol identification w).2
  ready : ∀ c w, I w → I (plugin.ready c w)

theorem Plugin.Keeps.and {plugin : Plugin W} {I J : W → Prop} (h : plugin.Keeps I)
    (h' : plugin.Keeps J) : plugin.Keeps fun w => I w ∧ J w where
  list c w hw := ⟨h.list c w hw.1, h'.list c w hw.2⟩
  get c account key w hw := ⟨h.get c account key w hw.1, h'.get c account key w hw.2⟩
  set c account key escaped w hw :=
    ⟨h.set c account key escaped w hw.1, h'.set c account key escaped w hw.2⟩
  setAttribute c account name v w hw :=
    ⟨h.setAttribute c account name v w hw.1, h'.setAttribute c account name v w hw.2⟩
  setParameter c account name v secret w hw :=
    ⟨h.setParameter c account name v secret w hw.1, h'.setParameter c account name v secret w hw.2⟩
  delete c account key w hw := ⟨h.delete c account key w hw.1, h'.delete c account key w hw.2⟩
  commit c account w hw := ⟨h.commit c account w hw.1, h'.commit c account w hw.2⟩
  create c manager protocol identification w hw :=
    ⟨h.create c manager protocol identification w hw.1,
      h'.create c manager protocol identification w hw.2⟩
  ready c w hw := ⟨h.ready c w hw.1, h'.ready c w hw.2⟩

/-- Telling a plugin about an update keeps what its calls keep. -/
theorem Plugin.Keeps.tell {plugin : Plugin W} {I : W → Prop} (h : plugin.Keeps I) (r : Roster W)
    (u : Update) {w : W} (hw : I w) : I (r.tell plugin u w) := by
  have hoffer (v : Value) : I (r.offer plugin u v w).2 := by
    unfold Roster.offer
    split
    · exact h.setAttribute _ _ _ _ _ hw
    · exact h.setParameter _ _ _ _ _ _ hw
  unfold Roster.tell
  split
  · exact h.delete _ _ _ _ hw
  next v _ =>
    have hasked := hoffer v
    split
    next w' heq =>
      rw [heq] at hasked
      exact h.set _ _ _ _ _ hasked
    next answer w' _ heq =>
      rw [heq] at hasked
      exact hasked

/-- No question to a source of identifiers makes something false of the world. -/
def Identifier.Keeps (source : Identifier W) (I : W → Prop) : Prop :=
  ∀ manager protocol parameters w, I w → I (source.identify manager protocol parameters w).2

/-- Something is true of the world, the plugins are given ones, and the source of
identifiers, if there is one, is of a given kind. -/
structure Guarded (registry : List (Registered W)) (kind : Identifier W → Prop) (I : W → Prop)
    (s : Running W) : Prop where
  registry_eq : s.roster.registry = registry
  source : ∀ source, s.roster.identifier = some source → kind source
  holds : I s.world

/-- By an operation no plugin joins. A source that it brings is of the given kind, and
a world that it brings about by itself is as it has to be. -/
def Operation.Respects (kind : Identifier W → Prop) (I : W → Prop) : Operation W → Prop
  | .register _ => False
  | .identifyBy source => ∀ given, source = some given → kind given
  | .elapse world => I world
  | _ => True

theorem Roster.exists_of_owner? {r : Roster W} {account : String} {plugin : Plugin W}
    (h : r.owner? account = some plugin) : ∃ p ∈ r.registry, p.plugin = plugin := by
  obtain ⟨record, -, hplugin⟩ := Option.bind_eq_some_iff.mp h
  obtain ⟨p, hfind, rfl⟩ := Option.map_eq_some_iff.mp hplugin
  exact ⟨p, List.mem_of_find?_eq_some hfind, rfl⟩

namespace Guarded

variable {registry : List (Registered W)} {kind : Identifier W → Prop} {I : W → Prop}
  {r : Roster W} {w : W}

/-- Another cache, and another world of which the same is true. -/
theorem turn (h : Guarded registry kind I ⟨r, w⟩) (c : Cache) {w' : W} (hw : I w') :
    Guarded registry kind I ⟨{ r with cache := c }, w'⟩ :=
  ⟨h.registry_eq, h.source, hw⟩

theorem identify (hkind : ∀ source, kind source → source.Keeps I)
    (h : Guarded registry kind I ⟨r, w⟩) (manager protocol : String) (parameters : Parameters)
    (cancellation : Cancellation) : Guarded registry kind I
      ⟨r, (r.identify manager protocol parameters cancellation w).2⟩ := by
  apply Roster.identify_keeps h
  intro source hsource
  exact ⟨h.registry_eq, h.source, hkind source (h.source source hsource) _ _ _ w h.holds⟩

section Plugins

variable (hplugins : ∀ p ∈ registry, p.plugin.Keeps I)

include hplugins

theorem keeps_owner (h : Guarded registry kind I ⟨r, w⟩) {account : String} {plugin : Plugin W}
    (howner : r.owner? account = some plugin) : plugin.Keeps I := by
  obtain ⟨p, hp, rfl⟩ := Roster.exists_of_owner? howner
  exact hplugins p (h.registry_eq ▸ hp)

theorem dispatch (h : Guarded registry kind I ⟨r, w⟩) (u : Update) : I (r.dispatch u w) := by
  unfold Roster.dispatch
  split
  next plugin howner => exact (h.keeps_owner hplugins howner).tell r u h.holds
  next => exact h.holds

theorem carryOut (h : Guarded registry kind I ⟨r, w⟩)
    (plan : Except RosterError (Option (Cache × Update))) :
    Guarded registry kind I (r.carryOut w plan).running :=
  Roster.carryOut_keeps h fun c u _ =>
    h.turn c ((h.turn c h.holds).dispatch hplugins u)

theorem delete (h : Guarded registry kind I ⟨r, w⟩) (account : String) :
    Guarded registry kind I (r.delete account w).running := by
  unfold Roster.delete
  split
  next => exact h
  next =>
    refine h.turn _ ?_
    split
    next plugin howner => exact (h.keeps_owner hplugins howner).delete _ _ _ _ h.holds
    next => exact h.holds

theorem commit (h : Guarded registry kind I ⟨r, w⟩) (account : Option String) :
    I (r.commit account w) := by
  unfold Roster.commit
  split
  next account =>
    split
    next plugin howner => exact (h.keeps_owner hplugins howner).commit _ _ _ h.holds
    next => exact h.holds
  next =>
    rw [h.registry_eq]
    exact List.foldlRecOn registry _ h.holds fun w hw p hp => (hplugins p hp).commit _ _ w hw

theorem ready (h : Guarded registry kind I ⟨r, w⟩) : I (r.ready w) := by
  rw [Roster.ready, h.registry_eq]
  exact List.foldlRecOn registry _ h.holds fun w hw p hp => (hplugins p hp).ready _ w hw

theorem addAccount (h : Guarded registry kind I ⟨r, w⟩) {p : Registered W} (hp : p ∈ registry)
    (account : String) : Guarded registry kind I (r.addAccount p account w).running := by
  rcases r.addAccount_cases p account w with ⟨-, heq⟩ | ⟨-, heq⟩
  · rwa [heq]
  · rw [heq]
    exact h.turn _ ((hplugins p hp).get _ _ _ _ h.holds)

theorem keptByLoading : Roster.KeptByLoading (Guarded registry kind I) registry where
  list hs _ hp := ⟨hs.registry_eq, hs.source, (hplugins _ hp).list _ _ hs.holds⟩
  add _ ht _ hp _ _ account _ := ht.addAccount hplugins hp account

theorem load (h : Guarded registry kind I ⟨r, w⟩) :
    Guarded registry kind I (r.load w).running := by
  have hkept : Roster.KeptByLoading (Guarded registry kind I) r.registry :=
    (keptByLoading hplugins).of_subset fun _ hp => h.registry_eq ▸ hp
  exact hkept.load h

theorem create (h : Guarded registry kind I ⟨r, w⟩) (provider : Option String)
    (manager protocol identification : String) :
    Guarded registry kind I (r.create provider manager protocol identification w).running := by
  have hasked (p : Registered W) (hp : p ∈ r.registry) (w : W)
      (hw : Guarded registry kind I ⟨r, w⟩) : Guarded registry kind I
        ⟨r, (p.plugin.create r.cache manager protocol identification w).2⟩ :=
    ⟨hw.registry_eq, hw.source,
      (hplugins p (h.registry_eq ▸ hp)).create _ _ _ _ _ hw.holds⟩
  refine Roster.create_keeps h provider manager protocol identification
    (fun p hp w hw _ => hasked p hp w hw) fun p hp w hw account _ => ?_
  exact (hasked p hp w hw).addAccount hplugins (h.registry_eq ▸ hp) account

variable (hkind : ∀ source, kind source → source.Keeps I)

include hkind

/-- No call of a client makes it false. -/
theorem kept : Kept (Guarded registry kind I) where
  create h := h.create hplugins
  setAttribute h _ _ _ := h.carryOut hplugins _
  setParameter h _ _ _ := h.carryOut hplugins _
  identify h := h.identify hkind
  makeSecret h _ _ := h.turn _ h.holds
  delete h := h.delete hplugins
  commit h account := ⟨h.registry_eq, h.source, h.commit hplugins account⟩

theorem operate {s : Running W} (h : Guarded registry kind I s) {operation : Operation W}
    (hrespects : operation.Respects kind I) : Guarded registry kind I (s.operate operation) := by
  cases operation with
  | register plugin => exact hrespects.elim
  | identifyBy source => exact ⟨h.registry_eq, hrespects, h.holds⟩
  | load => exact h.load hplugins
  | startup =>
      have hstartup : Guarded registry kind I (s.roster.startup s.world).running :=
        Reply.andThen_keeps (h.load hplugins) fun _ _ _ ht =>
          ⟨ht.registry_eq, ht.source, ht.ready hplugins⟩
      exact hstartup
  | call call => exact (kept hplugins hkind).perform h call
  | report push => exact h.turn _ h.holds
  | elapse world => exact ⟨h.registry_eq, h.source, hrespects⟩

/-- What plugins and sources keep stays true whatever is done. -/
theorem operateAll {s : Running W} (h : Guarded registry kind I s)
    {operations : List (Operation W)}
    (hrespects : ∀ operation ∈ operations, operation.Respects kind I) :
    Guarded registry kind I (s.operateAll operations) :=
  List.foldlRecOn operations Running.operate h fun _ ht _ hmem =>
    ht.operate hplugins hkind (hrespects _ hmem)

end Plugins

end Guarded

/-- What is true of the world once a plugin has listed its accounts, and is kept by all
plugins, is true after a load in which the plugin has listed them. -/
theorem Roster.holds_of_listed {I : W → Prop} {plugins : List (Registered W)} {r : Roster W}
    (hplugins : ∀ p ∈ r.registry, p.plugin.Keeps I) (hsubset : plugins ⊆ r.registry)
    {p : Registered W} (hp : p ∈ plugins)
    (hlist : ∀ c w accounts, (p.plugin.list c w).1 = .ok accounts → I (p.plugin.list c w).2)
    {w : W} (hanswer : (loadPlugins plugins r w).answer = .ok ())
    (hheard : ∀ listing ∈ heard plugins r w, ∃ accounts, listing.answer = .ok accounts) :
    I (loadPlugins plugins r w).world := by
  induction plugins generalizing r w with
  | nil => cases hp
  | cons q more ih =>
      obtain ⟨hq, hmore⟩ := List.cons_subset.mp hsubset
      rw [heard] at hheard
      obtain ⟨⟨accounts, hlisted⟩, hheard⟩ := List.forall_mem_cons.mp hheard
      have hregistry := r.registry_loadPlugin q w
      rw [loadPlugins, Reply.andThen] at hanswer ⊢
      cases hloaded : (r.loadPlugin q w).answer with
      | error e =>
          rw [hloaded] at hanswer
          cases hanswer
      | ok _ =>
          rw [hloaded] at hanswer hheard
          rcases List.mem_cons.mp hp with rfl | hp
          · -- from its answer on, the plugins that follow keep it
            have hkept : KeptByLoading (Guarded r.registry (fun _ => True) I) r.registry :=
              Guarded.keptByLoading hplugins
            have hasked : Guarded r.registry (fun _ => True) I ⟨r, (p.plugin.list r.cache w).2⟩ :=
              ⟨rfl, fun _ _ => trivial, hlist _ _ accounts hlisted⟩
            have hentered : Guarded r.registry (fun _ => True) I (r.loadPlugin p w).running :=
              loadPlugin_keeps hasked fun _ _ account _ _ ht => ht.addAccount hplugins hq account
            exact ((hkept.of_subset hmore).loadPlugins hentered).holds
          · exact ih (hregistry ▸ hplugins) (hregistry ▸ hmore) hp hanswer hheard

end AccountRoster
