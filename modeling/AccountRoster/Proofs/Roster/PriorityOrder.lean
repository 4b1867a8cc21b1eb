import AccountRoster.Config
import AccountRoster.Proofs.Roster.Operations

/-!
# The order of the registry

Plugins stand in order of falling priority, and those of one priority in the order in
which they were registered, whatever else was done with the roster in between. This goes
for the backends of a configuration as well: the key-file is registered first, then come
the further backends and then the plugins that are not configured.

## Implementation notes

The number of a plugin is its place in the order of registration. Priority and number
together are a strict order of all plugins, so that the registry is settled by the plugins
that were registered.
-/

namespace AccountRoster

variable {W : Type}

/-- Plugins with the numbers that they get one after the other. -/
def numberPlugins (plugins : List (Plugin W)) : List (Registered W) := plugins.mapIdx Registered.mk

/-- A registry of plugins that were registered one after the other. -/
structure InPriorityOrder (plugins : List (Plugin W)) (registry : List (Registered W)) : Prop where
  /-- Every plugin is there, once for each time that it was registered. -/
  perm : registry.Perm (numberPlugins plugins)
  /-- None has a higher priority than those before it. -/
  descending : registry.Pairwise fun p q => q.plugin.priority ≤ p.plugin.priority
  /-- Those of one priority stand as they were registered. -/
  stable : registry.Pairwise fun p q => p.plugin.priority = q.plugin.priority → p.id < q.id

/-- Whether a plugin goes before another one: it has the higher priority, or the same and
was registered first. -/
def Registered.Precedes (p q : Registered W) : Prop :=
  q.plugin.priority < p.plugin.priority ∨ q.plugin.priority = p.plugin.priority ∧ p.id < q.id

theorem numberPlugins_concat (plugins : List (Plugin W)) (plugin : Plugin W) :
    numberPlugins (plugins ++ [plugin]) = numberPlugins plugins ++ [⟨plugins.length, plugin⟩] :=
  List.mapIdx_concat

theorem length_numberPlugins (plugins : List (Plugin W)) :
    (numberPlugins plugins).length = plugins.length :=
  List.length_mapIdx

theorem id_lt_of_mem_numberPlugins {plugins : List (Plugin W)} {p : Registered W}
    (hp : p ∈ numberPlugins plugins) : p.id < plugins.length := by
  obtain ⟨n, hn, rfl⟩ := List.mem_mapIdx.mp hp
  exact hn

theorem Registered.precedes_iff {p q : Registered W} :
    p.Precedes q ↔ q.plugin.priority ≤ p.plugin.priority ∧
      (p.plugin.priority = q.plugin.priority → p.id < q.id) := by
  unfold Precedes
  omega

theorem inPriorityOrder_iff {plugins : List (Plugin W)} {registry : List (Registered W)} :
    InPriorityOrder plugins registry ↔
      registry.Perm (numberPlugins plugins) ∧ registry.Pairwise Registered.Precedes := by
  have hprecedes : (Registered.Precedes : Registered W → Registered W → Prop) = fun p q =>
      q.plugin.priority ≤ p.plugin.priority ∧
        (p.plugin.priority = q.plugin.priority → p.id < q.id) :=
    funext fun p => funext fun q => propext Registered.precedes_iff
  rw [hprecedes, List.pairwise_and_iff]
  exact ⟨fun h => ⟨h.perm, h.descending, h.stable⟩, fun ⟨hperm, hdescending, hstable⟩ =>
    ⟨hperm, hdescending, hstable⟩⟩

/-- The plugin with the next number goes behind those of its priority. -/
theorem pairwise_enroll {p : Registered W} {l : List (Registered W)}
    (h : l.Pairwise Registered.Precedes) (hp : ∀ q ∈ l, q.id < p.id) :
    (enroll p l).Pairwise Registered.Precedes := by
  induction l with
  | nil => exact List.pairwise_singleton _ p
  | cons q rest ih =>
      obtain ⟨hq, hrest⟩ := List.pairwise_cons.mp h
      obtain ⟨hnew, hnewer⟩ := List.forall_mem_cons.mp hp
      rw [enroll]
      split
      next hlower =>
        refine List.pairwise_cons.mpr ⟨fun r hr => Or.inl ?_, h⟩
        rcases List.mem_cons.mp hr with rfl | hr
        · exact hlower
        · rcases hq r hr with hless | ⟨heq, -⟩
          · exact Int.lt_trans hless hlower
          · exact heq ▸ hlower
      next hhigher =>
        refine List.pairwise_cons.mpr ⟨fun r hr => ?_, ih hrest hnewer⟩
        rcases List.mem_cons.mp ((enroll_perm p rest).mem_iff.mp hr) with rfl | hr
        · unfold Registered.Precedes
          omega
        · exact hq r hr

/-- The plugin that an operation registers. -/
def Operation.plugin? : Operation W → Option (Plugin W)
  | .register plugin => some plugin
  | _ => none

namespace InPriorityOrder

variable {plugins : List (Plugin W)} {registry other : List (Registered W)}

/-- There is one such registry. -/
theorem unique (h : InPriorityOrder plugins registry) (hother : InPriorityOrder plugins other) :
    other = registry := by
  obtain ⟨hperm, hpairwise⟩ := inPriorityOrder_iff.mp h
  obtain ⟨hperm', hpairwise'⟩ := inPriorityOrder_iff.mp hother
  refine List.Perm.eq_of_pairwise ?_ hpairwise' hpairwise (hperm'.trans hperm.symm)
  intro p q _ _ hpq hqp
  unfold Registered.Precedes at hpq hqp
  omega

/-- A registration keeps the order. -/
theorem enroll (h : InPriorityOrder plugins registry) (plugin : Plugin W) :
    InPriorityOrder (plugins ++ [plugin]) (enroll ⟨registry.length, plugin⟩ registry) := by
  obtain ⟨hperm, hpairwise⟩ := inPriorityOrder_iff.mp h
  have hlength : registry.length = plugins.length := by
    rw [hperm.length_eq, length_numberPlugins]
  refine inPriorityOrder_iff.mpr ⟨?_, pairwise_enroll hpairwise fun q hq => ?_⟩
  · rw [numberPlugins_concat, ← hlength]
    exact (enroll_perm _ registry).trans
      ((hperm.cons _).trans (List.perm_append_singleton _ _).symm)
  · rw [hlength]
    exact id_lt_of_mem_numberPlugins (hperm.mem_iff.mp hq)

theorem registerAll {r : Roster W} (h : InPriorityOrder plugins r.registry)
    (more : List (Plugin W)) : InPriorityOrder (plugins ++ more) (r.registerAll more).registry := by
  induction more generalizing plugins r with
  | nil => rwa [List.append_nil]
  | cons plugin more ih =>
      have hnext : InPriorityOrder (plugins ++ [plugin]) (r.register plugin).registry :=
        h.enroll plugin
      rw [List.append_cons]
      exact ih hnext

theorem operate {s : Running W} (h : InPriorityOrder plugins s.roster.registry)
    (operation : Operation W) :
    InPriorityOrder (plugins ++ operation.plugin?.toList) (s.operate operation).roster.registry := by
  rcases operation.register_cases with ⟨plugin, rfl⟩ | hplain
  · exact h.enroll plugin
  · have hnone : operation.plugin? = none := by
      cases operation with
      | register plugin => exact absurd rfl (hplain plugin)
      | _ => rfl
    have hedited : s.EditedFrom operation.Deletes (s.operate operation) :=
      s.editedFrom_operate hplain fun _ hdeletes => hdeletes
    rwa [hnone, Option.toList_none, List.append_nil, hedited.registry]

theorem operateAll {s : Running W} (h : InPriorityOrder plugins s.roster.registry)
    (operations : List (Operation W)) :
    InPriorityOrder (plugins ++ operations.filterMap Operation.plugin?)
      (s.operateAll operations).roster.registry := by
  induction operations generalizing plugins s with
  | nil => rwa [List.filterMap_nil, List.append_nil]
  | cons operation more ih =>
      have hcons : (operation :: more).filterMap Operation.plugin? =
          operation.plugin?.toList ++ more.filterMap Operation.plugin? := by
        cases hplugin : operation.plugin? <;> simp [hplugin]
      rw [hcons, ← List.append_assoc]
      exact ih (h.operate operation)

/-- A list is in order exactly if it is a registry that is. -/
theorem iff_eq (h : InPriorityOrder plugins registry) :
    InPriorityOrder plugins other ↔ other = registry :=
  ⟨h.unique, fun heq => heq ▸ h⟩

end InPriorityOrder

theorem inPriorityOrder_new (codec : Codec) :
    InPriorityOrder ([] : List (Plugin W)) (Roster.new codec).registry :=
  ⟨List.Perm.refl [], List.Pairwise.nil, List.Pairwise.nil⟩

theorem StorageConfig.registry_of_build {ε : Type} {config : StorageConfig}
    {further : List (Plugin (World ε))} {identifier : Option (Identifier (World ε))}
    {w w' : World ε} {r : Roster (World ε)}
    (h : config.build further identifier w = .ok (r, w')) :
    r.registry = ((Roster.new ⟨config.separator⟩).registerAll
      (config.plugins ε ++ further)).registry := by
  unfold build at h
  split at h
  · cases h
    rfl
  · cases h

/-- Whatever is done with a roster, its plugins stand in the order of priority and of
registration, and so do the key-file, the configured backends and the further plugins
that a roster is built with. There is no other such order of them. -/
theorem registry_in_priority_order {W ε : Type} :
    (∀ (codec : Codec) (w : W) (operations : List (Operation W)) (order : List (Registered W)),
      InPriorityOrder (operations.filterMap Operation.plugin?) order ↔
        order = ((⟨Roster.new codec, w⟩ : Running W).operateAll operations).roster.registry) ∧
    ∀ (config : StorageConfig) (further : List (Plugin (World ε)))
      (identifier : Option (Identifier (World ε))) (w w' : World ε) (r : Roster (World ε)),
      config.build further identifier w = .ok (r, w') →
        ∀ order, InPriorityOrder (config.plugins ε ++ further) order ↔ order = r.registry := by
  refine ⟨fun codec w operations order => ?_, fun config further identifier w w' r h order => ?_⟩
  · have hstart : InPriorityOrder [] (⟨Roster.new codec, w⟩ : Running W).roster.registry :=
      inPriorityOrder_new codec
    exact (hstart.operateAll operations).iff_eq
  · rw [StorageConfig.registry_of_build h]
    exact ((inPriorityOrder_new ⟨config.separator⟩).registerAll _).iff_eq

/-- Of two backends of one priority the configured one goes first, and the key-file goes
before a backend of its priority that is configured. -/
theorem registry_in_priority_order_ties :
    let config : StorageConfig := {
      keyfilePath := "a.cfg"
      extraBackends := [.memory { name := "slow", priority := 0 }, .memory { name := "fast" }] }
    let further := [MemoryStore.plugin Unit 3 { name := "late" }]
    let w : World Unit := World.new Disk.empty ()
    let r : Roster (World Unit) := config.roster further none
    config.build further none w = .ok (r, config.prepare w) ∧
      InPriorityOrder (config.plugins Unit ++ further) r.registry ∧
      r.registry.map (fun p => p.plugin.name) = ["fast", "late", "keyfile", "slow"] := by
  intro config further w r
  have hvalid : config.validate = .ok () := by decide +kernel
  have hbuild : config.build further none w = .ok (r, config.prepare w) := by
    rw [StorageConfig.build, hvalid]
  refine ⟨hbuild, ?_, by decide +kernel⟩
  exact (registry_in_priority_order (W := Unit).2 config further none w _ r hbuild _).mpr rfl

end AccountRoster
