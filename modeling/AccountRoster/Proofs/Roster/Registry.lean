import AccountRoster.Roster
import Mathlib.Data.List.Perm.Basic
import Mathlib.Data.List.Nodup
import Mathlib.Data.List.Range

/-!
# The registry and its numbers

Plugins are numbered in the order in which they are registered, whatever their
priorities are. A number therefore names one plugin, and goes on to name it when
more plugins are registered.
-/

namespace AccountRoster

variable {W : Type}

/-- Enrolling adds one plugin and loses none. -/
theorem enroll_perm (p : Registered W) (l : List (Registered W)) : (enroll p l).Perm (p :: l) := by
  induction l with
  | nil => exact List.Perm.refl _
  | cons q rest ih =>
      rw [enroll]
      split
      · exact List.Perm.refl _
      · exact (ih.cons q).trans (List.Perm.swap p q rest)

namespace Roster

/-- The numbers of the plugins are those below their count, each used once. -/
def Numbered (r : Roster W) : Prop :=
  (r.registry.map Registered.id).Perm (List.range r.registry.length)

theorem numbered_new (codec : Codec) : (new codec : Roster W).Numbered :=
  List.Perm.refl _

theorem registry_register (r : Roster W) (plugin : Plugin W) :
    (r.register plugin).registry.Perm (⟨r.registry.length, plugin⟩ :: r.registry) :=
  enroll_perm _ _

theorem length_register (r : Roster W) (plugin : Plugin W) :
    (r.register plugin).registry.length = r.registry.length + 1 := by
  rw [(r.registry_register plugin).length_eq, List.length_cons]

theorem mem_register {r : Roster W} {plugin : Plugin W} {p : Registered W} :
    p ∈ (r.register plugin).registry ↔ p = ⟨r.registry.length, plugin⟩ ∨ p ∈ r.registry := by
  rw [(r.registry_register plugin).mem_iff, List.mem_cons]

theorem Numbered.register {r : Roster W} (h : r.Numbered) (plugin : Plugin W) :
    (r.register plugin).Numbered := by
  rw [Numbered, length_register, List.range_succ]
  calc
    ((r.register plugin).registry.map Registered.id).Perm
        (r.registry.length :: r.registry.map Registered.id) :=
      (r.registry_register plugin).map Registered.id
    _ |>.Perm (r.registry.length :: List.range r.registry.length) := h.cons _
    _ |>.Perm (List.range r.registry.length ++ [r.registry.length]) :=
      (List.perm_append_singleton _ _).symm

theorem Numbered.nodup {r : Roster W} (h : r.Numbered) : (r.registry.map Registered.id).Nodup :=
  h.nodup_iff.mpr List.nodup_range

/-- A number names the plugin that was registered under it. -/
theorem plugin?_eq_some_iff {r : Roster W} (h : (r.registry.map Registered.id).Nodup) {n : Nat}
    {plugin : Plugin W} : r.plugin? n = some plugin ↔ ⟨n, plugin⟩ ∈ r.registry := by
  rw [plugin?, Option.map_eq_some_iff]
  constructor
  · rintro ⟨p, hfind, rfl⟩
    have hid : p.id = n := by simpa using List.find?_some hfind
    rw [← hid]
    exact List.mem_of_find?_eq_some hfind
  · intro hmem
    have hsome : (r.registry.find? fun p => p.id == n).isSome := by
      rw [List.find?_isSome]
      exact ⟨⟨n, plugin⟩, hmem, beq_self_eq_true n⟩
    obtain ⟨p, hfind⟩ := Option.isSome_iff_exists.mp hsome
    have hid : p.id = n := by simpa using List.find?_some hfind
    have heq : p = ⟨n, plugin⟩ :=
      List.inj_on_of_nodup_map h (List.mem_of_find?_eq_some hfind) hmem hid
    exact ⟨p, hfind, congrArg Registered.plugin heq⟩

/-- The owner of an account is the plugin whose number is in its record. -/
theorem owner?_eq_some_iff {r : Roster W} (h : (r.registry.map Registered.id).Nodup)
    {account : String} {record : Record} (hrecord : r.cache.record? account = some record)
    {plugin : Plugin W} :
    r.owner? account = some plugin ↔ ⟨record.owner, plugin⟩ ∈ r.registry := by
  rw [owner?, hrecord]
  exact plugin?_eq_some_iff h

theorem pluginName_of_mem {r : Roster W} (h : (r.registry.map Registered.id).Nodup)
    {p : Registered W} (hp : p ∈ r.registry) : r.pluginName p.id = p.plugin.name := by
  rw [pluginName, (plugin?_eq_some_iff h).mpr hp]
  rfl

/-- Plugins that are registered in order get the next numbers in order. -/
theorem mem_registerAll {r : Roster W} {plugins : List (Plugin W)} {p : Registered W} :
    p ∈ (r.registerAll plugins).registry ↔
      p ∈ r.registry ∨ ∃ k, p.id = r.registry.length + k ∧ plugins[k]? = some p.plugin := by
  induction plugins generalizing r with
  | nil => simp [registerAll]
  | cons plugin more ih =>
      change p ∈ ((r.register plugin).registerAll more).registry ↔ _
      rw [ih, mem_register, length_register]
      constructor
      · rintro ((rfl | hold) | ⟨k, hid, hk⟩)
        · exact Or.inr ⟨0, rfl, rfl⟩
        · exact Or.inl hold
        · exact Or.inr ⟨k + 1, by omega, hk⟩
      · rintro (hold | ⟨k, hid, hk⟩)
        · exact Or.inl (Or.inr hold)
        · cases k with
          | zero =>
              refine Or.inl (Or.inl ?_)
              obtain ⟨id, q⟩ := p
              cases hk
              exact congrArg (Registered.mk · q) hid
          | succ k => exact Or.inr ⟨k, by omega, hk⟩

theorem Numbered.registerAll {r : Roster W} (h : r.Numbered) (plugins : List (Plugin W)) :
    (r.registerAll plugins).Numbered := by
  induction plugins generalizing r with
  | nil => exact h
  | cons plugin more ih => exact ih (h.register plugin)

@[simp] theorem cache_registerAll (r : Roster W) (plugins : List (Plugin W)) :
    (r.registerAll plugins).cache = r.cache := by
  induction plugins generalizing r with
  | nil => rfl
  | cons plugin more ih => exact ih (r.register plugin)

/-! ### What leaves the registry alone -/

theorem registry_addAccounts (p : Registered W) (accounts : List String) (r : Roster W) (w : W) :
    (addAccounts p accounts r w).roster.registry = r.registry := by
  induction accounts generalizing r w with
  | nil => rfl
  | cons account more ih =>
      rw [addAccounts, Reply.andThen]
      split
      · rw [ih, registry_addAccount]
      · exact registry_addAccount r p account w

theorem registry_loadPlugin (r : Roster W) (p : Registered W) (w : W) :
    (r.loadPlugin p w).roster.registry = r.registry := by
  unfold loadPlugin
  split
  · exact registry_addAccounts p _ r _
  · rfl

end Roster

end AccountRoster
