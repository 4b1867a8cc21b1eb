import AccountRoster.Proofs.Roster.Calls
import AccountRoster.Proofs.Roster.Registry

/-!
# Watching a load

A load asks plugins for their accounts, and what one of them answers may depend on
all that has happened before. A roster that is watched is the same roster on a world
with a log, into which every such answer is put. The log of a load is what its
plugins did answer, in the order in which they were asked.

## Implementation notes

The log is part of the world, so that it is the load itself that makes it. `heard`
says the same as a recursion over the plugins, for proofs to follow.
-/

namespace AccountRoster

variable {W α : Type}

/-- That a plugin was asked for its accounts, and what it answered. -/
structure Listing (W : Type) where
  plugin : Registered W
  answer : Except RosterError (List String)

/-- A world with a log. -/
abbrev Watched (W : Type) : Type := W × List (Listing W)

namespace Watched

/-- Act on the world, and leave the log alone. -/
def act (action : W → α × W) (w : Watched W) : α × Watched W :=
  ((action w.1).1, (action w.1).2, w.2)

end Watched

/-- The same plugin on a world with a log, where it leaves what accounts it lists. -/
def Registered.watched (p : Registered W) : Registered (Watched W) where
  id := p.id
  plugin := {
    name := p.plugin.name
    description := p.plugin.description
    priority := p.plugin.priority
    provider := p.plugin.provider
    list := fun cache w =>
      let answer := p.plugin.list cache w.1
      (answer.1, answer.2, w.2 ++ [⟨p, answer.1⟩])
    get := fun cache account key w =>
      let answer := p.plugin.get cache account key w.1
      (answer.1, answer.2.1, answer.2.2, w.2)
    set := fun cache account key escaped => Watched.act (p.plugin.set cache account key escaped)
    setAttribute := fun cache account name value =>
      Watched.act (p.plugin.setAttribute cache account name value)
    setParameter := fun cache account name value secret =>
      Watched.act (p.plugin.setParameter cache account name value secret)
    delete := fun cache account key => Watched.act (p.plugin.delete cache account key)
    commit := fun cache account => Watched.act (p.plugin.commit cache account)
    create := fun cache manager protocol identification =>
      Watched.act (p.plugin.create cache manager protocol identification)
    ready := fun cache w => (p.plugin.ready cache w.1, w.2)
    owns := fun cache account => Watched.act (p.plugin.owns cache account) }

/-- The same source on a world with a log. -/
def Identifier.watched (source : Identifier W) : Identifier (Watched W) where
  identify := fun manager protocol parameters =>
    Watched.act (source.identify manager protocol parameters)

/-- The same roster on a world with a log. -/
def Roster.watched (r : Roster W) : Roster (Watched W) where
  cache := r.cache
  registry := r.registry.map Registered.watched
  identifier := r.identifier.map Identifier.watched

/-- The same reply on a world with a log. -/
def Reply.watched (reply : Reply W α) (log : List (Listing W)) : Reply (Watched W) α :=
  ⟨reply.answer, reply.roster.watched, reply.world, log⟩

namespace Roster

/-- What the plugins answer when they are asked in order, up to the first conflict. -/
def heard : List (Registered W) → Roster W → W → List (Listing W)
  | [], _, _ => []
  | p :: more, r, w =>
      ⟨p, (p.plugin.list r.cache w).1⟩ ::
        match (r.loadPlugin p w).answer with
        | .ok _ => heard more (r.loadPlugin p w).roster (r.loadPlugin p w).world
        | .error _ => []

theorem pluginName_watched (r : Roster W) (n : Nat) :
    r.watched.pluginName n = r.pluginName n := by
  have hfind : ∀ l : List (Registered W), (l.map Registered.watched).find? (fun p => p.id == n) =
      (l.find? fun p => p.id == n).map Registered.watched := fun l => List.find?_map
  unfold pluginName plugin? watched
  rw [hfind]
  cases r.registry.find? fun p => p.id == n <;> rfl

theorem addAccount_watched (r : Roster W) (p : Registered W) (account : String) (w : W)
    (log : List (Listing W)) :
    r.watched.addAccount p.watched account (w, log) = (r.addAccount p account w).watched log := by
  unfold addAccount
  cases h : r.cache.record? account with
  | none =>
      have hwatched : r.watched.cache.record? account = none := h
      rw [hwatched]
      rfl
  | some record =>
      have hwatched : r.watched.cache.record? account = some record := h
      rw [hwatched]
      dsimp only
      rw [pluginName_watched]
      rfl

theorem addAccounts_watched (p : Registered W) (accounts : List String) (r : Roster W) (w : W)
    (log : List (Listing W)) :
    addAccounts p.watched accounts r.watched (w, log) =
      (addAccounts p accounts r w).watched log := by
  induction accounts generalizing r w with
  | nil => rfl
  | cons account more ih =>
      rw [addAccounts, addAccounts, addAccount_watched]
      cases h : (r.addAccount p account w).answer with
      | error e => simp only [Reply.andThen, Reply.watched, h]
      | ok _ =>
          simp only [Reply.andThen, Reply.watched, h]
          exact ih _ _

/-- A plugin that is watched leaves its answer, and does what it does otherwise. -/
theorem loadPlugin_watched (r : Roster W) (p : Registered W) (w : W) (log : List (Listing W)) :
    r.watched.loadPlugin p.watched (w, log) =
      (r.loadPlugin p w).watched (log ++ [⟨p, (p.plugin.list r.cache w).1⟩]) := by
  have hlist : p.watched.plugin.list r.watched.cache (w, log) =
      ((p.plugin.list r.cache w).1, (p.plugin.list r.cache w).2,
        log ++ [⟨p, (p.plugin.list r.cache w).1⟩]) := rfl
  rw [loadPlugin, hlist, loadPlugin]
  cases p.plugin.list r.cache w with
  | mk answer w' =>
      cases answer with
      | error e => rfl
      | ok accounts => exact addAccounts_watched p accounts r w' _

theorem loadPlugins_watched (plugins : List (Registered W)) (r : Roster W) (w : W)
    (log : List (Listing W)) :
    loadPlugins (plugins.map Registered.watched) r.watched (w, log) =
      (loadPlugins plugins r w).watched (log ++ heard plugins r w) := by
  induction plugins generalizing r w log with
  | nil => rw [heard, List.append_nil]; rfl
  | cons p more ih =>
      rw [List.map_cons, loadPlugins, loadPlugins, loadPlugin_watched, heard]
      cases h : (r.loadPlugin p w).answer with
      | error e => simp only [Reply.andThen, Reply.watched, h]
      | ok _ =>
          simp only [Reply.andThen, Reply.watched, h]
          refine (ih _ _ _).trans ?_
          rw [List.append_assoc]
          rfl

/-- A load that is watched is the same load. -/
theorem load_watched (r : Roster W) (w : W) :
    r.watched.load (w, []) = (r.load w).watched (heard r.registry.reverse r w) := by
  have h := loadPlugins_watched r.registry.reverse r w []
  rw [List.map_reverse, List.nil_append] at h
  exact h

/-- Plugins are asked in order. -/
theorem heard_prefix (plugins : List (Registered W)) (r : Roster W) (w : W) :
    (heard plugins r w).map Listing.plugin <+: plugins := by
  induction plugins generalizing r w with
  | nil => exact List.prefix_refl []
  | cons p more ih =>
      rw [heard, List.map_cons, List.prefix_cons_inj]
      split
      · exact ih _ _
      · exact List.nil_prefix

/-- When there is no conflict, all plugins are asked. -/
theorem heard_of_ok {plugins : List (Registered W)} {r : Roster W} {w : W}
    (h : (loadPlugins plugins r w).answer = .ok ()) :
    (heard plugins r w).map Listing.plugin = plugins := by
  induction plugins generalizing r w with
  | nil => rfl
  | cons p more ih =>
      rw [loadPlugins, Reply.andThen] at h
      rw [heard, List.map_cons]
      cases hp : (r.loadPlugin p w).answer with
      | error e =>
          rw [hp] at h
          cases h
      | ok _ =>
          rw [hp] at h
          exact congrArg (p :: ·) (ih h)

/-- Whatever a load keeps was so when a plugin gave its answer. -/
theorem exists_of_mem_heard {P : Running W → Prop} {plugins : List (Registered W)}
    (hP : KeptByLoading P plugins) {r : Roster W} {w : W} (h : P ⟨r, w⟩) {l : Listing W}
    (hl : l ∈ heard plugins r w) :
    ∃ s : Running W, P s ∧ l.answer = (l.plugin.plugin.list s.roster.cache s.world).1 := by
  induction plugins generalizing r w with
  | nil => cases hl
  | cons p more ih =>
      have hmore := hP.of_subset (List.subset_cons_self p more)
      rw [heard] at hl
      rcases List.mem_cons.mp hl with rfl | hl
      · exact ⟨⟨r, w⟩, h, rfl⟩
      · split at hl
        · exact ih hmore (hP.loadPlugin h List.mem_cons_self) hl
        · cases hl

end Roster

end AccountRoster
