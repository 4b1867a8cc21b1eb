import AccountRoster.Plugin

/-! # Rosters

A roster is the account cache together with the registered plugins. Plugins
stand in order of falling priority, and those of equal priority in order of
registration; each has a number, by which records name their owner. -/

namespace AccountRoster

/-- A plugin and its number. -/
structure Registered (W : Type) where
  id : Nat
  plugin : Plugin W

/-- Put a plugin before the first one of lower priority. -/
def enroll {W : Type} (p : Registered W) : List (Registered W) → List (Registered W)
  | [] => [p]
  | q :: rest =>
      if q.plugin.priority < p.plugin.priority then p :: q :: rest else q :: enroll p rest

/-- The cache, the plugins behind it, and where identifiers come from. -/
structure Roster (W : Type) where
  cache : Cache := {}
  registry : List (Registered W) := []
  identifier : Option (Identifier W) := none

/-- What an operation answers, and the state after it. -/
structure Reply (W α : Type) where
  answer : Except RosterError α
  roster : Roster W
  world : W

namespace Reply

variable {W α β : Type}

/-- Go on with the answer, unless it is an error. -/
def andThen (reply : Reply W α) (next : α → Roster W → W → Reply W β) : Reply W β :=
  match reply.answer with
  | .ok a => next a reply.roster reply.world
  | .error e => ⟨.error e, reply.roster, reply.world⟩

end Reply

namespace Roster

variable {W : Type}

/-- A roster without plugins. -/
def new (codec : Codec) : Roster W := { cache := { codec } }

/-- Register a plugin. -/
def register (r : Roster W) (plugin : Plugin W) : Roster W :=
  { r with registry := enroll ⟨r.registry.length, plugin⟩ r.registry }

/-- Register plugins in order. -/
def registerAll (r : Roster W) (plugins : List (Plugin W)) : Roster W :=
  plugins.foldl register r

/-- The plugin of a given number. -/
def plugin? (r : Roster W) (id : Nat) : Option (Plugin W) :=
  (r.registry.find? fun p => p.id == id).map Registered.plugin

/-- The name of the plugin of a given number. -/
def pluginName (r : Roster W) (id : Nat) : String :=
  ((r.plugin? id).map Plugin.name).getD ""

/-- The plugin that owns an account. -/
def owner? (r : Roster W) (account : String) : Option (Plugin W) :=
  (r.cache.record? account).bind fun record => r.plugin? record.owner

/-- The name of the plugin that owns an account. -/
def ownerName (r : Roster W) (account : String) : Except RosterError String :=
  (r.cache.find account).map fun record => r.pluginName record.owner

/-- Ask the owner of an account whether it still stores it. -/
def owns (r : Roster W) (account : String) (w : W) : Bool × W :=
  match r.owner? account with
  | some plugin => plugin.owns r.cache account w
  | none => (false, w)

/-- Tell every plugin that registration and loading are complete. -/
def ready (r : Roster W) (w : W) : W :=
  r.registry.foldl (fun w p => p.plugin.ready r.cache w) w

/-- Ask a plugin for an account, and take what it pushes. -/
def fetch (r : Roster W) (plugin : Plugin W) (account : String) (key : Option String)
    (w : W) : Reply W Bool :=
  let answer := plugin.get r.cache account key w
  ⟨answer.1, { r with cache := r.cache.takeAll answer.2.1 }, answer.2.2⟩

/-- Enter an account that a plugin has, and ask the plugin for its data. An
account that is there already is a conflict; a failure to get the data is not. -/
def addAccount (r : Roster W) (p : Registered W) (account : String) (w : W) :
    Reply W Unit :=
  match r.cache.record? account with
  | some record =>
      ⟨.error (.accountConflict account (r.pluginName record.owner) p.plugin.name), r, w⟩
  | none =>
      let entered := { r with cache := r.cache.insert account (Record.new p.id) }
      let fetched := entered.fetch p.plugin account none w
      ⟨.ok (), fetched.roster, fetched.world⟩

/-- Enter accounts in order, up to the first conflict. -/
def addAccounts (p : Registered W) : List String → Roster W → W → Reply W Unit
  | [], r, w => ⟨.ok (), r, w⟩
  | account :: more, r, w =>
      (r.addAccount p account w).andThen fun _ r w => addAccounts p more r w

/-- Enter the accounts of one plugin; one that cannot list them is skipped. -/
def loadPlugin (r : Roster W) (p : Registered W) (w : W) : Reply W Unit :=
  match p.plugin.list r.cache w with
  | (.ok accounts, w) => addAccounts p accounts r w
  | (.error _, w) => ⟨.ok (), r, w⟩

/-- Enter the accounts of plugins in order, up to the first conflict. -/
def loadPlugins : List (Registered W) → Roster W → W → Reply W Unit
  | [], r, w => ⟨.ok (), r, w⟩
  | p :: more, r, w => (r.loadPlugin p w).andThen fun _ r w => loadPlugins more r w

/-- Fill the cache from every plugin, lowest priority first. -/
def load (r : Roster W) (w : W) : Reply W Unit := loadPlugins r.registry.reverse r w

/-- Load, then tell the plugins; they hear nothing after a conflict. -/
def startup (r : Roster W) (w : W) : Reply W Unit :=
  (r.load w).andThen fun _ r w => ⟨.ok (), r, r.ready w⟩

theorem registry_addAccount (r : Roster W) (p : Registered W) (account : String) (w : W) :
    (r.addAccount p account w).roster.registry = r.registry := by
  unfold addAccount; split <;> rfl

end Roster

end AccountRoster
