import AccountRoster.Cache

/-! # Storage plugins

A plugin keeps accounts for longer than the cache does. It acts on a world of
its own choosing, sees the cache in every call, and answers; when it is asked for
an account it also pushes data into the cache.

## Implementation notes

Nothing is assumed about a plugin. Each method is a function of its arguments,
the cache and the world, so any behaviour, failures included, is a plugin. -/

namespace AccountRoster

namespace Priority

/-- The priority of the key-file, and of plugins that do not say otherwise. -/
def default : Int := 0

/-- The priority of most backends. -/
def normal : Int := 100

/-- The priority of backends that keep secrets well. -/
def keyring : Int := 10000

end Priority

/-- The answer to a typed write. -/
inductive TypedWrite where
  /-- The plugin took the value. -/
  | stored
  /-- The plugin takes escaped text only. -/
  | unimplemented
  deriving DecidableEq, Repr

/-- A storage backend on a world `W`. -/
structure Plugin (W : Type) where
  /-- The name that messages use. -/
  name : String
  description : String
  /-- Plugins of higher priority are asked first to create accounts. -/
  priority : Int := Priority.default
  /-- The identifier by which callers can pick the plugin. -/
  provider : Option String := none
  /-- The names of all stored accounts. -/
  list : Cache → W → Except RosterError (List String) × W
  /-- Push an account, or one flat key of it, into the cache. -/
  get : Cache → (account : String) → (key : Option String) → W →
    Except RosterError Bool × List Push × W
  /-- Store an escaped text under a flat key; `false` if it was ignored. -/
  set : Cache → (account key escaped : String) → W → Except RosterError Bool × W
  /-- Store a typed attribute. -/
  setAttribute : Cache → (account name : String) → Value → W →
    Except RosterError TypedWrite × W := fun _ _ _ _ w => (.ok .unimplemented, w)
  /-- Store a typed parameter. -/
  setParameter : Cache → (account name : String) → Value → (secret : Bool) → W →
    Except RosterError TypedWrite × W := fun _ _ _ _ _ w => (.ok .unimplemented, w)
  /-- Delete a flat key, or the whole account. -/
  delete : Cache → (account : String) → (key : Option String) → W →
    Except RosterError Bool × W
  /-- Make an account, or everything, outlast the process. -/
  commit : Cache → (account : Option String) → W → Except RosterError Bool × W
  /-- Store a new account and name it; `none` if the plugin cannot. -/
  create : Cache → (manager protocol identification : String) → W →
    Except RosterError (Option String) × W := fun _ _ _ _ w => (.ok none, w)
  /-- Hear that every plugin is registered and loaded. -/
  ready : Cache → W → W := fun _ w => w
  /-- Whether an account is stored here. -/
  owns : Cache → (account : String) → W → Bool × W

/-- What happens when a plugin is asked to identify a new account. -/
inductive Answering where
  | atOnce (answer : Except RosterError String)
  | later (answer : Except RosterError String)
  | never

/-- A source of canonical identifiers for new accounts. -/
structure Identifier (W : Type) where
  identify : (manager protocol : String) → Parameters → W → Answering × W

end AccountRoster
