import AccountRoster.Backend
import AccountRoster.Json.Kept
import AccountRoster.Json.Reader

/-! # Configuration

A storage configuration names the key-file that is always there, the character
between the items of its lists, and further backends. It comes from a JSON
document in which everything may be left out.

## Implementation notes

A document is taken apart by what it says, not by how it is laid out: members
come in any order, unknown ones are ignored, repeated known ones are refused. A
configuration may also be an array of its members in order. The options of a
backend can be understood only once its kind is known; options that come first
have to be kept until then, and only what can be kept is accepted there. -/

namespace AccountRoster

namespace Json

/-- Read the member of a given name, which must not be repeated; without one the
default counts. -/
def field {α : Type} (members : List (String × Json)) (name : String) (default : Option α)
    (read : Json → Option α) : Option α :=
  match members.filter fun m => m.1 == name with
  | [] => default
  | [m] => read m.2
  | _ => none

/-- A string of one character. -/
def char? (document : Json) : Option Char :=
  match document.text?.map String.toList with
  | some [c] => some c
  | _ => none

/-- A text, where null says that there is none. -/
def optionalText? : Json → Option (Option String)
  | null => some none
  | string text => some (some text)
  | _ => none

/-- A whole number of a range. -/
def intIn? (range : IntegerRange) (document : Json) : Option Int :=
  document.int?.bind fun n => if range.holds n then some n else none

end Json

/-- The kinds of built-in backends. -/
inductive BackendKind where
  | keyfile
  | memory
  deriving DecidableEq, Repr

namespace BackendKind

/-- The name of a kind in documents. -/
def name : BackendKind → String
  | keyfile => "keyfile"
  | memory => "memory"

/-- The kind of a given name. -/
def ofName? (name : String) : Option BackendKind :=
  [keyfile, memory].find? fun k => k.name == name

end BackendKind

/-- What is said about a kind of backend in general. -/
structure BackendMetadata where
  kind : BackendKind
  name : String
  description : String
  defaultPriority : Int
  provider : Option String
  /-- Whether the backend takes typed values. -/
  typed : Bool

namespace BackendMetadata

/-- The built-in backends. -/
def all : List BackendMetadata :=
  [{ kind := .keyfile, name := KeyfileStore.label, description := KeyfileStore.description,
     defaultPriority := KeyfileStore.priority, provider := some KeyfileStore.provider,
     typed := false },
   { kind := .memory, name := "memory", description := MemoryStore.description,
     defaultPriority := Priority.normal, provider := none, typed := true }]

/-- The document of a description. -/
def toJson (m : BackendMetadata) : Json :=
  .object [("id", .string m.kind.name), ("name", .string m.name),
    ("description", .string m.description), ("defaultPriority", .ofInt m.defaultPriority),
    ("provider", .ofText? m.provider), ("typed", .bool m.typed)]

end BackendMetadata

/-- A backend to be set up. -/
inductive BackendConfig where
  | keyfile (path : String) (separator : Char)
  | memory (settings : MemorySettings)
  deriving DecidableEq

namespace BackendConfig

/-- The kind of a backend. -/
def kind : BackendConfig → BackendKind
  | keyfile _ _ => .keyfile
  | memory _ => .memory

/-- Read the options of a backend of a given kind. -/
def ofOptions? (kind : BackendKind) (options : Json) : Option BackendConfig :=
  match options.members?, kind with
  | none, _ => none
  | some members, .keyfile => do
      return keyfile (← Json.field members "path" none Json.text?)
        (← Json.field members "listSeparator" (some Codec.defaultSeparator) Json.char?)
  | some members, .memory => do
      return memory
        { name := ← Json.field members "name" none Json.text?
          priority := ← Json.field members "priority" (some Priority.normal) (Json.intIn? .int32)
          provider := ← Json.field members "provider" (some none) Json.optionalText?
          refuseCreate := ← Json.field members "refuseCreate" (some false) Json.flag? }

/-- Read the kind of a backend in an object: its name, alone or as the only member
of an object. -/
def readKind? : Json → Option BackendKind
  | .string name => BackendKind.ofName? name
  | .object [(name, .null)] => BackendKind.ofName? name
  | _ => none

/-- Read a backend that stands inside so many containers. In an array the kind is
a name alone. -/
def ofJson? (enclosing : Nat) : Json → Option BackendConfig
  | .array [.string kind, options] => do ofOptions? (← BackendKind.ofName? kind) options
  | .object members =>
      match members.filter fun m => m.1 == "backend" || m.1 == "options" with
      | [("backend", kind), ("options", options)] => do ofOptions? (← readKind? kind) options
      | [("options", options), ("backend", kind)] =>
          if options.canKeep (enclosing + 1) then do ofOptions? (← readKind? kind) options
          else none
      | _ => none
  | _ => none

/-- The document of a backend. -/
def toJson (b : BackendConfig) : Json :=
  .object [("backend", .string b.kind.name), ("options",
    match b with
    | keyfile path separator =>
        .object [("path", .string path), ("listSeparator", .string (String.ofList [separator]))]
    | memory settings =>
        .object [("name", .string settings.name), ("priority", .ofInt settings.priority),
          ("provider", .ofText? settings.provider), ("refuseCreate", .bool settings.refuseCreate)])]

/-- The plugin of a backend that has its store in a given slot. -/
def plugin (ε : Type) (slot : Nat) : BackendConfig → Plugin (World ε)
  | keyfile _ _ => KeyfileStore.plugin ε slot
  | memory settings => MemoryStore.plugin ε slot settings

/-- Put the store of a backend into a slot, as new. -/
def prepare {ε : Type} (w : World ε) (slot : Nat) : BackendConfig → World ε
  | keyfile path separator => w.putKeyfile slot (.new path separator)
  | memory _ => w.putMemory slot {}

end BackendConfig

/-- Which backends to register, and how the key-file writes lists. -/
structure StorageConfig where
  keyfilePath : String
  separator : Char := Codec.defaultSeparator
  extraBackends : List BackendConfig := []
  deriving DecidableEq

namespace StorageConfig

/-- Where the key-file is unless it is configured, in the folder for data. -/
def defaultPath (dataFolder : String) : String :=
  dataFolder ++ "/presence-accounts/accounts.cfg"

/-- The configuration for want of any other. -/
def default (dataFolder : String) : StorageConfig :=
  { keyfilePath := defaultPath dataFolder }

/-- Read the list of further backends, which stands inside so many containers. -/
def readBackends? (enclosing : Nat) (document : Json) : Option (List BackendConfig) :=
  document.items?.bind fun items => items.mapM (BackendConfig.ofJson? (enclosing + 1))

/-- Read a configuration. -/
def ofJson? (dataFolder : String) : Json → Option StorageConfig
  | .object members => do
      return {
        keyfilePath := ← Json.field members "keyfilePath" (some (defaultPath dataFolder)) Json.text?
        separator := ←
          Json.field members "listSeparator" (some Codec.defaultSeparator) Json.char?
        extraBackends := ← Json.field members "extraBackends" (some []) (readBackends? 1) }
  | .array [] => some (default dataFolder)
  | .array [path] => do return { keyfilePath := ← path.text? }
  | .array [path, separator] => do
      return { keyfilePath := ← path.text?, separator := ← separator.char? }
  | .array [path, separator, backends] => do
      return { keyfilePath := ← path.text?, separator := ← separator.char?,
               extraBackends := ← readBackends? 1 backends }
  | _ => none

/-- Read a configuration from the text of a document. -/
def ofText? (dataFolder text : String) : Option StorageConfig :=
  (Json.ofText text).bind (ofJson? dataFolder)

/-- The document of a configuration. -/
def toJson (config : StorageConfig) : Json :=
  .object [("keyfilePath", .string config.keyfilePath),
    ("listSeparator", .string (String.ofList [config.separator])),
    ("extraBackends", .array (config.extraBackends.map BackendConfig.toJson))]

/-- The separators that would break a line of a key-file. -/
def forbiddenSeparators : List Char := ['\n', '\r', '\\', '=', ' ']

/-- Refuse a configuration that cannot work. -/
def validate (config : StorageConfig) : Except RosterError Unit :=
  if config.separator ∈ forbiddenSeparators then
    .error (.validation
      (Text.quotedMark config.separator ++ " cannot be used as list separator"))
  else if config.keyfilePath = "" then .error (.validation "keyfilePath must not be empty")
  else .ok ()

/-- A configuration that passes. -/
def checked (config : StorageConfig) : Except RosterError StorageConfig :=
  match config.validate with
  | .ok () => .ok config
  | .error e => .error e

/-- Read the configuration at a path; a missing file means the default. -/
def load (dataFolder path : String) (d : Disk) : Except RosterError StorageConfig × Disk :=
  match d.read path with
  | (.error .missing, d) => (.ok (default dataFolder), d)
  | (.error fault, d) =>
      (.error (.storage ("Failed to read config " ++ path ++ ": " ++ fault.reason)), d)
  | (.ok text, d) =>
      match ofText? dataFolder text with
      | none =>
          (.error (.validation ("Invalid config " ++ path ++ ": no storage configuration")), d)
      | some config => (config.checked, d)

/-- All backends of a configuration, the key-file first. -/
def backends (config : StorageConfig) : List BackendConfig :=
  .keyfile config.keyfilePath config.separator :: config.extraBackends

/-- Put the stores of all backends into their slots, as new. -/
def prepare {ε : Type} (config : StorageConfig) (w : World ε) : World ε :=
  config.backends.zipIdx.foldl (fun w b => b.1.prepare w b.2) w

/-- The plugins of all backends, each on the slot of its number. -/
def plugins (config : StorageConfig) (ε : Type) : List (Plugin (World ε)) :=
  config.backends.zipIdx.map fun b => b.1.plugin ε b.2

/-- A roster with the backends of a configuration, and then further plugins. -/
def roster {ε : Type} (config : StorageConfig) (further : List (Plugin (World ε)))
    (identifier : Option (Identifier (World ε))) : Roster (World ε) :=
  { (Roster.new ⟨config.separator⟩).registerAll (config.plugins ε ++ further) with identifier }

/-- Build the roster of a configuration that passes, on prepared stores. -/
def build {ε : Type} (config : StorageConfig) (further : List (Plugin (World ε)))
    (identifier : Option (Identifier (World ε))) (w : World ε) :
    Except RosterError (Roster (World ε) × World ε) :=
  match config.validate with
  | .ok () => .ok (config.roster further identifier, config.prepare w)
  | .error e => .error e

end StorageConfig

end AccountRoster
