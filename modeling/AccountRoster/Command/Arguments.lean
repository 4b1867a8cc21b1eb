import AccountRoster.Command

/-! # Arguments of the command line

A command is a word, options, and operands in a fixed order. The configuration
may be named before the word; all other options stand after it, anywhere before
a double dash. After a double dash everything is an operand. -/

namespace AccountRoster.Command

/-- Arguments sorted into options with a value, flags and operands. -/
structure Arguments where
  options : List (String × String) := []
  flags : List String := []
  operands : List String := []
  deriving DecidableEq

namespace Arguments

/-- The options that take a value. -/
def valued : List String := ["config", "type", "provider", "param"]

/-- The options that stand alone. -/
def single : List String := ["secret"]

/-- The name of a long option, and the value after its equals sign. -/
def option? (argument : String) : Option (String × Option String) :=
  match argument.toList with
  | '-' :: '-' :: rest =>
      let name := String.ofList (rest.takeWhile fun c => c != '=')
      match rest.dropWhile fun c => c != '=' with
      | [] => some (name, none)
      | _ :: value => some (name, some (String.ofList value))
  | _ => none

/-- Sort arguments; a text says what is wrong with them. -/
def sort : List String → Except String Arguments
  | [] => .ok {}
  | "--" :: operands => .ok { operands }
  | argument :: rest =>
      match option? argument with
      | none =>
          (sort rest).map fun a => { a with operands := argument :: a.operands }
      | some (name, value) =>
          if name ∈ valued then
            match value, rest with
            | some value, rest =>
                (sort rest).map fun a => { a with options := (name, value) :: a.options }
            | none, value :: rest =>
                (sort rest).map fun a => { a with options := (name, value) :: a.options }
            | none, [] => .error ("a value is required for --" ++ name)
          else if name ∈ single ∧ value = none then
            (sort rest).map fun a => { a with flags := name :: a.flags }
          else .error ("unexpected argument " ++ argument)

/-- A command line cut at its word. -/
structure Front where
  /-- The values of the option before the word. -/
  config : List String := []
  word : String
  rest : List String
  deriving DecidableEq

/-- Find the word; only the configuration may be named before it. -/
def takeWord : List String → Except String Front
  | [] => .error "a command is required"
  | argument :: rest =>
      match option? argument with
      | none => .ok { word := argument, rest }
      | some (name, value) =>
          if name = "config" then
            match value, rest with
            | some path, rest =>
                (takeWord rest).map fun f => { f with config := path :: f.config }
            | none, path :: rest =>
                (takeWord rest).map fun f => { f with config := path :: f.config }
            | none, [] => .error ("a value is required for --" ++ name)
          else .error ("unexpected argument " ++ argument)

/-- The values of an option, in order. -/
def values (a : Arguments) (name : String) : List String :=
  (a.options.filter fun o => o.1 == name).map Prod.snd

/-- The value of an option that may be given once. -/
def value? (a : Arguments) (name : String) : Option String := (a.values name).head?

/-- Whether only the named options and flags are given, each but `param` once. -/
def onlyHas (a : Arguments) (names : List String) : Bool :=
  (a.options.all fun o => o.1 == "config" || names.contains o.1) &&
    (a.flags.all fun f => names.contains f) &&
    (["config", "type", "provider"].all fun name => decide ((a.values name).length ≤ 1)) &&
    decide (a.flags.length ≤ 1)

end Arguments

/-- The command that a word and its arguments ask for. -/
def ofWord? (word : String) (a : Arguments) : Option Command :=
  match word, a.operands with
  | "list", [] => if a.onlyHas [] then some list else none
  | "show", [account] => if a.onlyHas [] then some (inspect account) else none
  | "get", [account, key] =>
      if a.onlyHas ["type"] then some (get account key (a.value? "type")) else none
  | "set", [account, key, text] =>
      if a.onlyHas ["type", "secret"] then
        some (set account key text (a.value? "type") (a.flags.contains "secret"))
      else none
  | "unset", [account, key] => if a.onlyHas [] then some (unset account key) else none
  | "keys", [account] => if a.onlyHas [] then some (keys account) else none
  | "create", [manager, protocol] =>
      if a.onlyHas ["provider", "param"] then
        some (create manager protocol (a.value? "provider") (a.values "param"))
      else none
  | "delete", [account] => if a.onlyHas [] then some (delete account) else none
  | _, _ => none

/-- How the command line is used. -/
def usage : String :=
  "Inspect and edit stored presence accounts\n\n" ++
    "Usage: presence-accounts [--config PATH] COMMAND\n\n" ++
    "  list\n" ++
    "  show ACCOUNT\n" ++
    "  get [--type SIG] ACCOUNT KEY\n" ++
    "  set [--type SIG] [--secret] ACCOUNT KEY VALUE\n" ++
    "  unset ACCOUNT KEY\n" ++
    "  keys ACCOUNT\n" ++
    "  create [--provider ID] [--param KEY=VALUE]... MANAGER PROTOCOL\n" ++
    "  delete ACCOUNT\n"

/-- Read a command line: the path of the configuration, if it is given, and the
command. -/
def ofArguments (arguments : List String) : Except String (Option String × Command) := do
  let front ← Arguments.takeWord arguments
  let a ← Arguments.sort front.rest
  match front.config, ofWord? front.word a with
  | [], some command => return (a.value? "config", command)
  | [path], some command => return ((a.value? "config").or (some path), command)
  | _, _ => throw ("wrong arguments for " ++ front.word)

end AccountRoster.Command
