import AccountRoster.Json.Printer
import AccountRoster.Roster.Identification
import AccountRoster.Text.Logged

/-! # Commands

One command inspects or edits the accounts of a roster. It answers with the text
that it prints, and commits what it changed.

## Implementation notes

A parameter of which only the escaped text is known may be unreadable as a
string. It is then shown, and printed, as it is stored. What is marked as secret
is never shown. -/

namespace AccountRoster

/-- Why a command failed. -/
inductive CommandError where
  /-- An operation on the roster failed. -/
  | roster (error : RosterError)
  /-- The text of a value cannot be read. -/
  | codec (fault : CodecFault)
  /-- There is no type of this signature. -/
  | unknownType (signature : String)
  /-- Only parameters can be secret. -/
  | secretAttribute
  /-- The account has no such parameter. -/
  | noParameter (account name : String)
  /-- A parameter is given without a value. -/
  | noEquals (argument : String)
  /-- A parameter is given without a name. -/
  | noName (argument : String)
  deriving DecidableEq

namespace CommandError

/-- The message of an error. One that only hands on another names both, one
after the other. -/
def message : CommandError → String
  | roster (.codec fault) => fault.message ++ ": " ++ fault.message
  | roster error => error.message
  | codec fault => fault.message
  | unknownType signature => "unknown type signature " ++ Text.quoted signature
  | secretAttribute => "--secret only applies to parameters"
  | noParameter account name => account ++ " has no parameter " ++ name
  | noEquals argument => "expected KEY=VALUE, got " ++ Text.quoted argument
  | noName argument => "empty parameter name in " ++ Text.quoted argument

/-- What is logged about an error. -/
def report (e : CommandError) : String := Text.logged e.message

end CommandError

namespace Value

/-- A value without its type. -/
def payload : Value → Json
  | string text => .string text
  | boolean flag => .bool flag
  | int32 n => .ofInt n.toInt
  | int64 n => .ofInt n.toInt
  | uint32 n => .ofNat n.toNat
  | uint64 n => .ofNat n.toNat
  | byte n => .ofNat n.toNat
  | double d => .ofDouble d
  | stringArray items => .array (items.map Json.string)
  | objectPath path => .string path.text
  | objectPathArray paths => .array (paths.map fun path => .string path.text)
  | simplePresence p =>
      .object [("kind", .ofNat p.kind.toNat), ("message", .string p.message),
        ("status", .string p.status)]

/-- The document of a value. -/
def toJson (v : Value) : Json :=
  .object [("type", .string v.type.name), ("value", v.payload)]

end Value

/-- What a user asks for. -/
inductive Command where
  | list
  | inspect (account : String)
  | get (account key : String) (type : Option String)
  | set (account key text : String) (type : Option String) (secret : Bool)
  | unset (account key : String)
  | keys (account : String)
  | create (manager protocol : String) (provider : Option String) (parameters : List String)
  | delete (account : String)
  deriving DecidableEq

/-- What a command prints or why it failed, and the state after it. -/
structure CommandReply (W : Type) where
  answer : Except CommandError String
  roster : Roster W
  world : W

namespace Command

/-- Take an error of the roster as one of the command. -/
def liftRoster {α : Type} : Except RosterError α → Except CommandError α
  | .ok a => .ok a
  | .error e => .error (.roster e)

/-- Texts with an end of line each. -/
def printLines (texts : List String) : String :=
  "".intercalate (texts.map fun text => text ++ "\n")

/-- What stands for a secret. -/
def redacted : Json := .string "***"

/-- The stored text of a parameter. -/
def storedParameter (c : Cache) (account name : String) : Except CommandError String :=
  match c.text? account (FlatKey.ofParameter name) with
  | some text => .ok text
  | none => .error (.noParameter account name)

/-- How a parameter that is no secret is shown. -/
def parameterJson (c : Cache) (account name : String) : Except CommandError Json :=
  match c.getParameter account name none with
  | .ok value => .ok value.toJson
  | .error (.codec _) =>
      (storedParameter c account name).map fun text =>
        .object [("type", .string "escaped"), ("value", .string text)]
  | .error e => .error (.roster e)

/-- How a parameter is shown. -/
def shownParameter (c : Cache) (account name : String) : Except CommandError Json :=
  if c.isSecret account name then .ok redacted else parameterJson c account name

/-- How an attribute is shown. -/
def shownAttribute (c : Cache) (account name : String) : Except CommandError Json :=
  (liftRoster (c.getAttribute account name none)).map Value.toJson

/-- The parameters that flat keys name. -/
def parameterNames (keys : List String) : List String :=
  keys.filterMap fun key =>
    match FlatKey.ofText key with
    | .param name => some name
    | .attr _ => none

/-- Name every item of a list by its text. -/
def labelled (show_ : String → Except CommandError Json) (names : List String) :
    Except CommandError (List (String × Json)) :=
  names.mapM fun name => (show_ name).map fun item => (name, item)

/-- The document of an account. -/
def accountJson {W : Type} (r : Roster W) (account : String) : Except CommandError Json := do
  let names ← liftRoster (r.cache.attributeNames account)
  let attributes ← labelled (shownAttribute r.cache account) names
  let parameters ← labelled (shownParameter r.cache account)
    (parameterNames (r.cache.listKeys account))
  let storage ← liftRoster (r.ownerName account)
  return .object [("account", .string account),
    ("attributes", .object (Dict.ofList attributes).entries),
    ("parameters", .object (Dict.ofList parameters).entries),
    ("storage", .string storage)]

/-- Read the signature of a type, if one is given. -/
def readType : Option String → Except CommandError (Option ValueType)
  | none => .ok none
  | some signature =>
      match ValueType.ofSignature? signature with
      | some type => .ok (some type)
      | none => .error (.unknownType signature)

/-- The escaped text of one value. Without a type, a parameter that is no string
is printed as it is stored. -/
def valueText (c : Cache) (account key : String) (type : Option ValueType) :
    Except CommandError String :=
  match FlatKey.ofText key with
  | .attr name => (liftRoster (c.getAttribute account name type)).map c.codec.escape
  | .param name =>
      match c.getParameter account name type with
      | .ok value => .ok (c.codec.escape value)
      | .error (.codec fault) =>
          if type = none then storedParameter c account name
          else .error (.roster (.codec fault))
      | .error e => .error (.roster e)

/-- Read the text of a value. -/
def readValue (codec : Codec) (text : String) (type : ValueType) : Except CommandError Value :=
  match codec.unescape text type with
  | .ok value => .ok value
  | .error fault => .error (.codec fault)

/-- Read a parameter at its first equals sign. -/
def readParameter (argument : String) : Except CommandError (String × Value) :=
  let name := argument.toList.takeWhile fun c => c != '='
  match argument.toList.dropWhile fun c => c != '=' with
  | [] => .error (.noEquals argument)
  | _ :: value =>
      if name = [] then .error (.noName argument)
      else .ok (String.ofList name, .string (String.ofList value))

/-- Read parameters; of two with one name the last counts. -/
def readParameters (arguments : List String) : Except CommandError Parameters :=
  (arguments.mapM readParameter).map Dict.ofList

section

variable {W : Type}

/-- A command that fails before it changes anything. -/
def fail (r : Roster W) (w : W) (e : CommandError) : CommandReply W := ⟨.error e, r, w⟩

/-- A command that only looks. -/
def look (r : Roster W) (w : W) (answer : Except CommandError String) : CommandReply W :=
  ⟨answer, r, w⟩

/-- End a write with a commit of its account. -/
def committed (account : String) (reply : Reply W Bool) : CommandReply W :=
  match reply.answer with
  | .ok _ => ⟨.ok "", reply.roster, reply.roster.commit (some account) reply.world⟩
  | .error e => ⟨.error (.roster e), reply.roster, reply.world⟩

/-- Store an attribute that is given as text. -/
def setAttribute (r : Roster W) (account name text : String) (type : Option ValueType)
    (w : W) : CommandReply W :=
  match readValue r.cache.codec text
      ((type.or (Schema.attributeType name)).getD .string) with
  | .ok value => committed account (r.setAttribute account name (some value) w)
  | .error e => fail r w e

/-- Store a parameter that is given as text. -/
def setParameter (r : Roster W) (account name text : String) (type : Option ValueType)
    (secret : Bool) (w : W) : CommandReply W :=
  let r := if secret then r.makeSecret account name else r
  match readValue r.cache.codec text (type.getD .string) with
  | .ok value => committed account (r.setParameter account name (some value) w)
  | .error e => fail r w e

/-- Store one value that is given as text. -/
def setValue (r : Roster W) (account key text : String) (type : Option String)
    (secret : Bool) (w : W) : CommandReply W :=
  match readType type, FlatKey.ofText key with
  | .error e, _ => fail r w e
  | .ok type, .attr name =>
      if secret then fail r w .secretAttribute else setAttribute r account name text type w
  | .ok type, .param name => setParameter r account name text type secret w

/-- Remove one value. -/
def unsetValue (r : Roster W) (account key : String) (w : W) : CommandReply W :=
  match FlatKey.ofText key with
  | .attr name => committed account (r.setAttribute account name none w)
  | .param name => committed account (r.setParameter account name none w)

/-- Create an account and print its name. -/
def createAccount (r : Roster W) (manager protocol : String) (provider : Option String)
    (arguments : List String) (w : W) : CommandReply W :=
  match readParameters arguments with
  | .error e => fail r w e
  | .ok parameters =>
      match r.createWithParameters provider manager protocol parameters .never w with
      | none => fail r w (.roster .cancelled)
      | some reply =>
          match reply.answer with
          | .ok account =>
              ⟨.ok (printLines [account]), reply.roster,
                reply.roster.commit (some account) reply.world⟩
          | .error e => ⟨.error (.roster e), reply.roster, reply.world⟩

/-- Delete an account for good. -/
def deleteAccount (r : Roster W) (account : String) (w : W) : CommandReply W :=
  let reply := r.delete account w
  match reply.answer with
  | .ok () => ⟨.ok "", reply.roster, reply.roster.commit none reply.world⟩
  | .error e => ⟨.error (.roster e), reply.roster, reply.world⟩

/-- Carry out a command. -/
def run (r : Roster W) (w : W) : Command → CommandReply W
  | list => look r w (.ok (printLines r.cache.accountNames))
  | inspect account =>
      look r w ((accountJson r account).map fun document => document.pretty 0 ++ "\n")
  | get account key type =>
      look r w <|
        match readType type with
        | .ok type => (valueText r.cache account key type).map fun text => text ++ "\n"
        | .error e => .error e
  | set account key text type secret => setValue r account key text type secret w
  | unset account key => unsetValue r account key w
  | keys account =>
      look r w ((liftRoster (r.cache.find account)).map fun _ =>
        printLines (r.cache.listKeys account))
  | create manager protocol provider arguments =>
      createAccount r manager protocol provider arguments w
  | delete account => deleteAccount r account w

end

end Command

end AccountRoster
