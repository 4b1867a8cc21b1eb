import AccountRoster.Plugin

/-! # The in-process backend

This backend keeps values typed, and nothing of it outlasts the process; commits
are only recorded. -/

namespace AccountRoster

/-- What is kept of one account. -/
structure StoredAccount where
  attributes : Dict Value := Dict.empty
  typed : Dict Value := Dict.empty
  escaped : Dict String := Dict.empty
  secrets : Names := Dict.empty
  deriving DecidableEq

/-- The accounts of an in-process backend, and the commits that it has seen. -/
structure MemoryStore where
  accounts : Dict StoredAccount := Dict.empty
  commits : List (Option String) := []
  deriving DecidableEq

/-- How an in-process backend presents itself. -/
structure MemorySettings where
  name : String
  priority : Int := Priority.normal
  provider : Option String := none
  refuseCreate : Bool := false
  deriving DecidableEq

namespace MemoryStore

def description : String := "Typed in-process account storage"

/-- The account of a given name, empty if it is not there. -/
def account (s : MemoryStore) (name : String) : StoredAccount :=
  (s.accounts.get? name).getD {}

/-- Change an account; one that is not there is added first. -/
def update (s : MemoryStore) (name : String) (change : StoredAccount → StoredAccount) :
    MemoryStore :=
  { s with accounts := s.accounts.insert name (change (s.account name)) }

/-- Put an attribute in as if it had been there before. -/
def seed (s : MemoryStore) (name attr : String) (value : Value) : MemoryStore :=
  s.update name fun a => { a with attributes := a.attributes.insert attr value }

/-- The attribute of an account. -/
def attribute? (s : MemoryStore) (name attr : String) : Option Value :=
  (s.account name).attributes.get? attr

/-- The typed parameter of an account. -/
def parameter? (s : MemoryStore) (name parameter : String) : Option Value :=
  (s.account name).typed.get? parameter

/-- Whether a parameter of an account is held as secret. -/
def isSecret (s : MemoryStore) (name parameter : String) : Bool :=
  (s.account name).secrets.has parameter

/-- What is pushed for an account: everything, or what a flat key names. -/
def pushes (s : MemoryStore) (name : String) (key : Option String) : List Push :=
  let a := s.account name
  let wantsAttribute (attr : String) : Bool := key.all fun k => k == attr
  let wantsParameter (parameter : String) : Bool :=
    key.all fun k => decide (FlatKey.ofText k = .param parameter)
  (a.attributes.entries.filter fun e => wantsAttribute e.1).map (fun e =>
      Push.attr name e.1 (some e.2)) ++
    (a.typed.entries.filter fun e => wantsParameter e.1).map (fun e =>
      Push.param name e.1 (some e.2) (a.secrets.has e.1)) ++
    (a.escaped.entries.filter fun e => wantsParameter e.1).map (fun e =>
      Push.text name (FlatKey.ofParameter e.1) (some e.2))

/-- Find an account, and what is pushed for it. -/
def get (s : MemoryStore) (name : String) (key : Option String) : Bool × List Push :=
  if s.accounts.contains name then (true, s.pushes name key) else (false, [])

/-- Store an escaped text. An attribute is read at once, and a failure to read it
leaves the account, without the attribute. -/
def set (s : MemoryStore) (codec : Codec) (name key escaped : String) :
    Except RosterError Bool × MemoryStore :=
  match FlatKey.ofText key with
  | .param parameter =>
      (.ok true, s.update name fun a =>
        { a with typed := a.typed.erase parameter,
                 escaped := a.escaped.insert parameter escaped })
  | .attr attr =>
      match codec.unescape escaped ((Schema.attributeType attr).getD .string) with
      | .ok value => (.ok true, s.seed name attr value)
      | .error fault => (.error (.codec fault), s.update name id)

/-- Store a typed parameter; a secret one is remembered as such. -/
def setParameter (s : MemoryStore) (name parameter : String) (value : Value) (secret : Bool) :
    MemoryStore :=
  s.update name fun a =>
    { a with escaped := a.escaped.erase parameter,
             typed := a.typed.insert parameter value,
             secrets := if secret then a.secrets.add parameter else a.secrets }

/-- Remove an account, or what a flat key names in it. -/
def delete (s : MemoryStore) (name : String) (key : Option String) : Bool × MemoryStore :=
  match key with
  | none =>
      (s.accounts.contains name, { s with accounts := s.accounts.erase name })
  | some key =>
      if s.accounts.contains name then
        match FlatKey.ofText key with
        | .param parameter =>
            ((s.account name).typed.contains parameter ||
              (s.account name).escaped.contains parameter,
              s.update name fun a =>
                { a with typed := a.typed.erase parameter,
                         escaped := a.escaped.erase parameter,
                         secrets := a.secrets.remove parameter })
        | .attr attr =>
            ((s.account name).attributes.contains attr,
              s.update name fun a => { a with attributes := a.attributes.erase attr })
      else (false, s)

/-- Remember a commit. -/
def commit (s : MemoryStore) (account : Option String) : MemoryStore :=
  { s with commits := s.commits ++ [account] }

/-- Store an account without data, over one of the same name. -/
def create (s : MemoryStore) (name : String) : MemoryStore :=
  { s with accounts := s.accounts.insert name {} }

end MemoryStore

end AccountRoster
