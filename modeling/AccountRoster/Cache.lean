import AccountRoster.Cache.Record
import AccountRoster.Error
import AccountRoster.Text.Identifier

/-! # The account cache

The cache holds a record for every account. It answers all reads, and it takes
what plugins push into it when they are asked for an account. Pushed data for an
account that is not cached is dropped.

## Implementation notes

The cache is plain data that can be compared: a record names its owner by the
number under which the plugin was registered. -/

namespace AccountRoster

/-- Something that a plugin reports about an account. -/
inductive Push where
  /-- The escaped text under a flat key, or that there is none. -/
  | text (account key : String) (escaped : Option String)
  /-- An attribute, or that there is none. -/
  | attr (account name : String) (value : Option Value)
  /-- A parameter, or that there is none, and whether it is secret. -/
  | param (account name : String) (value : Option Value) (secret : Bool)
  /-- That a parameter is secret. -/
  | makeSecret (account name : String)

/-- The records of all accounts, and the codec for their values. -/
structure Cache where
  codec : Codec := {}
  accounts : Dict Record := Dict.empty
  deriving DecidableEq

namespace Cache

/-- The record of an account. -/
def record? (c : Cache) (account : String) : Option Record := c.accounts.get? account

/-- Whether an account is cached. -/
def contains (c : Cache) (account : String) : Bool := c.accounts.contains account

/-- Put a record in. -/
def insert (c : Cache) (account : String) (record : Record) : Cache :=
  { c with accounts := c.accounts.insert account record }

/-- Drop an account. -/
def erase (c : Cache) (account : String) : Cache :=
  { c with accounts := c.accounts.erase account }

/-- Change the record of an account, if it is cached. -/
def modify (c : Cache) (account : String) (change : Record → Record) : Cache :=
  match c.record? account with
  | some record => c.insert account (change record)
  | none => c

/-- The record of an account that must be cached. -/
def find (c : Cache) (account : String) : Except RosterError Record :=
  match c.record? account with
  | some record => .ok record
  | none => .error (.accountNotFound account)

/-! ### Reads -/

/-- The accounts that have an attribute. -/
def accountNames (c : Cache) : List String :=
  (c.accounts.entries.filter fun e => !e.2.attributes.isEmpty).map Prod.fst

/-- The attributes of an account. -/
def attributeNames (c : Cache) (account : String) : Except RosterError (List String) :=
  (c.find account).map fun record => record.attributes.keys

/-- Give a value in the type that was asked for. -/
def convert (c : Cache) (value : Value) : Option ValueType → Except RosterError Value
  | some type => liftCodec (c.codec.coerce value type)
  | none => .ok value

/-- Read an attribute. -/
def getAttribute (c : Cache) (account name : String) (type : Option ValueType) :
    Except RosterError Value :=
  match c.find account with
  | .error e => .error e
  | .ok record =>
      match record.attributes.get? name with
      | some value => c.convert value type
      | none => .error (.notStored account name)

/-- Read a parameter; the escaped text of one is read as a string unless another
type is asked for. -/
def getParameter (c : Cache) (account name : String) (type : Option ValueType) :
    Except RosterError Value :=
  match c.find account with
  | .error e => .error e
  | .ok record =>
      match record.typed.get? name with
      | some value => c.convert value type
      | none =>
          match record.escaped.get? name with
          | some escaped => liftCodec (c.codec.unescape escaped (type.getD .string))
          | none => .error (.notStored account (FlatKey.ofParameter name))

/-- An attribute as text, if it is stored and can be text. -/
def getString (c : Cache) (account name : String) : Option String :=
  match c.getAttribute account name (some .string) with
  | .ok (.string text) => some text
  | _ => none

/-- An attribute as a flag; it is off if that cannot be. -/
def getBoolean (c : Cache) (account name : String) : Bool :=
  match c.getAttribute account name (some .boolean) with
  | .ok (.boolean flag) => flag
  | _ => false

/-- An attribute as a number; it is zero if that cannot be. -/
def getUInt32 (c : Cache) (account name : String) : UInt32 :=
  match c.getAttribute account name (some .uint32) with
  | .ok (.uint32 number) => number
  | _ => 0

/-- The stored text under a flat key. -/
def text? (c : Cache) (account key : String) : Option String :=
  (c.record? account).bind fun record => record.text? c.codec key

/-- The flat keys of an account. -/
def listKeys (c : Cache) (account : String) : List String :=
  match c.record? account with
  | some record => record.flatKeys
  | none => []

/-- Whether a parameter is marked as secret. -/
def isSecret (c : Cache) (account name : String) : Bool :=
  match c.record? account with
  | some record => record.isSecret name
  | none => false

/-! ### Pushed data -/

/-- Read a text as an attribute: in its schema type, or else as a string. -/
def attributeOfText (c : Cache) (name escaped : String) : Option Value :=
  (c.codec.unescape escaped ((Schema.attributeType name).getD .string)).toOption

/-- Take the text under a flat key. An attribute that cannot be read is removed. -/
def storeText (c : Cache) (account key : String) (escaped : Option String) : Cache :=
  c.modify account fun record =>
    match FlatKey.ofText key with
    | .param name => record.putEscaped name escaped
    | .attr name => record.putAttribute name (escaped.bind (c.attributeOfText name))

/-- A pushed attribute in its schema type, if it has one. -/
def attributeOfValue (c : Cache) (name : String) (value : Value) : Option Value :=
  match Schema.attributeType name with
  | some type => (c.codec.coerce value type).toOption
  | none => some value

/-- Take an attribute. One that cannot be converted is removed. -/
def storeAttribute (c : Cache) (account name : String) (value : Option Value) : Cache :=
  c.modify account fun record =>
    record.putAttribute name (value.bind (c.attributeOfValue name))

/-- Mark a parameter as secret. -/
def makeSecret (c : Cache) (account name : String) : Cache :=
  c.modify account fun record => record.markSecret name

/-- Take a parameter, and mark it if it is secret. -/
def storeParameter (c : Cache) (account name : String) (value : Option Value)
    (secret : Bool) : Cache :=
  c.modify account fun record =>
    if secret then (record.putTyped name value).markSecret name
    else record.putTyped name value

/-- Take one report of a plugin. -/
def take (c : Cache) : Push → Cache
  | .text account key escaped => c.storeText account key escaped
  | .attr account name value => c.storeAttribute account name value
  | .param account name value secret => c.storeParameter account name value secret
  | .makeSecret account name => c.makeSecret account name

/-- Take reports in order. -/
def takeAll (c : Cache) (pushes : List Push) : Cache := pushes.foldl take c

/-! ### Names of new accounts -/

/-- The name of an account up to its number. -/
def nameStem (manager protocol identification : String) : String :=
  Text.identifier manager ++ "/" ++
    String.ofList (protocol.toList.map fun c => if c = '-' then '_' else c) ++ "/" ++
    Text.identifier identification

/-- A candidate for the name of a new account. -/
def numberedName (stem : String) (n : Nat) : String :=
  stem ++ String.ofList (Number.natText n)

/-- The first candidate that is not cached. One of the first candidates is free,
as there is one more of them than there are accounts. -/
def uniqueName (c : Cache) (manager protocol identification : String) : String :=
  let stem := nameStem manager protocol identification
  numberedName stem <|
    ((List.range (c.accounts.entries.length + 1)).find? fun n =>
      !c.contains (numberedName stem n)).getD c.accounts.entries.length

@[simp] theorem record?_insert_self (c : Cache) (account : String) (record : Record) :
    (c.insert account record).record? account = some record :=
  Dict.get?_insert_self _ _ _

theorem record?_insert (c : Cache) (account other : String) (record : Record) :
    (c.insert account record).record? other =
      if account = other then some record else c.record? other :=
  Dict.get?_insert _ _ _ _

theorem record?_erase (c : Cache) (account other : String) :
    (c.erase account).record? other = if account = other then none else c.record? other :=
  Dict.get?_erase _ _ _

@[simp] theorem codec_insert (c : Cache) (account : String) (record : Record) :
    (c.insert account record).codec = c.codec := rfl

theorem record?_modify (c : Cache) (account other : String) (change : Record → Record) :
    (c.modify account change).record? other =
      if account = other then (c.record? other).map change else c.record? other := by
  unfold modify
  split
  next record h =>
    rw [record?_insert]
    split
    · subst_vars; simp [h]
    · rfl
  next h =>
    split
    · subst_vars; simp [h]
    · rfl

@[simp] theorem codec_modify (c : Cache) (account : String) (change : Record → Record) :
    (c.modify account change).codec = c.codec := by
  unfold modify; split <;> rfl

end Cache

end AccountRoster
