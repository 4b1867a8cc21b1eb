import AccountRoster.Codec
import AccountRoster.Schema

/-! # Records

What is cached of one account: its attributes, its parameters, which parameters
are secret, and the number of the plugin that owns it. A parameter is kept
typed or escaped, and every operation keeps it out of the other place. -/

namespace AccountRoster

/-- The cached data of one account. -/
structure Record where
  owner : Nat
  attributes : Dict Value := Dict.empty
  typed : Dict Value := Dict.empty
  escaped : Dict String := Dict.empty
  secrets : Names := Dict.empty
  deriving DecidableEq

namespace Record

/-- The record of an account about which nothing is known but its owner. -/
def new (owner : Nat) : Record := { owner }

/-- Set an attribute, or remove it. -/
def putAttribute (r : Record) (name : String) (value : Option Value) : Record :=
  { r with attributes := r.attributes.put name value }

/-- Set a typed parameter, or remove the parameter. -/
def putTyped (r : Record) (name : String) (value : Option Value) : Record :=
  { r with escaped := r.escaped.erase name, typed := r.typed.put name value }

/-- Set an escaped parameter, or remove the parameter. -/
def putEscaped (r : Record) (name : String) (escaped : Option String) : Record :=
  { r with typed := r.typed.erase name, escaped := r.escaped.put name escaped }

/-- Mark a parameter as secret. -/
def markSecret (r : Record) (name : String) : Record :=
  { r with secrets := r.secrets.add name }

/-- Whether a parameter is marked as secret. -/
def isSecret (r : Record) (name : String) : Bool := r.secrets.has name

/-- The stored text of a parameter, from whichever place holds it. -/
def parameterText? (codec : Codec) (r : Record) (name : String) : Option String :=
  match r.typed.get? name with
  | some value => some (codec.escape value)
  | none => r.escaped.get? name

/-- The stored text of what a flat key names. -/
def text? (codec : Codec) (r : Record) (key : String) : Option String :=
  match FlatKey.ofText key with
  | .attr name => (r.attributes.get? name).map codec.escape
  | .param name => r.parameterText? codec name

/-- The flat keys of everything in the record, in order. -/
def flatKeys (r : Record) : List String :=
  (r.attributes.keys ++ (r.typed.keys ++ r.escaped.keys).map FlatKey.ofParameter).mergeSort
    fun a b => decide (a ≤ b)

@[simp] theorem owner_putAttribute (r : Record) (name : String) (value : Option Value) :
    (r.putAttribute name value).owner = r.owner := rfl

@[simp] theorem owner_putTyped (r : Record) (name : String) (value : Option Value) :
    (r.putTyped name value).owner = r.owner := rfl

@[simp] theorem owner_putEscaped (r : Record) (name : String) (escaped : Option String) :
    (r.putEscaped name escaped).owner = r.owner := rfl

@[simp] theorem owner_markSecret (r : Record) (name : String) :
    (r.markSecret name).owner = r.owner := rfl

theorem attributes_putAttribute (r : Record) (name other : String) (value : Option Value) :
    (r.putAttribute name value).attributes.get? other =
      if name = other then value else r.attributes.get? other :=
  Dict.get?_put r.attributes name other value

theorem typed_putTyped (r : Record) (name other : String) (value : Option Value) :
    (r.putTyped name value).typed.get? other =
      if name = other then value else r.typed.get? other :=
  Dict.get?_put r.typed name other value

theorem escaped_putTyped (r : Record) (name other : String) (value : Option Value) :
    (r.putTyped name value).escaped.get? other =
      if name = other then none else r.escaped.get? other :=
  Dict.get?_erase r.escaped name other

theorem typed_putEscaped (r : Record) (name other : String) (escaped : Option String) :
    (r.putEscaped name escaped).typed.get? other =
      if name = other then none else r.typed.get? other :=
  Dict.get?_erase r.typed name other

theorem escaped_putEscaped (r : Record) (name other : String) (escaped : Option String) :
    (r.putEscaped name escaped).escaped.get? other =
      if name = other then escaped else r.escaped.get? other :=
  Dict.get?_put r.escaped name other escaped

end Record

end AccountRoster
