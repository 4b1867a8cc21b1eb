import AccountRoster.Roster

/-! # Writing attributes and parameters

A write is settled on the cache alone: whether it is refused, whether it changes
anything, and what the cache holds after it. Only then is the owner of the
account told, and whatever it answers, the cache stands.

## Implementation notes

`planAttribute` and `planParameter` are the first half, `dispatch` is the
second. The first half does not see a plugin. -/

namespace AccountRoster

/-- What the owner of an account is to be told: the new value under a flat key,
or that it is gone. -/
structure Update where
  account : String
  key : String
  value : Option Value
  secret : Bool := false
  deriving DecidableEq

namespace Cache

/-- The value that an attribute takes. Only attributes of the schema can be set. -/
def attributeValue (c : Cache) (name : String) :
    Option Value → Except RosterError (Option Value)
  | none => .ok none
  | some value =>
      match Schema.attributeType name with
      | none => .error (.unknownAttribute name)
      | some type =>
          match c.codec.coerce value type with
          | .ok value => .ok (some value)
          | .error fault => .error (.codec fault)

/-- Settle a write of an attribute: an error, no change, or the cache after it
and what to tell the owner. -/
def planAttribute (c : Cache) (account name : String) (value : Option Value) :
    Except RosterError (Option (Cache × Update)) :=
  if FlatKey.isParameter name then
    .error (.validation (name ++ " is a parameter key, not an attribute"))
  else
    match c.attributeValue name value with
    | .error e => .error e
    | .ok value =>
        match c.find account with
        | .error e => .error e
        | .ok record =>
            if Value.agrees? (record.attributes.get? name) value then .ok none
            else .ok (some (c.insert account (record.putAttribute name value),
              { account, key := name, value }))

/-- Whether a write of a parameter changes a record. A typed value is compared
with the new one, an escaped text with the text of the new one. -/
def changesParameter (c : Cache) (record : Record) (name : String) (value : Option Value) :
    Bool :=
  match record.typed.get? name with
  | some old => !Value.agrees? (some old) value
  | none =>
      match record.escaped.get? name with
      | some old => decide (some old ≠ value.map c.codec.escape)
      | none => value.isSome

/-- Settle a write of a parameter. -/
def planParameter (c : Cache) (account name : String) (value : Option Value) :
    Except RosterError (Option (Cache × Update)) :=
  match c.find account with
  | .error e => .error e
  | .ok record =>
      if c.changesParameter record name value then
        .ok (some (c.insert account (record.putTyped name value),
          { account, key := FlatKey.ofParameter name, value, secret := record.isSecret name }))
      else .ok none

end Cache

namespace Roster

variable {W : Type}

/-- Offer a typed value to a plugin. -/
def offer (r : Roster W) (plugin : Plugin W) (u : Update) (value : Value) (w : W) :
    Except RosterError TypedWrite × W :=
  match FlatKey.ofText u.key with
  | .attr name => plugin.setAttribute r.cache u.account name value w
  | .param name => plugin.setParameter r.cache u.account name value u.secret w

/-- Tell a plugin about an update: a removal, or a typed write, and then the
escaped text if the plugin takes no typed values. Failures are ignored. -/
def tell (r : Roster W) (plugin : Plugin W) (u : Update) (w : W) : W :=
  match u.value with
  | none => (plugin.delete r.cache u.account (some u.key) w).2
  | some value =>
      match r.offer plugin u value w with
      | (.ok .unimplemented, w) =>
          (plugin.set r.cache u.account u.key (r.cache.codec.escape value) w).2
      | (_, w) => w

/-- Tell the owner of an account about an update. -/
def dispatch (r : Roster W) (u : Update) (w : W) : W :=
  match r.owner? u.account with
  | some plugin => r.tell plugin u w
  | none => w

/-- Carry out what was settled on the cache; the answer is whether it changed. -/
def carryOut (r : Roster W) (w : W) :
    Except RosterError (Option (Cache × Update)) → Reply W Bool
  | .error e => ⟨.error e, r, w⟩
  | .ok none => ⟨.ok false, r, w⟩
  | .ok (some (cache, update)) =>
      ⟨.ok true, { r with cache }, ({ r with cache } : Roster W).dispatch update w⟩

/-- Set an attribute in its schema type, or remove it. -/
def setAttribute (r : Roster W) (account name : String) (value : Option Value) (w : W) :
    Reply W Bool :=
  r.carryOut w (r.cache.planAttribute account name value)

/-- Set a parameter, or remove it. -/
def setParameter (r : Roster W) (account name : String) (value : Option Value) (w : W) :
    Reply W Bool :=
  r.carryOut w (r.cache.planParameter account name value)

/-- Set a text attribute, or remove it. -/
def setString (r : Roster W) (account name : String) (text : Option String) (w : W) :
    Reply W Bool :=
  r.setAttribute account name (text.map Value.string) w

/-- Set a list attribute; nothing means the empty list. -/
def setStrings (r : Roster W) (account name : String) (items : Option (List String)) (w : W) :
    Reply W Bool :=
  r.setAttribute account name (some (.stringArray (items.getD []))) w

/-- Mark a parameter as secret. -/
def makeSecret (r : Roster W) (account name : String) : Roster W :=
  { r with cache := r.cache.makeSecret account name }

end Roster

end AccountRoster
