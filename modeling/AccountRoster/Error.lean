import AccountRoster.Codec.Fault

/-! # Errors of roster operations

The causes for which an operation on accounts can fail, the message of each, and
how callers should take it. -/

namespace AccountRoster

/-- Why an operation on accounts failed. -/
inductive RosterError where
  /-- No account of this name is cached. -/
  | accountNotFound (account : String)
  /-- The account holds nothing under the key. -/
  | notStored (account key : String)
  /-- The attribute is outside the schema. -/
  | unknownAttribute (name : String)
  /-- A text could not be read. -/
  | codec (fault : CodecFault)
  /-- No registered plugin has this provider identifier. -/
  | providerNotFound (provider : String)
  /-- The callee has no such operation. -/
  | notImplemented (operation : String)
  /-- The callee cannot be reached now. -/
  | serviceUnavailable (service : String)
  /-- A backend failed. -/
  | storage (detail : String)
  /-- Every plugin declined to create the account. -/
  | noStorageAvailable
  /-- Two plugins claim one account name. -/
  | accountConflict (account existing claimedBy : String)
  /-- The operation was cancelled before it was complete. -/
  | cancelled
  /-- An argument or a setting is not acceptable. -/
  | validation (detail : String)
  deriving DecidableEq

namespace RosterError

/-- The message of an error. -/
def message : RosterError → String
  | accountNotFound account => "Account not found: " ++ account
  | notStored account key => key ++ " is not stored for account " ++ account
  | unknownAttribute name => "Unknown attribute: " ++ name
  | codec fault => fault.message
  | providerNotFound provider => "Storage provider '" ++ provider ++ "' does not exist"
  | notImplemented operation => "Operation not implemented: " ++ operation
  | serviceUnavailable service => "Service unavailable: " ++ service
  | storage detail => "Storage error: " ++ detail
  | noStorageAvailable => "None of the storage providers are able to create the account"
  | accountConflict account existing claimedBy =>
      "Account " ++ account ++ " is already owned by " ++ existing ++
        ", also claimed by " ++ claimedBy
  | cancelled => "Operation cancelled"
  | validation detail => "Validation error: " ++ detail

/-- Whether wrong input or a missing value is enough to explain the error. -/
def isExpected : RosterError → Bool
  | serviceUnavailable _ | storage _ | noStorageAvailable | accountConflict _ _ _ => false
  | _ => true

/-- Whether the error leaves the cache without use. -/
def isFatal : RosterError → Bool
  | accountConflict _ _ _ | noStorageAvailable => true
  | _ => false

/-- Whether identification may go on without the callee that reported this. -/
def isUnsupported : RosterError → Bool
  | notImplemented _ | serviceUnavailable _ => true
  | _ => false

end RosterError

/-- Take a codec fault as an error of the operation that met it. -/
def liftCodec {α : Type} : Except CodecFault α → Except RosterError α
  | .ok a => .ok a
  | .error fault => .error (.codec fault)

@[simp] theorem liftCodec_ok {α : Type} (a : α) : liftCodec (.ok a) = .ok a := rfl

@[simp] theorem liftCodec_error {α : Type} (fault : CodecFault) :
    liftCodec (.error fault : Except CodecFault α) = .error (.codec fault) := rfl

theorem liftCodec_eq_ok {α : Type} {result : Except CodecFault α} {a : α}
    (h : liftCodec result = .ok a) : result = .ok a := by
  cases result with
  | error fault => cases h
  | ok b =>
      cases h
      rfl

end AccountRoster
