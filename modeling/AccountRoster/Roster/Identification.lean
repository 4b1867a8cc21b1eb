import AccountRoster.Roster.Lifecycle

/-! # Identifying and creating accounts in one step

The identifier of a new account comes from the configured source. Where there is
none, or the source has no such operation or cannot be reached, the `account`
parameter stands in. A caller may cancel while the source is at work; nothing is
created after that.

## Implementation notes

Time is cut at the points that matter to the outcome: before the call, inside
the call of the source, while the call waits for an answer, and later. A source
that never answers leaves a call without result, unless it is cancelled. -/

namespace AccountRoster

/-- When a call is cancelled. -/
inductive Cancellation where
  | never
  | before
  /-- By the source itself, before it answers or begins to wait. -/
  | inside
  /-- While the call waits for the source. -/
  | waiting
  deriving DecidableEq, Repr

namespace Roster

variable {W : Type}

/-- The parameter that stands in for an identifier. -/
def accountParameter : String := "account"

/-- The identifier of an account without a source. -/
def fallback (parameters : Parameters) : String :=
  match parameters.get? accountParameter with
  | some (.string account) => account
  | _ => accountParameter

/-- What an answer of the source means. -/
def settle (parameters : Parameters) : Except RosterError String → Except RosterError String
  | .ok identification => .ok identification
  | .error e => if e.isUnsupported then .ok (fallback parameters) else .error e

/-- The result of waiting for the source. -/
def await (cancellation : Cancellation) (parameters : Parameters) :
    Answering → Option (Except RosterError String)
  | .atOnce answer => some (settle parameters answer)
  | .later answer =>
      match cancellation with
      | .inside | .waiting => some (.error .cancelled)
      | _ => some (settle parameters answer)
  | .never =>
      match cancellation with
      | .inside | .waiting => some (.error .cancelled)
      | _ => none

/-- Find the identifier of a new account; `none` if the call does not end. -/
def identify (r : Roster W) (manager protocol : String) (parameters : Parameters)
    (cancellation : Cancellation) (w : W) : Option (Except RosterError String) × W :=
  if cancellation = .before then (some (.error .cancelled), w)
  else
    match r.identifier with
    | none => (some (.ok (fallback parameters)), w)
    | some source =>
        let answering := source.identify manager protocol parameters w
        (await cancellation parameters answering.1, answering.2)

/-- Whether a call is cancelled by the time that identification is complete. -/
def cancelledBy (r : Roster W) (cancellation : Cancellation) : Bool :=
  cancellation == .before || (cancellation == .inside && r.identifier.isSome)

/-- Set parameters in order, up to the first error. -/
def setParameters (account : String) :
    List (String × Value) → Roster W → W → Reply W Unit
  | [], r, w => ⟨.ok (), r, w⟩
  | (name, value) :: more, r, w =>
      (r.setParameter account name (some value) w).andThen fun _ r w =>
        setParameters account more r w

/-- Give a new account its manager, its protocol and its parameters. -/
def populate (r : Roster W) (account manager protocol : String) (parameters : Parameters)
    (w : W) : Reply W String :=
  (r.setString account Schema.manager (some manager) w).andThen fun _ r w =>
    (r.setString account Schema.protocol (some protocol) w).andThen fun _ r w =>
      (setParameters account parameters.entries r w).andThen fun _ r w =>
        ⟨.ok account, r, w⟩

/-- Identify, create and populate an account; `none` if the call does not end. -/
def createWithParameters (r : Roster W) (provider : Option String)
    (manager protocol : String) (parameters : Parameters) (cancellation : Cancellation)
    (w : W) : Option (Reply W String) :=
  match r.identify manager protocol parameters cancellation w with
  | (none, _) => none
  | (some (.error e), w) => some ⟨.error e, r, w⟩
  | (some (.ok identification), w) =>
      if r.cancelledBy cancellation then some ⟨.error .cancelled, r, w⟩
      else
        some <| (r.create provider manager protocol identification w).andThen fun account r w =>
          r.populate account manager protocol parameters w

end Roster

end AccountRoster
