import AccountRoster.Roster.Writing

/-! # Creating, deleting and committing accounts

A new account goes to the plugin that the caller picked, or to the first one
that takes it. Nothing outlasts the process before a commit. -/

namespace AccountRoster.Roster

variable {W : Type}

/-- Enter an account that a plugin has just created. -/
def addCreated (r : Roster W) (p : Registered W) (account : String) (w : W) :
    Reply W String :=
  (r.addAccount p account w).andThen fun _ r w => ⟨.ok account, r, w⟩

/-- Ask the plugin of a given provider to create an account. -/
def createWith (r : Roster W) (provider manager protocol identification : String) (w : W) :
    Reply W String :=
  match r.registry.find? fun p => p.plugin.provider == some provider with
  | none => ⟨.error (.providerNotFound provider), r, w⟩
  | some p =>
      match p.plugin.create r.cache manager protocol identification w with
      | (.ok (some account), w) => r.addCreated p account w
      | (.ok none, w) =>
          ⟨.error (.storage (p.plugin.name ++ " declined to create the account")), r, w⟩
      | (.error e, w) => ⟨.error e, r, w⟩

/-- Ask plugins in order until one creates the account. -/
def createFirst (r : Roster W) (manager protocol identification : String) :
    List (Registered W) → W → Reply W String
  | [], w => ⟨.error .noStorageAvailable, r, w⟩
  | p :: more, w =>
      match p.plugin.create r.cache manager protocol identification w with
      | (.ok (some account), w) => r.addCreated p account w
      | (_, w) => r.createFirst manager protocol identification more w

/-- Create an account without data. -/
def create (r : Roster W) (provider : Option String)
    (manager protocol identification : String) (w : W) : Reply W String :=
  if manager = "" ∨ protocol = "" then
    ⟨.error (.validation "manager and protocol must not be empty"), r, w⟩
  else
    match provider with
    | some provider => r.createWith provider manager protocol identification w
    | none => r.createFirst manager protocol identification r.registry w

/-- Delete an account. It leaves the cache whatever its plugin answers. -/
def delete (r : Roster W) (account : String) (w : W) : Reply W Unit :=
  match r.cache.find account with
  | .error e => ⟨.error e, r, w⟩
  | .ok _ =>
      let w := match r.owner? account with
        | some plugin => (plugin.delete r.cache account none w).2
        | none => w
      ⟨.ok (), { r with cache := r.cache.erase account }, w⟩

/-- Ask the owner of an account to make it last, or every plugin to do so for all
it has. An account that is not cached is none of their business. -/
def commit (r : Roster W) (account : Option String) (w : W) : W :=
  match account with
  | some account =>
      match r.owner? account with
      | some plugin => (plugin.commit r.cache (some account) w).2
      | none => w
  | none => r.registry.foldl (fun w p => (p.plugin.commit r.cache none w).2) w

end AccountRoster.Roster
