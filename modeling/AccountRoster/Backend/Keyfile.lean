import AccountRoster.Disk.Access
import AccountRoster.Error
import AccountRoster.Keyfile.Text
import AccountRoster.Plugin

/-! # The key-file backend

Every account is one group of a single key-file, its values in escaped form. The
file is read when it is first needed and written as a whole by a commit, to a
file beside it that then takes its place. A file that is missing is empty; one
that cannot be read is left alone.

## Implementation notes

`dirty` says that the groups in memory are not what a commit left, or found, on
the disk. A call that fails leaves groups and mark as they were. -/

namespace AccountRoster

/-- A key-file, as far as it is in memory. -/
structure KeyfileStore where
  path : String
  file : Keyfile
  loaded : Bool := false
  dirty : Bool := false
  deriving DecidableEq

/-- What a call on a key-file answers, and the state after it. -/
structure StoreReply (α : Type) where
  answer : Except RosterError α
  store : KeyfileStore
  disk : Disk

namespace KeyfileStore

/-- The provider identifier of the backend. -/
def provider : String := "im.telepathy.Account.Storage.Keyfile"

/-- How messages call the backend. -/
def label : String := "keyfile"

def description : String := "Key-file account storage"

def priority : Int := Priority.default

/-- A key-file of which nothing has been read. -/
def new (path : String) (separator : Char) : KeyfileStore :=
  { path, file := Keyfile.new separator }

/-- An access to the file that failed. -/
def failure (action path : String) (fault : DiskFault) : RosterError :=
  .storage ("Failed to " ++ action ++ " " ++ path ++ ": " ++ fault.reason)

/-- Read the file. -/
def readFile (s : KeyfileStore) (d : Disk) : Except RosterError Keyfile × Disk :=
  match d.read s.path with
  | (.ok text, d) => (liftCodec (Keyfile.parse text s.file.separator), d)
  | (.error .missing, d) => (.ok (Keyfile.new s.file.separator), d)
  | (.error fault, d) => (.error (failure "read" s.path fault), d)

/-- Read the file if that has not been done. -/
def ensureLoaded (s : KeyfileStore) (d : Disk) : StoreReply Unit :=
  if s.loaded then ⟨.ok (), s, d⟩
  else
    match s.readFile d with
    | (.ok file, d) => ⟨.ok (), { s with file, loaded := true }, d⟩
    | (.error e, d) => ⟨.error e, s, d⟩

/-- Go on with the file in memory, unless it cannot be read. -/
def whenLoaded {α : Type} (s : KeyfileStore) (d : Disk)
    (next : KeyfileStore → Except RosterError α × KeyfileStore) : StoreReply α :=
  match s.ensureLoaded d with
  | ⟨.ok (), s, d⟩ => ⟨(next s).1, (next s).2, d⟩
  | ⟨.error e, s, d⟩ => ⟨.error e, s, d⟩

/-- The file after a change that may have been refused. -/
def changed (s : KeyfileStore) (file : Keyfile) (change : Bool) : KeyfileStore :=
  { s with file, dirty := s.dirty || change }

/-- The accounts are the groups. -/
def list (s : KeyfileStore) (d : Disk) : StoreReply (List String) :=
  s.whenLoaded d fun s => (.ok s.file.groupNames, s)

/-- What is pushed for an account: the text of one key, if only as missing, or
of all that are there. -/
def pushes (s : KeyfileStore) (account : String) : Option String → List Push
  | some key => [.text account key (s.file.value? account key)]
  | none => (s.file.entries account).entries.map fun e => .text account e.1 (some e.2)

/-- Find an account; the pushes are those of a store that could be read. -/
def get (s : KeyfileStore) (account : String) (key : Option String) (d : Disk) :
    StoreReply (Bool × List Push) :=
  s.whenLoaded d fun s =>
    if s.file.hasGroup account then (.ok (true, s.pushes account key), s)
    else (.ok (false, []), s)

/-- Store an escaped text. -/
def set (s : KeyfileStore) (account key escaped : String) (d : Disk) : StoreReply Bool :=
  s.whenLoaded d fun s =>
    match s.file.setValue account key escaped with
    | (.ok change, file) => (.ok true, s.changed file change)
    | (.error fault, _) => (.error (.codec fault), s)

/-- Remove a key or an account. -/
def delete (s : KeyfileStore) (account : String) (key : Option String) (d : Disk) :
    StoreReply Bool :=
  s.whenLoaded d fun s =>
    let (change, file) := match key with
      | some key => s.file.removeKey account key
      | none => s.file.removeGroup account
    (.ok true, s.changed file change)

/-- Add a group with a name that the cache does not use. -/
def create (s : KeyfileStore) (name : String) (d : Disk) : StoreReply (Option String) :=
  s.whenLoaded d fun s =>
    match s.file.addGroup name with
    | (.ok true, file) => (.ok (some name), s.changed file true)
    | (.ok false, _) => (.error (.storage (name ++ " already exists in " ++ s.path)), s)
    | (.error fault, _) => (.error (.codec fault), s)

/-- The path of the file that takes the place of the key-file. -/
def draftPath (path : String) : String := Path.beside path ".tmp"

/-- Write a text beside a path and move it there. A draft that cannot be moved is
removed again, as far as that is possible. -/
def replace (path content : String) (d : Disk) : Except RosterError Unit × Disk :=
  match d.write (draftPath path) content with
  | (.error fault, d) => (.error (failure "write" (draftPath path) fault), d)
  | (.ok (), d) =>
      match d.rename (draftPath path) path with
      | (.ok (), d) => (.ok (), d)
      | (.error fault, d) =>
          (.error (failure "replace" path fault), (d.remove (draftPath path)).2)

/-- Write a text to a path, with the folders on the way to it. -/
def writeFile (path content : String) (d : Disk) : Except RosterError Unit × Disk :=
  match Path.parent? path with
  | none => replace path content d
  | some folder =>
      match d.makeFolders folder with
      | (.error fault, d) => (.error (failure "create" folder fault), d)
      | (.ok (), d) => replace path content d

/-- Write the file if there is something to write. -/
def commit (s : KeyfileStore) (d : Disk) : StoreReply Bool :=
  if s.loaded = false ∨ s.dirty = false then ⟨.ok true, s, d⟩
  else
    match writeFile s.path s.file.toData d with
    | (.ok (), d) => ⟨.ok true, { s with dirty := false }, d⟩
    | (.error e, d) => ⟨.error e, s, d⟩

/-- Whether an account is in memory. -/
def owns (s : KeyfileStore) (account : String) : Bool := s.file.hasGroup account

end KeyfileStore

end AccountRoster
