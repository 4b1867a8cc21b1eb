import AccountRoster.Command.Arguments
import AccountRoster.Command.Session

/-! # The command line

The files that a session may touch are read beforehand, the session runs on a
copy of them, and what it changed is written back. -/

open AccountRoster

namespace AccountRoster.CommandLine

/-- A disk with nothing on it, on which paths start in the working folder. -/
def blank : IO Disk := do
  match ← IO.getEnv "PWD" with
  | some folder => return { Disk.empty with home := (Path.names folder).filter Path.isPlain }
  | none => return Disk.empty

/-- Copy what stands at a path onto a disk; what cannot be read is taken for a
folder. -/
def copyIn (d : Disk) (path : String) : IO Disk := do
  if path.isEmpty then return d
  match ← (IO.FS.readBinFile path).toBaseIO with
  | .error (.noFileOrDirectory ..) => return d
  | .error _ => return d.mount path .folder
  | .ok bytes =>
      match String.fromUTF8? bytes with
      | some text => return d.mount path (.text text)
      | none => return d.mount path .binary

/-- Write a changed file back, at once. -/
def copyOut (before after : Disk) (path : String) : IO Unit := do
  match after.contents path with
  | .error _ => return
  | .ok text =>
      if (before.contents path).toOption = some text then return
      match Path.parent? path with
      | some folder => IO.FS.createDirAll folder
      | none => pure ()
      IO.FS.writeFile (KeyfileStore.draftPath path) text
      IO.FS.rename (KeyfileStore.draftPath path) path

/-- The folder for data. -/
def dataFolder : IO String := do
  match ← IO.getEnv "XDG_DATA_HOME" with
  | some folder => if Path.isAbsolute folder then return folder
  | none => pure ()
  match ← IO.getEnv "HOME" with
  | some folder => return folder ++ "/.local/share"
  | none => return "."

/-- Run one session. -/
def session (arguments : List String) : IO UInt32 := do
  match Command.ofArguments arguments with
  | .error reason =>
      IO.eprintln ("error: " ++ reason ++ "\n\n" ++ Command.usage)
      return 2
  | .ok (given, command) =>
      let data ← dataFolder
      let path ← match given with
        | some path => pure (some path)
        | none => IO.getEnv "PRESENCE_ACCOUNTS_CONFIG"
      let settings ← (path.toList).foldlM copyIn (← blank)
      let paths := Session.paths data path settings
      let before ← paths.foldlM copyIn settings
      let (answer, after) := Session.run data path command before
      for path in paths do
        copyOut before after path
      match answer with
      | .ok text =>
          IO.print text
          return 0
      | .error e =>
          IO.eprintln ("ERROR " ++ e.report)
          return 1

end AccountRoster.CommandLine

def main (arguments : List String) : IO UInt32 :=
  AccountRoster.CommandLine.session arguments
