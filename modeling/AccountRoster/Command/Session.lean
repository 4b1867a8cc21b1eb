import AccountRoster.Command
import AccountRoster.Config

/-! # Sessions

A session is one command from start to end: read the configuration, set up its
backends, load every account, and carry out the command. What is left of it is
the disk, what was printed, and an error if there was one. -/

namespace AccountRoster.Session

/-- Carry out a command on the backends of a configuration. -/
def runWith (config : StorageConfig) (command : Command) (d : Disk) :
    Except CommandError String × Disk :=
  match config.build [] none (World.new d ()) with
  | .error e => (.error (.roster e), d)
  | .ok (roster, w) =>
      let started := roster.startup w
      match started.answer with
      | .error e => (.error (.roster e), started.world.disk)
      | .ok () =>
          let reply := command.run started.roster started.world
          (reply.answer, reply.world.disk)

/-- The configuration at a path, or the default if there is no path. -/
def configuration (dataFolder : String) (path : Option String) (d : Disk) :
    Except RosterError StorageConfig × Disk :=
  match path with
  | some path => StorageConfig.load dataFolder path d
  | none => (.ok (StorageConfig.default dataFolder), d)

/-- Carry out a command. -/
def run (dataFolder : String) (path : Option String) (command : Command) (d : Disk) :
    Except CommandError String × Disk :=
  match configuration dataFolder path d with
  | (.error e, d) => (.error (.roster e), d)
  | (.ok config, d) => runWith config command d

/-- The paths of the key-files that a session may touch. -/
def paths (dataFolder : String) (path : Option String) (d : Disk) : List String :=
  match (configuration dataFolder path d).1 with
  | .error _ => []
  | .ok config =>
      config.backends.filterMap fun
        | .keyfile path _ => some path
        | .memory _ => none

end AccountRoster.Session
