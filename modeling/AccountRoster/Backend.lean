import AccountRoster.Backend.Keyfile
import AccountRoster.Backend.Memory
import AccountRoster.Roster

/-! # Built-in backends as plugins

The built-in backends share a world: the disk, a key-file and an in-process
store for every slot, and whatever other plugins need. A plugin works on the
store in its slot and leaves the others alone. -/

namespace AccountRoster

/-- The state that the built-in backends act on, beside that of others. -/
structure World (ε : Type) where
  disk : Disk
  keyfiles : Nat → KeyfileStore
  memories : Nat → MemoryStore
  others : ε

namespace World

variable {ε : Type}

/-- A world in which no store has been touched. -/
def new (disk : Disk) (others : ε) : World ε :=
  { disk, keyfiles := fun _ => .new "" Codec.defaultSeparator, memories := fun _ => {}, others }

/-- Put a key-file store into a slot. -/
def putKeyfile (w : World ε) (slot : Nat) (store : KeyfileStore) : World ε :=
  { w with keyfiles := fun n => if n = slot then store else w.keyfiles n }

/-- Put an in-process store into a slot. -/
def putMemory (w : World ε) (slot : Nat) (store : MemoryStore) : World ε :=
  { w with memories := fun n => if n = slot then store else w.memories n }

/-- Put the outcome of a call on a key-file back. -/
def afterKeyfile {α : Type} (w : World ε) (slot : Nat) (reply : StoreReply α) : World ε :=
  { w.putKeyfile slot reply.store with disk := reply.disk }

@[simp] theorem keyfiles_putKeyfile_self (w : World ε) (slot : Nat) (store : KeyfileStore) :
    (w.putKeyfile slot store).keyfiles slot = store := by
  simp [putKeyfile]

@[simp] theorem memories_putMemory_self (w : World ε) (slot : Nat) (store : MemoryStore) :
    (w.putMemory slot store).memories slot = store := by
  simp [putMemory]

end World

namespace KeyfileStore

/-- The pushes of an answer. -/
def pushesOf : Except RosterError (Bool × List Push) → List Push
  | .ok (_, pushes) => pushes
  | .error _ => []

/-- The key-file in a slot as a plugin. -/
def plugin (ε : Type) (slot : Nat) : Plugin (World ε) where
  name := label
  description := description
  priority := priority
  provider := some provider
  list _ w :=
    let reply := (w.keyfiles slot).list w.disk
    (reply.answer, w.afterKeyfile slot reply)
  get _ account key w :=
    let reply := (w.keyfiles slot).get account key w.disk
    (reply.answer.map Prod.fst, pushesOf reply.answer, w.afterKeyfile slot reply)
  set _ account key escaped w :=
    let reply := (w.keyfiles slot).set account key escaped w.disk
    (reply.answer, w.afterKeyfile slot reply)
  delete _ account key w :=
    let reply := (w.keyfiles slot).delete account key w.disk
    (reply.answer, w.afterKeyfile slot reply)
  commit _ _ w :=
    let reply := (w.keyfiles slot).commit w.disk
    (reply.answer, w.afterKeyfile slot reply)
  create cache manager protocol identification w :=
    let name := cache.uniqueName manager protocol identification
    let reply := (w.keyfiles slot).create name w.disk
    (reply.answer, w.afterKeyfile slot reply)
  owns _ account w := ((w.keyfiles slot).owns account, w)

end KeyfileStore

namespace MemoryStore

/-- The in-process store in a slot as a plugin. -/
def plugin (ε : Type) (slot : Nat) (settings : MemorySettings) : Plugin (World ε) where
  name := settings.name
  description := description
  priority := settings.priority
  provider := settings.provider
  list _ w := (.ok (w.memories slot).accounts.keys, w)
  get _ account key w :=
    let found := (w.memories slot).get account key
    (.ok found.1, found.2, w)
  set cache account key escaped w :=
    let reply := (w.memories slot).set cache.codec account key escaped
    (reply.1, w.putMemory slot reply.2)
  setAttribute _ account name value w :=
    (.ok .stored, w.putMemory slot ((w.memories slot).seed account name value))
  setParameter _ account name value secret w :=
    (.ok .stored, w.putMemory slot ((w.memories slot).setParameter account name value secret))
  delete _ account key w :=
    let reply := (w.memories slot).delete account key
    (.ok reply.1, w.putMemory slot reply.2)
  commit _ account w := (.ok true, w.putMemory slot ((w.memories slot).commit account))
  create cache manager protocol identification w :=
    if settings.refuseCreate then (.ok none, w)
    else
      let name := cache.uniqueName manager protocol identification
      (.ok (some name), w.putMemory slot ((w.memories slot).create name))
  owns _ account w := ((w.memories slot).accounts.contains account, w)

end MemoryStore

end AccountRoster
