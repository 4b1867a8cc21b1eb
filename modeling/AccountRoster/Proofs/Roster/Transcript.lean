import AccountRoster.Proofs.Roster.Registry
import AccountRoster.Roster.Lifecycle

/-!
# Transcripts of what plugins are asked

A roster with a transcript is the same roster on a world with a list. Every question to
a plugin is put down there, with the answer and with the cache that the plugin was
shown. What an operation adds to the list is what it asks of plugins, in order.

## Implementation notes

The transcript is part of the world, so that it is the operation itself that makes it.
That an operation is the same with a transcript as without one is an equation,
`reply = (…).transcribed log`, which also names what has been put down.
-/

namespace AccountRoster

variable {W α : Type}

/-- A question to a plugin, and its answer. -/
inductive Exchange where
  | list (answer : Except RosterError (List String))
  | get (account : String) (key : Option String) (answer : Except RosterError Bool)
      (pushes : List Push)
  | set (account key escaped : String) (answer : Except RosterError Bool)
  | setAttribute (account name : String) (value : Value) (answer : Except RosterError TypedWrite)
  | setParameter (account name : String) (value : Value) (secret : Bool)
      (answer : Except RosterError TypedWrite)
  | delete (account : String) (key : Option String) (answer : Except RosterError Bool)
  | commit (account : Option String) (answer : Except RosterError Bool)
  | create (manager protocol identification : String)
      (answer : Except RosterError (Option String))
  | ready
  | owns (account : String) (answer : Bool)

/-- That a plugin was asked something, and the cache that it was shown. -/
structure Consultation (W : Type) where
  plugin : Registered W
  cache : Cache
  exchange : Exchange

/-- A world with a transcript. -/
abbrev Transcribed (W : Type) : Type := W × List (Consultation W)

/-- Ask a plugin, and put the question down with its answer. -/
def Registered.consult (p : Registered W) (cache : Cache) (exchange : α → Exchange)
    (ask : W → α × W) (w : Transcribed W) : α × Transcribed W :=
  let answer := ask w.1
  (answer.1, answer.2, w.2 ++ [⟨p, cache, exchange answer.1⟩])

/-- The same plugin on a world with a transcript. -/
def Registered.transcribed (p : Registered W) : Registered (Transcribed W) where
  id := p.id
  plugin := {
    name := p.plugin.name
    description := p.plugin.description
    priority := p.plugin.priority
    provider := p.plugin.provider
    list := fun cache => p.consult cache .list (p.plugin.list cache)
    get := fun cache account key w =>
      let answer := p.plugin.get cache account key w.1
      (answer.1, answer.2.1, answer.2.2,
        w.2 ++ [⟨p, cache, .get account key answer.1 answer.2.1⟩])
    set := fun cache account key escaped =>
      p.consult cache (.set account key escaped) (p.plugin.set cache account key escaped)
    setAttribute := fun cache account name value =>
      p.consult cache (.setAttribute account name value)
        (p.plugin.setAttribute cache account name value)
    setParameter := fun cache account name value secret =>
      p.consult cache (.setParameter account name value secret)
        (p.plugin.setParameter cache account name value secret)
    delete := fun cache account key =>
      p.consult cache (.delete account key) (p.plugin.delete cache account key)
    commit := fun cache account =>
      p.consult cache (.commit account) (p.plugin.commit cache account)
    create := fun cache manager protocol identification =>
      p.consult cache (.create manager protocol identification)
        (p.plugin.create cache manager protocol identification)
    ready := fun cache w => (p.plugin.ready cache w.1, w.2 ++ [⟨p, cache, .ready⟩])
    owns := fun cache account =>
      p.consult cache (.owns account) (p.plugin.owns cache account) }

/-- The same source on a world with a transcript, which is about plugins only. -/
def Identifier.transcribed (source : Identifier W) : Identifier (Transcribed W) where
  identify := fun manager protocol parameters w =>
    let answer := source.identify manager protocol parameters w.1
    (answer.1, answer.2, w.2)

/-- The same roster on a world with a transcript. -/
def Roster.transcribed (r : Roster W) : Roster (Transcribed W) where
  cache := r.cache
  registry := r.registry.map Registered.transcribed
  identifier := r.identifier.map Identifier.transcribed

/-- The same reply on a world with a transcript. -/
def Reply.transcribed (reply : Reply W α) (log : List (Consultation W)) :
    Reply (Transcribed W) α :=
  ⟨reply.answer, reply.roster.transcribed, reply.world, log⟩

namespace Roster

/-- The plugin of a given number is the same one. -/
theorem plugin?_transcribed (r : Roster W) (n : Nat) :
    r.transcribed.plugin? n =
      (r.registry.find? fun p => p.id == n).map fun p => p.transcribed.plugin := by
  have hfind : r.transcribed.registry.find? (fun p => p.id == n) =
      (r.registry.find? fun p => p.id == n).map Registered.transcribed := List.find?_map
  rw [plugin?, hfind, Option.map_map]
  rfl

theorem pluginName_transcribed (r : Roster W) (n : Nat) :
    r.transcribed.pluginName n = r.pluginName n := by
  rw [pluginName, plugin?_transcribed, pluginName, plugin?]
  cases r.registry.find? fun p => p.id == n <;> rfl

/-- The plugin of a given provider is the same one. -/
theorem find?_provider_transcribed (r : Roster W) (provider : String) :
    r.transcribed.registry.find? (fun p => p.plugin.provider == some provider) =
      (r.registry.find? fun p => p.plugin.provider == some provider).map
        Registered.transcribed :=
  List.find?_map

/-- An account is owned by the same plugin, if by any. -/
theorem owner?_transcribed (r : Roster W) (account : String) :
    r.owner? account = none ∧ r.transcribed.owner? account = none ∨
      ∃ p ∈ r.registry, r.owner? account = some p.plugin ∧
        r.transcribed.owner? account = some p.transcribed.plugin := by
  have hcache : r.transcribed.cache = r.cache := rfl
  rw [owner?, owner?, hcache]
  cases r.cache.record? account with
  | none => exact Or.inl ⟨rfl, rfl⟩
  | some record =>
      rw [Option.bind_some, Option.bind_some, plugin?_transcribed, plugin?]
      cases hfind : r.registry.find? fun p => p.id == record.owner with
      | none => exact Or.inl ⟨rfl, rfl⟩
      | some p => exact Or.inr ⟨p, List.mem_of_find?_eq_some hfind, rfl, rfl⟩

end Roster

end AccountRoster
