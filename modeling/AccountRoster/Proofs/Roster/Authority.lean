import AccountRoster.Backend
import AccountRoster.Proofs.Dict
import AccountRoster.Roster.Lifecycle

/-!
# The authority of the cache

What a write answers, and what is cached after it, is settled on the cache alone. The
plugins are told, but what they answer goes nowhere. Two rosters with the same cache
therefore give the same answers and keep the same cache, whatever plugins they have and
whatever worlds they act on.

## Implementation notes

Caches of different rosters name owners by the numbers of different registries. Nothing
that is answered hangs on these numbers, so that it is enough for two caches to agree on
the rest. `ownerless` is the rest.
-/

namespace AccountRoster

/-- A write to a roster, or a request to make writes last. -/
inductive Write where
  | setAttribute (account name : String) (value : Option Value)
  | setParameter (account name : String) (value : Option Value)
  | setString (account name : String) (text : Option String)
  | setStrings (account name : String) (items : Option (List String))
  | delete (account : String)
  | commit (account : Option String)

/-- The answer to a write: an error, or else whether something has changed, if it says so. -/
abbrev WriteAnswer : Type := Except RosterError (Option Bool)

/-- What is seen of a write: its answer, and the cache after it. -/
abbrev Sight : Type := WriteAnswer × Cache

/-! ### Writes on a cache -/

namespace Cache

/-- What is seen of a write that has been settled. -/
def settled (c : Cache) : Except RosterError (Option (Cache × Update)) → Sight
  | .error e => (.error e, c)
  | .ok none => (.ok (some false), c)
  | .ok (some (cache, _)) => (.ok (some true), cache)

/-- What is seen of a write, settled on the cache. -/
def write (c : Cache) : Write → Sight
  | .setAttribute account name value => c.settled (c.planAttribute account name value)
  | .setParameter account name value => c.settled (c.planParameter account name value)
  | .setString account name text =>
      c.settled (c.planAttribute account name (text.map Value.string))
  | .setStrings account name items =>
      c.settled (c.planAttribute account name (some (.stringArray (items.getD []))))
  | .delete account =>
      match c.find account with
      | .error e => (.error e, c)
      | .ok _ => (.ok none, c.erase account)
  | .commit _ => (.ok none, c)

/-- What is seen of writes in order. -/
def history : List Write → Cache → List Sight
  | [], _ => []
  | write :: more, c => c.write write :: history more (c.write write).2

end Cache

/-! ### Writes that a roster carries out -/

/-- The same reply with another answer, unless it is an error. -/
def Reply.map {W α β : Type} (reply : Reply W α) (change : α → β) : Reply W β :=
  ⟨reply.answer.map change, reply.roster, reply.world⟩

namespace Roster

variable {W : Type}

/-- Carry out a write. -/
def write (r : Roster W) (w : W) : Write → Reply W (Option Bool)
  | .setAttribute account name value => (r.setAttribute account name value w).map some
  | .setParameter account name value => (r.setParameter account name value w).map some
  | .setString account name text => (r.setString account name text w).map some
  | .setStrings account name items => (r.setStrings account name items w).map some
  | .delete account => (r.delete account w).map fun _ => none
  | .commit account => ⟨.ok none, r, r.commit account w⟩

/-- What is seen of writes that are carried out in order. -/
def history : List Write → Roster W → W → List Sight
  | [], _, _ => []
  | write :: more, r, w =>
      ((r.write w write).answer, (r.write w write).roster.cache) ::
        history more (r.write w write).roster (r.write w write).world

/-- A write that is carried out comes to what was settled on the cache. -/
theorem carryOut_eq_settled (r : Roster W) (w : W)
    (plan : Except RosterError (Option (Cache × Update))) :
    (((r.carryOut w plan).map some).answer, ((r.carryOut w plan).map some).roster.cache) =
      r.cache.settled plan := by
  rcases plan with e | _ | ⟨cache, update⟩
  · rfl
  · rfl
  · rfl

/-- What is seen of a write is what the cache alone makes of it. -/
theorem write_eq (r : Roster W) (w : W) (write : Write) :
    ((r.write w write).answer, (r.write w write).roster.cache) = r.cache.write write := by
  cases write with
  | setAttribute account name value => exact r.carryOut_eq_settled w _
  | setParameter account name value => exact r.carryOut_eq_settled w _
  | setString account name text => exact r.carryOut_eq_settled w _
  | setStrings account name items => exact r.carryOut_eq_settled w _
  | delete account =>
      rw [Roster.write, Cache.write, Roster.delete]
      cases r.cache.find account with
      | error e => rfl
      | ok record => rfl
  | commit account => rfl

theorem history_eq (writes : List Write) (r : Roster W) (w : W) :
    r.history writes w = r.cache.history writes := by
  induction writes generalizing r w with
  | nil => rfl
  | cons write more ih =>
      have hcache : (r.write w write).roster.cache = (r.cache.write write).2 :=
        congrArg Prod.snd (r.write_eq w write)
      rw [history, Cache.history, ih, write_eq, hcache]

end Roster

/-! ### Owners make no difference -/

/-- What is cached of an account apart from its owner. -/
def Record.ownerless (r : Record) : Record := { r with owner := 0 }

/-- What is cached apart from who owns it. -/
def Cache.ownerless (c : Cache) : Cache :=
  { c with accounts := c.accounts.map Record.ownerless }

/-- What is seen of a write apart from who owns what is cached. -/
def Sight.ownerless (seen : Sight) : Sight := (seen.1, seen.2.ownerless)

namespace Cache

theorem record?_ownerless (c : Cache) (account : String) :
    c.ownerless.record? account = (c.record? account).map Record.ownerless :=
  Dict.get?_map Record.ownerless c.accounts account

theorem find_ownerless (c : Cache) (account : String) :
    c.ownerless.find account = (c.find account).map Record.ownerless := by
  rw [find, find, record?_ownerless]
  cases c.record? account with
  | none => rfl
  | some record => rfl

theorem ownerless_insert (c : Cache) (account : String) (record : Record) :
    (c.insert account record).ownerless = c.ownerless.insert account record.ownerless :=
  congrArg (Cache.mk c.codec) (Dict.map_insert Record.ownerless c.accounts account record)

theorem ownerless_erase (c : Cache) (account : String) :
    (c.erase account).ownerless = c.ownerless.erase account :=
  congrArg (Cache.mk c.codec) (Dict.map_erase Record.ownerless c.accounts account)

/-- What is settled, without owners. -/
def ownerlessPlan : Option (Cache × Update) → Option (Cache × Update) :=
  Option.map fun settled => (settled.1.ownerless, settled.2)

theorem settled_ownerless (c : Cache) (plan : Except RosterError (Option (Cache × Update))) :
    c.ownerless.settled (plan.map ownerlessPlan) = Sight.ownerless (c.settled plan) := by
  rcases plan with e | _ | ⟨cache, update⟩
  · rfl
  · rfl
  · rfl

theorem planAttribute_ownerless (c : Cache) (account name : String) (value : Option Value) :
    c.ownerless.planAttribute account name value =
      (c.planAttribute account name value).map ownerlessPlan := by
  have hvalue : c.ownerless.attributeValue name value = c.attributeValue name value := rfl
  unfold planAttribute
  rw [hvalue, find_ownerless]
  split
  · rfl
  · cases c.attributeValue name value with
    | error e => rfl
    | ok new =>
        cases c.find account with
        | error e => rfl
        | ok record =>
            dsimp only [Except.map]
            by_cases hsame : Value.agrees? (record.attributes.get? name) new = true
            · rw [if_pos hsame]
              exact if_pos hsame
            · rw [if_neg hsame]
              refine (if_neg hsame).trans ?_
              dsimp only [ownerlessPlan, Option.map_some]
              rw [ownerless_insert]
              rfl

theorem planParameter_ownerless (c : Cache) (account name : String) (value : Option Value) :
    c.ownerless.planParameter account name value =
      (c.planParameter account name value).map ownerlessPlan := by
  unfold planParameter
  rw [find_ownerless]
  cases c.find account with
  | error e => rfl
  | ok record =>
      have hchanges : c.ownerless.changesParameter record.ownerless name value =
          c.changesParameter record name value := rfl
      dsimp only [Except.map]
      rw [hchanges]
      split
      · dsimp only [ownerlessPlan, Option.map_some]
        rw [ownerless_insert]
        rfl
      · rfl

/-- A write is the same without owners. -/
theorem write_ownerless (c : Cache) (write : Write) :
    c.ownerless.write write = Sight.ownerless (c.write write) := by
  have hattribute (account name : String) (value : Option Value) :=
    c.settled_ownerless (c.planAttribute account name value)
  simp only [← planAttribute_ownerless] at hattribute
  cases write with
  | setAttribute account name value => exact hattribute account name value
  | setParameter account name value =>
      rw [Cache.write, planParameter_ownerless]
      exact c.settled_ownerless _
  | setString account name text => exact hattribute account name _
  | setStrings account name items => exact hattribute account name _
  | delete account =>
      rw [Cache.write, Cache.write, find_ownerless]
      cases c.find account with
      | error e => rfl
      | ok record => exact congrArg (Prod.mk _) (c.ownerless_erase account).symm
  | commit account => rfl

theorem history_ownerless (writes : List Write) (c : Cache) :
    c.ownerless.history writes = (c.history writes).map Sight.ownerless := by
  induction writes generalizing c with
  | nil => rfl
  | cons write more ih =>
      rw [history, history, write_ownerless, List.map_cons]
      exact congrArg _ (ih (c.write write).2)

end Cache

/-- In two rosters with the same cache, writes have the same answers and leave the same
cache after each of them, whatever plugins there are, whatever these answer, and whatever
worlds they act on. Where the caches agree but for owners, so do all answers and caches
from then on. -/
theorem cache_authoritative {W V : Type} {r : Roster W} {q : Roster V}
    (hsame : r.cache.ownerless = q.cache.ownerless) (w : W) (v : V) (writes : List Write) :
    (r.history writes w).map Sight.ownerless = (q.history writes v).map Sight.ownerless ∧
      (r.cache = q.cache → r.history writes w = q.history writes v) := by
  rw [Roster.history_eq, Roster.history_eq]
  constructor
  · calc
      (r.cache.history writes).map Sight.ownerless = r.cache.ownerless.history writes :=
        (r.cache.history_ownerless writes).symm
      _ = q.cache.ownerless.history writes := by rw [hsame]
      _ = (q.cache.history writes).map Sight.ownerless := q.cache.history_ownerless writes
  · intro hcache
    rw [hcache]

/-- A plugin that fails in everything, and has another number than one that does not,
shows in no answer. -/
theorem cache_authoritative_failing :
    let down : RosterError := .storage "down"
    let failing : Plugin Unit := {
      name := "failing"
      description := ""
      list := fun _ w => (.error down, w)
      get := fun _ _ _ w => (.error down, [], w)
      set := fun _ _ _ _ w => (.error down, w)
      setParameter := fun _ _ _ _ _ w => (.error down, w)
      delete := fun _ _ _ w => (.error down, w)
      commit := fun _ _ w => (.error down, w)
      owns := fun _ _ w => (false, w) }
    let r : Roster (World Unit) := {
      cache := Cache.insert {} "a" (Record.new 0)
      registry := [⟨0, MemoryStore.plugin Unit 0 { name := "memory" }⟩] }
    let q : Roster Unit := {
      cache := Cache.insert {} "a" (Record.new 1)
      registry := [⟨1, failing⟩] }
    let writes : List Write :=
      [.setParameter "a" "port" (some (.uint32 1)), .commit (some "a"), .delete "a", .delete "a"]
    (q.history writes ()).map Sight.ownerless =
        (r.history writes (World.new Disk.empty ())).map Sight.ownerless ∧
      (q.history writes ()).map (·.1.toOption) =
        [some (some true), some none, some none, none] := by
  intro down failing r q writes
  have hsame : q.cache.ownerless = r.cache.ownerless := by decide +kernel
  exact ⟨(cache_authoritative hsame () (World.new Disk.empty ()) writes).1, by decide +kernel⟩

end AccountRoster
