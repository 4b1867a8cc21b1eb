import AccountRoster.Backend
import AccountRoster.Proofs.Cache.Edits
import AccountRoster.Proofs.Roster.Watching

/-!
# What a load comes to

Every account that a plugin lists is a claim. Claims are entered in order, up to the
first one whose account has been claimed before; that one is a conflict. A plugin
that cannot list its accounts claims nothing, and one that cannot give an account has
claimed it nevertheless.

## Implementation notes

`Entering` is the outcome of some claims after others have been entered. Outcomes in
a row are an outcome (`Entering.andThen`), so that the accounts of a plugin and the
plugins of a roster are followed by two short inductions.
-/

namespace AccountRoster

variable {W : Type}

/-- An account, and the plugin that lists it. -/
structure Claim (W : Type) where
  account : String
  claimant : Registered W

/-- What is claimed by the answer of a plugin. -/
def Listing.claims (l : Listing W) : List (Claim W) :=
  match l.answer with
  | .ok accounts => accounts.map fun account => ⟨account, l.plugin⟩
  | .error _ => []

/-- No account is claimed twice. -/
def Distinct (claims : List (Claim W)) : Prop := (claims.map Claim.account).Nodup

/-- The cached accounts are those that are claimed, and belong to their claimants. -/
structure Roster.Holds (r : Roster W) (claims : List (Claim W)) : Prop where
  contains_iff : ∀ account, r.cache.contains account = true ↔ account ∈ claims.map Claim.account
  owner : ∀ claim ∈ claims,
    (r.cache.record? claim.account).map Record.owner = some claim.claimant.id
  registered : ∀ claim ∈ claims, claim.claimant ∈ r.registry

/-- What it comes to when claims are entered after others. -/
inductive Entering (before claims : List (Claim W)) (reply : Reply W Unit) : Prop
  | entered (hanswer : reply.answer = .ok ()) (hdistinct : Distinct (before ++ claims))
      (hholds : reply.roster.Holds (before ++ claims))
  | conflict (first second : Claim W) (done rest : List (Claim W))
      (hclaims : claims = done ++ second :: rest) (hfirst : first ∈ before ++ done)
      (hsame : first.account = second.account) (hdistinct : Distinct (before ++ done))
      (hanswer : reply.answer = .error (.accountConflict second.account
        first.claimant.plugin.name second.claimant.plugin.name))
      (hholds : reply.roster.Holds (before ++ done))

namespace Roster.Holds

variable {r : Roster W} {claims : List (Claim W)}

theorem nil (h : r.cache.accounts = Dict.empty) : r.Holds [] where
  contains_iff := fun account => by simp [Cache.contains, h, Dict.contains_eq]
  owner := nofun
  registered := nofun

/-- An account that is not cached is not claimed. -/
theorem notMem_of_record?_eq_none (h : r.Holds claims) {account : String}
    (hnew : r.cache.record? account = none) : account ∉ claims.map Claim.account := by
  rw [← h.contains_iff, Cache.contains, Dict.contains_eq, ← Cache.record?, hnew]
  exact Bool.false_ne_true

/-- An account that is cached has been claimed by its owner. -/
theorem exists_claim (h : r.Holds claims) {account : String} {record : Record}
    (hrecord : r.cache.record? account = some record) :
    ∃ claim ∈ claims, claim.account = account ∧ record.owner = claim.claimant.id := by
  have hcached : r.cache.contains account = true := by
    rw [Cache.contains, Dict.contains_eq, ← Cache.record?, hrecord]
    rfl
  obtain ⟨claim, hclaim, rfl⟩ := List.mem_map.mp ((h.contains_iff account).mp hcached)
  have howner := h.owner claim hclaim
  rw [hrecord] at howner
  exact ⟨claim, hclaim, rfl, Option.some_inj.mp howner⟩

/-- A roster with the same owners holds the same claims. -/
theorem congr (h : r.Holds claims) {r' : Roster W} (hregistry : r'.registry = r.registry)
    (howner : ∀ account, (r'.cache.record? account).map Record.owner =
      (r.cache.record? account).map Record.owner) : r'.Holds claims where
  contains_iff := by
    intro account
    have hsome := congrArg Option.isSome (howner account)
    rw [Option.isSome_map, Option.isSome_map] at hsome
    rw [← h.contains_iff, Cache.contains, Cache.contains, Dict.contains_eq, Dict.contains_eq]
    exact Bool.eq_iff_iff.mp hsome
  owner := fun claim hclaim => (howner claim.account).trans (h.owner claim hclaim)
  registered := fun claim hclaim => hregistry ▸ h.registered claim hclaim

/-- An account is entered for the plugin that claims it. -/
theorem insert (h : r.Holds claims) {p : Registered W} (hp : p ∈ r.registry) {account : String}
    (hnew : r.cache.record? account = none) :
    ({ r with cache := r.cache.insert account (Record.new p.id) } : Roster W).Holds
      (claims ++ [⟨account, p⟩]) where
  contains_iff := by
    intro other
    rw [Cache.contains, Dict.contains_eq]
    change ((r.cache.insert account (Record.new p.id)).record? other).isSome = true ↔ _
    rw [Cache.record?_insert, List.map_append, List.mem_append, ← h.contains_iff other]
    by_cases heq : account = other
    · simp [heq]
    · have hne : other ≠ account := fun he => heq he.symm
      simp [heq, hne, Cache.contains, Dict.contains_eq, Cache.record?]
  owner := by
    intro claim hclaim
    change ((r.cache.insert account (Record.new p.id)).record? claim.account).map _ = _
    rw [Cache.record?_insert]
    rcases List.mem_append.mp hclaim with hold | hnewclaim
    · have hne : account ≠ claim.account := by
        rintro rfl
        exact h.notMem_of_record?_eq_none hnew (List.mem_map_of_mem hold)
      rw [if_neg hne]
      exact h.owner claim hold
    · rw [List.mem_singleton.mp hnewclaim, if_pos rfl]
      rfl
  registered := by
    intro claim hclaim
    rcases List.mem_append.mp hclaim with hold | hnewclaim
    · exact h.registered claim hold
    · rw [List.mem_singleton.mp hnewclaim]
      exact hp

end Roster.Holds

/-- One more account is claimed. -/
theorem Distinct.append_singleton {claims : List (Claim W)} (h : Distinct claims) {claim : Claim W}
    (hnew : claim.account ∉ claims.map Claim.account) : Distinct (claims ++ [claim]) := by
  rw [Distinct, List.map_append]
  exact h.append (List.nodup_singleton _) (by simpa using hnew)

/-- An account that is claimed twice is not claimed once. -/
theorem not_distinct {before after : List (Claim W)} {first second : Claim W}
    (hfirst : first ∈ before) (hsame : first.account = second.account) :
    ¬Distinct (before ++ second :: after) := by
  intro h
  rw [Distinct, List.map_append, List.map_cons] at h
  exact (List.nodup_append.mp h).2.2 first.account (List.mem_map_of_mem hfirst)
    second.account List.mem_cons_self hsame

namespace Entering

variable {before claims more : List (Claim W)} {reply : Reply W Unit}

/-- Claims are entered, and more of them after that. -/
theorem andThen {next : Unit → Roster W → W → Reply W Unit} (h : Entering before claims reply)
    (hnext : reply.answer = .ok () → reply.roster.Holds (before ++ claims) →
      Distinct (before ++ claims) →
      Entering (before ++ claims) more (next () reply.roster reply.world)) :
    Entering before (claims ++ more) (reply.andThen next) := by
  cases h with
  | entered hanswer hdistinct hholds =>
      have hreply : reply.andThen next = next () reply.roster reply.world := by
        rw [Reply.andThen, hanswer]
      rw [hreply]
      cases hnext hanswer hholds hdistinct with
      | entered hanswer hdistinct hholds =>
          rw [List.append_assoc] at hdistinct hholds
          exact entered hanswer hdistinct hholds
      | conflict first second done rest hclaims hfirst hsame hdistinct hanswer hholds =>
          rw [List.append_assoc] at hfirst hdistinct hholds
          refine conflict first second (claims ++ done) rest ?_ hfirst hsame hdistinct hanswer
            hholds
          rw [hclaims, List.append_assoc]
  | conflict first second done rest hclaims hfirst hsame hdistinct hanswer hholds =>
      have hreply : reply.andThen next =
          ⟨.error (.accountConflict second.account first.claimant.plugin.name
            second.claimant.plugin.name), reply.roster, reply.world⟩ := by
        rw [Reply.andThen, hanswer]
      rw [hreply]
      refine conflict first second done (rest ++ more) ?_ hfirst hsame hdistinct rfl hholds
      rw [hclaims, List.append_assoc, List.cons_append]

/-- The outcome is an error exactly if an account is claimed twice. -/
theorem answer_eq_ok_iff (h : Entering [] claims reply) :
    reply.answer = .ok () ↔ Distinct claims := by
  cases h with
  | entered hanswer hdistinct hholds => exact ⟨fun _ => hdistinct, fun _ => hanswer⟩
  | conflict first second done rest hclaims hfirst hsame hdistinct hanswer hholds =>
      rw [hanswer, hclaims]
      constructor
      · intro h
        cases h
      · intro h
        exact (not_distinct hfirst hsame h).elim

end Entering

namespace Roster

variable {r : Roster W} {before : List (Claim W)}

theorem entering_addAccount (hids : (r.registry.map Registered.id).Nodup) {p : Registered W}
    (hp : p ∈ r.registry) (h : r.Holds before) (hdistinct : Distinct before) (account : String)
    (w : W) : Entering before [⟨account, p⟩] (r.addAccount p account w) := by
  unfold addAccount
  cases hrecord : r.cache.record? account with
  | none =>
      refine Entering.entered rfl
        (hdistinct.append_singleton (h.notMem_of_record?_eq_none hrecord)) ?_
      exact (h.insert hp hrecord).congr rfl fun other => Cache.owner_takeAll _ _ other
  | some record =>
      obtain ⟨first, hfirst, hsame, howner⟩ := h.exists_claim hrecord
      have hname : r.pluginName record.owner = first.claimant.plugin.name := by
        rw [howner]
        exact pluginName_of_mem hids (h.registered first hfirst)
      refine Entering.conflict first ⟨account, p⟩ [] [] rfl ?_ hsame ?_ ?_ ?_
      · rwa [List.append_nil]
      · rwa [List.append_nil]
      · dsimp only
        rw [hname]
      · rwa [List.append_nil]

theorem entering_addAccounts (hids : (r.registry.map Registered.id).Nodup) {p : Registered W}
    (hp : p ∈ r.registry) (h : r.Holds before) (hdistinct : Distinct before)
    (accounts : List String) (w : W) :
    Entering before (accounts.map fun account => ⟨account, p⟩) (addAccounts p accounts r w) := by
  induction accounts generalizing r w before with
  | nil =>
      refine Entering.entered rfl ?_ ?_
      · rwa [List.map_nil, List.append_nil]
      · rwa [List.map_nil, List.append_nil]
  | cons account more ih =>
      have hregistry := registry_addAccount r p account w
      refine (entering_addAccount hids hp h hdistinct account w).andThen fun _ hholds hd => ?_
      exact ih (by rwa [hregistry]) (by rwa [hregistry]) hholds hd _

theorem entering_loadPlugin (hids : (r.registry.map Registered.id).Nodup) {p : Registered W}
    (hp : p ∈ r.registry) (h : r.Holds before) (hdistinct : Distinct before) (w : W) :
    Entering before (Listing.claims ⟨p, (p.plugin.list r.cache w).1⟩) (r.loadPlugin p w) := by
  unfold loadPlugin
  cases p.plugin.list r.cache w with
  | mk answer w' =>
      cases answer with
      | ok accounts => exact entering_addAccounts hids hp h hdistinct accounts w'
      | error e =>
          refine Entering.entered rfl ?_ ?_
          · rwa [Listing.claims, List.append_nil]
          · rwa [Listing.claims, List.append_nil]

theorem entering_loadPlugins {plugins : List (Registered W)}
    (hids : (r.registry.map Registered.id).Nodup) (hplugins : plugins ⊆ r.registry)
    (h : r.Holds before) (hdistinct : Distinct before) (w : W) :
    Entering before ((heard plugins r w).flatMap Listing.claims) (loadPlugins plugins r w) := by
  induction plugins generalizing r w before with
  | nil =>
      refine Entering.entered rfl ?_ ?_
      · rwa [heard, List.flatMap_nil, List.append_nil]
      · rwa [heard, List.flatMap_nil, List.append_nil]
  | cons p more ih =>
      obtain ⟨hp, hmore⟩ := List.cons_subset.mp hplugins
      have hregistry := registry_loadPlugin r p w
      rw [heard, List.flatMap_cons, loadPlugins]
      refine (entering_loadPlugin hids hp h hdistinct w).andThen fun hok hholds hd => ?_
      rw [hok]
      exact ih (by rwa [hregistry]) (by rwa [hregistry]) hholds hd _

end Roster

/-- A load of an empty cache asks the plugins from the last of the registry to the
first. It succeeds exactly if no account is listed twice, and then has asked them all
and holds what they list. Otherwise the first account that is listed again is the
conflict, and the cache holds what was listed before it. -/
theorem load_outcome {r : Roster W} (hnumbered : r.Numbered)
    (hempty : r.cache.accounts = Dict.empty) (w : W) :
    let reply := r.load w
    let watched := r.watched.load (w, [])
    let log := watched.world.2
    let claims := log.flatMap Listing.claims
    (watched.answer = reply.answer ∧ watched.roster = reply.roster.watched ∧
      watched.world.1 = reply.world) ∧
    log.map Listing.plugin <+: r.registry.reverse ∧
    (reply.answer = .ok () ↔ (claims.map Claim.account).Nodup) ∧
    (reply.answer = .ok () →
      log.map Listing.plugin = r.registry.reverse ∧ reply.roster.Holds claims) ∧
    ∀ e, reply.answer = .error e → ∃ before first second after,
      claims = before ++ second :: after ∧ (before.map Claim.account).Nodup ∧
      first ∈ before ∧ first.account = second.account ∧
      e = .accountConflict second.account first.claimant.plugin.name
        second.claimant.plugin.name ∧
      reply.roster.Holds before := by
  intro reply watched log claims
  have hwatched : watched = reply.watched (Roster.heard r.registry.reverse r w) :=
    r.load_watched w
  have hlog : log = Roster.heard r.registry.reverse r w := congrArg (·.world.2) hwatched
  have hentering : Entering [] claims reply := by
    change Entering [] (log.flatMap Listing.claims) reply
    rw [hlog]
    exact Roster.entering_loadPlugins hnumbered.nodup (fun _ => List.mem_reverse.mp)
      (Roster.Holds.nil hempty) List.nodup_nil w
  refine ⟨?_, ?_, hentering.answer_eq_ok_iff, fun hok => ⟨?_, ?_⟩, fun e he => ?_⟩
  · rw [hwatched]
    exact ⟨rfl, rfl, rfl⟩
  · rw [hlog]
    exact Roster.heard_prefix _ r w
  · rw [hlog]
    exact Roster.heard_of_ok hok
  · cases hentering with
    | entered hanswer hdistinct hholds => exact hholds
    | conflict first second done rest hclaims hfirst hsame hdistinct hanswer hholds =>
        rw [hok] at hanswer
        cases hanswer
  · cases hentering with
    | entered hanswer hdistinct hholds =>
        rw [hanswer] at he
        cases he
    | conflict first second done rest hclaims hfirst hsame hdistinct hanswer hholds =>
        rw [hanswer] at he
        cases he
        exact ⟨done, first, second, rest, hclaims, hdistinct, hfirst, hsame, rfl, hholds⟩

/-- Two stores have the same account: it stays with the one of lower priority. -/
theorem load_outcome_conflict :
    let r : Roster (World Unit) := (Roster.new {}).registerAll
      [MemoryStore.plugin Unit 0 { name := "high", priority := 200 },
        MemoryStore.plugin Unit 1 { name := "low" }]
    let w := ((World.new Disk.empty ()).putMemory 0 (MemoryStore.create {} "a")).putMemory 1
      (MemoryStore.create {} "a")
    (r.load w).answer = .error (.accountConflict "a" "low" "high") ∧
      ∃ before first, first ∈ before ∧ first.account = "a" ∧
        first.claimant.plugin.name = "low" ∧ (r.load w).roster.Holds before := by
  intro r w
  have hanswer : (r.load w).answer = .error (.accountConflict "a" "low" "high") := by
    decide +kernel
  have hnumbered : r.Numbered := (Roster.numbered_new {}).registerAll _
  have hempty : r.cache.accounts = Dict.empty := by decide +kernel
  obtain ⟨-, -, -, -, herror⟩ := load_outcome hnumbered hempty w
  obtain ⟨before, first, second, -, -, -, hfirst, hsame, he, hholds⟩ := herror _ hanswer
  obtain ⟨haccount, hname, -⟩ := RosterError.accountConflict.inj he
  exact ⟨hanswer, before, first, hfirst, hsame.trans haccount.symm, hname.symm, hholds⟩

end AccountRoster
