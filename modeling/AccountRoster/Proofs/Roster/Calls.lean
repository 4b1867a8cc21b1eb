import AccountRoster.Roster.Identification

/-!
# Calls on a roster

Once the accounts are loaded, a client makes calls one after the other. What
every single operation keeps true is true after any number of calls, among them
those that create an account with its parameters in one step.

## Implementation notes

A call whose source of identifiers never answers has no result. It is taken to be
given up at last: it has asked the source, and has done nothing else.
-/

namespace AccountRoster

/-- A call that a client can make. -/
inductive Call where
  | create (provider : Option String) (manager protocol identification : String)
  | createWithParameters (provider : Option String) (manager protocol : String)
      (parameters : Parameters) (cancellation : Cancellation)
  | setAttribute (account name : String) (value : Option Value)
  | setParameter (account name : String) (value : Option Value)
  | makeSecret (account name : String)
  | delete (account : String)
  | commit (account : Option String)

/-- Whether a call neither asks a source of identifiers nor commits. -/
def Call.isEdit : Call → Bool
  | .createWithParameters _ _ _ _ _ | .commit _ => false
  | _ => true

/-- A roster and the world that it acts on. -/
structure Running (W : Type) where
  roster : Roster W
  world : W

variable {W α β : Type}

namespace Reply

/-- The state after a reply. -/
def running (reply : Reply W α) : Running W := ⟨reply.roster, reply.world⟩

theorem andThen_keeps {P : Running W → Prop} {reply : Reply W α}
    {next : α → Roster W → W → Reply W β} (h : P reply.running)
    (hnext : ∀ a r w, P ⟨r, w⟩ → P (next a r w).running) : P (reply.andThen next).running := by
  unfold andThen
  split
  · exact hnext _ _ _ h
  · exact h

end Reply

/-! ### Operations that ask one plugin after the other -/

namespace Roster

variable {P : Running W → Prop} {r : Roster W} {w : W}

/-- An account that is there already changes nothing; another is entered with what its
plugin pushes. -/
theorem addAccount_cases (r : Roster W) (p : Registered W) (account : String) (w : W) :
    (r.cache.record? account ≠ none ∧ (r.addAccount p account w).running = ⟨r, w⟩) ∨
      (r.cache.record? account = none ∧
        (r.addAccount p account w).running =
          (({ r with cache := r.cache.insert account (Record.new p.id) } : Roster W).fetch
            p.plugin account none w).running) := by
  unfold addAccount
  cases r.cache.record? account with
  | some record => exact Or.inl ⟨nofun, rfl⟩
  | none => exact Or.inr ⟨rfl, rfl⟩

theorem addAccounts_keeps {p : Registered W} {accounts : List String} (h : P ⟨r, w⟩)
    (hadd : ∀ account ∈ accounts, ∀ s : Running W, P s →
      P (s.roster.addAccount p account s.world).running) :
    P (addAccounts p accounts r w).running := by
  induction accounts generalizing r w with
  | nil => exact h
  | cons account more ih =>
      obtain ⟨hfirst, hmore⟩ := List.forall_mem_cons.mp hadd
      exact Reply.andThen_keeps (hfirst ⟨r, w⟩ h) fun _ _ _ hs => ih hs hmore

theorem loadPlugin_of_list {p : Registered W} {accounts : List String} {w' : W}
    (h : p.plugin.list r.cache w = (.ok accounts, w')) :
    r.loadPlugin p w = addAccounts p accounts r w' := by
  rw [loadPlugin, h]

theorem loadPlugin_of_list_error {p : Registered W} {e : RosterError} {w' : W}
    (h : p.plugin.list r.cache w = (.error e, w')) : r.loadPlugin p w = ⟨.ok (), r, w'⟩ := by
  rw [loadPlugin, h]

/-- What is so when a plugin has given its answer, and is kept by entering accounts. -/
theorem loadPlugin_keeps {p : Registered W} (h : P ⟨r, (p.plugin.list r.cache w).2⟩)
    (hadd : ∀ accounts, (p.plugin.list r.cache w).1 = .ok accounts → ∀ account ∈ accounts,
      ∀ s : Running W, P s → P (s.roster.addAccount p account s.world).running) :
    P (r.loadPlugin p w).running := by
  unfold loadPlugin
  split
  next accounts w' hanswer =>
    rw [hanswer] at h hadd
    exact addAccounts_keeps h (hadd accounts rfl)
  next w' hanswer =>
    rw [hanswer] at h
    exact h

/-- What is not made false by asking plugins for their accounts and entering those. -/
structure KeptByLoading (P : Running W → Prop) (plugins : List (Registered W)) : Prop where
  list {s : Running W} (hs : P s) {p : Registered W} (hp : p ∈ plugins) :
    P ⟨s.roster, (p.plugin.list s.roster.cache s.world).2⟩
  add {s t : Running W} (hs : P s) (ht : P t) {p : Registered W} (hp : p ∈ plugins)
    {accounts : List String} (hlist : (p.plugin.list s.roster.cache s.world).1 = .ok accounts)
    {account : String} (haccount : account ∈ accounts) :
    P (t.roster.addAccount p account t.world).running

namespace KeptByLoading

variable {plugins : List (Registered W)}

theorem of_subset (hP : KeptByLoading P plugins) {some : List (Registered W)}
    (h : some ⊆ plugins) : KeptByLoading P some where
  list hs _ hp := hP.list hs (h hp)
  add hs ht _ hp _ hlist _ haccount := hP.add hs ht (h hp) hlist haccount

theorem loadPlugin (hP : KeptByLoading P plugins) (h : P ⟨r, w⟩) {p : Registered W}
    (hp : p ∈ plugins) : P (r.loadPlugin p w).running :=
  loadPlugin_keeps (hP.list h hp) fun _ hlist _ haccount _ ht => hP.add h ht hp hlist haccount

theorem loadPlugins (hP : KeptByLoading P plugins) (h : P ⟨r, w⟩) :
    P (Roster.loadPlugins plugins r w).running := by
  induction plugins generalizing r w with
  | nil => exact h
  | cons p more ih =>
      have hmore := hP.of_subset (List.subset_cons_self p more)
      exact Reply.andThen_keeps (hP.loadPlugin h List.mem_cons_self) fun _ _ _ hs => ih hmore hs

/-- A load keeps what its plugins keep. -/
theorem load (hP : KeptByLoading P r.registry) (h : P ⟨r, w⟩) : P (r.load w).running :=
  (hP.of_subset fun _ => List.mem_reverse.mp).loadPlugins h

end KeptByLoading

theorem addCreated_keeps {p : Registered W} {account : String}
    (h : P (r.addAccount p account w).running) : P (r.addCreated p account w).running :=
  Reply.andThen_keeps h fun _ _ _ hs => hs

/-- What is kept when plugins are asked in order to create an account, and what one of
them creates is entered. -/
theorem createFirst_keeps {manager protocol identification : String}
    {plugins : List (Registered W)} (h : P ⟨r, w⟩)
    (hask : ∀ p ∈ plugins, ∀ w, P ⟨r, w⟩ →
      (∀ account, (p.plugin.create r.cache manager protocol identification w).1 ≠
        .ok (some account)) →
      P ⟨r, (p.plugin.create r.cache manager protocol identification w).2⟩)
    (hnew : ∀ p ∈ plugins, ∀ w, P ⟨r, w⟩ → ∀ account,
      (p.plugin.create r.cache manager protocol identification w).1 = .ok (some account) →
      P (r.addAccount p account
        (p.plugin.create r.cache manager protocol identification w).2).running) :
    P (r.createFirst manager protocol identification plugins w).running := by
  induction plugins generalizing w with
  | nil => exact h
  | cons p more ih =>
      obtain ⟨hasked, haskMore⟩ := List.forall_mem_cons.mp hask
      obtain ⟨hcreated, hnewMore⟩ := List.forall_mem_cons.mp hnew
      have hasked := hasked w h
      have hcreated := hcreated w h
      unfold createFirst
      split
      next account w' hanswer =>
        rw [hanswer] at hcreated
        exact addCreated_keeps (hcreated account rfl)
      next answer w' hnone hanswer =>
        rw [hanswer] at hasked
        exact ih (hasked hnone) haskMore hnewMore

/-- What the creation of an account keeps: plugins are asked to create it, and what one
of them creates is entered. -/
theorem create_keeps (h : P ⟨r, w⟩) (provider : Option String)
    (manager protocol identification : String)
    (hask : ∀ p ∈ r.registry, ∀ w, P ⟨r, w⟩ →
      (∀ account, (p.plugin.create r.cache manager protocol identification w).1 ≠
        .ok (some account)) →
      P ⟨r, (p.plugin.create r.cache manager protocol identification w).2⟩)
    (hnew : ∀ p ∈ r.registry, ∀ w, P ⟨r, w⟩ → ∀ account,
      (p.plugin.create r.cache manager protocol identification w).1 = .ok (some account) →
      P (r.addAccount p account
        (p.plugin.create r.cache manager protocol identification w).2).running) :
    P (r.create provider manager protocol identification w).running := by
  unfold create
  split
  · exact h
  split
  · unfold createWith
    split
    · exact h
    next p hfind =>
      have hp := List.mem_of_find?_eq_some hfind
      have hasked := hask p hp w h
      have hcreated := hnew p hp w h
      split
      next account w' hanswer =>
        rw [hanswer] at hcreated
        exact addCreated_keeps (hcreated account rfl)
      next w' hanswer =>
        rw [hanswer] at hasked
        exact hasked nofun
      next e w' hanswer =>
        rw [hanswer] at hasked
        exact hasked nofun
  · exact createFirst_keeps h hask hnew

/-- Identification does to the world what the source does to it, or nothing. -/
theorem identify_keeps (h : P ⟨r, w⟩) {manager protocol : String} {parameters : Parameters}
    {cancellation : Cancellation}
    (hsource : ∀ source, r.identifier = some source →
      P ⟨r, (source.identify manager protocol parameters w).2⟩) :
    P ⟨r, (r.identify manager protocol parameters cancellation w).2⟩ := by
  unfold identify
  split
  · exact h
  split
  · exact h
  next source hidentifier => exact hsource source hidentifier

end Roster

namespace Running

/-- Make a call. -/
def perform (s : Running W) : Call → Running W
  | .create provider manager protocol identification =>
      (s.roster.create provider manager protocol identification s.world).running
  | .createWithParameters provider manager protocol parameters cancellation =>
      match s.roster.createWithParameters provider manager protocol parameters cancellation
          s.world with
      | some reply => reply.running
      | none => ⟨s.roster, (s.roster.identify manager protocol parameters cancellation s.world).2⟩
  | .setAttribute account name value => (s.roster.setAttribute account name value s.world).running
  | .setParameter account name value => (s.roster.setParameter account name value s.world).running
  | .makeSecret account name => ⟨s.roster.makeSecret account name, s.world⟩
  | .delete account => (s.roster.delete account s.world).running
  | .commit account => ⟨s.roster, s.roster.commit account s.world⟩

/-- Make calls in order. -/
def run (s : Running W) (calls : List Call) : Running W := calls.foldl perform s

/-- What none of the calls makes false stays true through all of them. -/
theorem run_keeps {P : Running W → Prop} {calls : List Call}
    (hstep : ∀ call ∈ calls, ∀ s, P s → P (s.perform call)) {s : Running W} (h : P s) :
    P (s.run calls) := by
  induction calls generalizing s with
  | nil => exact h
  | cons call more ih =>
      have hmore : ∀ c ∈ more, ∀ s, P s → P (s.perform c) :=
        fun c hc => hstep c (List.mem_cons_of_mem call hc)
      exact ih hmore (hstep call List.mem_cons_self s h)

end Running

/-- What is not made false by operations that create an account or write to one. -/
structure KeptByWrites (P : Running W → Prop) : Prop where
  create {s : Running W} (h : P s) (provider : Option String)
    (manager protocol identification : String) :
    P (s.roster.create provider manager protocol identification s.world).running
  setAttribute {s : Running W} (h : P s) (account name : String) (value : Option Value) :
    P (s.roster.setAttribute account name value s.world).running
  setParameter {s : Running W} (h : P s) (account name : String) (value : Option Value) :
    P (s.roster.setParameter account name value s.world).running
  identify {s : Running W} (h : P s) (manager protocol : String) (parameters : Parameters)
    (cancellation : Cancellation) :
    P ⟨s.roster, (s.roster.identify manager protocol parameters cancellation s.world).2⟩

/-- What no single operation makes false. -/
structure Kept (P : Running W → Prop) : Prop extends KeptByWrites P where
  makeSecret {s : Running W} (h : P s) (account name : String) :
    P ⟨s.roster.makeSecret account name, s.world⟩
  delete {s : Running W} (h : P s) (account : String) :
    P (s.roster.delete account s.world).running
  commit {s : Running W} (h : P s) (account : Option String) :
    P ⟨s.roster, s.roster.commit account s.world⟩

namespace KeptByWrites

variable {P : Running W → Prop}

theorem setParameters (hP : KeptByWrites P) (account : String) (parameters : List (String × Value))
    {s : Running W} (h : P s) :
    P (Roster.setParameters account parameters s.roster s.world).running := by
  induction parameters generalizing s with
  | nil => exact h
  | cons parameter more ih =>
      exact Reply.andThen_keeps (hP.setParameter h account parameter.1 (some parameter.2))
        fun _ _ _ hs => ih hs

theorem populate (hP : KeptByWrites P) {s : Running W} (h : P s) (account manager protocol : String)
    (parameters : Parameters) :
    P (s.roster.populate account manager protocol parameters s.world).running := by
  refine Reply.andThen_keeps (hP.setAttribute h account Schema.manager _) fun _ r w hs => ?_
  refine Reply.andThen_keeps (hP.setAttribute hs account Schema.protocol _) fun _ r w hs => ?_
  refine Reply.andThen_keeps (hP.setParameters account parameters.entries hs) fun _ r w hs => ?_
  exact hs

/-- An account is created in one step by operations that keep what is kept. -/
theorem createWithParameters (hP : KeptByWrites P) {s : Running W} (h : P s)
    (provider : Option String) (manager protocol : String) (parameters : Parameters)
    (cancellation : Cancellation) :
    P (s.perform (.createWithParameters provider manager protocol parameters cancellation)) := by
  have hidentify := hP.identify h manager protocol parameters cancellation
  rw [Running.perform, Roster.createWithParameters]
  cases hanswer : s.roster.identify manager protocol parameters cancellation s.world with
  | mk answer w =>
      rw [hanswer] at hidentify
      cases answer with
      | none => exact hidentify
      | some result =>
          cases result with
          | error e => exact hidentify
          | ok identification =>
              by_cases hcancelled : s.roster.cancelledBy cancellation = true
              · simp only [if_pos hcancelled]
                exact hidentify
              · simp only [if_neg hcancelled]
                refine Reply.andThen_keeps
                  (hP.create hidentify provider manager protocol identification) ?_
                intro account r w hs
                exact hP.populate hs account manager protocol parameters

end KeptByWrites

namespace Kept

variable {P : Running W → Prop}

theorem perform (hP : Kept P) {s : Running W} (h : P s) (call : Call) : P (s.perform call) := by
  cases call with
  | create provider manager protocol identification =>
      exact hP.create h provider manager protocol identification
  | createWithParameters provider manager protocol parameters cancellation =>
      exact hP.createWithParameters h provider manager protocol parameters cancellation
  | setAttribute account name value => exact hP.setAttribute h account name value
  | setParameter account name value => exact hP.setParameter h account name value
  | makeSecret account name => exact hP.makeSecret h account name
  | delete account => exact hP.delete h account
  | commit account => exact hP.commit h account

/-- What no operation makes false stays true through any calls. -/
theorem run (hP : Kept P) {s : Running W} (h : P s) (calls : List Call) : P (s.run calls) :=
  Running.run_keeps (P := P) (fun call _ _ hs => hP.perform hs call) h

end Kept

end AccountRoster
