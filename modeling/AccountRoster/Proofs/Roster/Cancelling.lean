import AccountRoster.Roster.Identification

/-!
# Calls that are cancelled or do not end

A call that creates an account with its parameters ends if the account is identified, or
cannot be. It does not end if the source of identifiers never answers, unless it is
cancelled; and if it is cancelled by then, it fails.
-/

namespace AccountRoster.Roster

/-- The call is cancelled when identification is complete: before the call, by the
source, or while the source lets the call wait. -/
def CancelledInTime {W : Type} (r : Roster W) (manager protocol : String)
    (parameters : Parameters) (w : W) : Cancellation → Prop
  | .never => False
  | .before => True
  | .inside => ∃ source, r.identifier = some source
  | .waiting => ∃ source, r.identifier = some source ∧
      ∀ answer, (source.identify manager protocol parameters w).1 ≠ .atOnce answer

variable {W : Type} (r : Roster W) (manager protocol : String) (parameters : Parameters)
  (cancellation : Cancellation) (w : W)

theorem await_eq_none_iff (answering : Answering) :
    await cancellation parameters answering = none ↔
      cancellation ≠ .inside ∧ cancellation ≠ .waiting ∧ answering = .never := by
  cases answering <;> cases cancellation <;> simp [await]

/-- Only a source that never answers keeps a call from ending, unless it is cancelled. -/
theorem identify_eq_none_iff :
    (r.identify manager protocol parameters cancellation w).1 = none ↔
      cancellation = .never ∧ ∃ source, r.identifier = some source ∧
        (source.identify manager protocol parameters w).1 = .never := by
  unfold identify
  by_cases hbefore : cancellation = .before
  · simp [hbefore]
  · rw [if_neg hbefore]
    cases r.identifier with
    | none => simp
    | some source =>
        simp only [await_eq_none_iff, Option.some.injEq, exists_eq_left']
        cases cancellation <;> simp_all

/-- A call that is cancelled in time is not identified, or is given up afterwards. -/
theorem error_or_cancelledBy
    (h : r.CancelledInTime manager protocol parameters w cancellation) :
    (∃ e, (r.identify manager protocol parameters cancellation w).1 = some (.error e)) ∨
      r.cancelledBy cancellation = true := by
  cases cancellation with
  | never => exact h.elim
  | before => exact Or.inr rfl
  | inside =>
      obtain ⟨source, hsource⟩ := h
      refine Or.inr ?_
      rw [cancelledBy, hsource]
      rfl
  | waiting =>
      obtain ⟨source, hsource, hwaits⟩ := h
      refine Or.inl ⟨.cancelled, ?_⟩
      rw [identify, hsource]
      dsimp only
      cases hanswer : (source.identify manager protocol parameters w).1 with
      | atOnce answer => exact (hwaits answer hanswer).elim
      | later answer => rfl
      | never => rfl

/-- A call ends if the account is identified, or cannot be. -/
theorem createWithParameters_eq_none_iff (provider : Option String) :
    r.createWithParameters provider manager protocol parameters cancellation w = none ↔
      (r.identify manager protocol parameters cancellation w).1 = none := by
  unfold createWithParameters
  cases r.identify manager protocol parameters cancellation w with
  | mk answer w' =>
      rcases answer with _ | (e | identification)
      · exact ⟨fun _ => rfl, fun _ => rfl⟩
      · exact ⟨nofun, nofun⟩
      · dsimp only
        split
        · exact ⟨nofun, nofun⟩
        · exact ⟨nofun, nofun⟩

variable {r manager protocol parameters cancellation w}

/-- A call that is cancelled in time fails. -/
theorem exists_error_of_cancelled
    (h : r.CancelledInTime manager protocol parameters w cancellation) {provider : Option String}
    {reply : Reply W String}
    (hreply : r.createWithParameters provider manager protocol parameters cancellation w =
      some reply) : ∃ e, reply.answer = .error e := by
  have hcancelled := error_or_cancelledBy r manager protocol parameters cancellation w h
  unfold createWithParameters at hreply
  cases hanswer : r.identify manager protocol parameters cancellation w with
  | mk answer w' =>
      rw [hanswer] at hreply hcancelled
      rcases answer with _ | (e | identification)
      · cases hreply
      · cases hreply
        exact ⟨e, rfl⟩
      · rcases hcancelled with ⟨e, he⟩ | hcancelled
        · cases he
        · dsimp only at hreply
          rw [if_pos hcancelled] at hreply
          cases hreply
          exact ⟨.cancelled, rfl⟩

end AccountRoster.Roster
