import AccountRoster.Proofs.Keyfile.Written

/-!
# What is reported on an edit

An edit is refused, or had nothing to do, or is carried out, and it is reported as a change
exactly in the last case. A key-file for which a change is reported is another one, and its
text is another one; after any other report it is the same, without so much as a new group.

## Implementation notes

`Answered` is all that can come of an edit. `Edit.DoneIn` says what an edit asks for: it
did not hold before an edit that is carried out and holds after it, so that the file cannot
be the same. Nothing else is needed to tell that a reported change is one.
-/

namespace AccountRoster.Keyfile

/-- What is reported on an edit: why it was refused, or whether it changed anything. -/
def report (f : Keyfile) : Edit → Except CodecFault Bool
  | .setValue group key escaped => (f.setValue group key escaped).1
  | .setTyped group key value => (f.setTyped group key value).1
  | .addGroup group => (f.addGroup group).1
  | .removeKey group key => .ok (f.removeKey group key).1
  | .removeGroup group => .ok (f.removeGroup group).1

/-- What an edit asks for holds in a file. -/
def Edit.DoneIn (f : Keyfile) : Edit → Prop
  | .setValue group key escaped => f.value? group key = some escaped
  | .setTyped group key value => f.value? group key = value.map f.codec.escape
  | .addGroup group => f.hasGroup group = true
  | .removeKey group key => f.value? group key = none
  | .removeGroup group => f.hasGroup group = false

/-- What comes of an edit: it is refused, or it has been done already, or it is done now. -/
inductive Answered (f : Keyfile) (e : Edit) : Prop
  | refused {fault : CodecFault} (hreport : f.report e = .error fault) (hsame : f.edit e = f)
  | idle (hdone : e.DoneIn f) (hreport : f.report e = .ok false) (hsame : f.edit e = f)
  | carriedOut (hbefore : ¬e.DoneIn f) (hreport : f.report e = .ok true)
      (hafter : e.DoneIn (f.edit e))

/-! ### The answer to each edit -/

theorem answered_setValue (f : Keyfile) (group key escaped : String) :
    f.Answered (.setValue group key escaped) := by
  by_cases hgroup : isGroupName group = false
  · have hset : f.setValue group key escaped = (.error (.invalidName group), f) := if_pos hgroup
    exact .refused (congrArg Prod.fst hset) (congrArg Prod.snd hset)
  by_cases htext : isKeyName key = false ∨ isOneLine escaped = false
  · have hset : f.setValue group key escaped = (.error (.invalidName key), f) := by
      rw [setValue, if_neg hgroup, if_pos htext]
    exact .refused (congrArg Prod.fst hset) (congrArg Prod.snd hset)
  by_cases hvalue : f.value? group key = some escaped
  · have hset : f.setValue group key escaped = (.ok false, f) := by
      rw [setValue, if_neg hgroup, if_neg htext, if_pos hvalue]
    exact .idle hvalue (congrArg Prod.fst hset) (congrArg Prod.snd hset)
  · have hset : f.setValue group key escaped = (.ok true, f.enter group key escaped) := by
      rw [setValue, if_neg hgroup, if_neg htext, if_neg hvalue]
    refine .carriedOut hvalue (congrArg Prod.fst hset) ?_
    rw [edit, hset, Edit.DoneIn, value?_enter, if_pos ⟨rfl, rfl⟩]

theorem answered_addGroup (f : Keyfile) (group : String) : f.Answered (.addGroup group) := by
  by_cases hgroup : isGroupName group = false
  · have hadd : f.addGroup group = (.error (.invalidName group), f) := if_pos hgroup
    exact .refused (congrArg Prod.fst hadd) (congrArg Prod.snd hadd)
  by_cases hold : f.hasGroup group = true
  · have hadd : f.addGroup group = (.ok false, f) := by
      rw [addGroup, if_neg hgroup, if_pos hold]
    exact .idle hold (congrArg Prod.fst hadd) (congrArg Prod.snd hadd)
  · have hadd : f.addGroup group = (.ok true, f.openGroup group) := by
      rw [addGroup, if_neg hgroup, if_neg hold]
    refine .carriedOut hold (congrArg Prod.fst hadd) ?_
    rw [edit, hadd, Edit.DoneIn, hasGroup, openGroup, Dict.contains_eq, Dict.get?_insert_self]
    rfl

theorem answered_removeKey (f : Keyfile) (group key : String) :
    f.Answered (.removeKey group key) := by
  cases hvalue : f.value? group key with
  | none =>
      have hremove : f.removeKey group key = (false, f) := by rw [removeKey, hvalue]
      have hreport : f.report (.removeKey group key) = .ok false := by rw [report, hremove]
      exact .idle hvalue hreport (congrArg Prod.snd hremove)
  | some value =>
      have hreport : f.report (.removeKey group key) = .ok true := by
        rw [report, removeKey, hvalue]
      refine .carriedOut ?_ hreport ?_
      · rw [Edit.DoneIn, hvalue]
        exact Option.some_ne_none value
      · rw [edit, Edit.DoneIn, value?_removeKey, if_pos ⟨rfl, rfl⟩]

theorem answered_removeGroup (f : Keyfile) (group : String) :
    f.Answered (.removeGroup group) := by
  by_cases hold : f.hasGroup group = true
  · have hreport : f.report (.removeGroup group) = .ok true := by
      rw [report, removeGroup, if_pos hold]
    refine .carriedOut ?_ hreport ?_
    · rw [Edit.DoneIn, hold]
      exact Bool.noConfusion
    · rw [edit, Edit.DoneIn, hasGroup, Dict.contains_eq, groups_removeGroup, if_pos rfl]
      rfl
  · have hremove : f.removeGroup group = (false, f) := if_neg hold
    have hreport : f.report (.removeGroup group) = .ok false := by rw [report, hremove]
    exact .idle (Bool.eq_false_iff.mpr hold) hreport (congrArg Prod.snd hremove)

/-- A value is set as its text is, and no value as a key is removed. -/
theorem answered_setTyped (f : Keyfile) (group key : String) (value : Option Value) :
    f.Answered (.setTyped group key value) := by
  cases value with
  | some v =>
      cases f.answered_setValue group key (f.codec.escape v) with
      | refused hreport hsame => exact .refused hreport hsame
      | idle hdone hreport hsame => exact .idle hdone hreport hsame
      | carriedOut hbefore hreport hafter =>
          -- what was asked for is the text in the codec of the file after the edit
          have hcodec : (f.edit (.setTyped group key (some v))).codec = f.codec :=
            congrArg Codec.mk (f.separator_edit (.setTyped group key (some v)))
          refine .carriedOut hbefore hreport ?_
          rw [Edit.DoneIn, hcodec]
          exact hafter
  | none =>
      cases f.answered_removeKey group key with
      | refused hreport hsame => exact .refused hreport hsame
      | idle hdone hreport hsame => exact .idle hdone hreport hsame
      | carriedOut hbefore hreport hafter => exact .carriedOut hbefore hreport hafter

theorem answered (f : Keyfile) (e : Edit) : f.Answered e := by
  cases e with
  | setValue group key escaped => exact f.answered_setValue group key escaped
  | setTyped group key value => exact f.answered_setTyped group key value
  | addGroup group => exact f.answered_addGroup group
  | removeKey group key => exact f.answered_removeKey group key
  | removeGroup group => exact f.answered_removeGroup group

/-! ### Reports and changes -/

/-- An edit leaves the file as it is unless it is reported as a change. -/
theorem edit_eq_self_iff (f : Keyfile) (e : Edit) : f.edit e = f ↔ f.report e ≠ .ok true := by
  cases f.answered e with
  | refused hreport hsame =>
      rw [hreport]
      exact iff_of_true hsame nofun
  | idle hdone hreport hsame =>
      rw [hreport]
      exact iff_of_true hsame nofun
  | carriedOut hbefore hreport hafter =>
      refine iff_of_false (fun heq => hbefore ?_) (not_not_intro hreport)
      rwa [heq] at hafter

variable {f : Keyfile} {e : Edit}

theorem edit_of_refused {fault : CodecFault} (h : f.report e = .error fault) : f.edit e = f := by
  rw [edit_eq_self_iff, h]
  nofun

/-- An edit that is not refused brings about what it asks for. -/
theorem done_of_report {change : Bool} (h : f.report e = .ok change) : e.DoneIn (f.edit e) := by
  cases f.answered e with
  | refused hreport hsame =>
      rw [hreport] at h
      cases h
  | idle hdone hreport hsame =>
      rw [hsame]
      exact hdone
  | carriedOut hbefore hreport hafter => exact hafter

/-- The text of a file with valid names and values changes exactly if the file does. -/
theorem WellFormed.toData_edit_eq_iff (h : f.WellFormed) (e : Edit) :
    (f.edit e).toData = f.toData ↔ f.edit e = f := by
  rw [toData_eq_iff (h.edit e) h]
  constructor
  · intro hgroups
    have hseparator := f.separator_edit e
    cases hf : f.edit e with
    | mk separator groups =>
        rw [hf] at hgroups hseparator
        cases hgroups
        cases hseparator
        rfl
  · exact congrArg Keyfile.groups

/-- Whatever was asked of a key-file before: an edit makes another file of it exactly if it
is reported as a change, and exactly then it is written differently. A refused edit changes
nothing, and after any other one what it asked for holds. -/
theorem Reachable.report_exact (h : f.Reachable) (e : Edit) :
    (f.edit e ≠ f ↔ f.report e = .ok true) ∧
      ((f.edit e).toData ≠ f.toData ↔ f.report e = .ok true) ∧
      (∀ fault, f.report e = .error fault → f.edit e = f) ∧
      ∀ change, f.report e = .ok change → e.DoneIn (f.edit e) := by
  have hchanged : f.edit e ≠ f ↔ f.report e = .ok true := by
    rw [Ne, edit_eq_self_iff, not_not]
  refine ⟨hchanged, ?_, fun fault => edit_of_refused, fun change => done_of_report⟩
  rw [Ne, h.wellFormed.toData_edit_eq_iff]
  exact hchanged

/-- A blank that a reader would drop is removed, which is a change of the file and its text,
and a group is not opened for a key without a valid name. -/
theorem Reachable.report_exact_blank :
    let f := (new ',').edit (.setValue "g" "k" " v")
    f.Reachable ∧ f.report (.setValue "g" "k" "v") = .ok true ∧
      f.edit (.setValue "g" "k" "v") ≠ f ∧
      (f.edit (.setValue "g" "k" "v")).toData ≠ f.toData ∧
      f.report (.setValue "h" "=" "x") = .error (.invalidName "=") ∧
      f.edit (.setValue "h" "=" "x") = f := by
  intro f
  have hf : f.Reachable := .edited (.fresh ',') _
  have hreport : f.report (.setValue "g" "k" "v") = .ok true := by decide +kernel
  have hrefused : f.report (.setValue "h" "=" "x") = .error (.invalidName "=") := by
    decide +kernel
  obtain ⟨hchanged, hwritten, -, -⟩ := Reachable.report_exact hf (.setValue "g" "k" "v")
  obtain ⟨-, -, hsame, -⟩ := Reachable.report_exact hf (.setValue "h" "=" "x")
  exact ⟨hf, hreport, hchanged.mpr hreport, hwritten.mpr hreport, hrefused, hsame _ hrefused⟩

end AccountRoster.Keyfile
