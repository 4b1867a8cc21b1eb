import AccountRoster.Text.Blank
import Mathlib.Data.List.TakeWhile

/-!
# What trimming leaves

Trimming splits a text into blanks and what is left, and what is left neither starts
nor ends with a blank on the side that was trimmed. There is only one such split.
-/

namespace AccountRoster.Text

/-- Whether a text is nothing but blanks. -/
def AllBlank (cs : List Char) : Prop := ∀ c ∈ cs, isBlank c = true

/-- Whether no blank stands at the front of a text. -/
def NoBlankFirst (cs : List Char) : Prop := ∀ c, cs.head? = some c → isBlank c = false

/-- Whether no blank stands at the back of a text. -/
def NoBlankLast (cs : List Char) : Prop := ∀ c, cs.getLast? = some c → isBlank c = false

theorem allBlank_nil : AllBlank [] := by
  intro c hc
  cases hc

theorem AllBlank.reverse {cs : List Char} (h : AllBlank cs) : AllBlank cs.reverse := by
  intro c hc
  exact h c (List.mem_reverse.mp hc)

theorem noBlankLast_iff {cs : List Char} : NoBlankLast cs ↔ NoBlankFirst cs.reverse := by
  simp [NoBlankLast, NoBlankFirst]

theorem noBlankFirst_cons {c : Char} {cs : List Char} :
    NoBlankFirst (c :: cs) ↔ isBlank c = false := by
  simp [NoBlankFirst]

/-- What stands behind a text makes no difference to its front. -/
theorem noBlankFirst_append {front : List Char} (hne : front ≠ []) (back : List Char) :
    NoBlankFirst (front ++ back) ↔ NoBlankFirst front := by
  cases front with
  | nil => exact absurd rfl hne
  | cons c front => rw [List.cons_append, noBlankFirst_cons, noBlankFirst_cons]

theorem trimStart_eq_nil_iff {cs : List Char} : trimStart cs = [] ↔ AllBlank cs :=
  List.dropWhile_eq_nil_iff

/-- Trimming the front takes blanks away, and leaves none at the front. -/
theorem trimStart_eq_iff {cs rest : List Char} :
    trimStart cs = rest ↔ (∃ front, AllBlank front ∧ cs = front ++ rest) ∧ NoBlankFirst rest := by
  constructor
  · rintro rfl
    refine ⟨⟨cs.takeWhile isBlank, ?_, List.takeWhile_append_dropWhile.symm⟩, ?_⟩
    · intro c hc
      exact List.mem_takeWhile_imp hc
    · intro c hc
      have hfirst := List.head?_dropWhile_not isBlank cs
      rw [← trimStart, hc] at hfirst
      simpa using hfirst
  · rintro ⟨⟨front, hfront, rfl⟩, hrest⟩
    rw [trimStart, List.dropWhile_append_of_pos hfront]
    cases rest with
    | nil => rfl
    | cons c rest => exact trimStart_cons_of_not_blank (noBlankFirst_cons.mp hrest)

/-- The blanks in front of a character that is none are trimmed. -/
theorem trimStart_append_cons {front : List Char} (hfront : AllBlank front) {c : Char}
    (hc : isBlank c = false) (rest : List Char) :
    trimStart (front ++ c :: rest) = c :: rest :=
  trimStart_eq_iff.mpr ⟨⟨front, hfront, rfl⟩, noBlankFirst_cons.mpr hc⟩

/-- Trimming the back takes blanks away, and leaves none at the back. -/
theorem trimEnd_eq_iff {cs rest : List Char} :
    trimEnd cs = rest ↔ (∃ back, AllBlank back ∧ cs = rest ++ back) ∧ NoBlankLast rest := by
  have hmirror : trimEnd cs = rest ↔ trimStart cs.reverse = rest.reverse := by
    rw [trimEnd, ← trimStart]
    constructor
    · rintro rfl
      rw [List.reverse_reverse]
    · intro h
      rw [h, List.reverse_reverse]
  rw [hmirror, trimStart_eq_iff, noBlankLast_iff]
  refine and_congr_left fun _ => ?_
  constructor
  · rintro ⟨front, hfront, hcs⟩
    refine ⟨front.reverse, hfront.reverse, ?_⟩
    rw [← List.reverse_reverse cs, hcs, List.reverse_append, List.reverse_reverse]
  · rintro ⟨back, hback, rfl⟩
    exact ⟨back.reverse, hback.reverse, List.reverse_append⟩

/-- Trimming takes the blanks around a text away. -/
theorem trim_eq_iff {cs rest : List Char} (hne : rest ≠ []) :
    trim cs = rest ↔
      (∃ front back, AllBlank front ∧ AllBlank back ∧ cs = front ++ (rest ++ back)) ∧
        NoBlankFirst rest ∧ NoBlankLast rest := by
  rw [trim, trimEnd_eq_iff]
  simp only [trimStart_eq_iff, noBlankFirst_append hne]
  constructor
  · rintro ⟨⟨back, hback, ⟨front, hfront, hcs⟩, hfirst⟩, hlast⟩
    exact ⟨⟨front, back, hfront, hback, hcs⟩, hfirst, hlast⟩
  · rintro ⟨⟨front, back, hfront, hback, hcs⟩, hfirst, hlast⟩
    exact ⟨⟨back, hback, ⟨front, hfront, hcs⟩, hfirst⟩, hlast⟩

theorem length_trimStart_le (cs : List Char) : (trimStart cs).length ≤ cs.length :=
  (List.dropWhile_sublist isBlank).length_le

/-! ### Texts without blanks around them -/

theorem trimStart_eq_self_iff {cs : List Char} : trimStart cs = cs ↔ NoBlankFirst cs := by
  rw [trimStart_eq_iff]
  exact and_iff_right ⟨[], allBlank_nil, rfl⟩

theorem trim_eq_self_iff {cs : List Char} : trim cs = cs ↔ NoBlankFirst cs ∧ NoBlankLast cs := by
  cases cs with
  | nil => exact iff_of_true rfl ⟨nofun, nofun⟩
  | cons c rest =>
      rw [trim_eq_iff (List.cons_ne_nil c rest)]
      refine and_iff_right ⟨[], [], allBlank_nil, allBlank_nil, ?_⟩
      rw [List.nil_append, List.append_nil]

theorem noBlank_of_forall {cs : List Char} (h : ∀ c ∈ cs, isBlank c = false) :
    NoBlankFirst cs ∧ NoBlankLast cs := by
  constructor
  · intro c hc
    exact h c (List.mem_of_mem_head? hc)
  · intro c hc
    exact h c (List.mem_of_mem_getLast? hc)

/-- A text without blanks has nothing to trim. -/
theorem trim_eq_self {cs : List Char} (h : ∀ c ∈ cs, isBlank c = false) : trim cs = cs :=
  trim_eq_self_iff.mpr (noBlank_of_forall h)

end AccountRoster.Text
