import AccountRoster.Keyfile.Line
import AccountRoster.Text.Lines

/-!
# Lines and names

A line that is ended by a line feed is cut off there, less one carriage return
at its end. The names of groups and keys have no control characters, and so no line
feeds either.
-/

namespace AccountRoster

namespace Text

/-- Drop one carriage return at the end. -/
def dropReturn (cs : List Char) : List Char :=
  if cs.getLast? = some '\r' then cs.dropLast else cs

theorem dropReturn_cons {c : Char} {rest : List Char} (h : rest ≠ []) :
    dropReturn (c :: rest) = c :: dropReturn rest := by
  unfold dropReturn
  rw [List.getLast?_cons_of_ne_nil h, List.dropLast_cons_of_ne_nil h]
  split <;> rfl

theorem dropReturn_cons_of_ne {c : Char} (h : c ≠ '\r') (rest : List Char) :
    dropReturn (c :: rest) = c :: dropReturn rest := by
  cases rest with
  | nil => exact if_neg (by simpa using h)
  | cons d rest => exact dropReturn_cons (List.cons_ne_nil d rest)

theorem dropReturn_append (front : List Char) {back : List Char} (h : back ≠ []) :
    dropReturn (front ++ back) = front ++ dropReturn back := by
  induction front with
  | nil => rfl
  | cons c front ih =>
      rw [List.cons_append, dropReturn_cons (List.append_ne_nil_of_right_ne_nil _ h), ih]
      rfl

theorem dropReturn_concat (cs : List Char) {c : Char} (h : c ≠ '\r') :
    dropReturn (cs ++ [c]) = cs ++ [c] := by
  have hlast : (cs ++ [c]).getLast? ≠ some '\r' := by simpa using h
  exact if_neg hlast

theorem length_dropReturn_lt {cs : List Char} (h : cs.getLast? = some '\r') :
    (dropReturn cs).length < cs.length := by
  have hne : cs ≠ [] := by
    rintro rfl
    cases h
  rw [dropReturn, if_pos h, List.length_dropLast]
  have hpos := List.length_pos_iff.mpr hne
  omega

/-- A character that ends no line belongs to the line that follows it. -/
theorem lines_cons {c : Char} {rest line : List Char} {more : List (List Char)}
    (hc : c ≠ '\n') (hr : c = '\r' → rest.head? ≠ some '\n') (h : lines rest = line :: more) :
    lines (c :: rest) = (c :: line) :: more := by
  unfold lines
  split
  next heq => cases heq
  next heq => cases heq; exact absurd rfl hc
  next heq => cases heq; exact absurd rfl (hr rfl)
  next heq => cases heq; rw [h]

/-- A line ends at its line feed, and a carriage return before that goes with it. -/
theorem lines_append_lf {line : List Char} (h : '\n' ∉ line) (rest : List Char) :
    lines (line ++ '\n' :: rest) = dropReturn line :: lines rest := by
  induction line with
  | nil => exact lines_lf rest
  | cons c line ih =>
      have hc : c ≠ '\n' := fun e => h (e ▸ List.mem_cons_self)
      have hline : '\n' ∉ line := fun hm => h (List.mem_cons_of_mem c hm)
      cases line with
      | nil =>
          by_cases hcr : c = '\r'
          · subst hcr
            exact lines_crlf rest
          · rw [show dropReturn [c] = [c] from dropReturn_concat [] hcr]
            exact lines_cons hc (fun e => absurd e hcr) (lines_lf rest)
      | cons d line =>
          have hd : d ≠ '\n' := fun e => hline (e ▸ List.mem_cons_self)
          rw [dropReturn_cons (List.cons_ne_nil d line), List.cons_append]
          exact lines_cons hc (fun _ e => hd (Option.some.inj e)) (ih hline)

end Text

namespace Keyfile

/-- What a valid group name is made of. -/
theorem isGroupName_iff {name : String} :
    isGroupName name = true ↔
      name ≠ "" ∧ ∀ c ∈ name.toList, c ≠ '[' ∧ c ≠ ']' ∧ Text.isControl c = false := by
  simp [isGroupName, and_assoc]

/-- What a valid key name is made of. -/
theorem isKeyName_iff {name : String} :
    isKeyName name = true ↔
      name ≠ "" ∧ name.toList.head? ≠ some '#' ∧
        (∀ c ∈ name.toList, c ≠ '=' ∧ c ≠ '[' ∧ c ≠ ']' ∧ Text.isControl c = false) ∧
        Text.trim name.toList = name.toList := by
  simp [isKeyName, and_assoc]

theorem lf_notMem_of_control {cs : List Char} (h : ∀ c ∈ cs, Text.isControl c = false) :
    '\n' ∉ cs :=
  fun hm => absurd (h '\n' hm) (by decide)

end Keyfile

end AccountRoster
