/-! # Lines of a text

A line ends at a line feed, and one carriage return before that line feed goes
with it. Text after the last line feed is a line too, unless it is empty; such
an unfinished line keeps its carriage returns. -/

namespace AccountRoster.Text

/-- The lines of a text, without their ends. -/
def lines : List Char → List (List Char)
  | [] => []
  | '\n' :: rest => [] :: lines rest
  | '\r' :: '\n' :: rest => [] :: lines rest
  | c :: rest =>
      match lines rest with
      | [] => [[c]]
      | line :: more => (c :: line) :: more

example : lines "a\r\n\nb\r".toList = [['a'], [], ['b', '\r']] := by decide

example : lines "a\r\r\n".toList = [['a', '\r']] := by decide

@[simp] theorem lines_lf (rest : List Char) : lines ('\n' :: rest) = [] :: lines rest := rfl

@[simp] theorem lines_crlf (rest : List Char) :
    lines ('\r' :: '\n' :: rest) = [] :: lines rest := rfl

/-- No line holds a line feed. -/
theorem lf_notMem_of_mem_lines {text line : List Char} (h : line ∈ lines text) :
    '\n' ∉ line := by
  fun_induction lines text generalizing line with
  | case1 => simp at h
  | case2 rest ih =>
      rcases List.mem_cons.1 h with rfl | h
      · simp
      · exact ih h
  | case3 rest ih =>
      rcases List.mem_cons.1 h with rfl | h
      · simp
      · exact ih h
  | case4 c rest h₁ h₂ heq ih =>
      simp only [List.mem_singleton] at h
      subst h
      simp only [List.mem_singleton]
      exact fun e => h₁ e.symm
  | case5 c rest h₁ h₂ line' more heq ih =>
      rcases List.mem_cons.1 h with rfl | h
      · have hline : '\n' ∉ line' := ih (heq ▸ List.mem_cons_self)
        simp only [List.mem_cons, not_or]
        exact ⟨fun e => h₁ e.symm, hline⟩
      · exact ih (heq ▸ List.mem_cons_of_mem _ h)

end AccountRoster.Text
