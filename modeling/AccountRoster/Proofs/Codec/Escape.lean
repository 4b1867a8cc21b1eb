import AccountRoster.Codec.Escape
import AccountRoster.Text.Blank

/-!
# Escaped text reads back

`unescape_escape` undoes the escapes of one text, and `pieces_join` cuts a
joined list where its items end. The first needs a separator that is no escape
letter, the second only one that is no backslash. Under any separator a text reads
back but for the separator in it, which is read as `asRead` says.
-/

namespace AccountRoster.Escape

/-- The characters that have a meaning of their own after a backslash. -/
def letters : List Char := ['\\', 's', 'n', 't', 'r']

/-- A separator, if there is one, that cannot be mistaken for an escape letter. -/
def Distinct (separator : Option Char) : Prop := ∀ c, separator = some c → c ∉ letters

theorem distinct_none : Distinct none := fun _ h => nomatch h

theorem distinct_some {c : Char} (h : c ∉ letters) : Distinct (some c) := by
  intro d hd
  cases hd
  exact h

/-- The characters that have an escape under every codec; blanks not everywhere. -/
def escapable : List Char := ['\\', ' ', '\t', '\n', '\r']

theorem isBlank_of_mem_escapable {c : Char} (h : c ∈ escapable) (hb : c ≠ '\\') :
    Text.isBlank c = true := by
  simp only [escapable, List.mem_cons, List.not_mem_nil, or_false] at h
  rcases h with rfl | rfl | rfl | rfl | rfl
  · exact absurd rfl hb
  all_goals decide

/-- A character is written as an escape that every codec reads back, or is the separator
and is written behind a backslash, or is written as itself. Backslashes and line ends are
never written as themselves. -/
theorem escapeChar_cases (separator : Option Char) (leading : Bool) (c : Char) :
    (c ∈ escapable ∧ ∃ letter, escapeChar separator leading c = ['\\', letter] ∧
        ∀ other, unescapeLetter other letter = some c) ∨
      c ∉ ['\\', '\n', '\r'] ∧
        (separator = some c ∧ escapeChar separator leading c = ['\\', c] ∨
          separator ≠ some c ∧ escapeChar separator leading c = [c]) := by
  unfold escapeChar
  split
  next h => exact Or.inl ⟨by rw [h.1]; decide, _, rfl, fun _ => by rw [h.1]; rfl⟩
  split
  next h => exact Or.inl ⟨by rw [h.1]; decide, _, rfl, fun _ => by rw [h.1]; rfl⟩
  split
  next h => exact Or.inl ⟨by rw [h]; decide, _, rfl, fun _ => by rw [h]; rfl⟩
  split
  next h => exact Or.inl ⟨by rw [h]; decide, _, rfl, fun _ => by rw [h]; rfl⟩
  split
  next h => exact Or.inl ⟨by rw [h]; decide, _, rfl, fun _ => by rw [h]; rfl⟩
  next hn hr hb =>
    refine Or.inr ⟨by simp [hn, hr, hb], ?_⟩
    split
    next h => exact Or.inl ⟨h, rfl⟩
    next h => exact Or.inr ⟨h, rfl⟩

theorem unescape_pair (separator : Option Char) (letter : Char) (rest : List Char) :
    unescape separator ('\\' :: letter :: rest) =
      (unescapeLetter separator letter).bind fun x => (unescape separator rest).map (x :: ·) := by
  rw [unescape]
  simp only [if_true]
  cases unescapeLetter separator letter <;> rfl

theorem unescape_plain {separator : Option Char} {c : Char} (h : c ≠ '\\') (rest : List Char) :
    unescape separator (c :: rest) = (unescape separator rest).map (c :: ·) := by
  rw [unescape.eq_def]
  exact if_neg h

/-- The character as which an escaped one is read: the separator stands for itself
after a backslash, unless it is an escape letter. -/
def asRead (separator : Option Char) (c : Char) : Char :=
  if separator = some c then (unescapeLetter separator c).getD c else c

theorem asRead_of_ne {separator : Option Char} {c : Char} (h : separator ≠ some c) :
    asRead separator c = c :=
  if_neg h

theorem asRead_of_notMem {c : Char} (hc : c ∉ ['s', 'n', 't', 'r']) (separator : Option Char) :
    asRead separator c = c := by
  simp only [List.mem_cons, List.not_mem_nil, or_false, not_or] at hc
  obtain ⟨hs, hn, ht, hr⟩ := hc
  by_cases h : separator = some c
  · by_cases hb : c = '\\' <;> simp [asRead, unescapeLetter, h, hs, hn, ht, hr, hb]
  · exact asRead_of_ne h

/-- An escape letter that is the separator is read as what the letter stands for. -/
theorem asRead_letter_ne {c : Char} (hc : c ∈ ['s', 'n', 't', 'r']) : asRead (some c) c ≠ c := by
  simp only [List.mem_cons, List.not_mem_nil, or_false] at hc
  rcases hc with rfl | rfl | rfl | rfl <;> decide

theorem asRead_of_distinct {separator : Option Char} (hd : Distinct separator) (c : Char) :
    asRead separator c = c := by
  by_cases h : separator = some c
  · refine asRead_of_notMem (fun hc => hd c h ?_) separator
    exact List.mem_cons_of_mem '\\' hc
  · exact asRead_of_ne h

theorem unescapeLetter_separator {separator : Option Char} {c : Char} (h : separator = some c) :
    unescapeLetter separator c = some (asRead separator c) := by
  have hsome : (unescapeLetter separator c).isSome = true := by
    unfold unescapeLetter
    repeat' split
    all_goals rfl
  obtain ⟨x, hx⟩ := Option.isSome_iff_exists.mp hsome
  rw [asRead, if_pos h, hx, Option.getD_some]

/-- The escape of a character reads back as one character. -/
theorem unescape_escapeChar_append (separator : Option Char) (leading : Bool) (c : Char)
    (rest : List Char) :
    unescape separator (escapeChar separator leading c ++ rest) =
      (unescape separator rest).map (asRead separator c :: ·) := by
  rcases escapeChar_cases separator leading c with
    ⟨hmem, letter, h, hletter⟩ | ⟨hplain, ⟨hs, h⟩ | ⟨hs, h⟩⟩
  · have hself : ∀ x ∈ escapable, x ∉ ['s', 'n', 't', 'r'] := by simp [escapable]
    rw [h, asRead_of_notMem (hself c hmem), List.cons_append, List.cons_append, unescape_pair,
      hletter]
    rfl
  · rw [h, List.cons_append, List.cons_append, unescape_pair, unescapeLetter_separator hs]
    rfl
  · rw [h, asRead_of_ne hs]
    exact unescape_plain (fun e => hplain (e ▸ List.mem_cons_self)) rest

theorem unescape_escapeFrom (separator : Option Char) (leading : Bool) (cs : List Char) :
    unescape separator (escapeFrom separator leading cs) = some (cs.map (asRead separator)) := by
  induction cs generalizing leading with
  | nil => exact unescape_nil separator
  | cons c rest ih => rw [escapeFrom, unescape_escapeChar_append, ih]; rfl

/-- An escaped text reads back. -/
theorem unescape_escape {separator : Option Char} (hd : Distinct separator) (cs : List Char) :
    unescape separator (escape separator cs) = some cs := by
  have hself : asRead separator = id := funext (asRead_of_distinct hd)
  rw [escape, unescape_escapeFrom, hself, List.map_id]

theorem pieces_pair (separator letter : Char) (rest : List Char) :
    pieces separator ('\\' :: letter :: rest) = onto ['\\', letter] (pieces separator rest) := by
  rw [pieces.eq_def]
  exact if_pos rfl

theorem pieces_separator {separator : Char} (hb : separator ≠ '\\') (rest : List Char) :
    pieces separator (separator :: rest) = [] :: pieces separator rest := by
  rw [pieces.eq_def]
  exact (if_neg hb).trans (if_pos rfl)

theorem pieces_plain {separator c : Char} (hb : c ≠ '\\') (hs : c ≠ separator)
    (rest : List Char) :
    pieces separator (c :: rest) = onto [c] (pieces separator rest) := by
  rw [pieces.eq_def]
  exact (if_neg hb).trans (if_neg hs)

/-- The escape of a character stays in the piece that it stands in. -/
theorem pieces_escapeChar_append (separator : Char) (leading : Bool) (c : Char)
    (rest : List Char) :
    pieces separator (escapeChar (some separator) leading c ++ rest) =
      onto (escapeChar (some separator) leading c) (pieces separator rest) := by
  rcases escapeChar_cases (some separator) leading c with
    ⟨-, letter, h, -⟩ | ⟨hplain, ⟨-, h⟩ | ⟨hs, h⟩⟩
  · rw [h]
    exact pieces_pair separator letter rest
  · rw [h]
    exact pieces_pair separator c rest
  · rw [h]
    exact pieces_plain (fun e => hplain (e ▸ List.mem_cons_self))
      (fun e => hs (congrArg some e.symm)) rest

/-- A bare separator ends the piece before it. -/
theorem pieces_escapeFrom_append {separator : Char} (hb : separator ≠ '\\') (leading : Bool)
    (cs rest : List Char) :
    pieces separator (escapeFrom (some separator) leading cs ++ separator :: rest) =
      escapeFrom (some separator) leading cs :: pieces separator rest := by
  induction cs generalizing leading with
  | nil => exact pieces_separator hb rest
  | cons c cs ih =>
      rw [escapeFrom, List.append_assoc, pieces_escapeChar_append, ih]
      rfl

/-- A joined list is cut into the escapes of its items, whatever text follows it. -/
theorem pieces_join_append {separator : Char} (hb : separator ≠ '\\')
    (items : List (List Char)) (rest : List Char) :
    pieces separator (join separator items ++ rest) =
      items.map (escape (some separator)) ++ pieces separator rest := by
  induction items with
  | nil => rfl
  | cons item items ih =>
      rw [join_cons, escape, List.append_assoc, List.cons_append, pieces_escapeFrom_append hb, ih]
      rfl

theorem pieces_join {separator : Char} (hb : separator ≠ '\\') (items : List (List Char)) :
    pieces separator (join separator items) = items.map (escape (some separator)) := by
  have hend := pieces_join_append hb items []
  rwa [pieces, List.append_nil, List.append_nil] at hend

theorem ne_backslash_of_notMem_letters {c : Char} (h : c ∉ letters) : c ≠ '\\' := by
  rintro rfl
  exact h (by decide)

end AccountRoster.Escape
