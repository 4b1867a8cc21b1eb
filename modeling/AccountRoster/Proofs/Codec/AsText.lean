import AccountRoster.Proofs.Codec.Separators

/-!
# Values as text

A value can be converted to a text, and the text it is then has no escapes left in it.
Converted back, the text is escaped afresh, as one text and not item by item. Nothing
is lost by that: a conversion to text that succeeds has met no separator inside an
item, so every separator of the text ends an item, and the new escapes change none of
them.

## Implementation notes

A codec reads the stored form of a value and the new escapes of its text alike,
`unescape_escapeText`. That is trivial where the stored form is itself the escapes of a
text; for the three kinds of lists it is one statement about their items,
`splitItems_escapeText`.
-/

namespace AccountRoster

namespace Escape

/-- A character that no text escapes and that is no escape letter. -/
def Unescaped (c : Char) : Prop := c ∉ ['\\', 's', 'n', 't', 'r', ' ', '\t', '\n', '\r']

theorem Unescaped.notMem_letters {c : Char} (h : Unescaped c) : c ∉ letters := by
  intro hmem
  exact h (List.mem_append_left [' ', '\t', '\n', '\r'] hmem)

theorem Unescaped.notMem_escapable {c : Char} (h : Unescaped c) : c ∉ escapable := by
  intro hmem
  apply h
  have hsubset : ∀ x ∈ escapable,
      x ∈ ['\\', 's', 'n', 't', 'r', ' ', '\t', '\n', '\r'] := by simp [escapable]
  exact hsubset c hmem

/-- A text has escapes for backslashes and blanks only. -/
theorem escapeChar_none_eq_self {c : Char} (h : c ∉ escapable) (leading : Bool) :
    escapeChar none leading c = [c] := by
  rcases escapeChar_cases none leading c with ⟨hmem, -⟩ | ⟨-, ⟨hs, -⟩ | ⟨-, hself⟩⟩
  · exact absurd hmem h
  · cases hs
  · exact hself

theorem escapeFrom_none_eq_self {cs : List Char} (h : ∀ c ∈ cs, c ∉ escapable) (leading : Bool) :
    escapeFrom none leading cs = cs := by
  induction cs generalizing leading with
  | nil => rfl
  | cons c rest ih =>
      rw [escapeFrom, escapeChar_none_eq_self (h c List.mem_cons_self),
        ih fun d hd => h d (List.mem_cons_of_mem c hd)]
      rfl

/-- A character other than the separator is escaped in a list as it is in a text. -/
theorem escapeChar_of_ne {separator : Option Char} {c : Char} (h : separator ≠ some c)
    (leading : Bool) : escapeChar separator leading c = escapeChar none leading c := by
  simp [escapeChar, h]

/-- Escaped in a text, a character is read back as one of an item unless it is the
separator. -/
theorem readItems_escapeChar_none_append {separator c : Char} (h : separator ≠ c)
    (leading : Bool) (rest : List Char) :
    readItems separator (escapeChar none leading c ++ rest) =
      (readItems separator rest).map (onto [c]) := by
  rcases escapeChar_cases none leading c with
    ⟨-, letter, hescape, hletter⟩ | ⟨hplain, ⟨hs, -⟩ | ⟨-, hescape⟩⟩
  · rw [hescape, List.cons_append, List.cons_append, readItems_pair, hletter]
    rfl
  · cases hs
  · rw [hescape]
    exact readItems_plain (fun e => hplain (e ▸ List.mem_cons_self)) h.symm rest

section AsText

variable {c : Char} (hc : Unescaped c)

include hc

theorem escapeChar_separator (leading : Bool) : escapeChar (some c) leading c = ['\\', c] := by
  rcases escapeChar_cases (some c) leading c with ⟨hmem, -⟩ | ⟨-, ⟨-, hpair⟩ | ⟨hs, -⟩⟩
  · exact absurd hmem hc.notMem_escapable
  · exact hpair
  · exact absurd rfl hs

theorem unescapeLetter_none_separator : unescapeLetter none c = none := by
  have hletters := hc.notMem_letters
  simp only [letters, List.mem_cons, List.not_mem_nil, or_false, not_or] at hletters
  obtain ⟨hb, hs, hn, ht, hr⟩ := hletters
  simp [unescapeLetter, hb, hs, hn, ht, hr]

/-- The escapes of an item that are read as a text are those of a text without the
separator. -/
theorem unescape_escapeFrom_append {leading : Bool} {item rest found : List Char}
    (h : unescape none (escapeFrom (some c) leading item ++ rest) = some found) :
    c ∉ item ∧ ∃ more, unescape none rest = some more ∧ found = item ++ more := by
  induction item generalizing leading found with
  | nil => exact ⟨List.not_mem_nil, found, h, rfl⟩
  | cons a item ih =>
      rw [escapeFrom, List.append_assoc] at h
      by_cases ha : a = c
      · rw [ha, escapeChar_separator hc, List.cons_append, List.cons_append, unescape_pair,
          unescapeLetter_none_separator hc] at h
        cases h
      · have hne : some c ≠ some a := fun e => ha (Option.some_inj.mp e).symm
        rw [escapeChar_of_ne hne, unescape_escapeChar_append, asRead_of_distinct distinct_none,
          Option.map_eq_some_iff] at h
        obtain ⟨tail, htail, rfl⟩ := h
        obtain ⟨hitem, more, hmore, rfl⟩ := ih htail
        refine ⟨?_, more, hmore, rfl⟩
        rw [List.mem_cons, not_or]
        exact ⟨fun e => ha e.symm, hitem⟩

/-- A list that is read as a text has no separator in its items, and the text is the
items with the separator behind each. -/
theorem unescape_join {items : List (List Char)} {found : List Char}
    (h : unescape none (join c items) = some found) :
    (∀ item ∈ items, c ∉ item) ∧ found = items.flatMap (· ++ [c]) := by
  induction items generalizing found with
  | nil =>
      cases h
      exact ⟨nofun, rfl⟩
  | cons item items ih =>
      rw [join_cons, escape] at h
      obtain ⟨hitem, tail, htail, rfl⟩ := unescape_escapeFrom_append hc h
      rw [unescape_plain (ne_backslash_of_notMem_letters hc.notMem_letters),
        Option.map_eq_some_iff] at htail
      obtain ⟨more, hmore, rfl⟩ := htail
      obtain ⟨hitems, rfl⟩ := ih hmore
      refine ⟨List.forall_mem_cons.mpr ⟨hitem, hitems⟩, ?_⟩
      rw [List.flatMap_cons, List.append_assoc]
      rfl

/-- A separator that stands in a text is escaped by nothing, so it ends the item before
it. -/
theorem readItems_escapeFrom_none {item : List Char} (h : c ∉ item) (leading : Bool)
    (rest : List Char) :
    readItems c (escapeFrom none leading (item ++ c :: rest)) =
      (readItems c (escapeFrom none false rest)).map (item :: ·) := by
  induction item generalizing leading with
  | nil =>
      have hblank : (c == ' ' || c == '\t') = false := by
        simp only [Unescaped, List.mem_cons, List.not_mem_nil, or_false, not_or] at hc
        simp [hc]
      rw [List.nil_append, escapeFrom, escapeChar_none_eq_self hc.notMem_escapable,
        List.singleton_append,
        readItems_separator (ne_backslash_of_notMem_letters hc.notMem_letters), hblank,
        Bool.and_false]
  | cons a item ih =>
      rw [List.mem_cons, not_or] at h
      rw [List.cons_append, escapeFrom, readItems_escapeChar_none_append h.1, ih h.2,
        Option.map_map]
      rfl

/-- Escaped as one text, items without the separator are read back. -/
theorem readItems_escape_none {items : List (List Char)} (h : ∀ item ∈ items, c ∉ item)
    (leading : Bool) :
    readItems c (escapeFrom none leading (items.flatMap (· ++ [c]))) = some items := by
  induction items generalizing leading with
  | nil => rfl
  | cons item items ih =>
      obtain ⟨hitem, hitems⟩ := List.forall_mem_cons.mp h
      rw [List.flatMap_cons, List.append_assoc, List.singleton_append,
        readItems_escapeFrom_none hc hitem, ih hitems]
      rfl

end AsText

end Escape

namespace Codec

/-! ### Texts that are their own escapes -/

/-- A text without blanks and backslashes is stored as it is. -/
theorem escapeText_eq_self {cs : List Char}
    (h : ∀ c ∈ cs, Text.isBlank c = false ∧ c ≠ '\\') :
    escapeText (String.ofList cs) = String.ofList cs := by
  have hchars : ∀ c ∈ cs, c ∉ Escape.escapable := by
    intro c hmem hescapable
    obtain ⟨hblank, hb⟩ := h c hmem
    rw [Escape.isBlank_of_mem_escapable hescapable hb] at hblank
    cases hblank
  rw [escapeText, String.toList_ofList, Escape.escape, Escape.escapeFrom_none_eq_self hchars]

theorem escapeText_intText (n : Int) :
    escapeText (String.ofList (Number.intText n)) = String.ofList (Number.intText n) := by
  refine escapeText_eq_self fun c hc => ⟨Number.isBlank_of_mem_intText hc, ?_⟩
  rintro rfl
  cases n with
  | ofNat n => exact absurd (Number.isDigit_of_mem_natText hc) (by decide)
  | negSucc n =>
      rcases List.mem_cons.mp hc with hsign | hdigit
      · cases hsign
      · exact absurd (Number.isDigit_of_mem_natText hdigit) (by decide)

theorem escapeText_doubleText (d : Double) :
    escapeText (String.ofList d.text) = String.ofList d.text := by
  refine escapeText_eq_self fun c hc => ⟨Double.isBlank_of_mem_text hc, ?_⟩
  rintro rfl
  rcases Double.mem_text hc with hdigit | hother
  · exact absurd hdigit (by decide)
  · exact absurd hother (by decide)

theorem escapeText_boolean (flag : Bool) :
    escapeText (if flag then "true" else "false") = if flag then "true" else "false" := by
  cases flag <;> decide

/-! ### The text of a value, escaped afresh -/

section AsText

variable {codec : Codec} (hs : Escape.Unescaped codec.separator)

include hs

/-- The items of a list that is read as a text are those of the text, once it is
escaped. -/
theorem splitItems_escapeText {items : List String} {text : String}
    (h : unescapeText (codec.joinItems items) = .ok text) :
    codec.splitItems (escapeText text) = .ok items := by
  unfold unescapeText at h
  split at h
  next cs hread =>
    cases h
    rw [joinItems, String.toList_ofList] at hread
    obtain ⟨hitems, rfl⟩ := Escape.unescape_join hs hread
    rw [splitItems_eq_ok_iff, escapeText, String.toList_ofList, String.toList_ofList]
    exact Escape.readItems_escape_none hs hitems true
  next => cases h

/-- The stored form of a value and the escapes of its text are read alike. -/
theorem unescape_escapeText {v : Value} {text : String}
    (h : unescapeText (codec.escape v) = .ok text) :
    codec.unescape (escapeText text) v.type = codec.unescape (codec.escape v) v.type := by
  have hsafe : codec.Safe := hs.notMem_letters
  -- the escapes of a text are read as that text, and escaped to what they were
  have hself {stored : String} (hstored : escapeText stored = codec.escape v) :
      escapeText text = codec.escape v := by
    rw [← hstored, unescapeText_escapeText] at h
    cases h
    exact hstored
  have hlist {items : List String} (hitems : codec.escape v = codec.joinItems items) :
      codec.splitItems (escapeText text) = codec.splitItems (codec.escape v) := by
    rw [hitems] at h ⊢
    rw [splitItems_escapeText hs h, splitItems_joinItems hsafe]
  cases v with
  | string stored => rw [hself rfl]
  | objectPath path => rw [hself rfl]
  | boolean flag => rw [hself (escapeText_boolean flag)]
  | int32 n => rw [hself (escapeText_intText _)]
  | int64 n => rw [hself (escapeText_intText _)]
  | uint32 n => rw [hself (escapeText_intText n.toNat)]
  | uint64 n => rw [hself (escapeText_intText n.toNat)]
  | byte n => rw [hself (escapeText_intText n.toNat)]
  | double d => rw [hself (escapeText_doubleText d)]
  | stringArray items => simp only [Value.type, unescape, hlist rfl]
  | objectPathArray paths => simp only [Value.type, unescape, hlist rfl]
  | simplePresence p => simp only [Value.type, unescape, readPresence, hlist rfl]

end AsText

/-- What was converted to a text can be converted back, and is the same value then. -/
theorem coerce_string_lossless {c : Char}
    (hc : c ∉ ['\\', 's', 'n', 't', 'r', ' ', '\t', '\n', '\r']) {v s : Value}
    (hv : v.isNan = false) (h : (Codec.mk c).coerce v .string = .ok s) :
    (Codec.mk c).coerce s v.type = .ok v := by
  rw [coerce] at h
  split at h
  next hstring =>
    cases h
    exact coerce_type
  next hstring =>
    obtain ⟨text, htext, h⟩ := Except.exists_of_bind_eq_ok h
    cases h
    have hs : Escape.Unescaped (Codec.mk c).separator := hc
    calc
      (Codec.mk c).coerce (.string text) v.type
        = (Codec.mk c).unescape (escapeText text) v.type := if_neg (Ne.symm hstring)
      _ = (Codec.mk c).unescape ((Codec.mk c).escape v) v.type := unescape_escapeText hs htext
      _ = .ok v := unescape_escape hs.notMem_letters hv

/-- A presence is a text with three separators in it, and is read back from that. -/
theorem coerce_presence_lossless :
    (Codec.mk ',').coerce (.simplePresence ⟨2, "available", " at  my desk\n"⟩) .string =
        .ok (.string "2,available, at  my desk\n,") ∧
      (Codec.mk ',').coerce (.string "2,available, at  my desk\n,") .simplePresence =
        .ok (.simplePresence ⟨2, "available", " at  my desk\n"⟩) := by
  let v : Value := .simplePresence ⟨2, "available", " at  my desk\n"⟩
  have h : (Codec.mk ',').coerce v .string = .ok (.string "2,available, at  my desk\n,") := by
    decide +kernel
  have hback := coerce_string_lossless (by decide) (show v.isNan = false from rfl) h
  exact ⟨h, hback⟩

end Codec

end AccountRoster
