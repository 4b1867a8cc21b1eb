import AccountRoster.Proofs.Codec.OneLine
import AccountRoster.Proofs.Codec.RoundTrip

/-!
# Text read under another separator

A list or a presence is read back by a codec of the same separator. Under another
separator it never is, but for the list without items: every item was ended by a
bare separator, which the other codec takes for a character of an item.

## Implementation notes

A list is read in one pass here, `readItems`, so that an induction on the text sees
one character at a time. What is carried through a text is how often the separator
of the writer stands in the items that the reader finds: as often as in the items
written, and once more for each of them.
-/

namespace AccountRoster

namespace Escape

/-- Read the items of a list in one pass; `none` for an unknown escape. -/
def readItems (separator : Char) : List Char → Option (List (List Char))
  | [] => some []
  | c :: rest =>
      if c = '\\' then
        match rest with
        | [] => none
        | letter :: more =>
            match unescapeLetter (some separator) letter with
            | some x => (readItems separator more).map (onto [x])
            | none => none
      else if c = separator then (readItems separator rest).map ([] :: ·)
      else (readItems separator rest).map (onto [c])

theorem readItems_pair (separator letter : Char) (rest : List Char) :
    readItems separator ('\\' :: letter :: rest) =
      (unescapeLetter (some separator) letter).bind fun x =>
        (readItems separator rest).map (onto [x]) := by
  rw [readItems]
  simp only [if_true]
  cases unescapeLetter (some separator) letter <;> rfl

theorem readItems_separator {separator : Char} (hb : separator ≠ '\\') (rest : List Char) :
    readItems separator (separator :: rest) = (readItems separator rest).map ([] :: ·) := by
  rw [readItems.eq_def]
  exact (if_neg hb).trans (if_pos rfl)

theorem readItems_plain {separator c : Char} (hb : c ≠ '\\') (hs : c ≠ separator)
    (rest : List Char) :
    readItems separator (c :: rest) = (readItems separator rest).map (onto [c]) := by
  rw [readItems.eq_def]
  exact (if_neg hb).trans (if_neg hs)

/-- Characters that stand for one character may be unescaped apart from the piece
that they are put in front of. -/
theorem mapM_unescape_onto {separator : Option Char} {front : List Char} (x? : Option Char)
    (h : ∀ rest, unescape separator (front ++ rest) =
      x?.bind fun x => (unescape separator rest).map (x :: ·))
    (found : List (List Char)) :
    (onto front found).mapM (unescape separator) =
      x?.bind fun x => (found.mapM (unescape separator)).map (onto [x]) := by
  cases found with
  | nil =>
      have hfront := h []
      rw [List.append_nil, unescape_nil] at hfront
      simp only [onto, List.mapM_cons, List.mapM_nil, hfront]
      cases x? <;> rfl
  | cons piece more =>
      simp only [onto, List.mapM_cons, h]
      cases x? with
      | none => rfl
      | some x =>
          cases unescape separator piece with
          | none => rfl
          | some cs => cases more.mapM (unescape separator) <;> rfl

/-- To cut a text first and unescape the pieces then comes to the same. -/
theorem mapM_unescape_pieces (separator : Char) (cs : List Char) :
    (pieces separator cs).mapM (unescape (some separator)) = readItems separator cs := by
  induction cs using pieces.induct separator with
  | case1 => rfl
  | case2 => simp [pieces, readItems, unescape]
  | case3 letter more ih =>
      rw [pieces_pair, readItems_pair, ← ih]
      exact mapM_unescape_onto _ (fun rest => unescape_pair _ letter rest) _
  | case4 rest hb ih =>
      rw [pieces_separator hb, readItems_separator hb, List.mapM_cons, unescape_nil, ← ih]
      cases (pieces separator rest).mapM (unescape (some separator)) <;> rfl
  | case5 c rest hb hs ih =>
      rw [pieces_plain hb hs, readItems_plain hb hs, ← ih]
      exact mapM_unescape_onto (some c) (fun rest => unescape_plain hb rest) _

theorem flatten_onto (front : List Char) (found : List (List Char)) :
    (onto front found).flatten = front ++ found.flatten := by
  cases found <;> simp [onto]

section Foreign

variable {c d : Char}

/-- No codec of another separator knows the escape of a separator. -/
theorem unescapeLetter_foreign (hc : c ∉ letters) (hdc : d ≠ c) :
    unescapeLetter (some d) c = none := by
  simp only [letters, List.mem_cons, List.not_mem_nil, or_false, not_or] at hc
  obtain ⟨hb, hs, hn, ht, hr⟩ := hc
  simp [unescapeLetter, hb, hs, hn, ht, hr, hdc]

/-- The separator is a blank, or it stands in no text that is read elsewhere. -/
theorem readItems_escapeChar_append (hc : c ∉ letters) (hdc : d ≠ c) {leading : Bool} {a : Char}
    {rest : List Char} {found : List (List Char)}
    (h : readItems d (escapeChar (some c) leading a ++ rest) = some found) :
    ∃ more, readItems d rest = some more ∧
      found.flatten.count c = [a].count c + more.flatten.count c ∧
      (a = c → Text.isBlank c = true) := by
  rcases escapeChar_cases (some c) leading a with
    ⟨hmem, letter, hescape, hletter⟩ | ⟨hplain, ⟨hs, hescape⟩ | ⟨hs, hescape⟩⟩
  · -- all codecs have the same escapes, but for that of their separator
    rw [hescape, List.cons_append, List.cons_append, readItems_pair, hletter, Option.bind_some,
      Option.map_eq_some_iff] at h
    obtain ⟨more, hmore, rfl⟩ := h
    refine ⟨more, hmore, by rw [flatten_onto, List.count_append], ?_⟩
    rintro rfl
    exact isBlank_of_mem_escapable hmem (ne_backslash_of_notMem_letters hc)
  · rw [hescape, ← Option.some_inj.mp hs] at h
    exact absurd h (by simp [readItems_pair, unescapeLetter_foreign hc hdc])
  · have hac : a ≠ c := fun e => hs (congrArg some e.symm)
    have hcount : [a].count c = 0 := List.count_eq_zero.mpr (by simpa using hac.symm)
    have hb : a ≠ '\\' := fun e => hplain (e ▸ List.mem_cons_self)
    rw [hescape, List.singleton_append] at h
    by_cases had : a = d
    · rw [had, readItems_separator (had ▸ hb), Option.map_eq_some_iff] at h
      obtain ⟨more, hmore, rfl⟩ := h
      exact ⟨more, hmore, by simp [hcount], fun e => absurd e hac⟩
    · rw [readItems_plain hb had, Option.map_eq_some_iff] at h
      obtain ⟨more, hmore, rfl⟩ := h
      exact ⟨more, hmore, by rw [flatten_onto, List.count_append], fun e => absurd e hac⟩

theorem readItems_escapeFrom_append (hc : c ∉ letters) (hdc : d ≠ c) {leading : Bool}
    {cs rest : List Char} {found : List (List Char)}
    (h : readItems d (escapeFrom (some c) leading cs ++ rest) = some found) :
    ∃ more, readItems d rest = some more ∧
      found.flatten.count c = cs.count c + more.flatten.count c ∧
      (c ∈ cs → Text.isBlank c = true) := by
  induction cs generalizing leading found with
  | nil => exact ⟨found, h, by simp, fun hmem => nomatch hmem⟩
  | cons a cs ih =>
      rw [escapeFrom, List.append_assoc] at h
      obtain ⟨middle, hmiddle, hfirst, hblank⟩ := readItems_escapeChar_append hc hdc h
      obtain ⟨more, hmore, hrest, hblanks⟩ := ih hmiddle
      refine ⟨more, hmore, ?_, fun hmem => ?_⟩
      · have hcons : ([a] ++ cs).count c = [a].count c + cs.count c := List.count_append
        rw [List.singleton_append] at hcons
        rw [hfirst, hrest, hcons, Nat.add_assoc]
      · rcases List.mem_cons.mp hmem with e | hmem
        · exact hblank e.symm
        · exact hblanks hmem

/-- What another codec finds in a list has the separator once more for each item, and
items with the separator in them cannot be read unless it is a blank. -/
theorem readItems_join (hc : c ∉ letters) (hdc : d ≠ c) {items found : List (List Char)}
    (h : readItems d (join c items) = some found) :
    found.flatten.count c = items.flatten.count c + items.length ∧
      ∀ item ∈ items, c ∈ item → Text.isBlank c = true := by
  induction items generalizing found with
  | nil =>
      cases h
      exact ⟨rfl, fun _ hmem => nomatch hmem⟩
  | cons item items ih =>
      rw [join_cons, escape] at h
      obtain ⟨middle, hmiddle, hfirst, hblank⟩ := readItems_escapeFrom_append hc hdc h
      -- what ends the item is one more character to the reader
      rw [readItems_plain (ne_backslash_of_notMem_letters hc) hdc.symm,
        Option.map_eq_some_iff] at hmiddle
      obtain ⟨more, hmore, rfl⟩ := hmiddle
      obtain ⟨hrest, hblanks⟩ := ih hmore
      have hbare : (onto [c] more).flatten.count c = 1 + more.flatten.count c := by
        rw [flatten_onto, List.count_append, List.count_singleton_self]
      constructor
      · rw [hfirst, hbare, hrest, List.flatten_cons, List.count_append, List.length_cons]
        omega
      · intro other hother
        rcases List.mem_cons.mp hother with rfl | hother
        · exact hblank
        · exact hblanks other hother

theorem exists_mem_getLast_onto {front : List Char} {found : List (List Char)}
    (h : ∃ last, found.getLast? = some last ∧ c ∈ last) :
    ∃ last, (onto front found).getLast? = some last ∧ c ∈ last := by
  obtain ⟨last, hlast, hmem⟩ := h
  match found, hlast with
  | [piece], hlast =>
      cases hlast
      exact ⟨front ++ piece, rfl, List.mem_append_right front hmem⟩
  | _ :: second :: more, hlast => exact ⟨last, hlast, hmem⟩

/-- A separator at the end of a text belongs to the last item that another codec
finds. -/
theorem exists_mem_getLast_of_readItems (hc : c ∉ letters) (hdc : d ≠ c) {cs : List Char}
    {found : List (List Char)} (h : readItems d (cs ++ [c]) = some found) :
    ∃ last, found.getLast? = some last ∧ c ∈ last := by
  induction cs using pieces.induct d generalizing found with
  | case1 =>
      rw [List.nil_append, readItems_plain (ne_backslash_of_notMem_letters hc) hdc.symm] at h
      cases h
      exact ⟨[c], rfl, List.mem_singleton_self c⟩
  | case2 => exact absurd h (by simp [readItems_pair, unescapeLetter_foreign hc hdc])
  | case3 letter more ih =>
      rw [List.cons_append, List.cons_append, readItems_pair, Option.bind_eq_some_iff] at h
      obtain ⟨x, -, h⟩ := h
      obtain ⟨tail, htail, rfl⟩ := Option.map_eq_some_iff.mp h
      exact exists_mem_getLast_onto (ih htail)
  | case4 rest hb ih =>
      rw [List.cons_append, readItems_separator hb] at h
      obtain ⟨tail, htail, rfl⟩ := Option.map_eq_some_iff.mp h
      obtain ⟨last, hlast, hmem⟩ := ih htail
      exact ⟨last, by simp [List.getLast?_cons, hlast], hmem⟩
  | case5 a rest hb hs ih =>
      rw [List.cons_append, readItems_plain hb hs] at h
      obtain ⟨tail, htail, rfl⟩ := Option.map_eq_some_iff.mp h
      exact exists_mem_getLast_onto (ih htail)

end Foreign

end Escape

/-- Whether the text of a value has an item in it. -/
def Value.hasItems : Value → Bool
  | .stringArray items => !items.isEmpty
  | .objectPathArray paths => !paths.isEmpty
  | .simplePresence _ => true
  | _ => false

/-- Both steps of a computation that ends well end well. -/
theorem Except.exists_of_bind_eq_ok {ε α β : Type} {first : Except ε α} {next : α → Except ε β}
    {b : β} (h : (first >>= next) = .ok b) : ∃ a, first = .ok a ∧ next a = .ok b := by
  cases first with
  | error e => cases h
  | ok a => exact ⟨a, rfl, h⟩

namespace Codec

theorem unescapePiece_eq_ok_iff {codec : Codec} {piece : List Char} {item : String} :
    codec.unescapePiece piece = .ok item ↔
      Escape.unescape (some codec.separator) piece = some item.toList := by
  unfold unescapePiece
  split
  next cs hcs =>
    rw [hcs, Except.ok.injEq, Option.some_inj]
    constructor
    · rintro rfl
      exact String.toList_ofList.symm
    · rintro rfl
      exact String.ofList_toList
  next hnone =>
    rw [hnone]
    exact iff_of_false nofun nofun

theorem mapM_unescapePiece_eq_ok_iff {codec : Codec} {found : List (List Char)}
    {items : List String} :
    found.mapM codec.unescapePiece = .ok items ↔
      found.mapM (Escape.unescape (some codec.separator)) = some (items.map String.toList) := by
  constructor
  · intro h
    induction found generalizing items with
    | nil =>
        cases h
        rfl
    | cons piece more ih =>
        rw [List.mapM_cons] at h
        obtain ⟨item, hpiece, h⟩ := Except.exists_of_bind_eq_ok h
        obtain ⟨rest, hmore, h⟩ := Except.exists_of_bind_eq_ok h
        cases h
        rw [List.mapM_cons, unescapePiece_eq_ok_iff.mp hpiece, ih hmore]
        rfl
  · intro h
    induction found generalizing items with
    | nil =>
        cases items with
        | nil => rfl
        | cons item rest => cases h
    | cons piece more ih =>
        simp only [List.mapM_cons, Option.bind_eq_bind, Option.bind_eq_some_iff] at h
        obtain ⟨cs, hpiece, rest, hmore, h⟩ := h
        cases items with
        | nil => cases h
        | cons item items =>
            cases h
            rw [List.mapM_cons, unescapePiece_eq_ok_iff.mpr hpiece, ih hmore]
            rfl

/-- The items of a list are what the one pass finds. -/
theorem splitItems_eq_ok_iff {codec : Codec} {text : String} {items : List String} :
    codec.splitItems text = .ok items ↔
      Escape.readItems codec.separator text.toList = some (items.map String.toList) := by
  rw [← Escape.mapM_unescape_pieces]
  exact mapM_unescapePiece_eq_ok_iff

section Foreign

variable {written read : Codec}

/-- Only the empty list is read back under another separator. -/
theorem eq_nil_of_splitItems_joinItems (hs : written.Safe)
    (hne : read.separator ≠ written.separator) {items : List String}
    (h : read.splitItems (written.joinItems items) = .ok items) : items = [] := by
  have hfound := splitItems_eq_ok_iff.mp h
  rw [joinItems, String.toList_ofList] at hfound
  have hcount := (Escape.readItems_join hs hne hfound).1
  rw [List.length_map] at hcount
  exact List.length_eq_zero_iff.mp (by omega)

theorem eq_ok_of_readPresence {codec : Codec} {text : String} {p : SimplePresence}
    (h : codec.readPresence text = .ok p) :
    ∃ kind, codec.splitItems text = .ok [kind, p.status, p.message] ∧
      readKind kind = .ok p.kind := by
  obtain ⟨items, hitems, h⟩ := Except.exists_of_bind_eq_ok h
  split at h
  next kind status message =>
    obtain ⟨k, hkind, h⟩ := Except.exists_of_bind_eq_ok h
    cases h
    exact ⟨kind, hitems, hkind⟩
  next => cases h

theorem isBlank_of_mem_readKind {kind : String} {k : UInt32} (h : readKind kind = .ok k)
    {c : Char} (hc : c ∈ kind.toList) : Text.isBlank c = false := by
  unfold readKind at h
  split at h
  next n hread => exact (Number.numeral_of_readWithin hread).1.isBlank_of_mem hc
  next => cases h

/-- A presence is never read back. To be, its message has to have the separator in it,
which is a blank then; but the separator also has to be in the kind, which has none. -/
theorem readPresence_joinItems_ne (hs : written.Safe)
    (hne : read.separator ≠ written.separator) (p : SimplePresence) :
    read.readPresence
      (written.joinItems [String.ofList (Number.natText p.kind.toNat), p.status, p.message]) ≠
        .ok p := by
  intro h
  obtain ⟨kind, hitems, hkind⟩ := eq_ok_of_readPresence h
  have hfound := splitItems_eq_ok_iff.mp hitems
  rw [joinItems, String.toList_ofList] at hfound
  obtain ⟨hcount, hblank⟩ := Escape.readItems_join hs hne hfound
  -- status and message have it as often as before, so that the kind has to take the others
  have hmemKind : written.separator ∈ kind.toList := by
    rw [← List.count_pos_iff]
    simp only [List.map_cons, List.map_nil, List.flatten_cons, List.flatten_nil,
      List.count_append, List.length_cons, List.length_nil] at hcount
    omega
  have hmemMessage : written.separator ∈ p.message.toList := by
    simp only [List.map_cons, List.map_nil, Escape.join_cons, Escape.join_nil,
      ← List.cons_append, ← List.append_assoc] at hfound
    obtain ⟨last, hlast, hmem⟩ := Escape.exists_mem_getLast_of_readItems hs hne hfound
    cases hlast
    exact hmem
  have hyes := hblank p.message.toList (by simp) hmemMessage
  rw [isBlank_of_mem_readKind hkind hmemKind] at hyes
  cases hyes

/-- A text without items is read alike under every separator. -/
theorem unescape_escape_of_no_items {v : Value} (h : v.hasItems = false) :
    read.unescape (written.escape v) v.type = written.unescape (written.escape v) v.type := by
  cases v with
  | stringArray items =>
      obtain rfl : items = [] := by simpa [Value.hasItems] using h
      rfl
  | objectPathArray paths =>
      obtain rfl : paths = [] := by simpa [Value.hasItems] using h
      rfl
  | simplePresence p => cases h
  | _ => rfl

theorem eq_map_text_of_mapM_readPath {texts : List String} {paths : List ObjectPath}
    (h : texts.mapM readPath = .ok paths) : texts = paths.map ObjectPath.text := by
  induction texts generalizing paths with
  | nil =>
      cases h
      rfl
  | cons text rest ih =>
      rw [List.mapM_cons] at h
      obtain ⟨path, hpath, h⟩ := Except.exists_of_bind_eq_ok h
      obtain ⟨more, hmore, h⟩ := Except.exists_of_bind_eq_ok h
      cases h
      rw [readPath] at hpath
      split at hpath
      next found hfound =>
        cases hpath
        rw [List.map_cons, ObjectPath.ofText?_eq_some_iff.mp hfound, ← ih hmore]
      next => cases hpath

theorem unescape_escape_ne (hs : written.Safe) (hne : read.separator ≠ written.separator)
    {v : Value} (h : v.hasItems = true) :
    read.unescape (written.escape v) v.type ≠ .ok v := by
  intro hread
  cases v with
  | stringArray items =>
      obtain ⟨found, hfound, hread⟩ := Except.exists_of_bind_eq_ok hread
      cases hread
      rw [eq_nil_of_splitItems_joinItems hs hne hfound] at h
      cases h
  | objectPathArray paths =>
      obtain ⟨texts, htexts, hread⟩ := Except.exists_of_bind_eq_ok hread
      obtain ⟨found, hfound, hread⟩ := Except.exists_of_bind_eq_ok hread
      cases hread
      rw [eq_map_text_of_mapM_readPath hfound] at htexts
      rw [List.map_eq_nil_iff.mp (eq_nil_of_splitItems_joinItems hs hne htexts)] at h
      cases h
  | simplePresence p =>
      obtain ⟨found, hfound, hread⟩ := Except.exists_of_bind_eq_ok hread
      cases hread
      exact readPresence_joinItems_ne hs hne p hfound
  | _ => cases h

/-- What one codec wrote is read back by another exactly if they have one separator or
nothing was separated. -/
theorem unescape_escape_iff (hs : written.Safe) {v : Value} (hv : v.isNan = false) :
    read.unescape (written.escape v) v.type = .ok v ↔
      read.separator = written.separator ∨ v.hasItems = false := by
  constructor
  · intro h
    by_contra hneither
    obtain ⟨hne, hitems⟩ := not_or.mp hneither
    exact unescape_escape_ne hs hne (by simpa using hitems) h
  · rintro (heq | hitems)
    · obtain rfl : read = written := by
        cases read
        cases written
        exact congrArg Codec.mk heq
      exact unescape_escape hs hv
    · rw [unescape_escape_of_no_items hitems]
      exact unescape_escape hs hv

end Foreign

end Codec

end AccountRoster
