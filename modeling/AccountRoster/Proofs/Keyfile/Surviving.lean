import AccountRoster.Proofs.Codec.OneLine
import AccountRoster.Proofs.Codec.RoundTrip
import AccountRoster.Proofs.Keyfile.Rereading

/-!
# Values that survive a key-file

A value is escaped, written, read again and unescaped. Escaping protects spaces,
tabs and line ends at the front of a text, while reading trims every blank there.
So a value is lost exactly if its text starts with one of the other blanks.

## Implementation notes

A text that is read back starts with the character that it was read from, unless
that is an escape. A blank that is no escape can therefore not come back once it
was trimmed. This carries over to lists by their first piece.
-/

namespace AccountRoster

/-! ### The front of a text -/

/-- Whether a text starts with a blank. -/
def Text.startsBlank (cs : List Char) : Bool := cs.head?.any isBlank

namespace Escape

/-- The blanks that are escaped at the front of a text. -/
def escapedBlanks : List Char := [' ', '\t', '\n', '\r']

/-- Whether a character is a blank that no escape protects. -/
def isBareBlank (c : Char) : Bool := Text.isBlank c && !escapedBlanks.contains c

/-- Whether a text starts with a blank that no escape protects. -/
def startsBare (text : String) : Bool := text.toList.head?.any isBareBlank

theorem isBareBlank_iff {c : Char} :
    isBareBlank c = true ↔ Text.isBlank c = true ∧ c ∉ escapedBlanks := by
  simp [isBareBlank]

theorem ne_backslash_of_bareBlank {c : Char} (h : isBareBlank c = true) : c ≠ '\\' := by
  rintro rfl
  exact absurd h (by decide)

/-- The escape of the first character starts with a blank only if no escape protects
that character. -/
theorem escapeChar_front {separator : Option Char}
    (hseparator : ∀ c, separator = some c → Text.isBlank c = false) (c : Char) :
    ∃ front more, escapeChar separator true c = front :: more ∧
      Text.isBlank front = isBareBlank c := by
  rcases escapeChar_cases separator true c with
    ⟨hmem, letter, h, -⟩ | ⟨-, ⟨hs, h⟩ | ⟨-, h⟩⟩
  · refine ⟨'\\', [letter], h, ?_⟩
    cases hbare : isBareBlank c with
    | false => rfl
    | true =>
        rcases List.mem_cons.mp hmem with hb | hblank
        · exact absurd hb (ne_backslash_of_bareBlank hbare)
        · exact absurd hblank (isBareBlank_iff.mp hbare).2
  · refine ⟨'\\', [c], h, ?_⟩
    rw [isBareBlank, hseparator c hs]
    rfl
  · refine ⟨c, [], h, ?_⟩
    have hmem : c ∉ escapedBlanks := by
      intro hmem
      simp only [escapedBlanks, List.mem_cons, List.not_mem_nil, or_false] at hmem
      rcases hmem with rfl | rfl | rfl | rfl <;> simp [escapeChar] at h
    simp [isBareBlank, hmem]

/-- A bare blank is read from itself. -/
theorem head?_of_unescape {separator : Option Char} {cs rest : List Char} {c : Char}
    (hseparator : ∀ c, separator = some c → Text.isBlank c = false)
    (hc : isBareBlank c = true) (h : unescape separator cs = some (c :: rest)) :
    cs.head? = some c := by
  obtain ⟨hblank, hmem⟩ := isBareBlank_iff.mp hc
  simp only [escapedBlanks, List.mem_cons, List.not_mem_nil, or_false, not_or] at hmem
  obtain ⟨hspace, htab, hlf, hcr⟩ := hmem
  cases cs with
  | nil => cases h
  | cons d cs =>
      by_cases hd : d = '\\'
      · exfalso
        subst hd
        cases cs with
        | nil => cases h
        | cons letter cs =>
            rw [unescape_pair] at h
            obtain ⟨x, hx, hmap⟩ := Option.bind_eq_some_iff.mp h
            obtain ⟨_, -, hcons⟩ := Option.map_eq_some_iff.mp hmap
            obtain rfl : x = c := (List.cons.inj hcons).1
            have hbackslash := ne_backslash_of_bareBlank hc
            unfold unescapeLetter at hx
            split at hx
            · exact hspace (Option.some.inj hx).symm
            split at hx
            · exact hlf (Option.some.inj hx).symm
            split at hx
            · exact htab (Option.some.inj hx).symm
            split at hx
            · exact hcr (Option.some.inj hx).symm
            split at hx
            · exact hbackslash (Option.some.inj hx).symm
            split at hx
            next hself =>
              rw [(Option.some.inj hx).symm] at hblank
              exact Bool.false_ne_true ((hseparator letter hself).symm.trans hblank)
            next => cases hx
      · rw [unescape_plain hd] at h
        obtain ⟨_, -, hcons⟩ := Option.map_eq_some_iff.mp h
        rw [(List.cons.inj hcons).1]
        rfl

/-- The first piece starts where the text starts. -/
theorem head?_of_pieces {separator c : Char} {cs piece : List Char} {more : List (List Char)}
    (h : pieces separator cs = (c :: piece) :: more) : cs.head? = some c := by
  have honto {front : List Char} {ps : List (List Char)} (hfront : front ≠ [])
      (hps : onto front ps = (c :: piece) :: more) : front.head? = some c := by
    cases front with
    | nil => exact absurd rfl hfront
    | cons d front =>
        cases ps <;> cases hps <;> rfl
  cases cs with
  | nil => cases h
  | cons d cs =>
      by_cases hd : d = '\\'
      · subst hd
        cases cs with
        | nil =>
            cases h
            rfl
        | cons letter cs =>
            rw [pieces_pair] at h
            have hfront := honto (List.cons_ne_nil _ _) h
            exact hfront
      · by_cases hself : d = separator
        · subst hself
          rw [pieces_separator hd] at h
          cases h
        · rw [pieces_plain hd hself] at h
          have hfront := honto (List.cons_ne_nil d []) h
          exact hfront

end Escape

/-! ### Values -/

/-- Whether the text of a value starts with a blank that no escape protects. -/
def Value.startsBare : Value → Bool
  | .string text => Escape.startsBare text
  | .stringArray (item :: _) => Escape.startsBare item
  | _ => false

/-- A settled text starts with no blank. -/
theorem Keyfile.startsBlank_settle (text : String) :
    Text.startsBlank (settle text).toList = false := by
  have hfront := List.head?_dropWhile_not Text.isBlank (Text.dropReturn text.toList)
  rw [settle, String.toList_ofList, Text.startsBlank, Text.trimStart]
  cases hhead : ((Text.dropReturn text.toList).dropWhile Text.isBlank).head? with
  | none => rfl
  | some c =>
      rw [hhead] at hfront
      exact hfront

namespace Codec

variable {codec : Codec}

/-- What a text starts with, after it is escaped. -/
theorem startsBlank_escape_append (separator : Option Char)
    (hseparator : ∀ c, separator = some c → Text.isBlank c = false) (text : String)
    (back : List Char) (hback : ∀ c, back.head? = some c → Text.isBlank c = false) :
    Text.startsBlank (Escape.escape separator text.toList ++ back) =
      Escape.startsBare text := by
  rw [Escape.startsBare, Escape.escape]
  cases text.toList with
  | nil =>
      rw [Escape.escapeFrom, List.nil_append, Text.startsBlank, List.head?_nil, Option.any_none]
      cases hfront : back.head? with
      | none => rfl
      | some c => exact hback c hfront
  | cons c rest =>
      obtain ⟨front, more, hescape, hsame⟩ := Escape.escapeChar_front hseparator c
      rw [Escape.escapeFrom, hescape]
      exact hsame

/-- A text without blanks starts with none. -/
theorem startsBlank_of_not_blank {cs : List Char} (h : ∀ c ∈ cs, Text.isBlank c = false) :
    Text.startsBlank (String.ofList cs).toList = false := by
  rw [String.toList_ofList]
  cases cs with
  | nil => rfl
  | cons c rest => exact h c List.mem_cons_self

/-- What a list starts with. -/
theorem startsBlank_joinItems (hblank : Text.isBlank codec.separator = false) (item : String)
    (items : List String) :
    Text.startsBlank (codec.joinItems (item :: items)).toList = Escape.startsBare item := by
  rw [joinItems, String.toList_ofList, List.map_cons, Escape.join_cons]
  refine startsBlank_escape_append (some codec.separator) ?_ item _ ?_
  · intro c hc
    cases hc
    exact hblank
  · intro c hc
    cases hc
    exact hblank

theorem startsBare_of_not_blank {cs : List Char} (h : ∀ c ∈ cs, Text.isBlank c = false) :
    Escape.startsBare (String.ofList cs) = false := by
  rw [Escape.startsBare, String.toList_ofList]
  cases cs with
  | nil => rfl
  | cons c rest =>
      have hc := h c List.mem_cons_self
      simp [Escape.isBareBlank, hc]

/-- Object paths start with a slash. -/
theorem startsBare_path (path : ObjectPath) : Escape.startsBare path.text = false := by
  have hvalid := path.valid
  unfold isObjectPath at hvalid
  rw [Escape.startsBare]
  have hslash : Escape.isBareBlank '/' = false := by decide
  split at hvalid
  next h =>
    rw [h]
    exact hslash
  next h =>
    rw [h]
    exact hslash
  next => cases hvalid

/-- The text of a value starts with a blank exactly if the value starts with a bare
one. -/
theorem startsBlank_escape (hblank : Text.isBlank codec.separator = false) (v : Value) :
    Text.startsBlank (codec.escape v).toList = v.startsBare := by
  have htext (text : String) :
      Text.startsBlank (escapeText text).toList = Escape.startsBare text := by
    have hfront := startsBlank_escape_append none nofun text [] nofun
    rw [List.append_nil] at hfront
    rw [escapeText, String.toList_ofList]
    exact hfront
  cases v with
  | string text => exact htext text
  | objectPath path => exact (htext path.text).trans (startsBare_path path)
  | boolean flag =>
      have hfalse : Text.startsBlank "false".toList = false := by decide
      have htrue : Text.startsBlank "true".toList = false := by decide
      cases flag with
      | false => exact hfalse
      | true => exact htrue
  | int32 n => exact startsBlank_of_not_blank fun _ h => Number.isBlank_of_mem_intText h
  | int64 n => exact startsBlank_of_not_blank fun _ h => Number.isBlank_of_mem_intText h
  | uint32 n => exact startsBlank_of_not_blank fun _ h => Number.isBlank_of_mem_natText h
  | uint64 n => exact startsBlank_of_not_blank fun _ h => Number.isBlank_of_mem_natText h
  | byte n => exact startsBlank_of_not_blank fun _ h => Number.isBlank_of_mem_natText h
  | double d => exact startsBlank_of_not_blank fun _ h => Double.isBlank_of_mem_text h
  | stringArray items =>
      cases items with
      | nil => rfl
      | cons item items => exact startsBlank_joinItems hblank item items
  | objectPathArray paths =>
      cases paths with
      | nil => rfl
      | cons path paths =>
          have hfront := startsBlank_joinItems hblank path.text (paths.map ObjectPath.text)
          exact hfront.trans (startsBare_path path)
  | simplePresence p =>
      have hfront := startsBlank_joinItems hblank (String.ofList (Number.natText p.kind.toNat))
        [p.status, p.message]
      exact hfront.trans (startsBare_of_not_blank fun _ h => Number.isBlank_of_mem_natText h)

/-- A text starts with a bare blank only if what it is read from does. -/
theorem startsBlank_of_unescapeText {text read : String} (h : unescapeText text = .ok read)
    (hbare : Escape.startsBare read = true) : Text.startsBlank text.toList = true := by
  rw [unescapeText] at h
  cases hread : Escape.unescape none text.toList with
  | none =>
      rw [hread] at h
      cases h
  | some cs =>
      rw [hread] at h
      cases h
      rw [Escape.startsBare, String.toList_ofList] at hbare
      cases cs with
      | nil => cases hbare
      | cons c rest =>
          have hnone : ∀ d, (none : Option Char) = some d → Text.isBlank d = false := by
            intro d hd
            cases hd
          rw [Text.startsBlank, Escape.head?_of_unescape hnone hbare hread]
          exact (Escape.isBareBlank_iff.mp hbare).1

/-- The first item of a list starts with a bare blank only if what the list is read
from does. -/
theorem startsBlank_of_splitItems (hblank : Text.isBlank codec.separator = false) {text item : String}
    {items : List String} (h : codec.splitItems text = .ok (item :: items))
    (hbare : Escape.startsBare item = true) : Text.startsBlank text.toList = true := by
  rw [splitItems] at h
  cases hpieces : Escape.pieces codec.separator text.toList with
  | nil =>
      rw [hpieces] at h
      cases h
  | cons piece more =>
      rw [hpieces, List.mapM_cons, unescapePiece] at h
      cases hread : Escape.unescape (some codec.separator) piece with
      | none =>
          rw [hread] at h
          cases h
      | some cs =>
          rw [hread] at h
          have hitem : String.ofList cs = item := by
            cases hmore : more.mapM codec.unescapePiece with
            | error fault =>
                rw [hmore] at h
                cases h
            | ok read =>
                rw [hmore] at h
                cases h
                rfl
          rw [← hitem, Escape.startsBare, String.toList_ofList] at hbare
          cases cs with
          | nil => cases hbare
          | cons c rest =>
              have hseparator : ∀ d, some codec.separator = some d → Text.isBlank d = false := by
                intro d hd
                rw [← Option.some.inj hd]
                exact hblank
              have hpiece := Escape.head?_of_unescape hseparator hbare hread
              obtain ⟨tail, rfl⟩ := List.head?_eq_some_iff.mp hpiece
              rw [Text.startsBlank, Escape.head?_of_pieces hpieces]
              exact (Escape.isBareBlank_iff.mp hbare).1

/-- A text that is read as a value that starts with a bare blank starts with a
blank. -/
theorem startsBlank_of_unescape (hblank : Text.isBlank codec.separator = false) {text : String}
    {type : ValueType} {v : Value} (h : codec.unescape text type = .ok v)
    (hbare : v.startsBare = true) : Text.startsBlank text.toList = true := by
  have htype := type_of_unescape h
  cases v with
  | string read =>
      obtain rfl : ValueType.string = type := htype
      rw [unescape] at h
      cases hread : unescapeText text with
      | error fault =>
          rw [hread] at h
          cases h
      | ok other =>
          rw [hread] at h
          cases h
          exact startsBlank_of_unescapeText hread hbare
  | stringArray items =>
      obtain rfl : ValueType.stringArray = type := htype
      rw [unescape] at h
      cases hread : codec.splitItems text with
      | error fault =>
          rw [hread] at h
          cases h
      | ok other =>
          rw [hread] at h
          cases h
          cases items with
          | nil => cases hbare
          | cons item items => exact startsBlank_of_splitItems hblank hread hbare
  | _ => cases hbare

/-- The text of a value that starts with no bare blank is settled. -/
theorem settle_escape (hblank : Text.isBlank codec.separator = false) {v : Value}
    (hbare : v.startsBare = false) : Keyfile.settle (codec.escape v) = codec.escape v := by
  refine Keyfile.settle_eq_self_iff.mpr ⟨fun c hc => ?_, fun hlast => ?_⟩
  · have hfront := startsBlank_escape hblank v
    rw [Text.startsBlank, hc, hbare] at hfront
    exact hfront
  · -- a separator that ends lines would be a blank
    have hline : Keyfile.isOneLine (codec.escape v) = true := by
      refine isOneLine_escape ?_ ?_ v
      · intro hlf
        rw [hlf] at hblank
        cases hblank
      · intro hcr
        rw [hcr] at hblank
        cases hblank
    rw [← String.ofList_toList (s := codec.escape v)] at hline
    exact (Keyfile.isOneLine_ofList_iff.mp hline _ (List.mem_of_getLast? hlast)).2 rfl

/-- A value survives a key-file exactly if it starts with no bare blank. -/
theorem unescape_settle_escape_iff (hsafe : codec.Safe)
    (hblank : Text.isBlank codec.separator = false) {v : Value} (hnan : v.isNan = false) :
    codec.unescape (Keyfile.settle (codec.escape v)) v.type = .ok v ↔ v.startsBare = false := by
  constructor
  · intro h
    cases hbare : v.startsBare with
    | false => rfl
    | true =>
        have hfront := startsBlank_of_unescape hblank h hbare
        rw [Keyfile.startsBlank_settle] at hfront
        exact absurd hfront Bool.false_ne_true
  · intro hbare
    rw [settle_escape hblank hbare]
    exact unescape_escape hsafe hnan

end Codec

end AccountRoster
