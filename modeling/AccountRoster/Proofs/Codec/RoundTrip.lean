import AccountRoster.Codec
import AccountRoster.Proofs.Codec.DoubleText
import AccountRoster.Proofs.Codec.Escape

/-!
# The codec round trip

What `escape` writes for a value, `unescape` reads back as that value, for every
type and every value but the double that is no number. It takes a separator that
is no escape letter, and a list item that is the letter shows that it has to.

## Implementation notes

There is one read-back lemma per kind of text; `unescape_escape` has one case per
type, and each case is one of them.
-/

namespace AccountRoster.Codec

/-- A codec whose separator is no escape letter. -/
def Safe (codec : Codec) : Prop := codec.separator ∉ Escape.letters

theorem unescapeText_escapeText (text : String) : unescapeText (escapeText text) = .ok text := by
  simp [unescapeText, escapeText, Escape.unescape_escape Escape.distinct_none]

theorem mapM_eq_ok {α β γ ε : Type} {f : α → Except ε β} {g : γ → α} {h : γ → β}
    (hfg : ∀ x, f (g x) = .ok (h x)) (xs : List γ) : (xs.map g).mapM f = .ok (xs.map h) := by
  have hpure : f ∘ g = fun x => pure (h x) := funext hfg
  rw [List.mapM_map, hpure, List.mapM_pure]
  rfl

theorem map_eq_self_iff {α : Type} {f : α → α} {xs : List α} :
    xs.map f = xs ↔ ∀ x ∈ xs, f x = x :=
  calc
    xs.map f = xs ↔ xs.map f = xs.map id := by rw [List.map_id]
    _ ↔ ∀ x ∈ xs, f x = x := List.map_inj_left

/-- The item as which an item of a list is read: the separator in it may be mistaken
for an escape letter. -/
def reread (codec : Codec) (item : String) : String :=
  String.ofList (item.toList.map (Escape.asRead (some codec.separator)))

/-- A list reads back item by item, unless the separator is the backslash. -/
theorem splitItems_joinItems_reread {codec : Codec} (hb : codec.separator ≠ '\\')
    (items : List String) :
    codec.splitItems (codec.joinItems items) = .ok (items.map codec.reread) := by
  have hpiece (item : String) :
      codec.unescapePiece (Escape.escape (some codec.separator) item.toList) =
        .ok (codec.reread item) := by
    rw [unescapePiece, Escape.escape, Escape.unescape_escapeFrom]
    rfl
  unfold splitItems joinItems
  rw [String.toList_ofList, Escape.pieces_join hb, List.map_map]
  exact mapM_eq_ok hpiece items

/-- An item reads back unless it has an escape letter in it that is the separator. -/
theorem reread_eq_self_iff {codec : Codec} {item : String} :
    codec.reread item = item ↔
      (codec.separator ∈ ['s', 'n', 't', 'r'] → codec.separator ∉ item.toList) := by
  have hchars : codec.reread item = item ↔
      ∀ c ∈ item.toList, Escape.asRead (some codec.separator) c = c := by
    rw [← map_eq_self_iff, reread]
    constructor
    · intro h
      rw [← String.toList_ofList (l := item.toList.map _), h]
    · intro h
      rw [h, String.ofList_toList]
  rw [hchars]
  constructor
  · intro h hletter hmem
    exact Escape.asRead_letter_ne hletter (h codec.separator hmem)
  · intro h c hc
    by_cases heq : codec.separator = c
    · subst heq
      exact Escape.asRead_of_notMem (fun hletter => h hletter hc) _
    · exact Escape.asRead_of_ne fun hsome => heq (Option.some_inj.mp hsome)

/-- A list reads back item by item. -/
theorem splitItems_joinItems {codec : Codec} (hs : codec.Safe) (items : List String) :
    codec.splitItems (codec.joinItems items) = .ok items := by
  have hself : Escape.asRead (some codec.separator) = id :=
    funext (Escape.asRead_of_distinct (Escape.distinct_some hs))
  have hreread : codec.reread = id := by
    funext item
    rw [reread, hself, List.map_id, String.ofList_toList]
    rfl
  rw [splitItems_joinItems_reread (Escape.ne_backslash_of_notMem_letters hs), hreread, List.map_id]

theorem readPath_text (path : ObjectPath) : readPath path.text = .ok path := by
  simp [readPath]

/-- The text of a number is read within ranges that hold it. -/
theorem readInteger_intText {working target : IntegerRange} {expected : ValueType} {n : Int}
    (hw : working.holds n = true) (ht : target.holds n = true) :
    readInteger working target expected (String.ofList (Number.intText n)) = .ok n := by
  unfold readInteger
  rw [String.toList_ofList, Number.trim_intText, Number.readWithin_intText hw ht]

theorem readInteger_natText {working target : IntegerRange} {expected : ValueType} {n : Nat}
    (hw : working.holds n = true) (ht : target.holds n = true) :
    readInteger working target expected (String.ofList (Number.natText n)) = .ok n := by
  rw [← Number.intText_natCast]
  exact readInteger_intText hw ht

/-- A 32-bit number is in the range that its text is first read in. -/
theorem uint64_holds_uint32 (n : UInt32) : IntegerRange.uint64.holds n.toNat = true :=
  IntegerRange.holds_of_le (by decide) (by decide) (IntegerRange.uint32_holds n)

theorem int32_holds_byte (n : UInt8) : IntegerRange.int32.holds n.toNat = true :=
  IntegerRange.holds_of_le (by decide) (by decide) (IntegerRange.byte_holds n)

theorem readKind_natText (kind : UInt32) :
    readKind (String.ofList (Number.natText kind.toNat)) = .ok kind := by
  have hread : Number.readWithin .uint64 .uint32 (Number.natText kind.toNat) =
      .ok (kind.toNat : Int) := by
    rw [← Number.intText_natCast]
    exact Number.readWithin_intText (uint64_holds_uint32 kind) (IntegerRange.uint32_holds kind)
  unfold readKind
  rw [String.toList_ofList, hread]
  simp

theorem readPresence_joinItems {codec : Codec} (hs : codec.Safe) (p : SimplePresence) :
    codec.readPresence
      (codec.joinItems [String.ofList (Number.natText p.kind.toNat), p.status, p.message]) =
        .ok p := by
  unfold readPresence
  rw [splitItems_joinItems hs]
  change (do return ⟨← readKind _, p.status, p.message⟩ : Except CodecFault SimplePresence) = _
  rw [readKind_natText]
  rfl

theorem readDouble_text {d : Double} (h : d.isNan = false) :
    readDouble (String.ofList d.text) = .ok d := by
  have htrim : Text.trim d.text = d.text :=
    Text.trim_eq_self fun _ hc => Double.isBlank_of_mem_text hc
  unfold readDouble
  rw [String.toList_ofList, htrim, Double.read_text h]

theorem readBoolean_text (flag : Bool) :
    readBoolean (if flag then "true" else "false") = .ok flag := by
  cases flag <;> rfl

/-- What is written for a value reads back as that value. -/
theorem unescape_escape {codec : Codec} (hs : codec.Safe) {v : Value} (hv : v.isNan = false) :
    codec.unescape (codec.escape v) v.type = .ok v := by
  cases v with
  | string text =>
      simp only [escape, Value.type, unescape, unescapeText_escapeText]
      rfl
  | boolean flag =>
      simp only [escape, Value.type, unescape, readBoolean_text]
      rfl
  | int32 n =>
      have hn := IntegerRange.int32_holds n
      simp only [escape, Value.type, unescape, readInteger_intText hn hn]
      exact congrArg (fun k => Except.ok (Value.int32 k)) n.ofInt_toInt
  | int64 n =>
      have hn := IntegerRange.int64_holds n
      simp only [escape, Value.type, unescape, readInteger_intText hn hn]
      exact congrArg (fun k => Except.ok (Value.int64 k)) n.ofInt_toInt
  | uint32 n =>
      simp only [escape, Value.type, unescape,
        readInteger_natText (uint64_holds_uint32 n) (IntegerRange.uint32_holds n)]
      exact congrArg (fun k => Except.ok (Value.uint32 k)) n.ofNat_toNat
  | uint64 n =>
      have hn := IntegerRange.uint64_holds n
      simp only [escape, Value.type, unescape, readInteger_natText hn hn]
      exact congrArg (fun k => Except.ok (Value.uint64 k)) n.ofNat_toNat
  | byte n =>
      simp only [escape, Value.type, unescape,
        readInteger_natText (int32_holds_byte n) (IntegerRange.byte_holds n)]
      exact congrArg (fun k => Except.ok (Value.byte k)) n.ofNat_toNat
  | double d =>
      simp only [escape, Value.type, unescape, readDouble_text hv]
      rfl
  | stringArray items =>
      simp only [escape, Value.type, unescape, splitItems_joinItems hs]
      rfl
  | objectPath path =>
      simp only [escape, Value.type, unescape, unescapeText_escapeText]
      change (do return Value.objectPath (← readPath path.text)) = _
      rw [readPath_text]
      rfl
  | objectPathArray paths =>
      simp only [escape, Value.type, unescape, splitItems_joinItems hs]
      change (do return Value.objectPathArray (← (paths.map ObjectPath.text).mapM readPath)) = _
      rw [mapM_eq_ok readPath_text, List.map_id']
      rfl
  | simplePresence p =>
      simp only [escape, Value.type, unescape, readPresence_joinItems hs]
      rfl

/-- A list of the one item that is the separator does not survive an escape letter
as the separator. -/
theorem unescape_escape_letter_ne {c : Char} (hc : c ∈ Escape.letters) :
    (Codec.mk c).unescape ((Codec.mk c).escape (.stringArray [String.ofList [c]]))
      .stringArray ≠ .ok (.stringArray [String.ofList [c]]) := by
  intro h
  have hread := congrArg Except.toOption h
  simp only [Escape.letters, List.mem_cons, List.not_mem_nil, or_false] at hc
  revert hread
  rcases hc with rfl | rfl | rfl | rfl | rfl <;> decide +kernel

/-- A codec loses nothing but what is no number, for every type and every value,
exactly when its separator is no escape letter. -/
theorem lossless_iff_separator_notMem (c : Char) :
    (∀ v : Value, v.isNan = false →
        (Codec.mk c).unescape ((Codec.mk c).escape v) v.type = .ok v) ↔
      c ∉ ['\\', 's', 'n', 't', 'r'] := by
  constructor
  · intro h hc
    exact unescape_escape_letter_ne hc (h _ rfl)
  · intro hc v hv
    exact unescape_escape hc hv

end AccountRoster.Codec
