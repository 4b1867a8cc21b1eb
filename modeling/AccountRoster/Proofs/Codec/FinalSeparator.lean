import AccountRoster.Proofs.Codec.RoundTrip

/-!
# A list without its final separator

Every item of a list is written with a separator behind it. A reader can do without the
last one of these, as what follows the last separator is an item as well; only nothing is
none. So the list comes back whole if its last item is a text, and without that item if it
is empty.

## Implementation notes

The text without its final separator is a joined list and the escapes of one more item.
`pieces_join_append` cuts off the list, `pieces_escapeFrom` says what the rest amounts to.
-/

namespace AccountRoster

namespace Escape

/-- The escapes of an item that nothing ends are a piece, unless the item is empty. -/
theorem pieces_escapeFrom (separator : Char) (leading : Bool) (cs : List Char) :
    pieces separator (escapeFrom (some separator) leading cs) =
      if cs = [] then [] else [escapeFrom (some separator) leading cs] := by
  induction cs generalizing leading with
  | nil => rfl
  | cons c rest ih =>
      rw [escapeFrom, pieces_escapeChar_append, ih, if_neg (List.cons_ne_nil c rest)]
      split
      next hnil =>
        subst hnil
        exact congrArg (· :: []) (List.append_nil _).symm
      next => rfl

/-- Items that are ended and one that is not are cut apart like items that are all ended,
unless the last one is empty. -/
theorem pieces_join_append_escape {separator : Char} (hb : separator ≠ '\\')
    (items : List (List Char)) (last : List Char) :
    pieces separator (join separator items ++ escape (some separator) last) =
      (if last = [] then items else items ++ [last]).map (escape (some separator)) := by
  rw [pieces_join_append hb, escape, pieces_escapeFrom]
  split
  next => exact List.append_nil _
  next => rw [List.map_append]; rfl

end Escape

namespace Codec

variable {codec : Codec}

/-- The text of items that are all ended, and of one more behind them. -/
def joinOpen (codec : Codec) (items : List String) (last : String) : String :=
  String.ofList (Escape.join codec.separator (items.map String.toList) ++
    Escape.escape (some codec.separator) last.toList)

/-- What ends the last item is one more separator. -/
theorem joinItems_concat (codec : Codec) (items : List String) (last : String) :
    codec.joinItems (items ++ [last]) =
      codec.joinOpen items last ++ String.singleton codec.separator := by
  apply String.toList_inj.mp
  simp [joinItems, joinOpen, Escape.join]

theorem unescapePiece_escape (hs : codec.Safe) (item : String) :
    codec.unescapePiece (Escape.escape (some codec.separator) item.toList) = .ok item := by
  rw [unescapePiece, Escape.unescape_escape (Escape.distinct_some hs)]
  exact congrArg Except.ok String.ofList_toList

/-- The last item is read although nothing ends it, if there is anything of it. -/
theorem splitItems_joinOpen (hs : codec.Safe) (items : List String) (last : String) :
    codec.splitItems (codec.joinOpen items last) =
      .ok (if last = "" then items else items ++ [last]) := by
  have hitems : (if last.toList = [] then items.map String.toList
      else items.map String.toList ++ [last.toList]) =
        (if last = "" then items else items ++ [last]).map String.toList := by
    simp only [String.toList_eq_nil_iff]
    split <;> simp
  rw [splitItems, joinOpen, String.toList_ofList,
    Escape.pieces_join_append_escape (Escape.ne_backslash_of_notMem_letters hs), hitems,
    List.map_map]
  exact (mapM_eq_ok (unescapePiece_escape hs) _).trans (congrArg Except.ok (List.map_id _))

/-- The separator at the end of a list is optional unless the last item is empty, which is
lost without it. -/
theorem final_separator_optional {c : Char} (hc : c ∉ ['\\', 's', 'n', 't', 'r'])
    {items : List String} (hitems : items ≠ []) :
    ∃ text, (Codec.mk c).escape (.stringArray items) = text ++ String.singleton c ∧
      (items.getLast hitems ≠ "" →
        (Codec.mk c).unescape text .stringArray = .ok (.stringArray items)) ∧
      (items.getLast hitems = "" →
        (Codec.mk c).unescape text .stringArray = .ok (.stringArray items.dropLast)) := by
  have hlist : items.dropLast ++ [items.getLast hitems] = items := List.dropLast_concat_getLast hitems
  have hsafe : (Codec.mk c).Safe := hc
  have hread := splitItems_joinOpen hsafe items.dropLast (items.getLast hitems)
  rw [hlist] at hread
  refine ⟨(Codec.mk c).joinOpen items.dropLast (items.getLast hitems), ?_, ?_, ?_⟩
  · rw [escape, ← joinItems_concat, hlist]
  · intro hlast
    rw [if_neg hlast] at hread
    rw [unescape, hread]
    rfl
  · intro hlast
    rw [if_pos hlast] at hread
    rw [unescape, hread]
    rfl

/-- An escaped separator ends nothing, and an item that is nothing but empty is lost. -/
theorem final_separator_optional_semicolon :
    ';' ∉ ['\\', 's', 'n', 't', 'r'] ∧
      (∃ text, text ++ ";" = ";b\\;;" ∧
        (Codec.mk ';').unescape text .stringArray = .ok (.stringArray ["", "b;"])) ∧
      ∃ text, text ++ ";" = "b\\;;;" ∧
        (Codec.mk ';').unescape text .stringArray = .ok (.stringArray ["b;"]) := by
  have hsafe : ';' ∉ ['\\', 's', 'n', 't', 'r'] := by decide
  have hfull : (Codec.mk ';').escape (.stringArray ["", "b;"]) = ";b\\;;" := by decide +kernel
  have hempty : (Codec.mk ';').escape (.stringArray ["b;", ""]) = "b\\;;;" := by decide +kernel
  obtain ⟨full, hfulltext, hread, -⟩ :=
    final_separator_optional hsafe (List.cons_ne_nil "" ["b;"])
  obtain ⟨short, hshorttext, -, hlost⟩ :=
    final_separator_optional hsafe (List.cons_ne_nil "b;" [""])
  exact ⟨hsafe, ⟨full, hfulltext.symm.trans hfull, hread (by decide)⟩,
    short, hshorttext.symm.trans hempty, hlost (by decide)⟩

end Codec

end AccountRoster
