import AccountRoster.Proofs.Codec.OneLine
import AccountRoster.Proofs.Keyfile.Rereading

/-!
# Writing what was read

A key-file that was read is written and read again as the same file, unless one of its
values ends with a carriage return. Reading takes the blanks from the front of a value
and keeps its end, and a carriage return can stand there: before the end of a text
without a last line feed, or before another carriage return that goes with its line feed.

## Implementation notes

A value of a file that was read is the value of one of its lines. What is true of the
values of all lines is therefore true of the file, and `AllValues` shows this once for
the front and for the end of a value.
-/

namespace AccountRoster

namespace Keyfile

/-- Whether all values of a key-file have a property. -/
def AllValues (P : String → Prop) (f : Keyfile) : Prop :=
  ∀ group key value, f.value? group key = some value → P value

variable {P : String → Prop} {f : Keyfile}

theorem allValues_new (separator : Char) : (new separator).AllValues P := by
  intro group key value h
  rw [value?_new] at h
  cases h

theorem AllValues.enter (h : f.AllValues P) (group key : String) {value : String}
    (hvalue : P value) : (f.enter group key value).AllValues P := by
  intro other k v hget
  rw [value?_enter] at hget
  split at hget
  next =>
    cases hget
    exact hvalue
  next => exact h other k v hget

theorem AllValues.openGroup (h : f.AllValues P) (group : String) :
    (f.openGroup group).AllValues P := by
  intro other k v hget
  rw [value?, entries_openGroup] at hget
  exact h other k v hget

variable {text : String} {separator : Char}

/-- What the end of a line has without the blanks in front, all values have. -/
theorem allValues_of_parse
    (hlines : ∀ line ∈ Text.lines text.toList, ∀ cs, cs <:+ line →
      P (String.ofList (Text.trimStart cs)))
    (h : parse text separator = .ok f) : f.AllValues P := by
  have hkept : KeptByReading (AllValues P) (Text.lines text.toList) := by
    refine ⟨fun hf group _ => hf.openGroup group, ?_⟩
    intro f hf group key line cs _ _ hline hsuffix
    exact hf.enter group key (hlines line hline cs hsuffix)
  exact hkept.parse (allValues_new separator) h

/-- No value of a file that was read starts with a blank. -/
theorem front_of_parse (h : parse text separator = .ok f) :
    f.AllValues fun value => ∀ c, value.toList.head? = some c → Text.isBlank c = false := by
  refine allValues_of_parse (fun line _ cs _ c hc => ?_) h
  rw [String.toList_ofList] at hc
  exact (Text.trimStart_eq_iff.mp rfl).2 c hc

/-- A value ends with a carriage return only if its line does. -/
theorem last_of_parse (h : parse text separator = .ok f)
    (hlines : ∀ line ∈ Text.lines text.toList, line.getLast? ≠ some '\r') :
    f.AllValues fun value => value.toList.getLast? ≠ some '\r' := by
  refine allValues_of_parse (fun line hline cs hsuffix hlast => ?_) h
  rw [String.toList_ofList] at hlast
  obtain ⟨front, rfl⟩ := (List.dropWhile_suffix Text.isBlank).trans hsuffix
  refine hlines _ hline ?_
  rw [List.getLast?_append, ← Text.trimStart, hlast, Option.some_or]

/-- A file that was read is written and read again as the same file exactly if none of
its values ends with a carriage return. This is so if no line of the text that was read
ends with one. -/
theorem parse_toData_of_parse_iff (h : parse text separator = .ok f) :
    (parse f.toData separator = .ok f ↔
        ∀ group key value, f.value? group key = some value →
          value.toList.getLast? ≠ some '\r') ∧
      ((∀ line ∈ Text.lines text.toList, line.getLast? ≠ some '\r') →
        parse f.toData separator = .ok f) := by
  obtain ⟨hwell, hseparator⟩ := wellFormed_of_parse h
  have hfront := front_of_parse h
  have hwritten := parse_toData hwell
  rw [hseparator] at hwritten
  have hstable : parse f.toData separator = .ok f ↔
      f.AllValues fun value => value.toList.getLast? ≠ some '\r' := by
    rw [hwritten, Except.ok.injEq, settled_eq_self_iff]
    constructor
    · intro hsettle group key value hvalue
      exact (settle_eq_self_iff.mp (hsettle group key value hvalue)).2
    · intro hlast group key value hvalue
      refine settle_eq_self_iff.mpr ⟨?_, hlast group key value hvalue⟩
      exact hfront group key value hvalue
  exact ⟨hstable, fun hlines => hstable.mpr (last_of_parse h hlines)⟩

/-- Line ends of two characters and blanks around the equals sign are not kept, and the
file is stable for all that. -/
theorem parse_toData_of_parse_crlf :
    let f := (new ',').enter "g" "k" "v "
    parse "[g]\r\n\r\nk =\tv \r\n" ',' = .ok f ∧ parse f.toData ',' = .ok f := by
  intro f
  have hread : parse "[g]\r\n\r\nk =\tv \r\n" ',' = .ok f :=
    Except.eq_ok_of_toOption (by decide +kernel)
  refine ⟨hread, (parse_toData_of_parse_iff hread).2 ?_⟩
  decide +kernel

/-- A carriage return before the end of the text becomes part of a line end when the
file is written. -/
theorem parse_toData_of_parse_lone_return :
    ∃ f, parse "[g]\nk=v\r" ',' = .ok f ∧ parse f.toData ',' ≠ .ok f := by
  refine ⟨(new ',').enter "g" "k" "v\r", Except.eq_ok_of_toOption (by decide +kernel), ?_⟩
  intro h
  have hread := congrArg Except.toOption h
  revert hread
  decide +kernel

end Keyfile

end AccountRoster
