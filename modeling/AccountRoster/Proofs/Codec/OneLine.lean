import AccountRoster.Keyfile
import AccountRoster.Proofs.Codec.DoubleText
import AccountRoster.Proofs.Codec.Escape
import AccountRoster.Proofs.Codec.Numeral
import AccountRoster.Proofs.Codec.RoundTrip

/-!
# Stored text stays on one line

A line feed or carriage return of a value is always escaped, so the text of a
value ends no line unless the separator of the codec does. A separator that ends no
line and is no escape letter fits a key-file. Conversion gives a value of the type that
was asked for.
-/

namespace AccountRoster

namespace Keyfile

theorem isOneLine_ofList_iff {cs : List Char} :
    isOneLine (String.ofList cs) = true ↔ ∀ c ∈ cs, c ≠ '\n' ∧ c ≠ '\r' := by
  simp [isOneLine]

/-- Line ends are blanks. -/
theorem isOneLine_of_not_blank {cs : List Char} (h : ∀ c ∈ cs, Text.isBlank c = false) :
    isOneLine (String.ofList cs) = true := by
  refine isOneLine_ofList_iff.mpr fun c hc => ⟨?_, ?_⟩
  · rintro rfl
    exact absurd (h _ hc) (by decide)
  · rintro rfl
    exact absurd (h _ hc) (by decide)

end Keyfile

namespace Escape

/-- Line ends come before the separator, so they are escaped even where they are
the separator. -/
theorem ne_lineEnd_of_mem_escapeChar {separator : Option Char} {leading : Bool} {c d : Char}
    (h : d ∈ escapeChar separator leading c) : d ≠ '\n' ∧ d ≠ '\r' := by
  have hpair {letter : Char} (hd : d ∈ ['\\', letter]) (hn : letter ≠ '\n') (hr : letter ≠ '\r') :
      d ≠ '\n' ∧ d ≠ '\r' := by
    rcases List.mem_cons.mp hd with rfl | hd
    · exact ⟨by decide, by decide⟩
    · rw [List.mem_singleton.mp hd]
      exact ⟨hn, hr⟩
  rcases escapeChar_cases separator leading c with
    ⟨-, letter, hescape, hletter⟩ | ⟨hplain, ⟨-, hescape⟩ | ⟨-, hescape⟩⟩
  · rw [hescape] at h
    refine hpair h ?_ ?_
    all_goals
      rintro rfl
      exact nomatch hletter none
  · rw [hescape] at h
    simp only [List.mem_cons, List.not_mem_nil, or_false, not_or] at hplain
    exact hpair h hplain.2.1 hplain.2.2
  · rw [hescape, List.mem_singleton] at h
    simp only [List.mem_cons, List.not_mem_nil, or_false, not_or] at hplain
    rw [h]
    exact hplain.2

theorem ne_lineEnd_of_mem_escapeFrom {separator : Option Char} {leading : Bool} {cs : List Char}
    {d : Char} (h : d ∈ escapeFrom separator leading cs) : d ≠ '\n' ∧ d ≠ '\r' := by
  induction cs generalizing leading with
  | nil => cases h
  | cons c rest ih =>
      rw [escapeFrom] at h
      rcases List.mem_append.mp h with h | h
      · exact ne_lineEnd_of_mem_escapeChar h
      · exact ih h

theorem ne_lineEnd_of_mem_join {separator : Char} (hn : separator ≠ '\n') (hr : separator ≠ '\r')
    {items : List (List Char)} {d : Char} (h : d ∈ join separator items) :
    d ≠ '\n' ∧ d ≠ '\r' := by
  obtain ⟨item, -, hitem⟩ := List.mem_flatMap.mp h
  rcases List.mem_append.mp hitem with hitem | hitem
  · exact ne_lineEnd_of_mem_escapeFrom hitem
  · rw [List.mem_singleton.mp hitem]
    exact ⟨hn, hr⟩

end Escape

theorem Except.eq_ok_of_toOption {ε α : Type} {result : Except ε α} {a : α}
    (h : result.toOption = some a) : result = .ok a := by
  cases result with
  | error e => cases h
  | ok b =>
      cases h
      rfl

namespace Codec

theorem isOneLine_escapeText (text : String) : Keyfile.isOneLine (escapeText text) = true :=
  Keyfile.isOneLine_ofList_iff.mpr fun _ h => Escape.ne_lineEnd_of_mem_escapeFrom h

theorem isOneLine_joinItems {codec : Codec} (hn : codec.separator ≠ '\n')
    (hr : codec.separator ≠ '\r') (items : List String) :
    Keyfile.isOneLine (codec.joinItems items) = true :=
  Keyfile.isOneLine_ofList_iff.mpr fun _ h => Escape.ne_lineEnd_of_mem_join hn hr h

/-- The text of a value is one line, unless the separator ends lines. -/
theorem isOneLine_escape {codec : Codec} (hn : codec.separator ≠ '\n')
    (hr : codec.separator ≠ '\r') (v : Value) : Keyfile.isOneLine (codec.escape v) = true := by
  cases v with
  | string text => exact isOneLine_escapeText text
  | objectPath path => exact isOneLine_escapeText path.text
  | boolean flag =>
      have hfalse : Keyfile.isOneLine "false" = true := by decide
      have htrue : Keyfile.isOneLine "true" = true := by decide
      cases flag with
      | false => exact hfalse
      | true => exact htrue
  | int32 n => exact Keyfile.isOneLine_of_not_blank fun _ h => Number.isBlank_of_mem_intText h
  | int64 n => exact Keyfile.isOneLine_of_not_blank fun _ h => Number.isBlank_of_mem_intText h
  | uint32 n => exact Keyfile.isOneLine_of_not_blank fun _ h => Number.isBlank_of_mem_natText h
  | uint64 n => exact Keyfile.isOneLine_of_not_blank fun _ h => Number.isBlank_of_mem_natText h
  | byte n => exact Keyfile.isOneLine_of_not_blank fun _ h => Number.isBlank_of_mem_natText h
  | double d => exact Keyfile.isOneLine_of_not_blank fun _ h => Double.isBlank_of_mem_text h
  | stringArray items => exact isOneLine_joinItems hn hr items
  | objectPathArray paths => exact isOneLine_joinItems hn hr _
  | simplePresence p => exact isOneLine_joinItems hn hr _

/-- A codec whose texts fit into a key-file and can be told apart there. -/
structure FitsKeyfile (codec : Codec) : Prop where
  safe : codec.Safe
  ne_lf : codec.separator ≠ '\n'
  ne_cr : codec.separator ≠ '\r'

theorem fitsKeyfile_iff {codec : Codec} :
    codec.FitsKeyfile ↔ codec.separator ∉ ['\\', 's', 'n', 't', 'r', '\n', '\r'] := by
  constructor
  · rintro ⟨hsafe, hlf, hcr⟩ hmem
    have hsplit : codec.separator ∈ Escape.letters ++ ['\n', '\r'] := hmem
    rcases List.mem_append.mp hsplit with h | h
    · exact hsafe h
    · rcases List.mem_cons.mp h with h | h
      · exact hlf h
      · exact hcr (List.mem_singleton.mp h)
  · intro h
    refine ⟨fun hmem => ?_, ?_, ?_⟩
    · have hsplit : codec.separator ∈ Escape.letters ++ ['\n', '\r'] :=
        List.mem_append_left _ hmem
      exact h hsplit
    · intro heq
      simp [heq] at h
    · intro heq
      simp [heq] at h

theorem fitsKeyfile_default : (Codec.mk defaultSeparator).FitsKeyfile :=
  fitsKeyfile_iff.mpr (by decide)

/-- A text is read as a value of the type that was asked for. -/
theorem type_of_unescape {codec : Codec} {text : String} {type : ValueType} {v : Value}
    (h : codec.unescape text type = .ok v) : v.type = type := by
  have hread {α : Type} (read : Except CodecFault α) (make : α → Value)
      (hok : (do return make (← read) : Except CodecFault Value) = .ok v)
      (hmake : ∀ a, (make a).type = type) : v.type = type := by
    cases read with
    | error fault => cases hok
    | ok a =>
        cases hok
        exact hmake a
  cases type with
  | objectPath =>
      rw [unescape] at h
      cases htext : unescapeText text with
      | error fault =>
          rw [htext] at h
          cases h
      | ok inner =>
          rw [htext] at h
          exact hread (readPath inner) Value.objectPath h fun _ => rfl
  | objectPathArray =>
      rw [unescape] at h
      cases hitems : codec.splitItems text with
      | error fault =>
          rw [hitems] at h
          cases h
      | ok items =>
          rw [hitems] at h
          exact hread (items.mapM readPath) Value.objectPathArray h fun _ => rfl
  | _ => exact hread _ _ h fun _ => rfl

theorem type_of_coerce {codec : Codec} {value v : Value} {target : ValueType}
    (h : codec.coerce value target = .ok v) : v.type = target := by
  rw [coerce] at h
  split at h
  next htype =>
    cases h
    exact htype
  next => exact type_of_unescape h

end Codec

end AccountRoster
