import AccountRoster.Proofs.Codec.RoundTrip
import AccountRoster.Proofs.Roster.Operations

/-!
# Typed reads of parameters

A parameter is cached as a value, or as the text that a plugin has pushed. A read that
asks for a type converts a value and reads a text, and both come to the same: what the
text of the parameter reads as in that type. How a parameter is kept does not show.

## Implementation notes

A value that has the type already is given as it is, without its text. That this makes
no difference is the round trip of the codec, which here needs no exception: all that is
no number is one double, and its text is read back too.
-/

namespace AccountRoster

namespace Codec

variable {codec : Codec}

theorem readDouble_nan : readDouble (String.ofList Double.nan.text) = .ok .nan := by
  rw [readDouble, String.toList_ofList]
  rfl

/-- What is no number reads back as well, as there is only one such double. -/
theorem unescape_escape_type (hs : codec.Safe) (v : Value) :
    codec.unescape (codec.escape v) v.type = .ok v := by
  cases hv : v.isNan with
  | false => exact unescape_escape hs hv
  | true =>
      cases v with
      | double d =>
          cases d with
          | nan =>
              simp only [escape, Value.type, unescape, readDouble_nan]
              rfl
          | signed negative code => cases hv
      | _ => cases hv

/-- To convert a value is to read its text, also where its type is asked for. -/
theorem coerce_eq_unescape (hs : codec.Safe) (v : Value) (type : ValueType) :
    codec.coerce v type = codec.unescape (codec.escape v) type := by
  rw [coerce]
  split
  next h => rw [← h, unescape_escape_type hs]
  next => rfl

end Codec

namespace Record

theorem text?_ofParameter (codec : Codec) (r : Record) (name : String) :
    r.text? codec (FlatKey.ofParameter name) = r.parameterText? codec name := by
  rw [text?, FlatKey.ofText_ofParameter]

/-- A parameter has the same text as a value and as the text of that value. -/
theorem parameterText?_putEscaped (codec : Codec) (r : Record) (name : String) (v : Value)
    (other : String) :
    (r.putEscaped name (some (codec.escape v))).parameterText? codec other =
      (r.putTyped name (some v)).parameterText? codec other := by
  rw [parameterText?, parameterText?, typed_putEscaped, typed_putTyped, escaped_putEscaped,
    escaped_putTyped]
  by_cases heq : name = other
  · simp only [if_pos heq]
  · simp only [if_neg heq]

end Record

namespace Cache

variable {c : Cache} {account : String} {record : Record}

/-- A typed read of a parameter is a read of its text. -/
theorem getParameter_eq_read (hs : c.codec.Safe) (h : c.record? account = some record)
    (name : String) (type : ValueType) :
    c.getParameter account name (some type) =
      match record.parameterText? c.codec name with
      | some text => liftCodec (c.codec.unescape text type)
      | none => .error (.notStored account (FlatKey.ofParameter name)) := by
  rw [getParameter, find, h, Record.parameterText?]
  dsimp only
  cases record.typed.get? name with
  | some value => exact congrArg liftCodec (Codec.coerce_eq_unescape hs value type)
  | none => rfl

theorem text?_ofParameter (h : c.record? account = some record) (name : String) :
    c.text? account (FlatKey.ofParameter name) = record.parameterText? c.codec name := by
  rw [text?, h, Option.bind_some, Record.text?_ofParameter]

end Cache

/-- Whatever has been done with a roster and by its plugins: a typed read of a parameter
of a cached account finds nothing exactly if the parameter has no text, and is otherwise
what its text reads as, fault or value. A parameter that is cached as a value could as
well be cached as the text of that value. -/
theorem typed_read_eq_unescape {codec : Codec} (hs : codec.Safe) {W : Type} (w : W)
    (operations : List (Operation W)) :
    let c := ((⟨Roster.new codec, w⟩ : Running W).operateAll operations).roster.cache
    ∀ account record, c.record? account = some record → ∀ name type,
      (c.getParameter account name (some type) =
          .error (.notStored account (FlatKey.ofParameter name)) ↔
        c.text? account (FlatKey.ofParameter name) = none) ∧
      (∀ text, c.text? account (FlatKey.ofParameter name) = some text →
        c.getParameter account name (some type) = liftCodec (codec.unescape text type)) ∧
      ∀ v other, (c.insert account (record.putTyped other (some v))).getParameter account name
          (some type) =
        (c.insert account (record.putEscaped other (some (codec.escape v)))).getParameter account
          name (some type) := by
  intro c account record hrecord name type
  have hreached : (⟨Roster.new codec, w⟩ : Running W).LeadsTo (fun _ => True)
      ((⟨Roster.new codec, w⟩ : Running W).operateAll operations) :=
    Running.leadsTo_operateAll _ fun _ _ _ _ => trivial
  have hcodec : c.codec = codec := hreached.edits.codec_eq
  rw [← hcodec] at hs ⊢
  have hread := Cache.getParameter_eq_read hs hrecord name type
  have htext := Cache.text?_ofParameter hrecord name
  refine ⟨?_, fun text hsome => ?_, fun v other => ?_⟩
  · rw [hread, htext]
    cases record.parameterText? c.codec name with
    | none => simp
    | some text => cases hunescape : c.codec.unescape text type <;> simp [hunescape]
  · rw [hread, ← htext, hsome]
  · have htyped := Cache.getParameter_eq_read
      (c := c.insert account (record.putTyped other (some v)))
      hs (Cache.record?_insert_self _ _ _) name type
    have hescaped := Cache.getParameter_eq_read
      (c := c.insert account (record.putEscaped other (some (c.codec.escape v))))
      hs (Cache.record?_insert_self _ _ _) name type
    rw [htyped, hescaped]
    simp only [Cache.codec_insert, Record.parameterText?_putEscaped]

/-- The text that a plugin has pushed for a parameter is read as a number. -/
theorem typed_read_pushed_text :
    let memory := MemoryStore.plugin Unit 0 { name := "memory" }
    let start : Running (World Unit) := ⟨Roster.new {}, World.new Disk.empty ()⟩
    let s := start.operateAll [.register memory, .call (.create none "m" "p" "i"),
      .report (.text "m/p/i0" "param-port" (some "5222"))]
    s.roster.cache.getParameter "m/p/i0" "port" (some .uint32) = .ok (.uint32 5222) := by
  intro memory start s
  have hrecord : s.roster.cache.record? "m/p/i0" = some
      { owner := 0, escaped := Dict.empty.insert "port" "5222" } := by
    decide +kernel
  have hsafe : Codec.Safe {} := show Codec.defaultSeparator ∉ Escape.letters by decide
  have hread := typed_read_eq_unescape hsafe start.world
    [.register memory, .call (.create none "m" "p" "i"),
      .report (.text "m/p/i0" "param-port" (some "5222"))] "m/p/i0" _ hrecord "port" .uint32
  have htext : s.roster.cache.text? "m/p/i0" (FlatKey.ofParameter "port") = some "5222" := by
    decide +kernel
  refine (hread.2.1 "5222" htext).trans ?_
  exact Except.eq_ok_of_toOption (by decide +kernel)

end AccountRoster
