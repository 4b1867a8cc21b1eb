import AccountRoster.Command
import AccountRoster.Proofs.Roster.ReadBack
import AccountRoster.Proofs.Roster.WriteThrough

/-!
# What is listed can be read

Every account of a key-file can be shown and its keys can be listed, whatever texts stand
in it, and every key that is listed can be printed. An attribute whose text cannot be read
is not listed, as it was dropped when the file was loaded. A parameter whose text is no
string is printed as it is stored.

## Implementation notes

That an account can be shown hangs on its record alone and on no plugin: a listed key is
found as long as no attribute goes by the key of a parameter (`Record.Unmarked`). What is
printed of a key-file is stated through `Codec.reprint`, which does not mention the cache.
-/

namespace AccountRoster

/-- The type as which the text under a flat key is read: the schema type of an attribute, or
else a string. -/
def FlatKey.readingType (key : String) : ValueType :=
  match ofText key with
  | .attr name => (Schema.attributeType name).getD .string
  | .param _ => .string

/-- What is printed of a stored text: the text of the value as which it is read, and the
stored text itself if it cannot be read. -/
def Codec.reprint (codec : Codec) (key stored : String) : String :=
  match codec.unescape stored (FlatKey.readingType key) with
  | .ok value => codec.escape value
  | .error _ => stored

/-- The text under a key is listed: always if the key is that of a parameter, and else if it
can be read as the attribute that it stands for. -/
def Codec.Lists (codec : Codec) (key stored : String) : Prop :=
  FlatKey.isParameter key = true ∨ (codec.readAttribute key stored).isSome = true

instance (codec : Codec) (key stored : String) : Decidable (codec.Lists key stored) :=
  inferInstanceAs (Decidable (_ ∨ _))

namespace Record

variable {codec : Codec} {owner : Nat} {entries : Dict String}

theorem contains_attributes_ofEntries (key : String) :
    (ofEntries codec owner entries).attributes.contains key = true ↔
      FlatKey.isParameter key = false ∧
        ∃ stored, entries.get? key = some stored ∧
          (codec.readAttribute key stored).isSome = true := by
  rw [Dict.contains_eq, attributes_ofEntries, Codec.attributeOf]
  cases FlatKey.isParameter key with
  | true => simp
  | false => cases entries.get? key <;> simp

theorem hasParameter_ofEntries (name : String) :
    (ofEntries codec owner entries).hasParameter name =
      (entries.get? (FlatKey.ofParameter name)).isSome := by
  rw [hasParameter, Dict.contains_eq, Dict.contains_eq, typed_ofEntries, escaped_ofEntries]
  rfl

theorem unmarked_ofEntries : (ofEntries codec owner entries).Unmarked :=
  fun key hkey => ((contains_attributes_ofEntries key).mp hkey).1

/-- The listing of a loaded account has the keys of its group, without those of attributes
that cannot be read. -/
theorem mem_flatKeys_ofEntries {key : String} :
    key ∈ (ofEntries codec owner entries).flatKeys ↔
      ∃ stored, entries.get? key = some stored ∧ codec.Lists key stored := by
  rw [mem_flatKeys, contains_attributes_ofEntries]
  constructor
  · rintro (⟨-, stored, hstored, hread⟩ | ⟨name, hname, rfl⟩)
    · exact ⟨stored, hstored, Or.inr hread⟩
    · rw [hasParameter_ofEntries] at hname
      obtain ⟨stored, hstored⟩ := Option.isSome_iff_exists.mp hname
      exact ⟨stored, hstored, Or.inl (FlatKey.isParameter_ofParameter name)⟩
  · rintro ⟨stored, hstored, hlists⟩
    cases hkey : FlatKey.isParameter key with
    | false => exact Or.inl ⟨rfl, stored, hstored, hlists.resolve_left (by simp [hkey])⟩
    | true =>
        obtain ⟨name, hname⟩ := FlatKey.exists_ofText_param hkey
        obtain rfl := FlatKey.ofText_eq_param_iff.mp hname
        refine Or.inr ⟨name, ?_, rfl⟩
        rw [hasParameter_ofEntries, hstored]
        rfl

end Record

namespace Command

/-! ### Printed lines -/

theorem printLines_cons (text : String) (more : List String) :
    printLines (text :: more) = text ++ "\n" ++ printLines more := by
  cases more with
  | nil => exact (String.append_empty).symm
  | cons next more =>
      rw [printLines, List.map_cons, List.map_cons, String.intercalate_cons_cons,
        String.append_empty]
      rfl

/-- Texts without control characters are printed on a line each. -/
theorem lines_printLines {texts : List String}
    (h : ∀ text ∈ texts, ∀ c ∈ text.toList, Text.isControl c = false) :
    Text.lines (printLines texts).toList = texts.map String.toList := by
  induction texts with
  | nil => rfl
  | cons text more ih =>
      obtain ⟨htext, hmore⟩ := List.forall_mem_cons.mp h
      have hend : Text.dropReturn text.toList = text.toList := by
        refine if_neg fun hlast => ?_
        have hcontrol := htext '\r' (List.mem_of_getLast? hlast)
        exact absurd hcontrol (by decide)
      have hchars : (printLines (text :: more)).toList =
          text.toList ++ '\n' :: (printLines more).toList := by
        rw [printLines_cons, String.toList_append, String.toList_append, List.append_assoc]
        rfl
      rw [hchars, Text.lines_append_lf (Keyfile.lf_notMem_of_control htext), hend, ih hmore,
        List.map_cons]

/-- Items that can all be shown can be shown together. -/
theorem exists_labelled {show_ : String → Except CommandError Json} (names : List String)
    (h : ∀ name ∈ names, ∃ item, show_ name = .ok item) :
    ∃ items, labelled show_ names = .ok items := by
  unfold labelled
  induction names with
  | nil => exact ⟨[], rfl⟩
  | cons name more ih =>
      obtain ⟨⟨item, hitem⟩, hmore⟩ := List.forall_mem_cons.mp h
      obtain ⟨items, hitems⟩ := ih hmore
      refine ⟨(name, item) :: items, ?_⟩
      rw [List.mapM_cons, hitem, hitems]
      rfl

/-! ### A cached account -/

section Cached

variable {c : Cache} {account name : String} {record : Record}
  (hrecord : c.record? account = some record)

include hrecord

theorem storedParameter_of_text {text : String}
    (h : record.parameterText? c.codec name = some text) :
    storedParameter c account name = .ok text := by
  rw [storedParameter, Cache.text?, hrecord, Option.bind_some, Record.text?,
    FlatKey.ofText_ofParameter]
  dsimp only
  rw [h]

/-- An untyped read of a parameter that is there gives a value, or a fault of its text,
which is then given instead. -/
theorem getParameter_none_cases (hname : record.hasParameter name = true) :
    (∃ value, c.getParameter account name none = .ok value) ∨
      ∃ fault stored, c.getParameter account name none = .error (.codec fault) ∧
        storedParameter c account name = .ok stored := by
  have hstored := record.isSome_parameterText? c.codec name
  rw [hname] at hstored
  obtain ⟨stored, hstored⟩ := Option.isSome_iff_exists.mp hstored
  have htext := storedParameter_of_text hrecord hstored
  cases htyped : record.typed.get? name with
  | some value => exact Or.inl ⟨value, Cache.getParameter_of_typed hrecord htyped⟩
  | none =>
      have hescaped : record.escaped.get? name = some stored := by
        rwa [Record.parameterText?, htyped] at hstored
      have hread : c.getParameter account name none =
          liftCodec (c.codec.unescape stored .string) := by
        rw [Cache.getParameter_of_untyped hrecord htyped, hescaped]
        rfl
      cases hunescape : c.codec.unescape stored .string with
      | ok value =>
          rw [hunescape] at hread
          exact Or.inl ⟨value, hread⟩
      | error fault =>
          rw [hunescape] at hread
          exact Or.inr ⟨fault, stored, hread, htext⟩

theorem exists_shownParameter (hname : record.hasParameter name = true) :
    ∃ item, shownParameter c account name = .ok item := by
  unfold shownParameter parameterJson
  split
  · exact ⟨_, rfl⟩
  · rcases getParameter_none_cases hrecord hname with
      ⟨value, hvalue⟩ | ⟨fault, stored, hread, htext⟩
    · rw [hvalue]
      exact ⟨_, rfl⟩
    · rw [hread]
      dsimp only
      rw [htext]
      exact ⟨_, rfl⟩

theorem exists_shownAttribute (hname : name ∈ record.attributes.keys) :
    ∃ item, shownAttribute c account name = .ok item := by
  rw [Dict.mem_keys_iff, Dict.contains_eq] at hname
  obtain ⟨value, hvalue⟩ := Option.isSome_iff_exists.mp hname
  rw [shownAttribute, Cache.getAttribute_eq hrecord, hvalue]
  exact ⟨_, rfl⟩

end Cached

/-- A parameter that a listing names is there, unless an attribute goes by its key. -/
theorem hasParameter_of_mem {record : Record} (h : record.Unmarked) {name : String}
    (hname : name ∈ parameterNames record.flatKeys) : record.hasParameter name = true := by
  obtain ⟨key, hkey, hread⟩ := List.mem_filterMap.mp hname
  split at hread
  next found hparam =>
    cases hread
    rcases Record.mem_flatKeys.mp hkey with hattribute | ⟨other, hother, rfl⟩
    · have hmarked := h key hattribute
      rw [FlatKey.isParameter, hparam] at hmarked
      cases hmarked
    · rw [FlatKey.ofText_ofParameter] at hparam
      cases hparam
      exact hother
  next => cases hread

/-- A cached account can be shown, unless an attribute goes by the key of a parameter. -/
theorem exists_accountJson {W : Type} {r : Roster W} {account : String} {record : Record}
    (hrecord : r.cache.record? account = some record) (h : record.Unmarked) :
    ∃ document, accountJson r account = .ok document := by
  have hfind := Cache.find_of_record? hrecord
  have hnames : liftRoster (r.cache.attributeNames account) = .ok record.attributes.keys := by
    rw [Cache.attributeNames, hfind]
    rfl
  have howner : liftRoster (r.ownerName account) = .ok (r.pluginName record.owner) := by
    rw [Roster.ownerName, hfind]
    rfl
  have hkeys : r.cache.listKeys account = record.flatKeys := by
    rw [Cache.listKeys, hrecord]
  obtain ⟨attributes, hattributes⟩ := exists_labelled record.attributes.keys
    fun name hname => exists_shownAttribute hrecord hname
  obtain ⟨parameters, hparameters⟩ := exists_labelled (parameterNames record.flatKeys)
    fun name hname => exists_shownParameter hrecord (hasParameter_of_mem h hname)
  rw [accountJson, hnames, howner, hkeys]
  simp only [bind, Except.bind]
  rw [hattributes]
  dsimp only
  rw [hparameters]
  exact ⟨_, rfl⟩

/-- A listed key of a loaded account is printed as the text of what stands under it. -/
theorem valueText_of_lists {c : Cache} {account : String} {owner : Nat} {entries : Dict String}
    (hrecord : c.record? account = some (Record.ofEntries c.codec owner entries))
    {key stored : String} (hstored : entries.get? key = some stored)
    (hlists : c.codec.Lists key stored) :
    valueText c account key none = .ok (c.codec.reprint key stored) := by
  unfold valueText Codec.reprint FlatKey.readingType
  cases hkey : FlatKey.ofText key with
  | attr name =>
      obtain ⟨rfl, hattribute⟩ := FlatKey.ofText_eq_attr_iff.mp hkey
      have hread : (c.codec.readAttribute key stored).isSome = true :=
        hlists.resolve_left (by simp [hattribute])
      obtain ⟨value, hvalue⟩ := Option.isSome_iff_exists.mp hread
      have hcached : (Record.ofEntries c.codec owner entries).attributes.get? key = some value := by
        rw [Record.attributes_ofEntries, Codec.attributeOf, hattribute, hstored]
        exact hvalue
      have hunescape : c.codec.unescape stored ((Schema.attributeType key).getD .string) =
          .ok value :=
        Except.eq_ok_of_toOption hvalue
      dsimp only
      rw [Cache.getAttribute_eq hrecord, hcached, hunescape]
      rfl
  | param name =>
      rw [FlatKey.ofText_eq_param_iff.mp hkey] at hstored
      dsimp only
      rw [Cache.getParameter_of_untyped hrecord (Record.typed_ofEntries _ _ _ _),
        Record.escaped_ofEntries, hstored]
      dsimp only [Option.getD_none]
      cases c.codec.unescape stored .string with
      | ok value => rfl
      | error fault =>
          refine storedParameter_of_text hrecord ?_
          rw [Record.parameterText?_ofEntries, hstored]

/-- What is printed of an account of a key-file: it can be shown, and its listed keys are
printed on a line each and can be printed in turn. -/
theorem printed_of_loaded {ε : Type} {r : Roster (World ε)} (w : World ε) {owner : Nat}
    {file : Keyfile} (hwell : file.WellFormed)
    (hcache : r.cache = Cache.ofKeyfile r.cache.codec owner file) {account : String}
    (haccount : account ∈ file.groupNames) :
    (∃ document, (run r w (.inspect account)).answer = .ok document) ∧
      ∃ keys, (run r w (.keys account)).answer = .ok (printLines keys) ∧
        Text.lines (printLines keys).toList = keys.map String.toList ∧
        (∀ key, key ∈ keys ↔ ∃ stored, file.value? account key = some stored ∧
          r.cache.codec.Lists key stored) ∧
        ∀ key ∈ keys, ∃ stored, file.value? account key = some stored ∧
          (run r w (.get account key none)).answer =
            .ok (r.cache.codec.reprint key stored ++ "\n") := by
  rw [Keyfile.groupNames, Dict.mem_keys_iff, Dict.contains_eq] at haccount
  obtain ⟨entries, hgroup⟩ := Option.isSome_iff_exists.mp haccount
  have hvalue (key : String) : file.value? account key = entries.get? key := by
    rw [Keyfile.value?, Keyfile.entries_of_get? hgroup]
  have hrecord : r.cache.record? account =
      some (Record.ofEntries r.cache.codec owner entries) := by
    rw [hcache, Cache.record?_ofKeyfile, hgroup]
    rfl
  have hlisted (key : String) :
      key ∈ (Record.ofEntries r.cache.codec owner entries).flatKeys ↔
        ∃ stored, file.value? account key = some stored ∧ r.cache.codec.Lists key stored := by
    rw [Record.mem_flatKeys_ofEntries, hvalue]
  refine ⟨?_, (Record.ofEntries r.cache.codec owner entries).flatKeys, ?_, ?_, hlisted, ?_⟩
  · obtain ⟨document, hdocument⟩ := exists_accountJson hrecord Record.unmarked_ofEntries
    rw [run, look, hdocument]
    exact ⟨_, rfl⟩
  · rw [run, look, Cache.find, Cache.listKeys, hrecord]
    rfl
  · refine lines_printLines fun key hkey c hc => ?_
    obtain ⟨stored, hstored, -⟩ := (hlisted key).mp hkey
    rw [hvalue] at hstored
    obtain ⟨-, hvalid⟩ := hwell account entries hgroup
    obtain ⟨-, -, hchars, -⟩ := Keyfile.isKeyName_iff.mp (hvalid key stored hstored).1
    exact (hchars c hc).2.2.2
  · intro key hkey
    obtain ⟨stored, hstored, hlists⟩ := (hlisted key).mp hkey
    rw [hvalue] at hstored
    refine ⟨stored, (hvalue key).trans hstored, ?_⟩
    rw [run, look, readType]
    dsimp only
    rw [valueText_of_lists hrecord hstored hlists]
    rfl

end Command

/-- A roster over a key-file whose text parses can be loaded. Every account of the file can
then be shown. Its keys are printed on a line each: those under which a parameter stands or
an attribute that can be read. Each of them can be printed, and what is printed is the text
of the value that stands there, or else the text itself. -/
theorem listed_keys_print (codec : Codec) {ε : Type} {slot : Nat}
    (identifier : Option (Identifier (World ε))) {w : World ε} {path : String} {separator : Char}
    (hnew : w.keyfiles slot = KeyfileStore.new path separator) {text : String} {d : Disk}
    (hread : w.disk.read path = (.ok text, d)) {file : Keyfile}
    (hparse : Keyfile.parse text separator = .ok file) :
    let start := (Roster.overKeyfile codec slot identifier).load w
    let answer (command : Command) := (Command.run start.roster start.world command).answer
    start.answer = .ok () ∧ ∀ account ∈ file.groupNames,
      (∃ document, answer (.inspect account) = .ok document) ∧
      ∃ keys, answer (.keys account) = .ok (Command.printLines keys) ∧
        Text.lines (Command.printLines keys).toList = keys.map String.toList ∧
        (∀ key, key ∈ keys ↔ ∃ stored, file.value? account key = some stored ∧
          codec.Lists key stored) ∧
        ∀ key ∈ keys, ∃ stored, file.value? account key = some stored ∧
          answer (.get account key none) = .ok (codec.reprint key stored ++ "\n") := by
  intro start answer
  have hfile : (KeyfileStore.new path separator).readFile w.disk = (.ok file, d) := by
    rw [KeyfileStore.readFile, KeyfileStore.new]
    dsimp only
    rw [hread]
    exact congrArg (fun result => (liftCodec result, d)) hparse
  have hload := Roster.load_overKeyfile codec identifier hnew hfile
  have hcache : start.roster.cache = Cache.ofKeyfile codec 0 file :=
    congrArg (fun reply => reply.roster.cache) hload
  have hcodec : start.roster.cache.codec = codec := congrArg Cache.codec hcache
  refine ⟨congrArg Reply.answer hload, fun account haccount => ?_⟩
  rw [← hcodec] at hcache
  have hprinted := Command.printed_of_loaded start.world (Keyfile.wellFormed_of_parse hparse).1
    hcache haccount
  rwa [hcodec] at hprinted

/-- A flag that is neither on nor off is not listed. An unknown attribute, a list and a text
that cannot be unescaped are, and the last is printed as it stands. -/
theorem listed_keys_print_unreadable :
    let text := "[a]\nEnabled=maybe\nColour=red\nparam-list=x,y,\nparam-bad=\\q\n"
    let w := (World.new (Disk.empty.mount "a.cfg" (.text text)) ()).putKeyfile 0
      (KeyfileStore.new "a.cfg" ',')
    let start := (Roster.overKeyfile {} 0 none).load w
    let answer (command : Command) := (Command.run start.roster start.world command).answer
    (∃ document, answer (.inspect "a") = .ok document) ∧
      (∃ keys, answer (.keys "a") = .ok (Command.printLines keys) ∧
        "Enabled" ∉ keys ∧ "Colour" ∈ keys ∧ "param-list" ∈ keys ∧ "param-bad" ∈ keys) ∧
      answer (.get "a" "param-bad" none) = .ok "\\q\n" := by
  intro text w start answer
  let file := ((((Keyfile.new ',').enter "a" "Enabled" "maybe").enter "a" "Colour" "red").enter
    "a" "param-list" "x,y,").enter "a" "param-bad" "\\q"
  have hread : w.disk.read "a.cfg" = (.ok text, w.disk) :=
    Prod.ext (Except.eq_ok_of_toOption (by decide +kernel)) rfl
  have hparse : Keyfile.parse text ',' = .ok file :=
    Except.eq_ok_of_toOption (by decide +kernel)
  have hnew : w.keyfiles 0 = KeyfileStore.new "a.cfg" ',' := rfl
  obtain ⟨-, hprinted⟩ := listed_keys_print {} none hnew hread hparse
  obtain ⟨hdocument, keys, hanswer, -, hkeys, hprint⟩ := hprinted "a" (by decide +kernel)
  have hlisted {key stored : String} (h : file.value? "a" key = some stored) :
      key ∈ keys ↔ Codec.Lists {} key stored := by
    rw [hkeys key, h]
    exact ⟨fun ⟨_, heq, hlists⟩ => Option.some.inj heq ▸ hlists, fun hlists => ⟨_, rfl, hlists⟩⟩
  have hflag : file.value? "a" "Enabled" = some "maybe" := by decide +kernel
  have hcolour : file.value? "a" "Colour" = some "red" := by decide +kernel
  have hlist : file.value? "a" "param-list" = some "x,y," := by decide +kernel
  have hbad : file.value? "a" "param-bad" = some "\\q" := by decide +kernel
  have hlistsBad : "param-bad" ∈ keys := (hlisted hbad).mpr (by decide +kernel)
  obtain ⟨stored, hstored, hget⟩ := hprint "param-bad" hlistsBad
  cases hstored.symm.trans hbad
  refine ⟨hdocument, ⟨keys, hanswer, ?_, ?_, ?_, hlistsBad⟩, hget.trans ?_⟩
  · rw [hlisted hflag]
    decide +kernel
  · exact (hlisted hcolour).mpr (by decide +kernel)
  · exact (hlisted hlist).mpr (by decide +kernel)
  · exact congrArg Except.ok (by decide +kernel)

end AccountRoster
