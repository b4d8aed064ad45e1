import Mathlib.Data.List.Nodup
import Mathlib.Data.List.Perm.Subperm
import RandomMachine.Proofs.Json.Written
import RandomMachine.Settings.Document

/-!
# Reading of settings documents

A document that is an object gives settings their members one entry at a time. Entries may stand in
any order, with any blanks between their tokens; what they give is decided by the members alone. The
first key that is unknown or has been seen before ends the reading, so such a document is refused
before its settings are looked at.
-/

namespace RandomMachine

/-! ### Members of settings -/

/-- A member of settings with its value. -/
inductive SettingsMember
  | programSize (value : UInt64)
  | instructionCount (value : UInt64)
  | seed (value : Option UInt64)
  | dram (value : DramMode)
  | stackLength (value : UInt64)
  | stackOverflow (value : OverflowPolicy)
  | reportRuntime (value : Bool)
  deriving DecidableEq, Repr

/-- Which member it is. -/
def SettingsMember.field : SettingsMember → SettingsField
  | .programSize _ => .programSize
  | .instructionCount _ => .instructionCount
  | .seed _ => .seed
  | .dram _ => .dram
  | .stackLength _ => .stackLength
  | .stackOverflow _ => .stackOverflow
  | .reportRuntime _ => .reportRuntime

namespace Settings

/-- A member of settings. -/
def member (settings : Settings) : SettingsField → SettingsMember
  | .programSize => .programSize settings.programSize
  | .instructionCount => .instructionCount settings.budget
  | .seed => .seed settings.seed
  | .dram => .dram settings.dram
  | .stackLength => .stackLength settings.stackLength
  | .stackOverflow => .stackOverflow settings.stackOverflow
  | .reportRuntime => .reportRuntime settings.reportRuntime

/-- Replaces a member of settings. -/
def setMember (settings : Settings) : SettingsMember → Settings
  | .programSize programSize => { settings with programSize }
  | .instructionCount budget => { settings with budget }
  | .seed seed => { settings with seed }
  | .dram dram => { settings with dram }
  | .stackLength stackLength => { settings with stackLength }
  | .stackOverflow stackOverflow => { settings with stackOverflow }
  | .reportRuntime reportRuntime => { settings with reportRuntime }

/-- A replaced member is the new one, and the others are kept. -/
theorem member_setMember (settings : Settings) (m : SettingsMember) (field : SettingsField) :
    (settings.setMember m).member field = if field = m.field then m else settings.member field := by
  cases m <;> cases field <;> rfl

/-- Settings are determined by their members. -/
theorem eq_of_member {settings other : Settings}
    (h : ∀ field, settings.member field = other.member field) : settings = other := by
  obtain ⟨programSize, budget, seed, dram, stackLength, stackOverflow, reportRuntime⟩ := settings
  have hsize := h .programSize
  have hbudget := h .instructionCount
  have hseed := h .seed
  have hdram := h .dram
  have hlength := h .stackLength
  have hpolicy := h .stackOverflow
  have hruntime := h .reportRuntime
  cases other
  simp only [member, SettingsMember.programSize.injEq, SettingsMember.instructionCount.injEq,
    SettingsMember.seed.injEq, SettingsMember.dram.injEq, SettingsMember.stackLength.injEq,
    SettingsMember.stackOverflow.injEq, SettingsMember.reportRuntime.injEq] at *
  simp only [*]

/-- Settings with some members replaced, one after another. -/
def setMembers (settings : Settings) (members : List SettingsMember) : Settings :=
  members.foldl setMember settings

/-- Replaced members of different fields are all the new ones, and the others are kept. -/
theorem member_setMembers (settings : Settings) {members : List SettingsMember}
    (h : (members.map SettingsMember.field).Nodup) :
    (∀ m ∈ members, (settings.setMembers members).member m.field = m) ∧
      ∀ field ∉ members.map SettingsMember.field,
        (settings.setMembers members).member field = settings.member field := by
  induction members generalizing settings with
  | nil => exact ⟨fun _ hm => absurd hm List.not_mem_nil, fun _ _ => rfl⟩
  | cons first members ih =>
    rw [List.map_cons, List.nodup_cons] at h
    obtain ⟨hset, hkept⟩ := ih (settings.setMember first) h.2
    refine ⟨fun m hm => ?_, fun field hfield => ?_⟩
    · rcases List.mem_cons.mp hm with rfl | hm
      · exact (hkept _ h.1).trans (by rw [member_setMember, if_pos rfl])
      · exact hset m hm
    · rw [List.map_cons, List.mem_cons, not_or] at hfield
      exact (hkept field hfield.2).trans (by rw [member_setMember, if_neg hfield.1])

end Settings

namespace SettingsDocument

open Json

/-! ### Written members -/

/-- A member with its value, as it is written: numbers in decimal, choices by one of their names. -/
inductive WrittenMember
  | programSize (value : UInt64)
  | instructionCount (value : UInt64)
  | seed (value : Option UInt64)
  | dram (name : WrittenString) (value : DramMode) (h : (name.meant, value) ∈ dramChoices)
  | stackLength (value : UInt64)
  | stackOverflow (name : WrittenString) (value : OverflowPolicy)
    (h : (name.meant, value) ∈ overflowChoices)
  | reportRuntime (value : Bool)

namespace WrittenMember

/-- The member that is meant. -/
def meant : WrittenMember → SettingsMember
  | .programSize value => .programSize value
  | .instructionCount value => .instructionCount value
  | .seed value => .seed value
  | .dram _ value _ => .dram value
  | .stackLength value => .stackLength value
  | .stackOverflow _ value _ => .stackOverflow value
  | .reportRuntime value => .reportRuntime value

/-- Text of the value. -/
def text : WrittenMember → List Char
  | .programSize value | .instructionCount value | .stackLength value | .seed (some value) =>
    (Numeral.decimal value.toNat).toList
  | .seed none => "null".toList
  | .dram name _ _ => name.text
  | .stackOverflow name _ _ => name.text
  | .reportRuntime value => (if value then "true" else "false").toList

end WrittenMember

/-! ### Reading of members -/

/-- A number of 64 bits is read from its decimal numeral. -/
theorem readCount_decimal (expected : ExpectedKind) (blanks : Blanks) (value : UInt64)
    {rest : List Char} (hrest : EndsNumber rest) :
    readCount expected (blanks.text ++ ((Numeral.decimal value.toNat).toList ++ rest)) =
      .ok (value, rest) := by
  have hvalue := readValue_decimal value.toNat_lt hrest
  simp only [readCount, skipBlanks_append, skipBlanks_decimal, hvalue]
  rw [if_neg (by omega), Int.toNat_natCast, UInt64.ofNat_toNat]

/-- A number that may be absent is read from its numeral or from null. -/
theorem readOptionalCount_text (blanks : Blanks) (value : Option UInt64) {rest : List Char}
    (hrest : EndsNumber rest) :
    readOptionalCount (blanks.text ++ ((WrittenMember.seed value).text ++ rest)) =
      .ok (value, rest) := by
  cases value with
  | none =>
    have hvalue := readValue_null rest
    have hblank : skipBlanks ("null".toList ++ rest) = "null".toList ++ rest :=
      skipBlanks_cons rfl _
    simp only [readOptionalCount, WrittenMember.text, skipBlanks_append, hblank, hvalue]
  | some value =>
    have hvalue := readValue_decimal value.toNat_lt hrest
    have hcount := readCount_decimal .count blanks value hrest
    simp only [readOptionalCount, WrittenMember.text, skipBlanks_append, skipBlanks_decimal, hvalue,
      hcount]
    rfl

/-- A truth value is read from its word. -/
theorem readBoolean_text (blanks : Blanks) (value : Bool) (rest : List Char) :
    readBoolean (blanks.text ++ ((WrittenMember.reportRuntime value).text ++ rest)) =
      .ok (value, rest) := by
  have hvalue := readValue_boolean value rest
  have hblank : skipBlanks ((if value then "true" else "false").toList ++ rest) =
      (if value then "true" else "false").toList ++ rest := by
    cases value <;> exact skipBlanks_cons rfl _
  simp only [readBoolean, WrittenMember.text, skipBlanks_append, hblank, hvalue]

/-- A choice is read from one of its names. -/
theorem readChoice_text {α : Type} {choices : List (String × α)} (blanks : Blanks)
    (name : WrittenString) {value : α} (h : choices.lookup name.meant = some value)
    (rest : List Char) :
    readChoice choices (blanks.text ++ (name.text ++ rest)) = .ok (value, rest) := by
  have hchosen : choose choices name.meant = .ok value := by rw [choose, h]
  have hname : readName choices (name.tail ++ rest) = .ok (value, rest) := by
    rw [readName, name.readString_tail]
    change (do return (← choose choices name.meant, rest)) = _
    rw [hchosen]
    rfl
  rw [readChoice, skipBlanks_append, WrittenString.text, List.cons_append, skipBlanks_cons rfl]
  exact hname

/-- A member is read from its text. -/
theorem readMember_text (written : WrittenMember) (settings : Settings) (blanks : Blanks)
    {rest : List Char} (hrest : EndsNumber rest) :
    readMember written.meant.field settings (blanks.text ++ (written.text ++ rest)) =
      .ok (settings.setMember written.meant, rest) := by
  cases written with
  | programSize value =>
    exact congrArg (Except.map _) (readCount_decimal .size blanks value hrest)
  | instructionCount value =>
    exact congrArg (Except.map _) (readCount_decimal .count blanks value hrest)
  | seed value => exact congrArg (Except.map _) (readOptionalCount_text blanks value hrest)
  | dram name value h =>
    have hlookup : dramChoices.lookup name.meant = some value := by
      simp only [dramChoices, List.mem_cons, Prod.mk.injEq, List.not_mem_nil, or_false] at h
      rcases h with ⟨hname, rfl⟩ | ⟨hname, rfl⟩ | ⟨hname, rfl⟩ <;> rw [hname] <;> decide
    exact congrArg (Except.map _) (readChoice_text blanks name hlookup rest)
  | stackLength value =>
    exact congrArg (Except.map _) (readCount_decimal .size blanks value hrest)
  | stackOverflow name value h =>
    have hlookup : overflowChoices.lookup name.meant = some value := by
      simp only [overflowChoices, List.mem_cons, Prod.mk.injEq, List.not_mem_nil, or_false] at h
      rcases h with ⟨hname, rfl⟩ | ⟨hname, rfl⟩ <;> rw [hname] <;> decide
    exact congrArg (Except.map _) (readChoice_text blanks name hlookup rest)
  | reportRuntime value => exact congrArg (Except.map _) (readBoolean_text blanks value rest)

/-! ### Written documents -/

/-- What stands behind a key: a member that goes by the key, or any text if no member does. -/
inductive EntryContent (key : String)
  | member (written : WrittenMember) (h : written.meant.field.key = key)
  | unknown (text : List Char) (h : ∀ field ∈ SettingsField.all, field.key ≠ key)

/-- An entry of an object, with the blanks around its tokens. -/
structure Entry where
  beforeKey : Blanks
  key : WrittenString
  beforeColon : Blanks
  beforeValue : Blanks
  content : EntryContent key.meant
  behindValue : Blanks

namespace Entry

/-- Text of the value. -/
def valueText (entry : Entry) : List Char :=
  match entry.content with
  | .member written _ => written.text
  | .unknown text _ => text

/-- Text of an entry. -/
def text (entry : Entry) : List Char :=
  entry.beforeKey.text ++ (entry.key.text ++ (entry.beforeColon.text ++ ':' ::
    (entry.beforeValue.text ++ (entry.valueText ++ entry.behindValue.text))))

/-- The member of an entry, if its key is known. -/
def member? (entry : Entry) : Option SettingsMember :=
  match entry.content with
  | .member written _ => some written.meant
  | .unknown _ _ => none

end Entry

/-- Text of entries, with a comma in front of all but the first one. -/
def entriesText (first : Bool) : List Entry → List Char
  | [] => []
  | entry :: rest => (if first then [] else [',']) ++ (entry.text ++ entriesText false rest)

/-- A document that is an object. -/
structure ObjectDocument where
  before : Blanks
  entries : List Entry
  beforeClose : Blanks
  behind : Blanks

namespace ObjectDocument

/-- Text of a document. -/
def text (document : ObjectDocument) : String :=
  .ofList (document.before.text ++ '{' :: (entriesText true document.entries ++
    (document.beforeClose.text ++ '}' :: document.behind.text)))

/-- The members of a document whose keys are known. -/
def members (document : ObjectDocument) : List SettingsMember :=
  document.entries.filterMap Entry.member?

end ObjectDocument

/-- What entries make of settings when some members have been seen: an unknown key or one that has
been seen ends the reading. -/
def applyEntries (seen : List SettingsField) (settings : Settings) :
    List Entry → Except DocumentFault Settings
  | [] => .ok settings
  | entry :: rest =>
    match entry.member? with
    | none => .error (.unknownField entry.key.meant)
    | some m =>
      if m.field ∈ seen then .error (.duplicateField m.field)
      else applyEntries (m.field :: seen) (settings.setMember m) rest

/-! ### Reading of entries -/

/-- No number goes on in blanks. -/
theorem endsNumber_append (blanks : Blanks) {rest : List Char} (h : EndsNumber rest) :
    EndsNumber (blanks.text ++ rest) := by
  intro c hc
  cases htext : blanks.text with
  | nil =>
    rw [htext] at hc
    exact h c hc
  | cons x tail =>
    rw [htext] at hc
    obtain rfl := Option.some.inj hc
    have hblank := List.all_eq_true.mp blanks.blank x (htext ▸ List.mem_cons_self)
    simp only [isBlank, Bool.or_eq_true, beq_iff_eq] at hblank
    rcases hblank with ((rfl | rfl) | rfl) | rfl <;> decide

/-- No number goes on in the next entry or in the end of an object. -/
theorem endsNumber_entriesText (entries : List Entry) (beforeClose : Blanks) (rest : List Char) :
    EndsNumber (entriesText false entries ++ (beforeClose.text ++ '}' :: rest)) := by
  cases entries with
  | nil =>
    refine endsNumber_append beforeClose fun c hc => ?_
    obtain rfl := Option.some.inj hc
    decide
  | cons entry entries =>
    intro c hc
    obtain rfl := Option.some.inj hc
    decide

/-- The end of an object is found behind blanks. -/
theorem nextKey_close (first : Bool) (gap : Blanks) (rest : List Char) :
    nextKey first (gap.text ++ '}' :: rest) = .ok (.close rest) := by
  rw [nextKey, skipBlanks_append, skipBlanks_cons rfl]
  rfl

/-- The next key is found behind blanks and, if it is not the first one, a comma. -/
theorem nextKey_entry (first : Bool) (gap before : Blanks) (rest : List Char) :
    nextKey first (gap.text ++ ((if first then [] else [',']) ++ (before.text ++ '"' :: rest))) =
      .ok (.key rest) := by
  have hquote : skipBlanks (before.text ++ '"' :: rest) = '"' :: rest := by
    rw [skipBlanks_append, skipBlanks_cons rfl]
  cases first with
  | true =>
    change nextKey true (gap.text ++ (before.text ++ '"' :: rest)) = _
    rw [nextKey, skipBlanks_append, hquote]
    rfl
  | false =>
    change nextKey false (gap.text ++ ',' :: (before.text ++ '"' :: rest)) = _
    have hcomma : skipBlanks (',' :: (before.text ++ '"' :: rest)) =
        ',' :: (before.text ++ '"' :: rest) :=
      skipBlanks_cons rfl _
    simp only [nextKey, skipBlanks_append, hcomma, hquote]
    rfl

/-- A key that no member goes by is refused. -/
theorem readKey_of_unknown (seen : List SettingsField) {key : WrittenString}
    (h : ∀ field ∈ SettingsField.all, field.key ≠ key.meant) (rest : List Char) :
    readKey seen (key.tail ++ rest) = .error (.unknownField key.meant) := by
  have hfind : SettingsField.all.find? (·.key == key.meant) = none :=
    List.find?_eq_none.mpr fun field hfield => by simpa using h field hfield
  simp only [readKey, key.readString_tail, liftForm, bind, Except.bind, hfind]

/-- The key of a member is read as the member, unless it has been seen. -/
theorem readKey_of_key (seen : List SettingsField) {key : WrittenString} {field : SettingsField}
    (h : field.key = key.meant) (rest : List Char) :
    readKey seen (key.tail ++ rest) =
      if field ∈ seen then .error (.duplicateField field) else .ok (field, rest) := by
  have hfind : SettingsField.all.find? (·.key == key.meant) = some field := by
    rw [← h]
    cases field <;> decide
  simp only [readKey, key.readString_tail, liftForm, bind, Except.bind, hfind]

/-- There are no more different fields than all of them. -/
theorem length_le_of_nodup {fields : List SettingsField} (h : fields.Nodup) :
    fields.length ≤ SettingsField.all.length :=
  (h.subperm fun field _ => by cases field <;> decide).length_le

/-- Members are read from the entries of an object, up to its closing bracket. -/
theorem readMembers_text {turns : Nat} {seen : List SettingsField} (hseen : seen.Nodup)
    (hturns : turns + seen.length = SettingsField.all.length + 1) (settings : Settings)
    (gap : Blanks) (entries : List Entry) (beforeClose : Blanks) (rest : List Char) :
    readMembers turns seen settings (gap.text ++ (entriesText seen.isEmpty entries ++
      (beforeClose.text ++ '}' :: rest))) =
        (applyEntries seen settings entries).map (·, rest) := by
  induction entries generalizing turns seen settings gap with
  | nil =>
    have hle := length_le_of_nodup hseen
    obtain ⟨turns, rfl⟩ : ∃ n, turns = n + 1 := ⟨turns - 1, by omega⟩
    have hclose := nextKey_close seen.isEmpty (gap.append beforeClose) rest
    rw [Blanks.append, List.append_assoc] at hclose
    rw [readMembers, entriesText, List.nil_append, hclose]
    rfl
  | cons entry entries ih =>
    have hle := length_le_of_nodup hseen
    obtain ⟨turns, rfl⟩ : ∃ n, turns = n + 1 := ⟨turns - 1, by omega⟩
    have hends := endsNumber_append entry.behindValue
      (endsNumber_entriesText entries beforeClose rest)
    have htext : entriesText seen.isEmpty (entry :: entries) ++ (beforeClose.text ++ '}' :: rest) =
        (if seen.isEmpty then [] else [',']) ++ (entry.beforeKey.text ++ '"' ::
          (entry.key.tail ++ (entry.beforeColon.text ++ ':' :: (entry.beforeValue.text ++
            (entry.valueText ++ (entry.behindValue.text ++
              (entriesText false entries ++ (beforeClose.text ++ '}' :: rest)))))))) := by
      simp only [entriesText, Entry.text, WrittenString.text, List.append_assoc, List.cons_append]
    rw [htext]
    cases hcontent : entry.content with
    | unknown text h =>
      simp only [readMembers, nextKey_entry, readKey_of_unknown seen h, bind, Except.bind,
        applyEntries, Entry.member?, hcontent]
      rfl
    | member written h =>
      have hvalue : entry.valueText = written.text := by rw [Entry.valueText, hcontent]
      simp only [readMembers, nextKey_entry, readKey_of_key seen h, bind, Except.bind,
        applyEntries, Entry.member?, hcontent, hvalue]
      by_cases hmem : written.meant.field ∈ seen
      · simp only [if_pos hmem]
        rfl
      · simp only [if_neg hmem, readColon_append, liftForm,
          readMember_text written settings entry.beforeValue hends]
        exact ih (List.nodup_cons.mpr ⟨hmem, hseen⟩)
          (by rw [List.length_cons]; omega) _ entry.behindValue

/-! ### Regular and other documents -/

/-- The fields of the entries whose keys are known. -/
def entryFields (entries : List Entry) : List SettingsField :=
  (entries.filterMap Entry.member?).map SettingsMember.field

/-- Whether a fault names an unknown key among some entries, or a field that is there twice. -/
def FaultOf (entries : List Entry) (fields : List SettingsField) (fault : DocumentFault) : Prop :=
  (∃ entry ∈ entries, entry.member? = none ∧ fault = .unknownField entry.key.meant) ∨
    ∃ field, 1 < fields.count field ∧ fault = .duplicateField field

/-- Entries of known and different members are applied one after another. Among other entries, a key
that is unknown or repeated is refused. -/
theorem applyEntries_cases {seen : List SettingsField} (hseen : seen.Nodup) (settings : Settings)
    (entries : List Entry) :
    ((∀ entry ∈ entries, entry.member? ≠ none) ∧ (seen ++ entryFields entries).Nodup ∧
        applyEntries seen settings entries =
          .ok (settings.setMembers (entries.filterMap Entry.member?))) ∨
      ∃ fault, FaultOf entries (seen ++ entryFields entries) fault ∧
        applyEntries seen settings entries = .error fault := by
  induction entries generalizing seen settings with
  | nil =>
    refine .inl ⟨fun _ h => absurd h List.not_mem_nil, ?_, rfl⟩
    rwa [entryFields, List.filterMap_nil, List.map_nil, List.append_nil]
  | cons entry entries ih =>
    cases hmember : entry.member? with
    | none =>
      refine .inr ⟨.unknownField entry.key.meant,
        .inl ⟨entry, List.mem_cons_self, hmember, rfl⟩, ?_⟩
      simp only [applyEntries, hmember]
    | some m =>
      have hfields : entryFields (entry :: entries) = m.field :: entryFields entries := by
        rw [entryFields, List.filterMap_cons, hmember]
        rfl
      simp only [applyEntries, List.filterMap_cons, hmember, hfields]
      by_cases hmem : m.field ∈ seen
      · refine .inr ⟨.duplicateField m.field, .inr ⟨m.field, ?_, rfl⟩, if_pos hmem⟩
        have := List.count_pos_iff.mpr hmem
        rw [List.count_append, List.count_cons_self]
        omega
      · -- The field is seen from here on, wherever it stands among the others.
        have hperm : (seen ++ m.field :: entryFields entries).Perm
            (m.field :: seen ++ entryFields entries) :=
          List.perm_middle
        rw [if_neg hmem]
        rcases ih (List.nodup_cons.mpr ⟨hmem, hseen⟩) (settings.setMember m) with
          ⟨hknown, hnodup, happly⟩ | ⟨fault, hfault, happly⟩
        · refine .inl ⟨fun other hother => ?_, hperm.nodup_iff.mpr hnodup, happly⟩
          rcases List.mem_cons.mp hother with rfl | hother
          · rw [hmember]
            exact Option.some_ne_none m
          · exact hknown other hother
        · refine .inr ⟨fault, ?_, happly⟩
          rcases hfault with ⟨other, hother, hfault⟩ | ⟨field, hcount, hfault⟩
          · exact .inl ⟨other, List.mem_cons_of_mem _ hother, hfault⟩
          · exact .inr ⟨field, by rwa [hperm.count_eq], hfault⟩

namespace ObjectDocument

/-- The fields of a document whose keys are known. -/
def fields (document : ObjectDocument) : List SettingsField := entryFields document.entries

/-- Whether all keys of a document are known, and no two of them are one. -/
def Regular (document : ObjectDocument) : Prop :=
  (∀ entry ∈ document.entries, entry.member? ≠ none) ∧ document.fields.Nodup

/-- A document is read entry by entry. -/
theorem read_text (document : ObjectDocument) :
    read document.text = applyEntries [] {} document.entries := by
  obtain ⟨before, entries, beforeClose, behind⟩ := document
  have hmembers := readMembers_text List.nodup_nil rfl {} ⟨[], by decide⟩ entries beforeClose
    behind.text
  have hsettings : readSettings (before.text ++ '{' :: (entriesText true entries ++
      (beforeClose.text ++ '}' :: behind.text))) =
        (applyEntries [] {} entries).map (·, behind.text) := by
    rw [readSettings, skipBlanks_append, skipBlanks_cons rfl]
    exact hmembers
  rw [read, text, String.toList_ofList, hsettings]
  cases applyEntries [] {} entries with
  | error fault => rfl
  | ok settings =>
    change (if (skipBlanks behind.text).isEmpty then Except.ok settings else _) = _
    rw [skipBlanks_text]
    rfl

/-- A regular document is read as defaults with its members. -/
theorem Regular.read_text {document : ObjectDocument} (h : document.Regular) :
    read document.text = .ok (({} : Settings).setMembers document.members) := by
  rw [document.read_text]
  rcases applyEntries_cases List.nodup_nil {} document.entries with
    ⟨-, -, happly⟩ | ⟨fault, hfault, -⟩
  · exact happly
  · rcases hfault with ⟨entry, hentry, hunknown, -⟩ | ⟨field, hcount, -⟩
    · exact absurd hunknown (h.1 entry hentry)
    · have := List.nodup_iff_count_le_one.mp h.2 field
      exact absurd hcount (Nat.not_lt.mpr this)

/-- Any other document is refused. -/
theorem read_text_of_not_regular {document : ObjectDocument} (h : ¬ document.Regular) :
    ∃ fault, FaultOf document.entries document.fields fault ∧
      read document.text = .error fault := by
  rw [document.read_text]
  rcases applyEntries_cases List.nodup_nil {} document.entries with
    ⟨hknown, hnodup, -⟩ | hrefused
  · exact absurd ⟨hknown, hnodup⟩ h
  · exact hrefused

end ObjectDocument
end SettingsDocument

namespace Settings

open SettingsDocument

/-- Settings that were read are returned exactly if they meet all conditions. -/
theorem ofDocument_of_read {text : String} {settings : Settings}
    (h : SettingsDocument.read text = .ok settings) :
    ofDocument text =
      match settings.fault? with
      | none => .ok settings
      | some fault => .error (.settings fault) := by
  simp only [ofDocument, h, validate]
  cases settings.fault? <;> rfl

/-- The order in which different members are replaced does not matter. -/
theorem setMembers_perm (settings : Settings) {members others : List SettingsMember}
    (h : members.Perm others) (hnodup : (others.map SettingsMember.field).Nodup) :
    settings.setMembers members = settings.setMembers others := by
  have hfields := h.map SettingsMember.field
  obtain ⟨hset, hkept⟩ := settings.member_setMembers (hfields.nodup_iff.mpr hnodup)
  obtain ⟨hset', hkept'⟩ := settings.member_setMembers hnodup
  refine eq_of_member fun field => ?_
  by_cases hfield : field ∈ others.map SettingsMember.field
  · obtain ⟨m, hm, rfl⟩ := List.mem_map.mp hfield
    rw [hset m (h.mem_iff.mpr hm), hset' m hm]
  · rw [hkept field fun hmem => hfield (hfields.mem_iff.mp hmem), hkept' field hfield]

/-- Regular documents are read independently of the order of their entries and of all blanks. The
settings have the members of the document, and defaults for the others; they are returned exactly if
they meet all conditions. A document with an unknown key or a repeated one is refused for it,
whatever its values. -/
theorem ofDocument_text (document : ObjectDocument) :
    (document.Regular → ∃ settings : Settings,
      (∀ m ∈ document.members, settings.member m.field = m) ∧
        (∀ field ∉ document.fields, settings.member field = ({} : Settings).member field) ∧
        ofDocument document.text =
          match settings.fault? with
          | none => .ok settings
          | some fault => .error (.settings fault)) ∧
      (document.Regular → ∀ other : ObjectDocument, other.Regular →
        other.members.Perm document.members →
          ofDocument other.text = ofDocument document.text) ∧
      (¬ document.Regular → ∃ fault, FaultOf document.entries document.fields fault ∧
        ofDocument document.text = .error (.document fault)) := by
  refine ⟨fun h => ?_, fun h other hother hperm => ?_, fun h => ?_⟩
  · obtain ⟨hset, hkept⟩ := ({} : Settings).member_setMembers h.2
    exact ⟨_, hset, hkept, ofDocument_of_read h.read_text⟩
  · rw [ofDocument, ofDocument, h.read_text, hother.read_text, setMembers_perm {} hperm h.2]
  · obtain ⟨fault, hfault, hread⟩ := ObjectDocument.read_text_of_not_regular h
    refine ⟨fault, hfault, ?_⟩
    rw [ofDocument, hread]

/-- A document of two members in a form of its own, and one that repeats a member. Neither stack
length meets the conditions, but the repetition is met before they are looked at. -/
theorem ofDocument_text_odd_length :
    ∃ document repeated : ObjectDocument,
      document.text = "\x7b \"stack_length\" :3,\n\"dram\": \"\\u0052AM\" \x7d" ∧
        document.Regular ∧ ofDocument document.text = .error (.settings (.stackLength 3)) ∧
        repeated.text = "\x7b \"stack_length\" :3, \"stack_length\" :3\x7d" ∧
        ∃ fault, ofDocument repeated.text = .error (.document fault) := by
  let nothing : Json.Blanks := ⟨[], by decide⟩
  let space : Json.Blanks := ⟨[' '], by decide⟩
  let newline : Json.Blanks := ⟨['\n'], by decide⟩
  let stackLength : Entry :=
    ⟨space, .ofPlain "stack_length" (by decide), space, nothing,
      .member (.stackLength 3) (Json.WrittenString.meant_ofPlain _ _).symm, nothing⟩
  let zero : Json.HexDigit := ⟨'0', 0, by decide⟩
  let name : Json.WrittenString :=
    ⟨[.escaped ⟨zero, zero, ⟨'5', 5, by decide⟩, ⟨'2', 2, by decide⟩⟩ (by decide),
      .plain 'A' (by decide), .plain 'M' (by decide)]⟩
  let dram : Entry :=
    ⟨newline, .ofPlain "dram" (by decide), nothing, space,
      .member (.dram name .buffer (by decide)) (Json.WrittenString.meant_ofPlain _ _).symm, space⟩
  let document : ObjectDocument := ⟨nothing, [stackLength, dram], nothing, nothing⟩
  let repeated : ObjectDocument := ⟨nothing, [stackLength, stackLength], nothing, nothing⟩
  have hknown : ∀ entry ∈ document.entries, entry.member? ≠ none :=
    List.forall_mem_cons.mpr ⟨Option.some_ne_none _, List.forall_mem_cons.mpr
      ⟨Option.some_ne_none _, fun _ h => absurd h List.not_mem_nil⟩⟩
  have hregular : document.Regular := ⟨hknown, by decide⟩
  have hrepeated : ¬ repeated.Regular := fun h => absurd h.2 (by decide)
  obtain ⟨settings, hset, hkept, hread⟩ := (ofDocument_text document).1 hregular
  obtain ⟨fault, -, hrefused⟩ := (ofDocument_text repeated).2.2 hrepeated
  refine ⟨document, repeated, by decide, hregular, ?_, by decide, fault, hrefused⟩
  have hsettings : settings = { dram := .buffer, stackLength := 3 } := by
    refine eq_of_member fun field => ?_
    cases field with
    | dram => exact hset (.dram .buffer) (by decide)
    | stackLength => exact hset (.stackLength 3) (by decide)
    | _ => exact hkept _ (by decide)
  rw [hread, hsettings]
  rfl

end Settings
end RandomMachine
