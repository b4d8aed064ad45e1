import RandomMachine.CommandLine.Run
import RandomMachine.Proofs.Settings.Documents

/-!
# Options over a settings document

Settings come from three layers: every member is the one that the options give, else the one of the
document, else the default. The conditions on settings are tested twice, on the document alone and
once the options are over it, so options do not mend a document that fails them.
-/

namespace RandomMachine

/-! ### Layers of members -/

/-- The member that options give for a field, if they give one. -/
def CommandLine.Options.member? (options : CommandLine.Options) :
    SettingsField → Option SettingsMember
  | .programSize => options.programSize.map .programSize
  | .instructionCount => options.budget.map .instructionCount
  | .seed => options.seed.map fun seed => .seed (some seed)
  | .dram => if options.realDram then some (.dram .buffer) else none
  | .stackOverflow => if options.checkedStack then some (.stackOverflow .fault) else none
  | .stackLength | .reportRuntime => none

/-- The member of a document for a field, if it has one. -/
def SettingsDocument.ObjectDocument.member? (document : SettingsDocument.ObjectDocument)
    (field : SettingsField) : Option SettingsMember :=
  document.members.find? (·.field == field)

/-- Options that are put over settings give their members, and the others stay. -/
theorem CommandLine.Options.member_override (options : CommandLine.Options) (settings : Settings)
    (field : SettingsField) :
    (options.override settings).member field =
      (options.member? field).getD (settings.member field) := by
  obtain ⟨seed, _, _, programSize, budget, realDram, checkedStack, _, _⟩ := options
  cases field with
  | programSize => cases programSize <;> rfl
  | instructionCount => cases budget <;> rfl
  | seed => cases seed <;> rfl
  | dram => cases realDram <;> rfl
  | stackLength => rfl
  | stackOverflow => cases checkedStack <;> rfl
  | reportRuntime => rfl

/-- A regular document is read as settings with its members, and the defaults for the others. -/
theorem SettingsDocument.ObjectDocument.Regular.exists_read {document : ObjectDocument}
    (h : document.Regular) :
    ∃ settings : Settings, read document.text = .ok settings ∧ ∀ field,
      settings.member field = (document.member? field).getD (({} : Settings).member field) := by
  obtain ⟨hset, hkept⟩ := ({} : Settings).member_setMembers h.2
  refine ⟨_, h.read_text, fun field => ?_⟩
  unfold member?
  cases hfind : document.members.find? (·.field == field) with
  | none =>
    refine hkept field fun hmem => ?_
    obtain ⟨m, hm, hfield⟩ := List.mem_map.mp hmem
    exact List.find?_eq_none.mp hfind m hm (beq_iff_eq.mpr hfield)
  | some m =>
    have hfound := List.find?_some hfind
    exact beq_iff_eq.mp hfound ▸ hset m (List.mem_of_find?_eq_some hfind)

/-- A document with one member, whose key is written as it is. -/
def SettingsDocument.ObjectDocument.ofMember (written : WrittenMember) : ObjectDocument :=
  have plain : written.meant.field.key.toList.all Json.isPlain = true := by
    cases written.meant.field <;> decide
  let nothing : Json.Blanks := ⟨[], by decide⟩
  let space : Json.Blanks := ⟨[' '], by decide⟩
  { before := nothing
    entries := [⟨nothing, .ofPlain written.meant.field.key plain, nothing, space,
      .member written (Json.WrittenString.meant_ofPlain _ _).symm, nothing⟩]
    beforeClose := nothing
    behind := nothing }

/-- A document with one member is regular. -/
theorem SettingsDocument.ObjectDocument.regular_ofMember (written : WrittenMember) :
    (ofMember written).Regular :=
  ⟨List.forall_mem_singleton.mpr (Option.some_ne_none _), List.nodup_singleton _⟩

/-- A document with one member is read as the defaults with the member. -/
theorem SettingsDocument.ObjectDocument.read_ofMember (written : WrittenMember) :
    read (ofMember written).text = .ok (({} : Settings).setMember written.meant) :=
  (regular_ofMember written).read_text

/-! ### Conditions, before and after -/

/-- Settings of options and a document that is read are returned if neither the document alone nor
the two together fail a condition; a condition that the document fails is reported first. -/
theorem CommandLine.Options.settings_of_read (options : CommandLine.Options) {text : String}
    {base : Settings} (h : SettingsDocument.read text = .ok base) :
    options.settings (some text) =
      (base.fault? <|> (options.override base).fault?).elim
        (.ok (options.override base)) fun fault => .error (.settings fault) := by
  rw [settings, Settings.ofDocument_of_read h]
  cases base.fault? with
  | some fault => rfl
  | none =>
    change (do (options.override base).validate; return options.override base) = _
    rw [Settings.validate]
    cases (options.override base).fault? <;> rfl

/-- Settings of options without a document are the defaults with the options over them. -/
theorem CommandLine.Options.settings_none (options : CommandLine.Options) :
    options.settings none = (options.override {}).fault?.elim (.ok (options.override {}))
      fun fault => .error (.settings fault) := by
  change (do (options.override {}).validate; return options.override {}) = _
  rw [Settings.validate]
  cases (options.override {}).fault? <;> rfl

namespace CommandLine

/-- The text of a file is the text that was saved. -/
theorem documentText_toUTF8 (text : String) : documentText (.ok text.toUTF8) = .ok text := by
  rw [documentText, Sink.fromUTF8?_toUTF8]

section Loading

variable {m : Type → Type} [Monad m] [LawfulMonad m] (host : Host m) (options : Options)

/-- A document that the options name is read, and the rest is up to its text. -/
theorem loadSettings_of_load {path text : String} (hpath : options.document = some path)
    (access : m Unit)
    (hload : host.load path = do access; return .ok text.toUTF8) :
    loadSettings host options = do access; return options.settings (some text) := by
  unfold loadSettings
  rw [hpath]
  dsimp only
  rw [hload, bind_assoc]
  simp only [pure_bind, documentText_toUTF8]

/-- Options override the members of a settings document, and the document those of the defaults.
Settings that are merged in this way are returned exactly if they meet all conditions and the
document alone does; the fault of the document alone is reported whatever the options are. -/
theorem loadSettings_merges :
    (∀ document : SettingsDocument.ObjectDocument, document.Regular → ∃ base : Settings,
      SettingsDocument.read document.text = .ok base ∧ ∀ field,
        base.member field = (document.member? field).getD (({} : Settings).member field)) ∧
    (options.document = none → ∃ merged : Settings,
      (∀ field, merged.member field =
        (options.member? field).getD (({} : Settings).member field)) ∧
      loadSettings host options =
        pure (merged.fault?.elim (.ok merged) fun fault => .error (.settings fault))) ∧
    ∀ (path text : String) (access : m Unit) (base : Settings), options.document = some path →
      (host.load path = do access; return .ok text.toUTF8) →
      SettingsDocument.read text = .ok base → ∃ merged : Settings,
        (∀ field, merged.member field = (options.member? field).getD (base.member field)) ∧
        loadSettings host options = do
          access
          return (base.fault? <|> merged.fault?).elim (.ok merged)
            fun fault => .error (.settings fault) := by
  refine ⟨fun _ h => h.exists_read,
    fun hnone => ⟨options.override {}, options.member_override {}, ?_⟩,
    fun path text access base hpath hload hread =>
      ⟨options.override base, options.member_override base, ?_⟩⟩
  · rw [loadSettings, hnone, ← options.settings_none]
  · rw [loadSettings_of_load host options hpath access hload, options.settings_of_read hread]

end Loading

/-- A host with one text in all its files. -/
def textHost (text : String) : Host Id where
  load _ := .ok text.toUTF8
  save _ _ := .ok ()
  print _ := ()
  complain _ := ()
  entropy := 0

/-- Settings with one member from a document, one from the options and the others from neither, and
options that alone ask for a program size that fails its condition. -/
theorem loadSettings_merges_programSize :
    let text := "\x7b\"program_size\": 8\x7d"
    let options : Options := { document := some "settings", checkedStack := true }
    loadSettings (textHost text) options =
        (.ok { programSize := 8, stackOverflow := .fault } : Except Error Settings) ∧
      loadSettings (textHost text) { programSize := some 6 } =
        (.error (.settings (.programSize 6)) : Except Error Settings) := by
  intro text options
  obtain ⟨hregular, -, hdocument⟩ := loadSettings_merges (textHost text) options
  obtain ⟨-, hnone, -⟩ := loadSettings_merges (textHost text) { programSize := some 6 }
  obtain ⟨base, hread, hbase⟩ := hregular (.ofMember (.programSize 8))
    (SettingsDocument.ObjectDocument.regular_ofMember _)
  obtain ⟨merged, hmerged, hload⟩ := hdocument "settings" text (pure ()) base rfl rfl hread
  obtain ⟨unmerged, hunmerged, hdefault⟩ := hnone rfl
  obtain rfl : base = { programSize := 8 } :=
    Settings.eq_of_member fun field => (hbase field).trans (by cases field <;> rfl)
  obtain rfl : merged = { programSize := 8, stackOverflow := .fault } :=
    Settings.eq_of_member fun field => (hmerged field).trans (by cases field <;> rfl)
  obtain rfl : unmerged = { programSize := 6 } :=
    Settings.eq_of_member fun field => (hunmerged field).trans (by cases field <;> rfl)
  exact ⟨hload, hdefault⟩

/-- A document whose program size meets no condition is refused, though the options replace the size
by one that meets them all. -/
theorem loadSettings_refuses_document :
    let text := "\x7b\"program_size\": 3\x7d"
    let options : Options := { document := some "settings", programSize := some 8 }
    SettingsDocument.read text = .ok { programSize := 3 } ∧
      (options.override { programSize := 3 }).fault? = none ∧
      loadSettings (textHost text) options =
        (.error (.settings (.programSize 3)) : Except Error Settings) := by
  intro text options
  have hread : SettingsDocument.read text = .ok { programSize := 3 } :=
    SettingsDocument.ObjectDocument.read_ofMember (.programSize 3)
  refine ⟨hread, by decide, ?_⟩
  rw [loadSettings_of_load (textHost text) options rfl (pure ()) rfl,
    options.settings_of_read hread]
  rfl

end CommandLine
end RandomMachine
