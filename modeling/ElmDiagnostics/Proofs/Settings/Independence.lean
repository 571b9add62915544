import ElmDiagnostics.Proofs.Outcome
import ElmDiagnostics.Settings.Reader
import ElmDiagnostics.Table

/-!
Contract: settings are read field by field, wherever they stand.

Owns: that an object is read alike by itself and inside a wrapper; the spellings of a field; what
reading one member changes; and what an object that spells some of the fields is read as.

Does not own: settings that are refused, and those written as an array.
-/

set_option autoImplicit false

namespace ElmDiagnostics

/-! ### Fields -/

namespace SettingsField

/-- The settings have the same in the field. -/
def SameIn (left right : Settings) : SettingsField → Prop
  | .rulesOff => left.rulesOff = right.rulesOff
  | .onlyOnSave => left.onlyOnSave = right.onlyOnSave
  | .externalLint => left.externalLint = right.externalLint
  | .disabledRules => left.disabledRules = right.disabledRules
  | .excludedPaths => left.excludedPaths = right.excludedPaths

theorem SameIn.refl (settings : Settings) (field : SettingsField) :
    SameIn settings settings field := by
  cases field <;> rfl

theorem SameIn.trans {first second third : Settings} {field : SettingsField}
    (same : SameIn first second field) (alsoSame : SameIn second third field) :
    SameIn first third field := by
  cases field <;> exact Eq.trans same alsoSame

theorem ofKey?_key (field : SettingsField) : ofKey? field.key = some field := by
  cases field <;> decide

theorem ofKey?_eq_none {key : String} (unknown : ∀ field : SettingsField, key ≠ field.key) :
    ofKey? key = none := by
  rw [ofKey?, List.find?_eq_none]
  intro field _ isKey
  exact unknown field (of_decide_eq_true isKey).symm

theorem key_injective : Function.Injective key := injective_of_readBack ofKey?_key

theorem key_ne_wrapper (field : SettingsField) : field.key ≠ "elmLS" := by
  cases field <;> decide

end SettingsField

namespace Settings

/-! ### Spellings -/

/-- The value spells what the settings have in the field. -/
inductive Spells (settings : Settings) : SettingsField → Json → Prop where
  | rulesOff : Spells settings .rulesOff (.bool settings.rulesOff)
  | onlyOnSave : Spells settings .onlyOnSave (.bool settings.onlyOnSave)
  | level : Spells settings .externalLint (.string settings.externalLint.word)
  | levelObject : Spells settings .externalLint (.object [(settings.externalLint.word, .null)])
  | disabledRules : Spells settings .disabledRules (.array (settings.disabledRules.map .string))
  | excludedPaths : Spells settings .excludedPaths (.array (settings.excludedPaths.map .string))

/-- The member spells a field of the settings, or it means nothing. -/
inductive Writes (settings : Settings) : String × Json → Prop where
  | field {field : SettingsField} {value : Json} (spells : settings.Spells field value) :
      Writes settings (field.key, value)
  | unknown {key : String} {value : Json} (noField : ∀ field : SettingsField, key ≠ field.key)
      (noWrapper : key ≠ "elmLS") : Writes settings (key, value)

theorem Writes.key_ne_wrapper {settings : Settings} {member : String × Json}
    (writes : settings.Writes member) : member.1 ≠ "elmLS" := by
  cases writes with
  | @field field value spells => exact field.key_ne_wrapper
  | unknown _ noWrapper => exact noWrapper

theorem readLevelWord_word (level : LintLevel) : readLevelWord level.word = .ok level := by
  cases level <;> rfl

theorem readStrings_array (texts : List String) :
    readStrings (.array (texts.map .string)) = .ok texts := by
  show (texts.map Json.string).mapM readString = .ok texts
  induction texts with
  | nil => rfl
  | cons text rest inductionHypothesis =>
      rw [List.map_cons, List.mapM_cons, inductionHypothesis]
      rfl

/-! ### Reading members -/

/-- The settings with one field taken from others. -/
def withFieldOf (settings others : Settings) : SettingsField → Settings
  | .rulesOff => { settings with rulesOff := others.rulesOff }
  | .onlyOnSave => { settings with onlyOnSave := others.onlyOnSave }
  | .externalLint => { settings with externalLint := others.externalLint }
  | .disabledRules => { settings with disabledRules := others.disabledRules }
  | .excludedPaths => { settings with excludedPaths := others.excludedPaths }

theorem sameIn_withFieldOf_self (settings others : Settings) (field : SettingsField) :
    field.SameIn (settings.withFieldOf others field) others := by
  cases field <;> rfl

theorem sameIn_withFieldOf_of_ne (settings others : Settings) {field other : SettingsField}
    (different : other ≠ field) : other.SameIn (settings.withFieldOf others field) settings := by
  cases field <;> cases other <;> simp_all [withFieldOf, SettingsField.SameIn]

theorem readField_of_spells {settings : Settings} {field : SettingsField} {value : Json}
    (spells : settings.Spells field value) (before : Settings) :
    before.readField field value = .ok (before.withFieldOf settings field) := by
  cases spells with
  | rulesOff | onlyOnSave => rfl
  | level =>
      simp only [readField, readLevel, readLevelWord_word]
      rfl
  | levelObject =>
      simp only [readField, readLevel, readLevelWord_word]
      rfl
  | disabledRules | excludedPaths =>
      simp only [readField, readStrings_array]
      rfl

/-- Reading a member sets the field that it spells, if any, and leaves all others as they were. -/
theorem readMember_of_writes {settings : Settings} {member : String × Json}
    (writes : settings.Writes member) (before : Settings) :
    ∃ after, before.readMember member = .ok after ∧
      ∀ field : SettingsField, (field.key = member.1 → field.SameIn after settings) ∧
        (field.key ≠ member.1 → field.SameIn after before) := by
  cases writes with
  | @field written value spells =>
      refine ⟨before.withFieldOf settings written, ?_, fun field => ⟨?_, ?_⟩⟩
      · rw [readMember, SettingsField.ofKey?_key]
        exact readField_of_spells spells before
      · intro isWritten
        obtain rfl := SettingsField.key_injective isWritten
        exact sameIn_withFieldOf_self before settings field
      · intro notWritten
        exact sameIn_withFieldOf_of_ne before settings fun same => notWritten (congrArg _ same)
  | unknown noField _ =>
      refine ⟨before, ?_, fun field => ⟨fun isKey => absurd isKey.symm (noField field), ?_⟩⟩
      · rw [readMember, SettingsField.ofKey?_eq_none noField]
      · exact fun _ => .refl before field

/-- Members are read one after the other: fields that are written are set, the others stay. -/
theorem foldlM_readMember {settings : Settings} {members : List (String × Json)}
    (areWritten : ∀ member ∈ members, settings.Writes member) (before : Settings) :
    ∃ after, members.foldlM readMember before = .ok after ∧
      ∀ field : SettingsField, (field.key ∈ members.map Prod.fst → field.SameIn after settings) ∧
        (field.key ∉ members.map Prod.fst → field.SameIn after before) := by
  induction members generalizing before with
  | nil => exact ⟨before, rfl, fun field => ⟨by simp, fun _ => .refl before field⟩⟩
  | cons member rest inductionHypothesis =>
      obtain ⟨isWritten, restWritten⟩ := List.forall_mem_cons.mp areWritten
      obtain ⟨between, readFirst, fieldsOfFirst⟩ := readMember_of_writes isWritten before
      obtain ⟨after, readRest, fieldsOfRest⟩ := inductionHypothesis restWritten between
      refine ⟨after, ?_, fun field => ⟨?_, ?_⟩⟩
      · rw [List.foldlM_cons, readFirst]
        exact readRest
      · intro isKey
        by_cases isLater : field.key ∈ rest.map Prod.fst
        · exact (fieldsOfRest field).1 isLater
        · have isFirst : field.key = member.1 := by
            rw [List.map_cons] at isKey
            exact (List.mem_cons.mp isKey).resolve_right isLater
          exact ((fieldsOfRest field).2 isLater).trans ((fieldsOfFirst field).1 isFirst)
      · intro noKey
        rw [List.map_cons, List.mem_cons, not_or] at noKey
        exact ((fieldsOfRest field).2 noKey.2).trans ((fieldsOfFirst field).2 noKey.1)

/-! ### Wrappers -/

theorem read_object_of_no_wrapper {members : List (String × Json)}
    (noWrapper : ∀ value, members.lookup "elmLS" = some value → value.isNull = true) :
    read (.object members) = members.foldlM readMember {} := by
  have isPlain : unwrap? (.object members) = none := by
    rw [unwrap?, Option.filter_eq_none_iff]
    intro value found
    simp [noWrapper value found]
  show readPlain ((unwrap? (.object members)).getD (.object members)) = _
  rw [isPlain]
  rfl

theorem read_object_of_wrapper {outer members : List (String × Json)}
    (isWrapped : outer.lookup "elmLS" = some (.object members)) :
    read (.object outer) = members.foldlM readMember {} := by
  have unwrapped : unwrap? (.object outer) = some (.object members) := by
    rw [unwrap?, isWrapped]
    rfl
  show readPlain ((unwrap? (.object outer)).getD (.object outer)) = _
  rw [unwrapped]
  rfl

/-- An object that is no wrapper itself reads the same inside any wrapper, be it accepted or
refused. An object that spells some of the fields of given settings, and has other members at will,
is accepted: each field is that of the settings if it is spelled, and the default if it is not. -/
theorem settings_read_field_by_field :
    (∀ members outer : List (String × Json),
      (∀ value, members.lookup "elmLS" = some value → value.isNull = true) →
      outer.lookup "elmLS" = some (.object members) →
      read (.object outer) = read (.object members)) ∧
    ∀ (settings : Settings) (members : List (String × Json)),
      (∀ member ∈ members, settings.Writes member) →
      ∃ result, read (.object members) = .ok result ∧
        ∀ field : SettingsField,
          (field.key ∈ members.map Prod.fst → field.SameIn result settings) ∧
          (field.key ∉ members.map Prod.fst → field.SameIn result {}) := by
  constructor
  · intro members outer noWrapper isWrapped
    rw [read_object_of_wrapper isWrapped, read_object_of_no_wrapper noWrapper]
  · intro settings members areWritten
    have noWrapper (value : Json) (found : members.lookup "elmLS" = some value) :
        value.isNull = true :=
      absurd rfl (areWritten _ (Table.mem_of_lookup_eq_some found)).key_ne_wrapper
    rw [read_object_of_no_wrapper noWrapper]
    exact foldlM_readMember areWritten {}

/-- Of two fields that differ from the default, only the one that is spelled is taken over. -/
theorem partly_spelled_settings_read :
    let settings : Settings := { rulesOff := true, onlyOnSave := true }
    let members : List (String × Json) :=
      [("onlyUpdateDiagnosticsOnSave", .bool true), ("theme", .string "dark")]
    read (.object [("elmLS", .object members)]) = read (.object members) ∧
      ∃ result, read (.object members) = .ok result ∧
        SettingsField.onlyOnSave.SameIn result settings ∧
        SettingsField.rulesOff.SameIn result {} := by
  intro settings members
  have areWritten : ∀ member ∈ members, settings.Writes member := by
    refine List.forall_mem_cons.mpr ⟨.field .onlyOnSave, List.forall_mem_singleton.mpr ?_⟩
    exact .unknown (fun field => by cases field <;> decide) (by decide)
  have noWrapper (value : Json) (found : members.lookup "elmLS" = some value) :
      value.isNull = true := by
    have notFound : members.lookup "elmLS" = none := rfl
    rw [notFound] at found
    cases found
  obtain ⟨readsAlike, readsFields⟩ := settings_read_field_by_field
  obtain ⟨result, succeeds, fields⟩ := readsFields settings members areWritten
  exact ⟨readsAlike members _ noWrapper rfl, result, succeeds, (fields .onlyOnSave).1 (by decide),
    (fields .rulesOff).2 (by decide)⟩

/-- A wrapper is opened once, and what stands beside the settings in it does not matter. -/
example :
    read (.object [("disabledRules", .null), ("elmLS", .object [("disabledRules",
      .array [.string "unused_alias"]), ("elmLS", .null), ("onlyUpdateDiagnosticsOnSave",
      .bool true)])]) =
      .ok { onlyOnSave := true, disabledRules := ["unused_alias"] } := by
  rfl

end Settings

end ElmDiagnostics
