import ElmDiagnostics.Json
import ElmDiagnostics.Settings.Basic
import ElmDiagnostics.Text.Quoted

/-!
Contract: reading settings that a client sends.

Owns: the fields of the settings, the forms they may be written in, and why a form is refused.

Settings come as an object of fields or as an array of the fields in their order. Either may be
wrapped once: under the member `elmLS` of an object, or alone in an array. Fields that are not
there keep their defaults, unknown ones are ignored, and the first field that cannot be read
refuses the whole.
-/

set_option autoImplicit false

namespace ElmDiagnostics

/-- What was expected where something else was found. -/
inductive Expected where
  | settings
  | boolean
  | sequence
  | string
  | level
  | unit
deriving DecidableEq, Repr

/-- Why settings were refused. -/
inductive SettingsError where
  | unexpected (found : Json) (expected : Expected)
  | unknownLevel (word : String)
  /-- A level written as an object that does not have exactly one member. -/
  | ambiguousLevel
  | tooLong (length : Nat)

namespace SettingsError

/-- The words for what was expected. -/
def expectedText : Expected → String
  | .settings => "struct DiagnosticsConfig"
  | .boolean => "a boolean"
  | .sequence => "a sequence"
  | .string => "a string"
  | .level => "string or map"
  | .unit => "unit"

/-- The words for what was found. -/
def foundText : Json → String
  | .null => "null"
  | .bool true => "boolean `true`"
  | .bool false => "boolean `false`"
  | .integer value => "integer `" ++ toString value ++ "`"
  | .decimal value => "floating point `" ++ value.text ++ "`"
  | .string text => "string " ++ Text.quote text
  | .array _ => "sequence"
  | .object _ => "map"

/-- The text shown for refused settings. -/
def message : SettingsError → String
  | .unexpected found expected =>
      "invalid type: " ++ foundText found ++ ", expected " ++ expectedText expected
  | .unknownLevel word =>
      "unknown variant `" ++ word ++ "`, expected one of `off`, `warning`, `error`"
  | .ambiguousLevel => "invalid value: map, expected map with a single key"
  | .tooLong length =>
      "invalid length " ++ toString length ++ ", expected fewer elements in array"

end SettingsError

/-- The fields of the settings. -/
inductive SettingsField where
  | rulesOff
  | onlyOnSave
  | externalLint
  | disabledRules
  | excludedPaths
deriving DecidableEq, Repr

namespace SettingsField

/-- All fields, in the order of an array. -/
def all : List SettingsField :=
  [.rulesOff, .onlyOnSave, .externalLint, .disabledRules, .excludedPaths]

/-- The name of a field in an object. -/
def key : SettingsField → String
  | .rulesOff => "disableElmLSDiagnostics"
  | .onlyOnSave => "onlyUpdateDiagnosticsOnSave"
  | .externalLint => "elmReviewDiagnostics"
  | .disabledRules => "disabledRules"
  | .excludedPaths => "excludedPaths"

/-- The field of a name. -/
def ofKey? (key : String) : Option SettingsField := all.find? fun field => field.key = key

end SettingsField

namespace Settings

/-! ### Values of fields -/

/-- Reads a truth value. -/
def readBool : Json → Except SettingsError Bool
  | .bool value => .ok value
  | found => .error (.unexpected found .boolean)

/-- Reads a text. -/
def readString : Json → Except SettingsError String
  | .string text => .ok text
  | found => .error (.unexpected found .string)

/-- Reads a list of texts. -/
def readStrings : Json → Except SettingsError (List String)
  | .array items => items.mapM readString
  | found => .error (.unexpected found .sequence)

/-- Reads the word of a level. -/
def readLevelWord (word : String) : Except SettingsError LintLevel :=
  match LintLevel.ofWord? word with
  | some level => .ok level
  | none => .error (.unknownLevel word)

/-- Reads a level: its word, or an object whose only member has the word as its name and
`null` as its value. -/
def readLevel : Json → Except SettingsError LintLevel
  | .string word => readLevelWord word
  | .object [(word, value)] => do
      let level ← readLevelWord word
      match value with
      | .null => .ok level
      | found => .error (.unexpected found .unit)
  | .object _ => .error .ambiguousLevel
  | found => .error (.unexpected found .level)

/-- Reads the value of one field. -/
def readField (settings : Settings) (field : SettingsField) (value : Json) :
    Except SettingsError Settings :=
  match field with
  | .rulesOff => do
      let rulesOff ← readBool value
      return { settings with rulesOff }
  | .onlyOnSave => do
      let onlyOnSave ← readBool value
      return { settings with onlyOnSave }
  | .externalLint => do
      let externalLint ← readLevel value
      return { settings with externalLint }
  | .disabledRules => do
      let disabledRules ← readStrings value
      return { settings with disabledRules }
  | .excludedPaths => do
      let excludedPaths ← readStrings value
      return { settings with excludedPaths }

/-! ### Whole settings -/

/-- Reads one member of an object. -/
def readMember (settings : Settings) (member : String × Json) : Except SettingsError Settings :=
  match SettingsField.ofKey? member.1 with
  | some field => settings.readField field member.2
  | none => .ok settings

/-- Reads settings without a wrapper. -/
def readPlain : Json → Except SettingsError Settings
  | .object members => members.foldlM readMember {}
  | .array items => do
      let settings ← (SettingsField.all.zip items).foldlM
        (fun settings part => settings.readField part.1 part.2) ({} : Settings)
      if items.length ≤ SettingsField.all.length then .ok settings
      else .error (.tooLong items.length)
  | found => .error (.unexpected found .settings)

/-- The value inside a wrapper. -/
def unwrap? : Json → Option Json
  | .object members => (members.lookup "elmLS").filter fun value => !value.isNull
  | .array [value] => if value.isNull then none else some value
  | _ => none

/-- Reads settings; `null` stands for the defaults. -/
def read (value : Json) : Except SettingsError Settings :=
  if value.isNull then .ok {} else readPlain ((unwrap? value).getD value)

end Settings

end ElmDiagnostics
