import ElmDiagnostics.Settings.Reader
import ElmDiagnostics.Source.Uri

/-!
Contract: why the reaction to an event fails.

Owns: the causes of failure and their texts.
-/

set_option autoImplicit false

namespace ElmDiagnostics

/-- The word for a kind in messages. -/
def Kind.title : Kind → String
  | .compile => "Compile"
  | .externalLint => "ExternalLint"
  | .typeInference => "TypeInference"
  | .lint => "Lint"

/-- Why the reaction to an event fails. -/
inductive Failure where
  /-- The file lies in no folder of the workspace. -/
  | noWorkspace (uri : Uri)
  /-- The file has no syntax tree. -/
  | missingTree (uri : Uri)
  /-- An analyser failed. -/
  | analyser (kind : Kind) (reason : String)
  | settings (cause : SettingsError)
  | coordinate (cause : CoordinateError)

namespace Failure

/-- The text shown for a failure. -/
def message : Failure → String
  | .noWorkspace uri => "no workspace contains " ++ uri.text
  | .missingTree uri => "no syntax tree for " ++ uri.text
  | .analyser kind reason => kind.title ++ " diagnostics failed: " ++ reason
  | .settings cause => "invalid configuration: " ++ cause.message
  | .coordinate cause => cause.message

/-- Whether only the folder of the file is missing; callers may skip such a file. -/
def isMissingWorkspace : Failure → Bool
  | .noWorkspace _ => true
  | _ => false

end Failure

end ElmDiagnostics
