import ElmDiagnostics.Diagnostic.Basic
import ElmDiagnostics.Source.FilePath

/-!
Contract: what the client can configure.

Owns: the settings, their defaults, and the questions asked of them.
-/

set_option autoImplicit false

namespace ElmDiagnostics

/-- Whether the external linter runs, and as what its findings are shown. -/
inductive LintLevel where
  | off
  | warning
  | error
deriving DecidableEq, Repr

namespace LintLevel

/-- The severity that findings are given; none when the linter is off. -/
def severity? : LintLevel → Option Severity
  | .off => none
  | .warning => some .warning
  | .error => some .error

/-- The word for a level. -/
def word : LintLevel → String
  | .off => "off"
  | .warning => "warning"
  | .error => "error"

/-- All levels. -/
def all : List LintLevel := [.off, .warning, .error]

/-- The level of a word. -/
def ofWord? (word : String) : Option LintLevel := all.find? fun level => level.word = word

end LintLevel

/-- The settings of a session. -/
structure Settings where
  /-- Turns the rules of this library off. -/
  rulesOff : Bool := false
  /-- Looks at a file when it is opened or saved and not while it is edited. -/
  onlyOnSave : Bool := false
  externalLint : LintLevel := .off
  /-- Codes of rules that are not run. -/
  disabledRules : List String := []
  /-- Paths below a folder's root that are not linted. -/
  excludedPaths : List String := []
deriving DecidableEq, Repr

namespace Settings

instance : Inhabited Settings := ⟨{}⟩

/-- Whether the rules of this library run. -/
def lintEnabled (settings : Settings) : Bool := !settings.rulesOff

/-- Whether the external linter runs. -/
def externalLintEnabled (settings : Settings) : Bool := settings.externalLint.severity?.isSome

/-- The bytes of an excluded path without the slashes at its end. -/
def trimSlashes (bytes : List UInt8) : List UInt8 :=
  (bytes.reverse.dropWhile fun byte => byte = FilePath.slash).reverse

/-- Whether a path below a folder's root is excluded. Empty entries exclude nothing. -/
def isExcluded (settings : Settings) (path : FilePath) : Bool :=
  settings.excludedPaths.any fun text =>
    let bytes := trimSlashes (text.toList.flatMap String.utf8EncodeChar)
    !bytes.isEmpty && path.startsWith (.ofBytes bytes)

end Settings

end ElmDiagnostics
