import ElmDiagnostics.Json
import ElmDiagnostics.Source.Position

/-!
Contract: one reported problem.

Owns: diagnostics, the kinds of producer they come from, and when two diagnostics count as
the same.

Does not own: the rules and analysers that report diagnostics, and how lists of them merge.
-/

set_option autoImplicit false

namespace ElmDiagnostics

/-- The producer of a list of diagnostics. -/
inductive Kind where
  /-- The compiler. -/
  | compile
  /-- The external linter. -/
  | externalLint
  | typeInference
  /-- The rules of this library. -/
  | lint
deriving DecidableEq, Repr

/-- All kinds, in the order in which a file's diagnostics are merged. -/
def Kind.all : List Kind := [.compile, .externalLint, .typeInference, .lint]

/-- How serious a problem is. -/
inductive Severity where
  | error
  | warning
  | information
  | hint
deriving DecidableEq, Repr

/-- A hint on how to show a problem. -/
inductive Tag where
  | unnecessary
  | deprecated
deriving DecidableEq, Repr

/-- The bit that stands for a tag in a set of tags. -/
def Tag.bit : Tag → UInt8
  | .unnecessary => 1
  | .deprecated => 2

/-- One reported problem. -/
structure Diagnostic where
  code : String
  message : String
  severity : Severity
  range : Span
  tags : List Tag
  source : String
  data : Option Json
deriving Repr

namespace Diagnostic

/-- The source that diagnostics name unless told otherwise. -/
def defaultSource : String := "Elm"

/-- A diagnostic without tags and data. -/
def new (code message : String) (severity : Severity) (range : Span) : Diagnostic :=
  { code, message, severity, range, tags := [], source := defaultSource, data := none }

/-- Adds a tag that is not there yet. -/
def withTag (diagnostic : Diagnostic) (tag : Tag) : Diagnostic :=
  if tag ∈ diagnostic.tags then diagnostic
  else { diagnostic with tags := diagnostic.tags ++ [tag] }

/-- Names another source. -/
def withSource (diagnostic : Diagnostic) (source : String) : Diagnostic := { diagnostic with source }

/-- Attaches a payload. -/
def withData (diagnostic : Diagnostic) (data : Json) : Diagnostic :=
  { diagnostic with data := some data }

/-- The tags as a set, one bit for each. -/
def tagSet (diagnostic : Diagnostic) : UInt8 :=
  diagnostic.tags.foldl (fun bits tag => bits ||| tag.bit) 0

/-- What makes a diagnostic differ from others: code, message, severity, range and the set of
tags. Source and payload only concern how it is shown. -/
structure Identity where
  code : String
  message : String
  severity : Severity
  range : Span
  tagSet : UInt8
deriving DecidableEq, Repr

/-- The identity of a diagnostic. -/
def identity (diagnostic : Diagnostic) : Identity where
  code := diagnostic.code
  message := diagnostic.message
  severity := diagnostic.severity
  range := diagnostic.range
  tagSet := diagnostic.tagSet

/-- Two diagnostics count as the same problem. -/
def Same (left right : Diagnostic) : Prop := left.identity = right.identity

instance (left right : Diagnostic) : Decidable (Same left right) :=
  inferInstanceAs (Decidable (left.identity = right.identity))

/-- The first diagnostic of each identity, in order, leaving out those in `seen`. -/
def distinctFrom (seen : List Identity) : List Diagnostic → List Diagnostic
  | [] => []
  | diagnostic :: rest =>
      if diagnostic.identity ∈ seen then distinctFrom seen rest
      else diagnostic :: distinctFrom (diagnostic.identity :: seen) rest

/-- The first diagnostic of each identity, in order. -/
def distinct (diagnostics : List Diagnostic) : List Diagnostic := distinctFrom [] diagnostics

end Diagnostic

end ElmDiagnostics
