import ElmDiagnostics.Diagnostic.Tally

/-!
Contract: all diagnostics of one file.

Owns: one slot for each kind of producer, the merged list, and when replacing a slot changes
what is shown.
-/

set_option autoImplicit false

namespace ElmDiagnostics

/-- The latest list of every producer for one file. -/
structure FileReport where
  compile : List Diagnostic
  externalLint : List Diagnostic
  typeInference : List Diagnostic
  lint : List Diagnostic
deriving Repr

namespace FileReport

/-- No diagnostics at all. -/
def empty : FileReport := ⟨[], [], [], []⟩

/-- The list of one producer. -/
def slot (report : FileReport) : Kind → List Diagnostic
  | .compile => report.compile
  | .externalLint => report.externalLint
  | .typeInference => report.typeInference
  | .lint => report.lint

/-- Replaces the list of one producer. -/
def setSlot (report : FileReport) (kind : Kind) (diagnostics : List Diagnostic) : FileReport :=
  match kind with
  | .compile => { report with compile := diagnostics }
  | .externalLint => { report with externalLint := diagnostics }
  | .typeInference => { report with typeInference := diagnostics }
  | .lint => { report with lint := diagnostics }

/-- Whether replacing the list of one producer changes what the file shows. Other slots stay,
so it is enough to compare the old and the new list. -/
def changes (report : FileReport) (kind : Kind) (diagnostics : List Diagnostic) : Bool :=
  !Diagnostic.sameContents (report.slot kind) diagnostics

/-- Replaces the list of one producer, and tells whether that changes what the file shows. -/
def replaceSlot (report : FileReport) (kind : Kind) (diagnostics : List Diagnostic) :
    FileReport × Bool :=
  (report.setSlot kind diagnostics, report.changes kind diagnostics)

/-- All diagnostics in the order of kinds, repeated problems dropped. -/
def merged (report : FileReport) : List Diagnostic :=
  Diagnostic.distinct (Kind.all.flatMap report.slot)

/-- Whether every slot is empty. -/
def isEmpty (report : FileReport) : Bool := Kind.all.all fun kind => (report.slot kind).isEmpty

end FileReport

end ElmDiagnostics
