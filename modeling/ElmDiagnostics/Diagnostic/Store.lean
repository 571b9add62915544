import ElmDiagnostics.Diagnostic.FileReport
import ElmDiagnostics.Source.Uri
import ElmDiagnostics.Table

/-!
Contract: the diagnostics of all files.

Owns: `Store`, updates of one file and of whole projects, and which files an update changes.

Only files with diagnostics are recorded. A file without a record reads as one without
diagnostics.
-/

set_option autoImplicit false

namespace ElmDiagnostics

/-- The diagnostics of every file that has any. -/
structure Store where
  files : Table Uri FileReport

/-- The lists of a project run, file by file. -/
abbrev ProjectResults := Table Uri (List Diagnostic)

namespace Store

/-- No diagnostics at all. -/
def empty : Store := ⟨∅⟩

/-- The diagnostics of a file, by producer. -/
def report (store : Store) (uri : Uri) : FileReport := (store.files.get? uri).getD .empty

/-- The merged diagnostics of a file. -/
def get (store : Store) (uri : Uri) : List Diagnostic := (store.report uri).merged

/-- The files with diagnostics, in order. -/
def uris (store : Store) : List Uri := store.files.keys

/-- Whether a file has a record. -/
def contains (store : Store) (uri : Uri) : Bool := store.files.contains uri

/-- Replaces one slot of a file, and tells whether that changes what the file shows. A record is
made for a file when it gets its first diagnostics, and goes when it is left without any. -/
def replaceSlot (store : Store) (uri : Uri) (kind : Kind) (diagnostics : List Diagnostic) :
    Store × Bool :=
  match store.files.get? uri with
  | none =>
      if diagnostics.isEmpty then (store, false)
      else (⟨store.files.insert uri (FileReport.empty.replaceSlot kind diagnostics).1⟩, true)
  | some report =>
      let (updated, changed) := report.replaceSlot kind diagnostics
      let files :=
        if updated.isEmpty then store.files.erase uri else store.files.insert uri updated
      (⟨files⟩, changed)

/-- The store after replacing one slot of a file. -/
def update (store : Store) (uri : Uri) (kind : Kind) (diagnostics : List Diagnostic) : Store :=
  (store.replaceSlot uri kind diagnostics).1

/-- Whether replacing one slot of a file changes what the file shows. -/
def changes (store : Store) (uri : Uri) (kind : Kind) (diagnostics : List Diagnostic) : Bool :=
  (store.replaceSlot uri kind diagnostics).2

/-- Forgets a file, and tells whether there was a record of it. -/
def remove (store : Store) (uri : Uri) : Store × Bool :=
  (⟨store.files.erase uri⟩, store.contains uri)

/-- The store after forgetting a file. -/
def delete (store : Store) (uri : Uri) : Store := (store.remove uri).1

/-! ### Several files at once -/

/-- Replaces the slot of `kind` in one file after the other, and lists the files that change. -/
def updateAll (store : Store) (kind : Kind) : List (Uri × List Diagnostic) → Store × List Uri
  | [] => (store, [])
  | (uri, diagnostics) :: rest =>
      let (updated, changed) := store.replaceSlot uri kind diagnostics
      let (final, changedLater) := updated.updateAll kind rest
      (final, if changed then uri :: changedLater else changedLater)

/-- The files that hold diagnostics of a kind, in order. -/
def holders (store : Store) (kind : Kind) : List Uri :=
  store.uris.filter fun uri => !((store.report uri).slot kind).isEmpty

/-- Adds an empty list for every file that holds diagnostics of `kind` and is missing from the
results of a run, so that applying them clears the file. -/
def resetMissing (store : Store) (kind : Kind) (results : ProjectResults) : ProjectResults :=
  (store.holders kind).foldl
    (fun results uri => if results.contains uri then results else results.insert uri []) results

/-- Makes a run's results the diagnostics of `kind` of the whole project. -/
def replace (store : Store) (kind : Kind) (results : ProjectResults) : Store × List Uri :=
  store.updateAll kind (store.resetMissing kind results).entries

/-- Empties the slots of a kind. -/
def clearKind (store : Store) (kind : Kind) : Store × List Uri :=
  store.updateAll kind ((store.holders kind).map fun uri => (uri, []))

end Store

end ElmDiagnostics
