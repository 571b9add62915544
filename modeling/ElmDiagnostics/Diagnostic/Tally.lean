import ElmDiagnostics.Diagnostic.Basic

/-!
Contract: comparing lists of diagnostics without regard to order.

Owns: `Tally`, occurrence counts of identities, and `sameContents`, which matches the elements
of two lists one against the other.

Counts are natural numbers: an occurrence that is not there cannot be taken off.
-/

set_option autoImplicit false

namespace ElmDiagnostics

/-- How often each identity occurs. -/
structure Tally where
  counts : List (Diagnostic.Identity × Nat)
deriving DecidableEq, Repr

namespace Tally

/-- How often an identity occurs. -/
def count (tally : Tally) (identity : Diagnostic.Identity) : Nat :=
  (tally.counts.lookup identity).getD 0

/-- Counts one occurrence more. -/
def addTo (identity : Diagnostic.Identity) :
    List (Diagnostic.Identity × Nat) → List (Diagnostic.Identity × Nat)
  | [] => [(identity, 1)]
  | (other, number) :: rest =>
      if identity = other then (other, number + 1) :: rest
      else (other, number) :: addTo identity rest

/-- Counts one occurrence more. -/
def add (tally : Tally) (identity : Diagnostic.Identity) : Tally := ⟨addTo identity tally.counts⟩

/-- Counts one occurrence less; fails when there is none. -/
def takeFrom? (identity : Diagnostic.Identity) :
    List (Diagnostic.Identity × Nat) → Option (List (Diagnostic.Identity × Nat))
  | [] => none
  | (other, number) :: rest =>
      if identity = other then
        match number with
        | 0 => none
        | remaining + 1 => some ((other, remaining) :: rest)
      else (takeFrom? identity rest).map ((other, number) :: ·)

/-- Counts one occurrence less; fails when there is none. -/
def take? (tally : Tally) (identity : Diagnostic.Identity) : Option Tally :=
  (takeFrom? identity tally.counts).map Tally.mk

/-- The occurrences in a list. -/
def ofList (diagnostics : List Diagnostic) : Tally :=
  diagnostics.foldl (fun tally diagnostic => tally.add diagnostic.identity) ⟨[]⟩

/-- Takes off the occurrences of a list, one after the other. -/
def takeAll? (tally : Tally) (diagnostics : List Diagnostic) : Option Tally :=
  diagnostics.foldlM (fun tally diagnostic => tally.take? diagnostic.identity) tally

end Tally

/-- Whether two lists hold the same problems equally often, in whatever order. -/
def Diagnostic.sameContents (old new : List Diagnostic) : Bool :=
  old.length = new.length && ((Tally.ofList old).takeAll? new).isSome

end ElmDiagnostics
