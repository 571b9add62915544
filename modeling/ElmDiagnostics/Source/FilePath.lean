/-!
Contract: file paths, compared component by component.

Owns: splitting a path into components, and the part of a path below another.

Paths are byte sequences. Empty components and `.` say nothing and are dropped, except for
a `.` that a relative path begins with. `..` is a component like any other, and the leading
`/` of an absolute path is a component of its own.
-/

set_option autoImplicit false

namespace ElmDiagnostics

/-- A component of a path. -/
inductive PathComponent where
  | root
  | segment (bytes : List UInt8)
deriving DecidableEq, Repr

/-- A path as the list of its components. -/
structure FilePath where
  components : List PathComponent
deriving DecidableEq, Repr

namespace FilePath

/-- The byte of `/`. -/
def slash : UInt8 := 47

/-- The byte of `.`. -/
def dot : UInt8 := 46

/-- The pieces between the slashes, empty ones included. -/
def pieces : List UInt8 → List (List UInt8)
  | [] => [[]]
  | byte :: rest =>
      if byte = slash then [] :: pieces rest
      else
        match pieces rest with
        | [] => [[byte]]
        | piece :: others => (byte :: piece) :: others

/-- Splits a path into components. -/
def ofBytes (bytes : List UInt8) : FilePath :=
  let kept := (pieces bytes).filter fun piece => piece ≠ [] && piece ≠ [dot]
  let segments := kept.map PathComponent.segment
  if bytes.head? = some slash then ⟨.root :: segments⟩
  else if (pieces bytes).head? = some [dot] then ⟨.segment [dot] :: segments⟩
  else ⟨segments⟩

/-- The path that a text spells. -/
def ofString (text : String) : FilePath := ofBytes (text.toList.flatMap String.utf8EncodeChar)

/-- What remains of `path` after the components of `base`. -/
def remainder : (path base : List PathComponent) → Option (List PathComponent)
  | path, [] => some path
  | [], _ :: _ => none
  | component :: path, expected :: base =>
      if component = expected then remainder path base else none

/-- The path below `base`, if `base` leads to `path`. -/
def relativeTo? (path base : FilePath) : Option FilePath :=
  (remainder path.components base.components).map FilePath.mk

/-- Whether the components of `base` are the first ones of `path`. -/
def startsWith (path base : FilePath) : Bool := (path.relativeTo? base).isSome

end FilePath

end ElmDiagnostics
