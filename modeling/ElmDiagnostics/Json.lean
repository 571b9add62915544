import ElmDiagnostics.Decimal

/-!
Contract: JSON values that settings and diagnostic payloads carry.

Owns: the value type, look-up of a member, and the kind of a value.

Numbers are kept as they are written: an integer, or a decimal. Members of an object stand in
increasing key order, without repetition.
-/

set_option autoImplicit false

namespace ElmDiagnostics

/-- A JSON value. -/
inductive Json where
  | null
  | bool (value : Bool)
  | integer (value : Int)
  | decimal (value : Decimal)
  | string (text : String)
  | array (items : List Json)
  | object (members : List (String × Json))
deriving Repr, Inhabited

namespace Json

/-- The value of a member of an object. -/
def member? : Json → String → Option Json
  | .object members, key => members.lookup key
  | _, _ => none

/-- Whether the value is `null`. -/
def isNull : Json → Bool
  | .null => true
  | _ => false

end Json

end ElmDiagnostics
