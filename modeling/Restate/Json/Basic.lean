import Restate.Fields
import Restate.Number.Double

/-!
# JSON values

Objects keep their keys in order, whole numbers are kept apart from floating-point numbers, and
infinity and not-a-number are allowed among the latter.
-/

namespace Restate

inductive Json where
  | null
  | bool (value : Bool)
  | int (value : Int)
  | float (value : Double)
  | str (value : Text)
  | arr (items : List Json)
  | obj (fields : List (Text × Json))
  deriving BEq

namespace Json

def fields? : Json → Option (Fields Json)
  | .obj fields => some fields
  | _ => none

def text? : Json → Option Text
  | .str s => some s
  | _ => none

/-- The value under a key of an object; nothing if there is none or the value is no object. -/
def get? (value : Json) (key : Text) : Option Json :=
  value.fields?.bind fun fields => Fields.get? fields key

end Json

end Restate
