import Cpipe.Core.Manifest

namespace Cpipe.Web

/-! ### The form of a node's parameters -/

/-- A parameter of a manifest as the form reads it. -/
structure ManifestParam where
  name : String
  type : String
  enumValues : Option (List String) := none
  range : Option Range := none

/-- A double. -/
inductive JsNumber where
  | finite (value : Rat)
  | nan
  | infinity (negative : Bool)

def JsNumber.atLeast (low : Rat) : JsNumber → Bool
  | .finite value => low ≤ value
  | .nan => false
  | .infinity negative => !negative

def JsNumber.atMost (high : Rat) : JsNumber → Bool
  | .finite value => value ≤ high
  | .nan => false
  | .infinity negative => negative

/-- What an input of the form holds. -/
inductive FormValue where
  | checked (value : Bool)
  | number (value : JsNumber)
  | text (value : String)

/-- `JSON.stringify` has no text for a number that is not finite. -/
def FormValue.json : FormValue → Json
  | .checked value => .bool value
  | .number (.finite value) => .number value
  | .number _ => .null
  | .text value => .string value

end Cpipe.Web
