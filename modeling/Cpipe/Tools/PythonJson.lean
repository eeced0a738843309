import Cpipe.Core.JsonText
import Mathlib.Data.Nat.Digits.Defs

/-! Python's `json` on the texts of `JsonText`. -/

namespace Cpipe.Tools.PythonJson
open JsonText Library.Rounding

/-- The limits of an interpreter: brackets that `json.loads` and `json.dumps` can be inside of
before they exceed the recursion limit, and the digits that an `int` may be converted from or to
(`sys.set_int_max_str_digits`, which takes nothing below 640 but zero for no limit). -/
structure Interpreter where
  loadsNesting : Nat
  dumpsNesting : Nat
  maxStrDigits : Option Nat
  threshold : ∀ n ∈ maxStrDigits, 640 ≤ n

inductive Exception
  | valueError
  | recursionError
deriving DecidableEq, Repr

/-- An `int` or a `float`. -/
inductive Number
  | int (value : Int)
  | float (value : Rat)
  | infinity (negative : Bool)
deriving DecidableEq, Repr

variable {N M : Type}

/-- A conversion inside of so many brackets. -/
abbrev Converter (M : Type) := Nat → Except Exception (Document M)

/-- An array or object may be opened. -/
def opens (limit : Nat) (inner : Converter M) : Converter M := fun opened =>
  if limit ≤ opened then .error .recursionError else inner (opened + 1)

def convertItems (items : List (Converter M)) : Converter M := fun opened =>
  Except.map .array (items.mapM (fun (item : Converter M) => item opened))

def convertFields (fields : List (String × Converter M)) : Converter M := fun opened =>
  Except.map .object (fields.mapM (fun (field : String × Converter M) =>
    (field.2 opened).map (field.1,·)))

/-- A document whose numbers are converted one after the other. -/
def convert (limit : Nat) (number : N → Except Exception M) : Document N → Converter M :=
  Document.fold {
    null := fun _ => .ok .null
    bool := fun b _ => .ok (.bool b)
    number := fun n _ => (number n).map .number
    string := fun s _ => .ok (.string s)
    array := fun items => opens limit (convertItems items)
    object := fun fields => opens limit (convertFields fields) }

/-- `float(text)` overflows to an infinity. -/
def parseFloat (value : Rat) : Number :=
  match toDouble value with
  | some double => .float double
  | none => .infinity (value < 0)

namespace Interpreter

/-- `int(text)` and `str(value)`. -/
def checkDigits (python : Interpreter) (value : Int) : Except Exception Unit :=
  match python.maxStrDigits with
  | some n => if n < (Nat.digits 10 value.natAbs).length then .error .valueError else .ok ()
  | none => .ok ()

def parseNumber (python : Interpreter) : Token → Except Exception Number
  | .integer value => (python.checkDigits value).map (fun _ => .int value)
  | .decimal value => .ok (parseFloat value)
  | .infinity negative => .ok (.infinity negative)

end Interpreter

/-- The nearest number of `n` significant decimal digits. -/
def significant (n : Nat) (x : Rat) : Rat :=
  let e := Int.log 10 |x| + 1 - n
  roundEven (x / 10^e) * 10^e

/-- `float.__repr__`: the fewest digits that are read back as the same double. Seventeen are
always enough. -/
def floatRepr (x : Rat) : Rat :=
  (((List.range' 1 17).map (significant · x)).find? (fun d => toDouble d = some x)).getD x

/-- `json.dumps` writes an infinity as a word. -/
def Interpreter.formatNumber (python : Interpreter) : Number → Except Exception Token
  | .int value => (python.checkDigits value).map (fun _ => .integer value)
  | .float value => .ok (.decimal (floatRepr value))
  | .infinity negative => .ok (.infinity negative)

def loads (python : Interpreter) (text : Document Token) : Except Exception (Document Number) :=
  convert python.loadsNesting python.parseNumber text 0

def dumps (python : Interpreter) (document : Document Number) :
    Except Exception (Document Token) :=
  convert python.dumpsNesting python.formatNumber document 0

end Cpipe.Tools.PythonJson
