import Cpipe.Core.Manifest
import Cpipe.Library.Rounding

/-! JSON documents with their numbers as they are written, and what the host reads. -/

namespace Cpipe.JsonText
open Library.Rounding

/-- A JSON value over what stands for its numbers. -/
inductive Document (N : Type)
  | null
  | bool (value : Bool)
  | number (value : N)
  | string (value : String)
  | array (items : List (Document N))
  | object (fields : List (String × Document N))

/-- What is made of each kind of value. -/
structure Fold (N α : Type) where
  null : α
  bool : Bool → α
  number : N → α
  string : String → α
  array : List α → α
  object : List (String × α) → α

namespace Document

variable {N α : Type}

mutual

def fold (f : Fold N α) : Document N → α
  | .null => f.null
  | .bool b => f.bool b
  | .number n => f.number n
  | .string s => f.string s
  | .array items => f.array (foldItems f items)
  | .object fields => f.object (foldFields f fields)

def foldItems (f : Fold N α) : List (Document N) → List α
  | [] => []
  | item :: items => fold f item :: foldItems f items

def foldFields (f : Fold N α) : List (String × Document N) → List (String × α)
  | [] => []
  | (key,value) :: fields => (key,fold f value) :: foldFields f fields

end

end Document

namespace Fold

variable {N : Type}

def numbers : Fold N (List N) where
  null := []
  bool _ := []
  number n := [n]
  string _ := []
  array := List.flatten
  object fields := fields.flatMap Prod.snd

def nesting : Fold N Nat where
  null := 0
  bool _ := 0
  number _ := 0
  string _ := 0
  array items := items.foldr max 0 + 1
  object fields := (fields.map Prod.snd).foldr max 0 + 1

def json (value : N → Rat) : Fold N Json where
  null := .null
  bool := .bool
  number n := .number (value n)
  string := .string
  array := .array
  object := .object

end Fold

namespace Document

variable {N : Type}

/-- The numbers in the order of the text. -/
def numbers (d : Document N) : List N := d.fold Fold.numbers

/-- How many brackets are open at most. -/
def nesting (d : Document N) : Nat := d.fold Fold.nesting

def toJson (value : N → Rat) (d : Document N) : Json := d.fold (Fold.json value)

/-- The value of a document whose numbers all have one. -/
def valued (value : N → Option Rat) (d : Document N) : Option Json :=
  if d.numbers.all (fun n => (value n).isSome) then
    some (d.toJson (fun n => (value n).getD 0))
  else none

end Document

/-- A number of a text: of digits alone, or with a fraction or an exponent. An infinity is a
word that is no JSON. -/
inductive Token
  | integer (value : Int)
  | decimal (value : Rat)
  | infinity (negative : Bool)
deriving DecidableEq, Repr

/-- The number that is written. -/
def Token.exact : Token → Option Rat
  | .integer value => some value
  | .decimal value => some value
  | .infinity _ => none

/-- The nearest double, where it is finite. -/
def toDouble (r : Rat) : Option Rat :=
  let double := Format.double.nearest r
  if |double| < 2^(1024 : Int) then some double else none

/-- `nlohmann::json::parse` on a number: digits that fit 64 bits are an integer, all else is a
double, and one that overflows is refused. -/
def Token.read : Token → Option Rat
  | .integer value => if -2^63 ≤ value ∧ value < 2^64 then some value else toDouble value
  | .decimal value => toDouble value
  | .infinity _ => none

/-- What a text says. -/
def Document.exact : Document Token → Option Json := valued Token.exact

/-- What the host reads of a text. -/
def Document.read : Document Token → Option Json := valued Token.read

end Cpipe.JsonText
