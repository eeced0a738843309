import Cpipe.Runtime.Document

namespace Cpipe.Schemas
open Cpipe.Runtime

/-! ### The keywords of JSON Schema in use -/

abbrev Schema := Json → Bool

inductive JsonType where
  | string
  | number
  | integer
  | boolean
  | object
  | array
deriving DecidableEq, Repr

def type : JsonType → Schema
  | .string, .string _ => true
  | .number, .number _ => true
  | .integer, .number v => v.den = 1
  | .boolean, .bool _ => true
  | .object, .object _ => true
  | .array, .array _ => true
  | _, _ => false

def const (text : String) : Schema
  | .string s => s = text
  | _ => false

def enum (texts : List String) : Schema
  | .string s => texts.contains s
  | _ => false

/-- A keyword says nothing about values of another type. -/
def minLength (n : Nat) : Schema
  | .string s => n ≤ s.length
  | _ => true

def pattern (accepts : String → Bool) : Schema
  | .string s => accepts s
  | _ => true

def minimum (low : Rat) : Schema
  | .number v => low ≤ v
  | _ => true

def maximum (high : Rat) : Schema
  | .number v => v ≤ high
  | _ => true

def minItems (n : Nat) : Schema
  | .array vs => n ≤ vs.length
  | _ => true

def items (schema : Schema) : Schema
  | .array vs => vs.all schema
  | _ => true

def required (names : List String) : Schema
  | .object fields => names.all (fun name => (Params.lookup fields name).isSome)
  | _ => true

def properties (props : List (String × Schema)) : Schema
  | .object fields => props.all (fun p => (Params.lookup fields p.1).all p.2)
  | _ => true

/-- `"additionalProperties": false` beside `properties`. -/
def noAdditionalProperties (props : List (String × Schema)) : Schema
  | .object fields => fields.all (fun f => (props.map Prod.fst).contains f.1)
  | _ => true

def allOf (schemas : List Schema) : Schema := fun v => schemas.all (fun schema => schema v)

def ifThen (condition consequence : Schema) : Schema := fun v => !condition v || consequence v

/-- An object with these properties and no others. -/
def closed (names : List String) (props : List (String × Schema)) : Schema :=
  allOf [type .object,required names,noAdditionalProperties props,properties props]

/-! ### `pipeline-v0.3.json` and `pipeline-v0.4.json` -/

def nonEmptyText : Schema := allOf [type .string,minLength 1]

def positiveInteger : Schema := allOf [type .integer,minimum 1]

def inputItem : Schema := closed ["port","kind","format"] [
  ("port",nonEmptyText),
  ("kind",const "Image2D"),
  ("format",enum ["R8G8B8A8_UNORM","R16_UINT","R32_SFLOAT","R16G16B16A16_SFLOAT",
    "R16G16B16A16_UNORM"]),
  ("width",positiveInteger),
  ("height",positiveInteger)]

def endpoint : Schema := allOf [type .string,pattern endpointPattern]

def edgeItem : Schema := closed ["from","to"] [("from",endpoint),("to",endpoint)]

/-- The `if`/`then` blocks of a node: one node type constrains its parameters. -/
def paramsOf (nodeType : String) (params : Schema) : Schema :=
  ifThen (allOf [properties [("type",const nodeType)],required ["type"]])
    (properties [("params",params)])

def targetProperties : List (String × Schema) := [
  ("target",enum ["sRGB","BT2020-PQ","DisplayP3","BT2020-HLG"])]

def targetParams : Schema := closed ["target"] targetProperties

def nodeProperties : List (String × Schema) := [
  ("id",nonEmptyText),
  ("type",allOf [type .string,pattern typePattern]),
  ("params",type .object)]

/-- What the two versions say differently about a node. -/
def nodeItem (props : List (String × Schema)) (lutParams bm3dParams : Schema) : Schema :=
  allOf [
    closed ["id","type","params"] props,
    paramsOf "com.cpipe.color.scene_linear_to_display" targetParams,
    paramsOf "com.cpipe.color.3d_lut" lutParams,
    paramsOf "com.cpipe.denoise.bm3d" bm3dParams]

def lutParamsV03 : Schema := closed ["lut_path"] [("lut_path",nonEmptyText)]

def bm3dParamsV03 : Schema := closed [] [
  ("sigma_override",allOf [type .number,minimum 0])]

/-- `^#[0-9A-Fa-f]{6}([0-9A-Fa-f]{2})?$`. -/
def colorPattern (text : String) : Bool :=
  match text.toList with
  | '#' :: digits =>
    (digits.length = 6 || digits.length = 8) &&
      digits.all (fun c => c.isDigit || ('A' ≤ c && c ≤ 'F') || ('a' ≤ c && c ≤ 'f'))
  | _ => false

def uiProperties : List (String × Schema) := [
  ("x",type .number),
  ("y",type .number),
  ("color",allOf [type .string,pattern colorPattern]),
  ("collapsed",type .boolean)]

def lutPropertiesV04 : List (String × Schema) := [
  ("lut_path",nonEmptyText),
  ("interpolation",enum ["tetrahedral","trilinear"])]

def lutParamsV04 : Schema := closed ["lut_path"] lutPropertiesV04

def bm3dPropertiesV04 : List (String × Schema) := [
  ("sigma",allOf [type .number,minimum 0,maximum sigmaMaximum]),
  ("sigma_override",allOf [type .number,minimum 0])]

def bm3dParamsV04 : Schema := closed [] bm3dPropertiesV04

def nodeV03 : Schema := nodeItem nodeProperties lutParamsV03 bm3dParamsV03

def nodeV04 : Schema :=
  nodeItem (nodeProperties ++ [("ui",closed [] uiProperties)]) lutParamsV04 bm3dParamsV04

def pipelineProperties (version : String) (node : Schema) : List (String × Schema) := [
  ("$schema",type .string),
  ("version",const version),
  ("id",nonEmptyText),
  ("inputs",allOf [type .array,minItems 1,items inputItem]),
  ("nodes",allOf [type .array,minItems 1,items node]),
  ("edges",allOf [type .array,items edgeItem])]

def pipeline (version : String) (node : Schema) : Schema :=
  closed ["version","id","inputs","nodes","edges"] (pipelineProperties version node)

def pipelineV03 : Schema := pipeline "0.3" nodeV03

def pipelineV04 : Schema := pipeline "0.4" nodeV04

/-- `validate_pipeline_schema` on the document as parsed: `value` throws where there is no
object or the version is no text, and the catch reports every exception alike. -/
def validatePipelineJson (document : Json) : Except Error Unit :=
  let refused : Except Error Unit := .error ⟨.failed,"pipeline schema validation failed: "⟩
  match document with
  | .object fields =>
    match (Params.lookup fields "version").getD (.string "") with
    | .string version =>
      if version ≠ "0.4" then
        .error ⟨.failed,"schema version mismatch — run tools/migrate/v03_to_v04.py"⟩
      else if pipelineV04 document then .ok ()
      else refused
    | _ => refused
  | _ => refused

end Cpipe.Schemas
