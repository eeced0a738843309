import Cpipe.Core.Layout
import Cpipe.Core.Manifest

namespace Cpipe.Runtime
open Compute

/-- One entry of `inputs`. The parser keeps a non-negative JSON integer as an
unsigned 64-bit number. -/
structure InputJson where
  port : String
  kind : String := "Image2D"
  format : String
  width : Option UInt64 := none
  height : Option UInt64 := none

structure NodeJson where
  id : String
  type : String
  params : Params := []

/-- The ends of an edge are texts of the form `node.port`. -/
structure EdgeJson where
  src : String
  dst : String

/-- A pipeline document. Texts no check looks at (`$schema`, the `ui` hints) are
left out. -/
structure Document where
  version : String := "0.4"
  id : String
  inputs : List InputJson
  nodes : List NodeJson
  edges : List EdgeJson

structure Endpoint where
  nodeId : String
  port : String
  deriving DecidableEq, Repr

/-- Everything before the first dot names the node, everything after it the port. -/
def splitEndpoint (endpoint : String) : Endpoint where
  nodeId := String.ofList (endpoint.toList.takeWhile (· ≠ '.'))
  port := String.ofList ((endpoint.toList.dropWhile (· ≠ '.')).drop 1)

def pixelFormatFromString (format : String) : Option PixelFormat :=
  if format = "R16_UINT" then some .r16Uint
  else if format = "R32_SFLOAT" then some .r32Sfloat
  else if format = "R16G16B16A16_SFLOAT" then some .r16g16b16a16Sfloat
  else if format = "R8G8B8A8_UNORM" then some .r8g8b8a8Unorm
  else if format = "R16G16B16A16_UNORM" then some .r16g16b16a16Unorm
  else none

/-- A JSON integer read into a 32-bit field keeps its low half. -/
def dimension (value : Option UInt64) : UInt32 := (value.getD 0).toUInt32

def layoutFromJson (input : InputJson) : BufferLayout :=
  imageLayout ((pixelFormatFromString input.format).getD .r8g8b8a8Unorm)
    (dimension input.width) (dimension input.height)

/-- `^[^.]+\.[^.]+$`. -/
def endpointPattern (endpoint : String) : Bool :=
  let node := endpoint.toList.takeWhile (· ≠ '.')
  let port := (endpoint.toList.dropWhile (· ≠ '.')).drop 1
  !node.isEmpty && !port.isEmpty && port.all (· ≠ '.')

/-- `^com\.cpipe\.`. -/
def typePattern (type : String) : Bool := "com.cpipe.".toList.isPrefixOf type.toList

def onlyKeys (params : Params) (keys : List String) : Bool :=
  params.all (fun p => keys.contains p.1)

/-- The double nearest to `0.2`. -/
def sigmaMaximum : Rat := 3602879701896397 / 2^54

def numberWithin (value : Option Json) (low : Rat) (high : Option Rat) : Bool :=
  match value with
  | none => true
  | some (.number v) => decide (low ≤ v) && high.all (fun h => decide (v ≤ h))
  | some _ => false

/-- The `if`/`then` blocks of the schema: three node types constrain their own
parameters. -/
def paramsSchema (node : NodeJson) : Bool :=
  if node.type = "com.cpipe.color.scene_linear_to_display" then
    onlyKeys node.params ["target"] &&
    match Params.lookup node.params "target" with
    | some (.string t) => ["sRGB","BT2020-PQ","DisplayP3","BT2020-HLG"].contains t
    | _ => false
  else if node.type = "com.cpipe.color.3d_lut" then
    onlyKeys node.params ["lut_path","interpolation"] &&
    (match Params.lookup node.params "lut_path" with
    | some (.string p) => !p.isEmpty
    | _ => false) &&
    match Params.lookup node.params "interpolation" with
    | none => true
    | some (.string i) => ["tetrahedral","trilinear"].contains i
    | some _ => false
  else if node.type = "com.cpipe.denoise.bm3d" then
    onlyKeys node.params ["sigma","sigma_override"] &&
    numberWithin (Params.lookup node.params "sigma") 0 (some sigmaMaximum) &&
    numberWithin (Params.lookup node.params "sigma_override") 0 none
  else true

def inputSchema (input : InputJson) : Bool :=
  !input.port.isEmpty && input.kind == "Image2D" &&
  ["R8G8B8A8_UNORM","R16_UINT","R32_SFLOAT","R16G16B16A16_SFLOAT","R16G16B16A16_UNORM"].contains
    input.format &&
  input.width.all (fun w => decide (1 ≤ w)) && input.height.all (fun h => decide (1 ≤ h))

def nodeSchema (node : NodeJson) : Bool :=
  !node.id.isEmpty && typePattern node.type && paramsSchema node

def edgeSchema (edge : EdgeJson) : Bool := endpointPattern edge.src && endpointPattern edge.dst

/-- The constraints of `pipeline-v0.4.json`. -/
def pipelineSchema (document : Document) : Bool :=
  !document.id.isEmpty && !document.inputs.isEmpty && document.inputs.all inputSchema &&
  !document.nodes.isEmpty && document.nodes.all nodeSchema && document.edges.all edgeSchema

/-- The validator's own diagnosis follows the text of the second message. -/
def validatePipelineSchema (document : Document) : Except Error Unit :=
  if document.version ≠ "0.4" then
    .error ⟨.failed, "schema version mismatch — run tools/migrate/v03_to_v04.py"⟩
  else if pipelineSchema document then .ok ()
  else .error ⟨.failed, "pipeline schema validation failed: "⟩

def validateEnumParam (name : String) (value : Json) (declaration : ParamDecl) :
    Except Error Unit :=
  match value with
  | .string selected =>
    if declaration.enumValues.contains selected then .ok ()
    else .error ⟨.badIndex, "node param outside enum: " ++ name⟩
  | _ => .error ⟨.badIndex, "node param must be enum string: " ++ name⟩

def validateNumberParam (name : String) (value : Json) (declaration : ParamDecl) :
    Except Error Unit :=
  match value with
  | .number selected =>
    match declaration.range with
    | none => .ok ()
    | some range =>
      if range.min.any (fun low => decide (selected < low)) then
        .error ⟨.badIndex, "node param below range: " ++ name⟩
      else if range.max.any (fun high => decide (high < selected)) then
        .error ⟨.badIndex, "node param above range: " ++ name⟩
      else .ok ()
  | _ => .error ⟨.badIndex, "node param must be number: " ++ name⟩

def validateTypedParam (name : String) (value : Json) (declaration : ParamDecl) :
    Except Error Unit :=
  match declaration.type, value with
  | .enum, _ => validateEnumParam name value declaration
  | .number, _ => validateNumberParam name value declaration
  | .boolean, .bool _ => .ok ()
  | .boolean, _ => .error ⟨.badIndex, "node param must be boolean: " ++ name⟩
  | .string, .string _ => .ok ()
  | .string, _ => .error ⟨.badIndex, "node param must be string: " ++ name⟩
  | .array, .array _ => .ok ()
  | .array, _ => .error ⟨.badIndex, "node param must be array: " ++ name⟩
  | .unknown, _ => .error ⟨.badIndex, "unsupported node param type: " ++ name⟩

def validateParam (declarations : List ParamDecl) (param : String × Json) : Except Error Unit :=
  match declarations.find? (fun d => d.name == param.1) with
  | none => .error ⟨.badIndex, "unknown node param: " ++ param.1⟩
  | some declaration => validateTypedParam param.1 param.2 declaration

def validateNodeParams (desc : DescPtr) (params : Params) : Except Error Unit :=
  match DescPtr.manifest desc with
  | none => .error ⟨.badIndex, "missing node manifest"⟩
  | some manifest => params.forM (validateParam manifest.params)

end Cpipe.Runtime
