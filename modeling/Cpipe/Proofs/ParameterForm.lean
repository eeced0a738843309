import Cpipe.Library.Checked
import Cpipe.Nodes.Manifests
import Cpipe.Proofs.ParamSync
import Cpipe.Proofs.Schemas
import Cpipe.Runtime.Load
import Cpipe.Web.ParameterForm

namespace Cpipe.Proofs.ParameterForm
open Cpipe.Runtime Cpipe.Schemas Cpipe.Server Cpipe.Server.EditorServer Cpipe.Web Library
open Cpipe.Proofs.Fields Cpipe.Proofs.ParamSync Cpipe.Proofs.Schemas

/-! ### One parameter -/

/-- The type of a declaration as the host tells them apart. -/
def hostType (type : String) : ParamType :=
  if type = "enum" then .enum
  else if type = "number" then .number
  else if type = "boolean" then .boolean
  else if type = "string" then .string
  else if type = "array" then .array
  else .unknown

/-- The same declaration on the host. -/
def declaration (param : ManifestParam) : ParamDecl where
  name := param.name
  type := hostType param.type
  enumValues := param.enumValues.getD []
  range := param.range

/-- The types the schema of a manifest allows. -/
def SchemaType (type : String) : Prop := type ∈ ["boolean","enum","number","string","array"]

variable {toNumber : String → JsNumber} {param : ManifestParam} {raw : String} {checked : Bool}
  {value : FormValue}

section Agreement

variable {name : String} {value : Json} {d : ParamDecl}

/-- The nodes whose parameters the schema constrains. -/
def schemaNodes : List PluginDesc :=
  [Nodes.colorSceneLinearToDisplay,Nodes.color3dLut,Nodes.denoiseBm3d]

end Agreement

/-! ### Documents the host loads -/

/-- A node as the loader reads it. -/
def nodeJson (node : Json) : Option NodeJson :=
  match property node "id", property node "type", property node "params" with
  | some (.string id), some (.string type), some (.object params) => some ⟨id,type,params⟩
  | _, _, _ => none

/-- The loader accepts the node. -/
def Loads (registry : Registry) (node : Json) : Prop :=
  ∃ n instance_, nodeJson node = some n ∧ Pipeline.loadNode registry n = .ok instance_

theorem loadNode_ok {registry : Registry} {n : NodeJson} {loaded : NodeInstance} :
    Pipeline.loadNode registry n = .ok loaded ↔ n.type ≠ Pipeline.precisionConvertId ∧
      ∃ desc, registry.find n.type = some desc ∧
        validateNodeParams (some desc) n.params = .ok () ∧
        loaded = ⟨n.id,some desc,n.params⟩ := by
  unfold Pipeline.loadNode
  by_cases hconvert : n.type = Pipeline.precisionConvertId
  · simp [hconvert]
  · rw [if_neg hconvert]
    cases hfind : registry.find n.type with
    | none => simp
    | some desc =>
      cases hparams : validateNodeParams (some desc) n.params with
      | error e => simp [hparams, bind, Except.bind]
      | ok u => simp [hparams, bind, Except.bind, pure, Except.pure, hconvert, eq_comm]

/-- The manifests the editor got are those of the registry, where the nodes whose parameters the
schema constrains are those that come with the host. A manifest meets its schema and names no
parameter twice. -/
structure Served (registry : Registry) (manifests : String → Option (List ManifestParam)) :
    Prop where
  builtIn : ∀ desc ∈ schemaNodes, ∀ found, registry.find desc.nodeId = some found → found = desc
  declared : ∀ type params desc, manifests type = some params →
    registry.find type = some desc →
    ∃ manifest, DescPtr.manifest (some desc) = some manifest ∧
      manifest.params = params.map declaration
  types : ∀ type params, manifests type = some params → ∀ p ∈ params, SchemaType p.type
  names : ∀ type params, manifests type = some params → (params.map ManifestParam.name).Nodup

section Commit

variable {registry : Registry} {manifests : String → Option (List ManifestParam)} {type : String}
  {params : List ManifestParam} {desc : PluginDesc}

end Commit

theorem withParam_params {fields params : Params}
    (hparams : property (.object fields) "params" = some (.object params)) (key : String)
    (value : Json) : withParam (.object fields) key value =
      .object (Params.assign fields "params" (.object (Params.assign params key value))) := by
  simp only [withParam, hparams, orEmpty, withField, spread]

/-- The id and the type of a node. -/
def identity (node : Json) : Option Json × Option Json := (property node "id",property node "type")

def named (id : String) (p : Option Json × Option Json) : Bool :=
  match p.1 with
  | some (.string text) => text == id
  | _ => false

def whitePoint : ManifestParam where
  name := "white_point"
  type := "number"
  range := some ⟨some (3602879701896397 / 2^55),some 10⟩

def interpolation : ManifestParam where
  name := "interpolation"
  type := "enum"
  enumValues := some ["tetrahedral","trilinear"]

def toneNode : Json :=
  .object [("id",.string "tone"),("params",.object []),
    ("type",.string "com.cpipe.tone.reinhard")]

end Cpipe.Proofs.ParameterForm
