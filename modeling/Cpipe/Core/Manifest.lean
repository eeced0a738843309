import Mathlib.Data.Rat.Defs

namespace Cpipe

/-- Status codes of the plugin ABI. A plugin returns a plain integer, so a code
outside the enumeration can travel through the host unchanged. -/
inductive Status
  | ok | failed | replyDefault | oom | badPrecision | badIndex | needParam | internalError
  | unsupported | needMetadata | notImplemented
  | other (code : Int)
  deriving DecidableEq, Repr

/-- What a failing host function hands back: its status and the text it stores
through the error pointer. -/
structure Error where
  status : Status
  message : String
  deriving DecidableEq, Repr

/-- JSON values as far as the host distinguishes them. Numbers are compared as
doubles, and a rational carries the exact value of a double. -/
inductive Json
  | null
  | bool (value : Bool)
  | number (value : Rat)
  | string (value : String)
  | array (items : List Json)
  | object (fields : List (String × Json))

/-- A JSON object in the order the host iterates over it. -/
abbrev Params := List (String × Json)

def Params.lookup {α : Type} (params : List (String × α)) (key : String) : Option α :=
  (params.find? (fun p => p.1 == key)).map Prod.snd

/-- `params.value(key, fallback)` for a text parameter. -/
def Params.text (params : Params) (key fallback : String) : String :=
  match Params.lookup params key with
  | some (.string s) => s
  | _ => fallback

/-- `params[key] = value`. -/
def Params.assign {α : Type} (params : List (String × α)) (key : String) (value : α) :
    List (String × α) :=
  if params.any (fun p => p.1 == key) then
    params.map (fun p => if p.1 == key then (key,value) else p)
  else
    params ++ [(key,value)]

inductive ParamType
  | enum | number | boolean | string | array | unknown
  deriving DecidableEq, Repr

structure Range where
  min : Option Rat := none
  max : Option Rat := none

structure ParamDecl where
  name : String
  type : ParamType
  enumValues : List String := []
  range : Option Range := none

/-- Port directions. Every lookup of the host skips a port of any other kind. -/
inductive PortKind
  | input | output
  deriving DecidableEq, Repr

/-- One port of a manifest. An absent `caps` or `metadata` object reads as empty
lists everywhere in the host. -/
structure Port where
  name : String
  kind : PortKind
  channels : List String := []
  precision : List String := []
  requiresStepsApplied : List String := []
  setsStepsApplied : List String := []
  deriving DecidableEq, Repr

structure Manifest where
  ports : List Port
  params : List ParamDecl := []
  outPixelBytes : UInt64 := 0
  inputRole : String := "any"
  outputRole : String := "any"

structure PluginDesc where
  nodeId : String
  manifest : Option Manifest

/-- A descriptor pointer; `none` is the null pointer. -/
abbrev DescPtr := Option PluginDesc

def DescPtr.manifest (desc : DescPtr) : Option Manifest := desc.bind PluginDesc.manifest

def DescPtr.ports (desc : DescPtr) : List Port :=
  match DescPtr.manifest desc with
  | some m => m.ports
  | none => []

abbrev Registry := List PluginDesc

def Registry.find (registry : Registry) (nodeId : String) : DescPtr :=
  registry.find? (fun d => d.nodeId == nodeId)

/-- The ports of one direction, in manifest order. -/
def portsOf (desc : DescPtr) (kind : PortKind) : List Port :=
  (DescPtr.ports desc).filter (fun p => p.kind == kind)

/-- The lookup shared by the metadata and precision checks: the first port with
this direction and name. -/
def findPort (desc : DescPtr) (kind : PortKind) (name : String) : Option Port :=
  (DescPtr.ports desc).find? (fun p => p.kind == kind && p.name == name)

theorem findPort_some (h : findPort desc kind name = some p) :
    p ∈ portsOf desc kind ∧ p.name = name := by
  have hm := List.mem_of_find?_eq_some h
  have hp := List.find?_some h
  simp only [Bool.and_eq_true, beq_iff_eq] at hp
  exact ⟨List.mem_filter.mpr ⟨hm, by simp [hp.1]⟩, hp.2⟩

theorem Registry.find_nodeId {registry : Registry} (h : registry.find nodeId = some d) :
    d.nodeId = nodeId ∧ d ∈ registry := by
  have hp := List.find?_some h
  exact ⟨by simpa using hp, List.mem_of_find?_eq_some h⟩

end Cpipe
