import Cpipe.Nodes.DngOpcodeList3
import Cpipe.Proofs.OpcodeList2
import Cpipe.Proofs.OpcodeList3

namespace Cpipe.Nodes
open Ingest Library.Bytes

/-- The shading node hands on nothing but gain maps. -/
def ShadingImplements (f : Frame) : Prop := f.id = OpcodeList2.kOpcodeGainMap

/-- The kernel of the third list applies a correction for this identifier. -/
def OpcodeList3Implements (f : Frame) : Prop :=
  ∃ c, DngOpcodeList3.dispatchRecord
    (DngOpcodeList3.recordId (OpcodeList3.opcodeIdFromRaw f.id)) f.optional = .ok (some c)

/-- An accepted second list holds no mandatory opcode that the node passes over. -/
def NoneSkipped2 (bytes : List UInt8) : Prop :=
  ∀ result, OpcodeList2.parseGainMaps bytes = .ok result → result.status = .ok →
    ∀ frames, Lists bytes frames → ∀ f ∈ frames, ¬ ShadingImplements f → f.optional = true

/-- An accepted third list holds no mandatory opcode that the node passes over. -/
def NoneSkipped3 (bytes : List UInt8) : Prop :=
  ∀ result, OpcodeList3.parse bytes = .ok result → result.status = .ok →
    ∀ frames, Lists bytes frames → ∀ f ∈ frames, ¬ OpcodeList3Implements f → f.optional = true

theorem not_lists_nil {frames : List Frame} : ¬ Lists [] frames := by
  intro ⟨_,tail,h⟩
  cases h

/-- A known identifier reaches the function that applies its correction. -/
theorem implements_of_known {f : Frame} (h : OpcodeList3.opcodeIdFromRaw f.id ≠ .unknown) :
    OpcodeList3Implements f := by
  unfold OpcodeList3Implements
  cases hid : OpcodeList3.opcodeIdFromRaw f.id with
  | unknown => exact absurd hid h
  | _ => exact ⟨_,rfl⟩

theorem noneSkipped3 (bytes : List UInt8) : NoneSkipped3 bytes := by
  intro result hp hok frames hl f hf hnot
  by_cases h0 : bytes = []
  · subst h0
    exact absurd hl not_lists_nil
  obtain ⟨items,hj,hitems⟩ := OpcodeList3.parse_accepted hp hok h0
  obtain rfl := hitems.unique hl
  obtain ⟨p,hp,rfl⟩ := List.mem_map.mp hf
  exact (OpcodeList3.known_or_optional (hj p hp)).resolve_left (fun hk =>
    hnot (implements_of_known hk))

/-- No mandatory opcode is skipped exactly when the second list is not framed to
its end, or one of its gain maps is not a supported one, or each of its other
opcodes is marked optional. The third list needs no condition. -/
theorem mandatory_opcodes_kept_iff (bytes2 bytes3 : List UInt8) :
    NoneSkipped2 bytes2 ∧ NoneSkipped3 bytes3 ↔
      ∀ frames, Lists bytes2 frames → (∀ f ∈ frames, OpcodeList2.Supported f) →
        ∀ f ∈ frames, f.id ≠ OpcodeList2.kOpcodeGainMap → f.optional = true := by
  constructor
  · intro ⟨h2,_⟩ frames hl hs f hf hid
    obtain ⟨result,hp,hok⟩ := OpcodeList2.parseGainMaps_supported hl hs
    exact h2 result hp hok frames hl f hf hid
  · intro h
    refine ⟨?_,noneSkipped3 bytes3⟩
    intro result hp hok frames hl f hf hid
    rcases OpcodeList2.parseGainMaps_accepted hp hok with ⟨h0,_⟩ | ⟨items,hj,hitems,_⟩
    · subst h0
      exact absurd hl not_lists_nil
    · obtain rfl := hitems.unique hl
      exact h _ hl (OpcodeList2.supported_of_judged hj) f hf hid

/-- A second list of one mandatory `MapPolynomial` opcode is accepted. -/
theorem mandatory_opcode_skipped :
    ¬ (NoneSkipped2 [0,0,0,1, 0,0,0,8, 1,3,0,0, 0,0,0,0, 0,0,0,0] ∧ NoneSkipped3 []) := by
  intro ⟨h,_⟩
  have hfalse := h { status := .ok } (by decide) rfl
    [⟨8,0x01030000,0,[],by decide⟩] ⟨by decide,[],by decide⟩ _ (List.mem_singleton.mpr rfl)
    (by intro hid; cases hid)
  cases hfalse

end Cpipe.Nodes
