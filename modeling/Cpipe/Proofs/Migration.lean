import Cpipe.Proofs.JsonText
import Cpipe.Proofs.Schemas
import Cpipe.Tools.V03ToV04

namespace Cpipe.Proofs.Migration
open Cpipe.Runtime hiding Document
open Cpipe.JsonText Cpipe.JsonText.Document Cpipe.Schemas Cpipe.Tools.PythonJson
open Cpipe.Tools.V03ToV04
open Cpipe.Proofs.Fields Cpipe.Proofs.JsonText Cpipe.Proofs.Schemas

variable {fields fields' : Params} {names : List String} {props props' : List (String × Schema)}
  {v : Json} {α : Type}

/-! ### Schemas that admit more -/

/-- Every value of the first schema is one of the second. -/
def Admits (old new : Schema) : Prop := ∀ v, old v = true → new v = true

/-- New properties and wider ones: a closed object stays one. -/
def Widens (props props' : List (String × Schema)) : Prop :=
  (∀ p ∈ props, p.1 ∈ props'.map Prod.fst) ∧
  ∀ p' ∈ props', p'.1 ∈ props.map Prod.fst → ∃ p ∈ props, p.1 = p'.1 ∧ Admits p.2 p'.2

theorem admits_refl (schema : Schema) : Admits schema schema := fun _ h => h

theorem closed_admits (h : Widens props props') :
    Admits (closed names props) (closed names props') := by
  intro v hv
  obtain ⟨fields,rfl⟩ := closed_isObject hv
  obtain ⟨hrequired,honly,hprops⟩ := closed_object.mp hv
  refine closed_object.mpr ⟨hrequired,?_,?_⟩
  · intro f hf
    obtain ⟨p,hp,hname⟩ := List.mem_map.mp (honly f hf)
    rw [← hname]
    exact h.1 p hp
  · intro p' hp' value hvalue
    obtain ⟨f,hf,hname⟩ := key_of_lookup hvalue
    obtain ⟨p,hp,hsame,hadmits⟩ := h.2 p' hp' (hname ▸ honly f hf)
    exact hadmits value (hprops p hp value (hsame ▸ hvalue))

theorem items_admits {old new : Schema} (h : Admits old new) : Admits (items old) (items new) := by
  intro v hv
  cases v with
  | array vs =>
    simp only [items, List.all_eq_true] at hv ⊢
    exact fun x hx => h x (hv x hx)
  | _ => rfl

theorem paramsOf_admits {nodeType : String} {old new : Schema} (h : Admits old new) :
    Admits (paramsOf nodeType old) (paramsOf nodeType new) := by
  intro v hv
  simp only [paramsOf, ifThen, Bool.or_eq_true] at hv ⊢
  refine hv.imp_right (fun hthen => ?_)
  cases v with
  | object fields =>
    rw [properties_object] at hthen ⊢
    intro p hp value hvalue
    obtain rfl := List.mem_singleton.mp hp
    exact h value (hthen _ List.mem_cons_self value hvalue)
  | _ => rfl

theorem allOf_admits {old new : List Schema} (h : List.Forall₂ Admits old new) :
    Admits (allOf old) (allOf new) := by
  intro v hv
  rw [allOf_iff] at hv ⊢
  induction h with
  | nil => simp
  | cons hfirst _ ih =>
    obtain ⟨holdFirst,holdRest⟩ := List.forall_mem_cons.mp hv
    exact List.forall_mem_cons.mpr ⟨hfirst v holdFirst,ih holdRest⟩

theorem widens_append (props extra : List (String × Schema))
    (h : ∀ p ∈ extra, p.1 ∉ props.map Prod.fst) : Widens props (props ++ extra) := by
  refine ⟨fun p hp => ?_,fun p hp hname => ?_⟩
  · exact List.mem_map_of_mem (List.mem_append_left _ hp)
  · rcases List.mem_append.mp hp with hold | hnew
    · exact ⟨p,hold,rfl,admits_refl p.2⟩
    · exact absurd hname (h p hnew)

theorem widens_prepend (props extra : List (String × Schema))
    (h : ∀ p ∈ extra, p.1 ∉ props.map Prod.fst) : Widens props (extra ++ props) := by
  refine ⟨fun p hp => ?_,fun p hp hname => ?_⟩
  · exact List.mem_map_of_mem (List.mem_append_right _ hp)
  · rcases List.mem_append.mp hp with hnew | hold
    · exact absurd hname (h p hnew)
    · exact ⟨p,hold,rfl,admits_refl p.2⟩

/-! ### The two versions -/

theorem lutParams_admits : Admits lutParamsV03 lutParamsV04 :=
  closed_admits (widens_append [("lut_path",nonEmptyText)] _ (by simp))

theorem bm3dParams_admits : Admits bm3dParamsV03 bm3dParamsV04 :=
  closed_admits (widens_prepend _ [("sigma",allOf [type .number,minimum 0,maximum sigmaMaximum])]
    (by simp))

theorem node_admits : Admits nodeV03 nodeV04 := by
  have hnode : Admits (closed ["id","type","params"] nodeProperties)
      (closed ["id","type","params"] (nodeProperties ++ [("ui",closed [] uiProperties)])) :=
    closed_admits (widens_append _ _ (by simp [nodeProperties]))
  exact allOf_admits (.cons hnode (.cons (admits_refl _)
    (.cons (paramsOf_admits lutParams_admits) (.cons (paramsOf_admits bm3dParams_admits) .nil))))

theorem nodes_admits : Admits (allOf [type .array,minItems 1,items nodeV03])
    (allOf [type .array,minItems 1,items nodeV04]) :=
  allOf_admits (.cons (admits_refl _) (.cons (admits_refl _)
    (.cons (items_admits node_admits) .nil)))

/-- The script keeps the keys and writes no member but these two. -/
structure Migrated {α : Type} (text : String → α) (fields fields' : List (String × α)) :
    Prop where
  keys : fields'.map Prod.fst = fields.map Prod.fst
  version : Params.lookup fields' "version" = some (text "0.4")
  schema : ∀ value, Params.lookup fields' "$schema" = some value →
    Params.lookup fields "$schema" = some value ∨ value = text v04Schema
  others : ∀ key, key ≠ "version" → key ≠ "$schema" →
    Params.lookup fields' key = Params.lookup fields key

/-- Each member of the new document is an old one, or one of the two the script writes. -/
theorem migrated_valid (h : pipelineV03 (.object fields) = true) (hm : Migrated .string fields fields') :
    pipelineV04 (.object fields') = true := by
  obtain ⟨hrequired,honly,hprops⟩ := closed_object.mp h
  refine closed_object.mpr ⟨?_,?_,?_⟩
  · intro name hname
    rw [lookup_ne_none_iff, hm.keys, ← lookup_ne_none_iff]
    exact hrequired name hname
  · intro f hf
    have hmem : f.1 ∈ fields.map Prod.fst := hm.keys ▸ List.mem_map_of_mem hf
    obtain ⟨g,hg,hname⟩ := List.mem_map.mp hmem
    exact hname ▸ honly g hg
  · have hold : ∀ p ∈ pipelineProperties "0.3" nodeV03, p.1 ≠ "version" → p.1 ≠ "$schema" →
        ∀ value, Params.lookup fields' p.1 = some value → p.2 value = true :=
      fun p hp hv hs value hvalue => hprops p hp value (hm.others p.1 hv hs ▸ hvalue)
    simp only [pipelineProperties, List.forall_mem_cons] at hold hprops ⊢
    obtain ⟨hschema,_⟩ := hprops
    obtain ⟨_,_,hid,hinputs,hnodes,hedges,_⟩ := hold
    refine ⟨?_,?_,hid (by decide) (by decide),hinputs (by decide) (by decide),?_,
      hedges (by decide) (by decide),by simp⟩
    · intro value hvalue
      rcases hm.schema value hvalue with hsame | rfl
      · exact hschema value hsame
      · rfl
    · intro value hvalue
      obtain rfl := Option.some.inj (hm.version.symm.trans hvalue)
      rfl
    · exact fun value hvalue =>
        nodes_admits value (hnodes (by decide) (by decide) value hvalue)

/-! ### Numbers as the host reads them -/

/-- What a number keeps when it is rounded. -/
structure Keeps (x y : Rat) : Prop where
  integer : x.den = 1 → y.den = 1
  nonneg : 0 ≤ x → 0 ≤ y
  positive : 1 ≤ x → 1 ≤ y

theorem keeps_refl (x : Rat) : Keeps x x := ⟨id,id,id⟩

theorem keeps_nearest (x : Rat) : Keeps x (Library.Rounding.Format.double.nearest x) where
  integer h := by
    rw [Rat.den_eq_one_iff] at h
    obtain ⟨m,hm⟩ := Library.Rounding.Format.nearest_int .double x.num
    rw [h] at hm
    rw [hm]
    exact Rat.den_intCast m
  nonneg h := by
    have hround := Library.Rounding.Format.le_nearest (f := .double) (n := 0) (r := x)
      (by simpa using h)
    simpa using hround
  positive h := by
    have hround := Library.Rounding.Format.power_le_nearest (f := .double) (e := 0) (r := x)
      (by decide) (by decide) (by simpa using h)
    simpa using hround

theorem keeps_toDouble {x y : Rat} (h : toDouble x = some y) : Keeps x y := by
  unfold toDouble at h
  simp only at h
  split_ifs at h
  exact Option.some.inj h ▸ keeps_nearest x

theorem keeps_read {t : Token} {x y : Rat} (hx : t.exact = some x) (hy : t.read = some y) :
    Keeps x y := by
  cases t with
  | integer value =>
    obtain rfl := Option.some.inj hx
    simp only [Token.read] at hy
    split_ifs at hy
    · exact Option.some.inj hy ▸ keeps_refl _
    · exact keeps_toDouble hy
  | decimal value =>
    obtain rfl := Option.some.inj hx
    exact keeps_toDouble hy
  | infinity negative => cases hx

section Follows

variable {N : Type} {v w : N → Rat}

/-- The schema does not tell rounded numbers from those of the text. -/
def Follows (v w : N → Rat) (schema : Schema) : Prop :=
  ∀ d : Document N, (∀ n ∈ numbers d, Keeps (v n) (w n)) → schema (toJson v d) = true →
    schema (toJson w d) = true

theorem allOf_follows {schemas : List Schema} (h : ∀ schema ∈ schemas, Follows v w schema) :
    Follows v w (allOf schemas) := by
  intro d hd hv
  rw [allOf_iff] at hv ⊢
  exact fun schema hs => h schema hs d hd (hv schema hs)

/-- No number is looked at. -/
theorem follows_of_same {schema : Schema}
    (h : ∀ d : Document N, schema (toJson w d) = schema (toJson v d)) : Follows v w schema :=
  fun d _ hv => (h d).trans hv

theorem type_follows (expected : JsonType) : Follows v w (type expected) := by
  intro d hd hv
  cases d with
  | number n =>
    cases expected with
    | integer =>
      have hint : decide ((v n).den = 1) = true := hv
      exact decide_eq_true ((hd n List.mem_cons_self).integer (of_decide_eq_true hint))
    | number => rfl
    | _ => cases hv
  | null => exact hv
  | bool b => exact hv
  | string s => exact hv
  | array items =>
    rw [toJson_array] at hv ⊢
    cases expected <;> exact hv
  | object fields =>
    rw [toJson_object] at hv ⊢
    cases expected <;> exact hv

theorem minimum_follows {low : Rat} (hlow : ∀ x y, Keeps x y → low ≤ x → low ≤ y) :
    Follows v w (minimum low) := by
  intro d hd hv
  cases d with
  | number n =>
    have hmin : decide (low ≤ v n) = true := hv
    exact decide_eq_true (hlow _ _ (hd n List.mem_cons_self) (of_decide_eq_true hmin))
  | _ => rfl

theorem const_follows (text : String) : Follows v w (const text) :=
  follows_of_same (fun d => by cases d <;> rfl)

theorem enum_follows (texts : List String) : Follows v w (enum texts) :=
  follows_of_same (fun d => by cases d <;> rfl)

theorem minLength_follows (n : Nat) : Follows v w (minLength n) :=
  follows_of_same (fun d => by cases d <;> rfl)

theorem pattern_follows (accepts : String → Bool) : Follows v w (pattern accepts) :=
  follows_of_same (fun d => by cases d <;> rfl)

theorem minItems_follows (n : Nat) : Follows v w (minItems n) := by
  refine follows_of_same fun d => ?_
  cases d with
  | array items => simp [toJson_array, minItems]
  | _ => rfl

theorem items_follows {schema : Schema} (h : Follows v w schema) : Follows v w (items schema) := by
  intro d hd hv
  cases d with
  | array xs =>
    rw [numbers_array] at hd
    simp only [toJson_array, items, List.all_map, List.all_eq_true] at hv ⊢
    exact fun x hx => h x (fun n hn => hd n (List.mem_flatMap.mpr ⟨x,hx,hn⟩)) (hv x hx)
  | _ => rfl

theorem required_same (names : List String) (d : Document N) :
    required names (toJson w d) = required names (toJson v d) := by
  cases d with
  | object fields => simp [toJson_object, required, lookup_map]
  | _ => rfl

theorem noAdditional_follows (props : List (String × Schema)) :
    Follows v w (noAdditionalProperties props) := by
  refine follows_of_same fun d => ?_
  cases d with
  | object fields =>
    simp only [toJson_object, noAdditionalProperties, List.all_map]
    rfl
  | _ => rfl

theorem properties_follows {props : List (String × Schema)}
    (h : ∀ p ∈ props, Follows v w p.2) : Follows v w (properties props) := by
  intro d hd hv
  cases d with
  | object fields =>
    rw [numbers_object] at hd
    rw [toJson_object, properties_object] at hv ⊢
    intro p hp value hvalue
    rw [lookup_map] at hvalue
    obtain ⟨member,hmember,rfl⟩ := Option.map_eq_some_iff.mp hvalue
    have hold := hv p hp (toJson v member) (by rw [lookup_map, hmember]; rfl)
    obtain ⟨field,hfield,rfl⟩ := Option.map_eq_some_iff.mp hmember
    refine h p hp field.2 (fun n hn => hd n (List.mem_flatMap.mpr ⟨field,?_,hn⟩)) hold
    exact List.mem_of_find?_eq_some hfield
  | _ => rfl

theorem closed_follows {names : List String} {props : List (String × Schema)}
    (h : ∀ p ∈ props, Follows v w p.2) : Follows v w (closed names props) := by
  refine allOf_follows ?_
  simp only [List.forall_mem_cons]
  exact ⟨type_follows .object,follows_of_same (required_same names),noAdditional_follows props,
    properties_follows h,List.forall_mem_nil _⟩

theorem paramsOf_follows {nodeType : String} {params : Schema} (h : Follows v w params) :
    Follows v w (paramsOf nodeType params) := by
  intro d hd hv
  have hconst : ∀ member : Document N,
      const nodeType (toJson w member) = const nodeType (toJson v member) := by
    intro member
    cases member <;> rfl
  have hproperties : properties [("type",const nodeType)] (toJson w d) =
      properties [("type",const nodeType)] (toJson v d) := by
    cases d with
    | object fields =>
      simp only [toJson_object, properties, List.all_cons, List.all_nil, lookup_map]
      cases Params.lookup fields "type" with
      | none => rfl
      | some member => simp [hconst]
    | _ => rfl
  have hcondition : allOf [properties [("type",const nodeType)],required ["type"]] (toJson w d) =
      allOf [properties [("type",const nodeType)],required ["type"]] (toJson v d) := by
    have hrequired : required ["type"] (toJson w d) = required ["type"] (toJson v d) :=
      required_same _ d
    simp only [allOf, List.all_cons, List.all_nil, hproperties, hrequired]
  have hparams : Follows v w (properties [("params",params)]) :=
    properties_follows (by simpa using h)
  simp only [paramsOf, ifThen, hcondition, Bool.or_eq_true] at hv ⊢
  exact hv.imp_right (hparams d hd)

theorem nonEmptyText_follows : Follows v w nonEmptyText :=
  allOf_follows (by simp [type_follows, minLength_follows])

theorem positiveInteger_follows : Follows v w positiveInteger :=
  allOf_follows (by simp [type_follows, minimum_follows (fun _ _ h => h.positive)])

theorem inputItem_follows : Follows v w inputItem :=
  closed_follows (by simp [nonEmptyText_follows, const_follows, enum_follows,
    positiveInteger_follows])

theorem edgeItem_follows : Follows v w edgeItem := by
  have hendpoint : Follows v w endpoint :=
    allOf_follows (by simp [type_follows, pattern_follows])
  exact closed_follows (by simp [hendpoint])

theorem nodeV03_follows : Follows v w nodeV03 := by
  have htype : Follows v w (allOf [type .string,pattern typePattern]) :=
    allOf_follows (by simp [type_follows, pattern_follows])
  have hsigma : Follows v w (allOf [type .number,minimum 0]) :=
    allOf_follows (by simp [type_follows, minimum_follows (fun _ _ h => h.nonneg)])
  have hnode : Follows v w (closed ["id","type","params"] nodeProperties) :=
    closed_follows (by simp [nodeProperties, nonEmptyText_follows, htype, type_follows])
  have htarget : Follows v w targetParams :=
    closed_follows (by simp [targetProperties, enum_follows])
  have hlut : Follows v w lutParamsV03 := closed_follows (by simp [nonEmptyText_follows])
  have hbm3d : Follows v w bm3dParamsV03 := closed_follows (by simp [hsigma])
  exact allOf_follows (by
    simp [hnode, paramsOf_follows htarget, paramsOf_follows hlut, paramsOf_follows hbm3d])

/-- A document that is valid by its numbers as written is valid by them as read. -/
theorem pipelineV03_follows : Follows v w pipelineV03 := by
  have hinputs : Follows v w (allOf [type .array,minItems 1,items inputItem]) :=
    allOf_follows (by
      simp [type_follows, minItems_follows, items_follows inputItem_follows])
  have hnodes : Follows v w (allOf [type .array,minItems 1,items nodeV03]) :=
    allOf_follows (by
      simp [type_follows, minItems_follows, items_follows nodeV03_follows])
  have hedges : Follows v w (allOf [type .array,items edgeItem]) :=
    allOf_follows (by simp [type_follows, items_follows edgeItem_follows])
  exact closed_follows (by
    simp [pipelineProperties, type_follows, const_follows, nonEmptyText_follows, hinputs, hnodes,
      hedges])

end Follows

/-! ### The script -/

section Edit

variable {N : Type} {fs : List (String × Document N)}

theorem textIs_iff {key text : String} :
    textIs fs key text = true ↔ Params.lookup fs key = some (.string text) := by
  unfold textIs
  split
  · rename_i value hvalue
    simp [hvalue]
  · rename_i hother
    exact ⟨fun h => (by cases h),fun h => absurd h (hother text)⟩

theorem edit_migrated (h : Params.lookup fs "version" = some (.string "0.3")) :
    Migrated .string fs (edit fs) := by
  have hkeys : (Params.assign fs "version" (.string "0.4")).map Prod.fst = fs.map Prod.fst :=
    keys_assign h
  unfold edit
  by_cases hschema : textIs (Params.assign fs "version" (.string "0.4")) "$schema" v03Schema
  · rw [if_pos hschema]
    have hold := textIs_iff.mp hschema
    refine ⟨(keys_assign hold).trans hkeys,?_,?_,?_⟩
    · rw [lookup_assign_ne _ _ (by decide), lookup_assign_self]
    · intro value hvalue
      rw [lookup_assign_self] at hvalue
      exact .inr (Option.some.inj hvalue).symm
    · intro key hv hs
      rw [lookup_assign_ne _ _ hs, lookup_assign_ne _ _ hv]
  · rw [if_neg hschema]
    refine ⟨hkeys,lookup_assign_self _ _ _,?_,?_⟩
    · intro value hvalue
      rw [lookup_assign_ne _ _ (by decide)] at hvalue
      exact .inl hvalue
    · intro key hv _
      rw [lookup_assign_ne _ _ hv]

/-- Texts are written for texts. -/
theorem map_edit {f : Document N → α} (hf : ∀ s t, f (.string s) = f (.string t))
    (hnames : (fs.map Prod.fst).Nodup) (h : Params.lookup fs "version" = some (.string "0.3")) :
    (edit fs).map (fun p => f p.2) = fs.map (fun p => f p.2) := by
  have hfirst : (Params.assign fs "version" (.string "0.4")).map (fun p => f p.2) =
      fs.map (fun p => f p.2) := map_assign hnames h (hf _ _)
  unfold edit
  by_cases hschema : textIs (Params.assign fs "version" (.string "0.4")) "$schema" v03Schema
  · have hnames' : ((Params.assign fs "version" (.string "0.4")).map Prod.fst).Nodup := by
      rw [keys_assign h]
      exact hnames
    rw [if_pos hschema]
    exact (map_assign hnames' (textIs_iff.mp hschema) (hf _ _)).trans hfirst
  · rw [if_neg hschema]
    exact hfirst

theorem numbers_edit (hnames : (fs.map Prod.fst).Nodup)
    (h : Params.lookup fs "version" = some (.string "0.3")) :
    numbers (.object (edit fs)) = numbers (.object fs) := by
  rw [numbers_object, numbers_object, List.flatMap_def, List.flatMap_def,
    map_edit (fun _ _ => rfl) hnames h]

theorem nesting_edit (hnames : (fs.map Prod.fst).Nodup)
    (h : Params.lookup fs "version" = some (.string "0.3")) :
    nesting (.object (edit fs)) = nesting (.object fs) := by
  rw [nesting_object, nesting_object, map_edit (fun _ _ => rfl) hnames h]

theorem Migrated.map {α β : Type} {text : String → α} {text' : String → β}
    {ps ps' : List (String × α)} (h : Migrated text ps ps') (f : α → β)
    (hf : ∀ s, f (text s) = text' s) :
    Migrated text' (ps.map (fun p => (p.1,f p.2))) (ps'.map (fun p => (p.1,f p.2))) where
  keys := by
    rw [List.map_map, List.map_map]
    exact h.keys
  version := by rw [lookup_map, h.version, Option.map_some, hf]
  schema value hvalue := by
    rw [lookup_map] at hvalue ⊢
    obtain ⟨old,hold,rfl⟩ := Option.map_eq_some_iff.mp hvalue
    rcases h.schema old hold with hsame | rfl
    · exact .inl (by rw [hsame]; rfl)
    · exact .inr (hf _)
  others key hv hs := by rw [lookup_map, lookup_map, h.others key hv hs]

end Edit

/-- Each number is one that the host reads. -/
def Readable (d : Document Token) : Prop := ∀ t ∈ d.numbers, ∃ x, t.read = some x

/-- A number as the host reads it. -/
def hostRead (t : Token) : Rat := t.read.getD 0

theorem read_eq {d : Document Token} (h : Readable d) : d.read = some (toJson hostRead d) :=
  valued_some.mpr ⟨h,rfl⟩

theorem lookup_read {fs : List (String × Document Token)} (h : Readable (.object fs))
    (key : String) : (Params.lookup fs key).map Document.read =
      ((Params.lookup fs key).map (toJson hostRead)).map some := by
  cases hmember : Params.lookup fs key with
  | none => rfl
  | some member =>
    obtain ⟨field,hfield,rfl⟩ := Option.map_eq_some_iff.mp hmember
    have hread : Readable field.2 := fun t ht => h t (by
      rw [numbers_object]
      exact List.mem_flatMap.mpr ⟨field,List.mem_of_find?_eq_some hfield,ht⟩)
    rw [Option.map_some, Option.map_some, Option.map_some, read_eq hread]

/-- A JSON document, which names each of its members once, that the old schema admits. -/
structure ValidV03 (document : Document Token) : Prop where
  names : ∀ fs, document = .object fs → (fs.map Prod.fst).Nodup
  valid : ∃ v, document.exact = some v ∧ pipelineV03 v = true

/-- What the script is for: it ends, and leaves a document in the file that the host reads, that
the new schema admits and whose version the host accepts, with the members of the old one as the
host reads them but for the two the script writes. -/
def Preserved (python : Interpreter) (path : String) (document : Document Token) : Prop :=
  ∃ fs fs' members, document = .object fs ∧ migrate python path document = (.object fs',.done) ∧
    (Document.object fs').read = some (.object members) ∧
    pipelineV04 (.object members) = true ∧ validatePipelineJson (.object members) = .ok () ∧
    fs'.map Prod.fst = fs.map Prod.fst ∧
    ∀ key, key ≠ "version" → key ≠ "$schema" →
      (Params.lookup fs' key).map Document.read = (Params.lookup fs key).map Document.read

/-- Every number is finite as a double, and the document is not nested too deeply for Python. -/
structure Convertible (python : Interpreter) (document : Document Token) : Prop where
  finite : Readable document
  loads : document.nesting ≤ python.loadsNesting
  dumps : document.nesting ≤ python.dumpsNesting

section Run

variable {python : Interpreter} {path : String} {fs fs' : List (String × Document Token)}
  {gs : List (String × Document Number)}

/-- A number that Python holds, as the host reads what becomes of it. -/
def heldRead (m : Number) : Rat := (numberRead m).getD 0

theorem valid_fields {document : Document Token} (h : ValidV03 document) :
    ∃ fs, document = .object fs ∧ Params.lookup fs "version" = some (.string "0.3") := by
  obtain ⟨v,hexact,hvalid⟩ := h.valid
  obtain ⟨members,rfl⟩ := closed_isObject hvalid
  obtain ⟨fs,rfl,hfields⟩ := toJson_fields (valued_some.mp hexact).2
  have hversion := pipeline_version hvalid
  rw [← hfields, lookup_map] at hversion
  obtain ⟨member,hmember,htext⟩ := Option.map_eq_some_iff.mp hversion
  exact ⟨fs,rfl,by rw [hmember, toJson_string htext]⟩

/-- What `json.loads` makes of an object. -/
structure Loaded (python : Interpreter) (fs : List (String × Document Token))
    (gs : List (String × Document Number)) : Prop where
  loads : Tools.PythonJson.loads python (.object fs) = .ok (.object gs)
  keys : gs.map Prod.fst = fs.map Prod.fst
  value : toJson heldRead (.object gs) = toJson hostRead (.object fs)

theorem loaded {document : Document Number}
    (h : Tools.PythonJson.loads python (.object fs) = .ok document) :
    ∃ gs, document = .object gs ∧ Loaded python fs gs := by
  obtain ⟨gs,rfl,hkeys⟩ := convert_keys h
  refine ⟨gs,rfl,h,hkeys,toJson_convert (fun t _ m hm => ?_) h⟩
  rw [heldRead, hostRead, read_parse hm]

theorem Loaded.text (h : Loaded python fs gs) {key text : String} :
    Params.lookup gs key = some (.string text) ↔ Params.lookup fs key = some (.string text) := by
  have hvalue := h.value
  rw [toJson_object, toJson_object] at hvalue
  have hlookup := congrArg (Params.lookup · key) (Json.object.inj hvalue)
  simp only [lookup_map] at hlookup
  constructor
  · intro hnew
    rw [hnew] at hlookup
    obtain ⟨member,hmember,htext⟩ := Option.map_eq_some_iff.mp hlookup.symm
    rw [hmember, toJson_string htext]
  · intro hold
    rw [hold] at hlookup
    obtain ⟨member,hmember,htext⟩ := Option.map_eq_some_iff.mp hlookup
    rw [hmember, toJson_string htext]

theorem loads_exists (h : Convertible python (.object fs)) : ∃ gs, Loaded python fs gs := by
  obtain ⟨document,hdocument⟩ := (convert_exists (.object fs) (Nat.zero_le _)).mpr
    ⟨fun t ht => (h.finite t ht).elim (fun _ hx => parse_of_read python hx),h.loads⟩
  obtain ⟨gs,-,hloaded⟩ := loaded hdocument
  exact ⟨gs,hloaded⟩

theorem Loaded.nesting (h : Loaded python fs gs) :
    Document.nesting (.object gs) = Document.nesting (.object fs) :=
  nesting_convert h.loads

/-- The document that is written, edited, is the one that was loaded but for two texts. -/
theorem dumps_edit (hnames : (fs.map Prod.fst).Nodup) (hloaded : Loaded python fs gs)
    (hversion : Params.lookup fs "version" = some (.string "0.3")) :
    (∃ text, Tools.PythonJson.dumps python (.object (edit gs)) = .ok text) ↔
      Document.nesting (.object fs) ≤ python.dumpsNesting := by
  have hnumbers := numbers_edit (hloaded.keys ▸ hnames) (hloaded.text.mpr hversion)
  have hnesting := nesting_edit (hloaded.keys ▸ hnames) (hloaded.text.mpr hversion)
  have hformat : ∀ m ∈ numbers (.object gs), ∃ t, python.formatNumber m = .ok t :=
    (numbers_convert (.object fs) hloaded.loads).mpr (fun _ _ _ hm => format_parsed hm)
  have hexists : (∃ text, Tools.PythonJson.dumps python (.object (edit gs)) = .ok text) ↔ _ :=
    convert_exists (.object (edit gs)) (Nat.zero_le _)
  rw [hnumbers, hnesting, hloaded.nesting] at hexists
  exact hexists.trans (and_iff_right hformat)

theorem migrate_loaded (path : String) (hloaded : Loaded python fs gs)
    (hversion : Params.lookup fs "version" = some (.string "0.3")) :
    migrate python path (.object fs) =
      match Tools.PythonJson.dumps python (.object (edit gs)) with
      | .error e => (.object fs,.raised e)
      | .ok text => (text,.done) := by
  have htext := textIs_iff.mpr (hloaded.text.mpr hversion)
  cases hdumps : Tools.PythonJson.dumps python (.object (edit gs)) <;>
    simp [migrate, hloaded.loads, htext, hdumps]

/-- The host reads in the new file what it reads in the old. -/
theorem readable_iff (hnames : (fs.map Prod.fst).Nodup) (hloaded : Loaded python fs gs)
    (hversion : Params.lookup fs "version" = some (.string "0.3"))
    (h : Tools.PythonJson.dumps python (.object (edit gs)) = .ok (.object fs')) :
    Readable (.object fs') ↔ Readable (.object fs) := by
  have hnew := numbers_convert (Q := fun t => ∃ x, Token.read t = some x) _ h
  rw [numbers_edit (hloaded.keys ▸ hnames) (hloaded.text.mpr hversion)] at hnew
  refine hnew.trans ((numbers_convert _ hloaded.loads).trans (forall₂_congr fun t ht => ?_))
  obtain ⟨m,hm⟩ := ((convert_exists (.object fs) (Nat.zero_le _)).mp ⟨_,hloaded.loads⟩).1 t ht
  obtain ⟨t',ht'⟩ := format_parsed hm
  constructor
  · intro hall
    have hread := hall m hm t' ht'
    rwa [read_format ht', read_parse hm] at hread
  · intro hread m' hm' t'' ht''
    rwa [read_format ht'', read_parse hm']

theorem dumped {text : Document Token}
    (hloaded : Loaded python fs gs) (hversion : Params.lookup fs "version" = some (.string "0.3"))
    (h : Tools.PythonJson.dumps python (.object (edit gs)) = .ok text) :
    ∃ fs', text = .object fs' ∧ fs'.map Prod.fst = fs.map Prod.fst ∧
      Migrated Json.string (fs.map (fun p => (p.1,toJson hostRead p.2)))
        (fs'.map (fun p => (p.1,toJson hostRead p.2))) := by
  obtain ⟨fs',rfl,hkeys⟩ := convert_keys h
  have hmigrated := edit_migrated (hloaded.text.mpr hversion)
  have hvalue : toJson hostRead (.object fs') = toJson heldRead (.object (edit gs)) :=
    toJson_convert (fun m _ t ht => by rw [heldRead, hostRead, read_format ht]) h
  have hold := hloaded.value
  rw [toJson_object, toJson_object] at hvalue hold
  refine ⟨fs',rfl,?_,?_⟩
  · rw [hkeys, hmigrated.keys, hloaded.keys]
  · rw [Json.object.inj hvalue, ← Json.object.inj hold]
    exact hmigrated.map (toJson heldRead) (fun _ => rfl)

theorem preserved_of_convertible (path : String) {document : Document Token}
    (hvalid : ValidV03 document) (h : Convertible python document) :
    Preserved python path document := by
  obtain ⟨fs,rfl,hversion⟩ := valid_fields hvalid
  have hnames := hvalid.names fs rfl
  obtain ⟨gs,hloaded⟩ := loads_exists h
  obtain ⟨text,htext⟩ := (dumps_edit hnames hloaded hversion).mpr h.dumps
  obtain ⟨fs',rfl,hkeys,hmigrated⟩ := dumped hloaded hversion htext
  have hreadable := (readable_iff hnames hloaded hversion htext).mpr h.finite
  have hrun := migrate_loaded path hloaded hversion
  rw [htext] at hrun
  have hread := read_eq hreadable
  rw [toJson_object] at hread
  have hold : pipelineV03 (.object (fs.map (fun p => (p.1,toJson hostRead p.2)))) = true := by
    obtain ⟨v,hexact,hadmits⟩ := hvalid.valid
    obtain ⟨hall,rfl⟩ := valued_some.mp hexact
    rw [← toJson_object]
    refine pipelineV03_follows _ (fun t ht => ?_) hadmits
    obtain ⟨x,hx⟩ := hall t ht
    obtain ⟨y,hy⟩ := h.finite t ht
    rw [hostRead, hx, hy]
    exact keeps_read hx hy
  have hnew := migrated_valid hold hmigrated
  refine ⟨fs,fs',_,rfl,hrun,hread,hnew,validate_iff.mpr hnew,hkeys,fun key hv hs => ?_⟩
  have hsame := hmigrated.others key hv hs
  rw [lookup_map, lookup_map] at hsame
  rw [lookup_read hreadable, lookup_read h.finite, hsame]

theorem convertible_of_preserved {document : Document Token} (hvalid : ValidV03 document)
    (h : Preserved python path document) : Convertible python document := by
  obtain ⟨fs,rfl,hversion⟩ := valid_fields hvalid
  obtain ⟨old,fs',members,hold,hrun,hread,-⟩ := h
  obtain rfl := Document.object.inj hold
  have hnames := hvalid.names fs rfl
  cases hload : Tools.PythonJson.loads python (.object fs) with
  | error e =>
    simp only [migrate, hload] at hrun
    cases hrun
  | ok document =>
    obtain ⟨gs,rfl,hloaded⟩ := loaded hload
    rw [migrate_loaded path hloaded hversion] at hrun
    split at hrun
    · cases hrun
    · rename_i text htext
      obtain ⟨rfl,-⟩ := Prod.mk.inj hrun
      have hreadable : Readable (.object fs') := (valued_some.mp hread).1
      exact ⟨(readable_iff hnames hloaded hversion htext).mp hreadable,
        ((convert_exists _ (Nat.zero_le _)).mp ⟨_,hloaded.loads⟩).2,
        (dumps_edit hnames hloaded hversion).mp ⟨_,htext⟩⟩

theorem migrate_other (python : Interpreter) (path : String) {document : Document Token}
    (h : ∀ fs, document = .object fs →
      Params.lookup fs "version" ≠ some (.string "0.3")) :
    (migrate python path document).1 = document ∧ (migrate python path document).2 ≠ .done := by
  unfold migrate
  cases hload : Tools.PythonJson.loads python document with
  | error e => exact ⟨rfl,Exit.noConfusion⟩
  | ok held =>
    cases held with
    | object members =>
      have hvalue : toJson heldRead (.object members) = toJson hostRead document :=
        toJson_convert (fun t _ m hm => by rw [heldRead, hostRead, read_parse hm]) hload
      rw [toJson_object] at hvalue
      obtain ⟨fs,rfl,-⟩ := toJson_fields hvalue.symm
      obtain ⟨gs,hgs,hloaded⟩ := loaded hload
      obtain rfl := Document.object.inj hgs
      have htext : textIs members "version" "0.3" = false :=
        Bool.eq_false_iff.mpr (fun ht => h fs rfl (hloaded.text.mp (textIs_iff.mp ht)))
      simp [htext]
    | null => exact ⟨rfl,Exit.noConfusion⟩
    | bool b => exact ⟨rfl,Exit.noConfusion⟩
    | number m => exact ⟨rfl,Exit.noConfusion⟩
    | string s => exact ⟨rfl,Exit.noConfusion⟩
    | array items => exact ⟨rfl,Exit.noConfusion⟩

end Run

/-- `inputs`, `nodes` with their parameters, `edges` and `id` are members other than the two
the script writes; a document of another version, or none, is left as it is. -/
theorem migration_preserves_iff (python : Interpreter) (path : String)
    (document : Document Token) :
    (ValidV03 document → (Preserved python path document ↔ Convertible python document)) ∧
    ((∀ fs, document = .object fs → Params.lookup fs "version" ≠ some (.string "0.3")) →
      (migrate python path document).1 = document ∧
        (migrate python path document).2 ≠ .done) :=
  ⟨fun hvalid => ⟨convertible_of_preserved hvalid,preserved_of_convertible path hvalid⟩,
    migrate_other python path⟩

/-- One denoiser with its parameter set. -/
def denoiseDocument (sigma : Token) : Document Token := .object [
  ("$schema",.string v03Schema),
  ("version",.string "0.3"),
  ("id",.string "denoise"),
  ("inputs",.array [.object [("port",.string "in"),("kind",.string "Image2D"),
    ("format",.string "R16_UINT")]]),
  ("nodes",.array [.object [("id",.string "bm3d"),("type",.string "com.cpipe.denoise.bm3d"),
    ("params",.object [("sigma_override",.number sigma)])]]),
  ("edges",.array [.object [("from",.string "input.in"),("to",.string "bm3d.in")]])]

def interpreter : Interpreter where
  loadsNesting := 900
  dumpsNesting := 900
  maxStrDigits := some 4300
  threshold n hn := by
    obtain rfl := Option.some.inj hn
    decide

theorem denoise_valid {sigma : Token}
    (h : (denoiseDocument sigma).exact.map pipelineV03 = some true) :
    ValidV03 (denoiseDocument sigma) where
  names fs hfs := by
    obtain rfl := Document.object.inj hfs
    change ["$schema","version","id","inputs","nodes","edges"].Nodup
    decide
  valid := Option.map_eq_some_iff.mp h

theorem migration_preserves_denoise :
    Preserved interpreter "p.json" (denoiseDocument (.decimal (1/10))) ∧
    (migrate interpreter "p.json" (.object [("version",.string "0.2")])).2 ≠ .done := by
  have hread : ∃ x, Token.read (.decimal (1/10)) = some x :=
    Option.isSome_iff_exists.mp (by decide +kernel)
  constructor
  · refine ((migration_preserves_iff interpreter "p.json" _).1
      (denoise_valid (by decide +kernel))).mpr ⟨?_,by decide +kernel,by decide +kernel⟩
    intro t ht
    obtain rfl : t = .decimal (1/10) := List.mem_singleton.mp ht
    exact hread
  · refine ((migration_preserves_iff interpreter "p.json" _).2 (fun fs hfs => ?_)).2
    obtain rfl := Document.object.inj hfs
    simp [Params.lookup]

/-- The script writes the word `Infinity`. -/
theorem huge_lost :
    ValidV03 (denoiseDocument (.decimal (10^400))) ∧
    (migrate interpreter "p.json" (denoiseDocument (.decimal (10^400)))).1.numbers =
      [.infinity false] ∧
    ¬Preserved interpreter "p.json" (denoiseDocument (.decimal (10^400))) := by
  have hread : Token.read (.decimal (10^400)) = none := by decide +kernel
  have hvalid : ValidV03 (denoiseDocument (.decimal (10^400))) :=
    denoise_valid (by decide +kernel)
  refine ⟨hvalid,by decide +kernel,fun h => ?_⟩
  obtain ⟨x,hx⟩ := (convertible_of_preserved hvalid h).finite (.decimal (10^400))
    (List.mem_singleton.mpr rfl)
  rw [hread] at hx
  cases hx

end Cpipe.Proofs.Migration
