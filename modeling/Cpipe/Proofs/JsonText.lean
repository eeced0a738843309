import Cpipe.Library.Checked
import Cpipe.Proofs.Fields
import Cpipe.Tools.PythonJson
import Mathlib.Data.Nat.Digits.Lemmas

namespace Cpipe.Proofs.JsonText
open Library Library.Rounding Cpipe.JsonText Cpipe.JsonText.Document Cpipe.Tools.PythonJson
open Cpipe.Proofs.Fields

variable {N M α β : Type}

/-! ### Documents -/

theorem foldItems_eq (f : Fold N α) (items : List (Document N)) :
    foldItems f items = items.map (fold f) := by
  induction items with
  | nil => rfl
  | cons item items ih => rw [foldItems, ih, List.map_cons]

theorem foldFields_eq (f : Fold N α) (fields : List (String × Document N)) :
    foldFields f fields = fields.map (fun field => (field.1,fold f field.2)) := by
  induction fields with
  | nil => rfl
  | cons field fields ih => rw [foldFields, ih, List.map_cons]

mutual

/-- Induction over a document: the values of an array and of an object come before it. -/
theorem induct {P : Document N → Prop} (null : P .null) (bool : ∀ b, P (.bool b))
    (number : ∀ n, P (.number n)) (string : ∀ s, P (.string s))
    (array : ∀ items, (∀ item ∈ items, P item) → P (.array items))
    (object : ∀ fields, (∀ field ∈ fields, P field.2) → P (.object fields)) : ∀ d, P d
  | .null => null
  | .bool b => bool b
  | .number n => number n
  | .string s => string s
  | .array items => array items (induct_items null bool number string array object items)
  | .object fields => object fields (induct_fields null bool number string array object fields)

theorem induct_items {P : Document N → Prop} (null : P .null) (bool : ∀ b, P (.bool b))
    (number : ∀ n, P (.number n)) (string : ∀ s, P (.string s))
    (array : ∀ items, (∀ item ∈ items, P item) → P (.array items))
    (object : ∀ fields, (∀ field ∈ fields, P field.2) → P (.object fields)) :
    ∀ (items : List (Document N)), ∀ item ∈ items, P item
  | [] => List.forall_mem_nil _
  | item :: items => List.forall_mem_cons.mpr
      ⟨induct null bool number string array object item,
        induct_items null bool number string array object items⟩

theorem induct_fields {P : Document N → Prop} (null : P .null) (bool : ∀ b, P (.bool b))
    (number : ∀ n, P (.number n)) (string : ∀ s, P (.string s))
    (array : ∀ items, (∀ item ∈ items, P item) → P (.array items))
    (object : ∀ fields, (∀ field ∈ fields, P field.2) → P (.object fields)) :
    ∀ (fields : List (String × Document N)), ∀ field ∈ fields, P field.2
  | [] => List.forall_mem_nil _
  | (_,value) :: fields => List.forall_mem_cons.mpr
      ⟨induct null bool number string array object value,
        induct_fields null bool number string array object fields⟩

end

theorem numbers_array (items : List (Document N)) :
    numbers (.array items) = items.flatMap numbers := by
  change (foldItems _ items).flatten = _
  rw [foldItems_eq]
  rfl

theorem numbers_object (fields : List (String × Document N)) :
    numbers (.object fields) = fields.flatMap (fun field => numbers field.2) := by
  change (foldFields _ fields).flatMap Prod.snd = _
  rw [foldFields_eq, List.flatMap_map]
  rfl

theorem foldr_max_le {ns : List Nat} {n : Nat} : ns.foldr max 0 ≤ n ↔ ∀ m ∈ ns, m ≤ n := by
  induction ns with
  | nil => simp
  | cons m ns ih => simp [ih]

theorem nesting_array (items : List (Document N)) :
    nesting (.array items) = (items.map nesting).foldr max 0 + 1 := by
  rw [nesting, fold, foldItems_eq]
  rfl

theorem nesting_object (fields : List (String × Document N)) :
    nesting (.object fields) = (fields.map (fun field => nesting field.2)).foldr max 0 + 1 := by
  rw [nesting, fold, foldFields_eq]
  change (List.map Prod.snd (fields.map (fun field => (field.1,nesting field.2)))).foldr max 0 + 1 = _
  rw [List.map_map]
  rfl

/-! ### Conversions -/

section Convert

variable {limit opened : Nat} {number : N → Except Exception M}

theorem foldr_max_within {ns : List Nat} :
    ns.foldr max 0 + 1 + opened ≤ limit ↔ opened < limit ∧ ∀ n ∈ ns, n + (opened + 1) ≤ limit := by
  constructor
  · intro h
    have hle : ns.foldr max 0 ≤ limit - opened - 1 := by omega
    refine ⟨by omega,fun n hn => ?_⟩
    have := foldr_max_le.mp hle n hn
    omega
  · rintro ⟨hopened,h⟩
    have hle : ns.foldr max 0 ≤ limit - opened - 1 :=
      foldr_max_le.mpr (fun n hn => by have := h n hn; omega)
    omega

theorem nesting_array_within {items : List (Document N)} :
    nesting (.array items) + opened ≤ limit ↔
      opened < limit ∧ ∀ item ∈ items, nesting item + (opened + 1) ≤ limit := by
  rw [nesting_array, foldr_max_within, List.forall_mem_map]

theorem nesting_object_within {fields : List (String × Document N)} :
    nesting (.object fields) + opened ≤ limit ↔
      opened < limit ∧ ∀ field ∈ fields, nesting field.2 + (opened + 1) ≤ limit := by
  rw [nesting_object, foldr_max_within, List.forall_mem_map]

theorem convert_array_ok {items : List (Document N)} {r : Document M} :
    convert limit number (.array items) opened = .ok r ↔ opened < limit ∧
      ∃ rs, items.mapM (convert limit number · (opened + 1)) = .ok rs ∧ .array rs = r := by
  change opens limit (convertItems (foldItems _ items)) opened = _ ↔ _
  rw [foldItems_eq, opens, convertItems, List.mapM_map]
  by_cases h : limit ≤ opened
  · rw [if_pos h]
    exact ⟨fun hr => (by cases hr),fun hr => absurd hr.1 (by omega)⟩
  · rw [if_neg h, Checked.map_ok]
    exact (and_iff_right (Nat.lt_of_not_le h)).symm

theorem convert_object_ok {fields : List (String × Document N)} {r : Document M} :
    convert limit number (.object fields) opened = .ok r ↔ opened < limit ∧
      ∃ rs, fields.mapM (fun field => (convert limit number field.2 (opened + 1)).map (field.1,·)) =
        .ok rs ∧ .object rs = r := by
  change opens limit (convertFields (foldFields _ fields)) opened = _ ↔ _
  rw [foldFields_eq, opens, convertFields, List.mapM_map]
  by_cases h : limit ≤ opened
  · rw [if_pos h]
    exact ⟨fun hr => (by cases hr),fun hr => absurd hr.1 (by omega)⟩
  · rw [if_neg h, Checked.map_ok]
    exact (and_iff_right (Nat.lt_of_not_le h)).symm

/-- What is converted: a document of numbers that are, in no more brackets than the limit. -/
theorem convert_exists (d : Document N) : ∀ {opened : Nat}, opened ≤ limit →
    ((∃ r, convert limit number d opened = .ok r) ↔
      (∀ n ∈ numbers d, ∃ m, number n = .ok m) ∧ nesting d + opened ≤ limit) := by
  induction d using induct with
  | null => exact fun h => ⟨fun _ => ⟨List.forall_mem_nil _,by simpa [nesting, fold, Fold.nesting] using h⟩,
      fun _ => ⟨.null,rfl⟩⟩
  | bool b => exact fun h => ⟨fun _ => ⟨List.forall_mem_nil _,by simpa [nesting, fold, Fold.nesting] using h⟩,
      fun _ => ⟨.bool b,rfl⟩⟩
  | string s => exact fun h => ⟨fun _ => ⟨List.forall_mem_nil _,by simpa [nesting, fold, Fold.nesting] using h⟩,
      fun _ => ⟨.string s,rfl⟩⟩
  | number n =>
    intro opened h
    change (∃ r, (number n).map Document.number = .ok r) ↔ _
    rw [Checked.map_exists]
    simp [numbers, nesting, fold, Fold.numbers, Fold.nesting, h]
  | array items ih =>
    intro opened h
    rw [nesting_array_within, numbers_array]
    simp only [convert_array_ok]
    constructor
    · rintro ⟨-,hopened,rs,hrs,-⟩
      have hitems : ∀ item ∈ items, (∀ n ∈ numbers item, ∃ m, number n = .ok m) ∧
          nesting item + (opened + 1) ≤ limit := fun item hitem =>
        (ih item hitem hopened).mp (Checked.mapM_exists.mp ⟨rs,hrs⟩ item hitem)
      refine ⟨fun n hn => ?_,hopened,fun item hitem => (hitems item hitem).2⟩
      obtain ⟨item,hitem,hn⟩ := List.mem_flatMap.mp hn
      exact (hitems item hitem).1 n hn
    · rintro ⟨hnumbers,hopened,hnesting⟩
      obtain ⟨rs,hrs⟩ := Checked.mapM_exists.mpr (fun item hitem => (ih item hitem hopened).mpr
        ⟨fun n hn => hnumbers n (List.mem_flatMap.mpr ⟨item,hitem,hn⟩),hnesting item hitem⟩)
      exact ⟨_,hopened,rs,hrs,rfl⟩
  | object fields ih =>
    intro opened h
    rw [nesting_object_within, numbers_object]
    simp only [convert_object_ok]
    constructor
    · rintro ⟨-,hopened,rs,hrs,-⟩
      have hfields : ∀ field ∈ fields, (∀ n ∈ numbers field.2, ∃ m, number n = .ok m) ∧
          nesting field.2 + (opened + 1) ≤ limit := fun field hfield =>
        (ih field hfield hopened).mp
          (Checked.map_exists.mp (Checked.mapM_exists.mp ⟨rs,hrs⟩ field hfield))
      refine ⟨fun n hn => ?_,hopened,fun field hfield => (hfields field hfield).2⟩
      obtain ⟨field,hfield,hn⟩ := List.mem_flatMap.mp hn
      exact (hfields field hfield).1 n hn
    · rintro ⟨hnumbers,hopened,hnesting⟩
      obtain ⟨rs,hrs⟩ := Checked.mapM_exists.mpr (fun field hfield => Checked.map_exists.mpr
        ((ih field hfield hopened).mpr
          ⟨fun n hn => hnumbers n (List.mem_flatMap.mpr ⟨field,hfield,hn⟩),hnesting field hfield⟩))
      exact ⟨_,hopened,rs,hrs,rfl⟩

theorem map_of_forall₂ {R : α → β → Prop} {xs : List α} {ys : List β} {f : α → γ} {g : β → γ}
    (h : List.Forall₂ R xs ys) (heq : ∀ x ∈ xs, ∀ y, R x y → g y = f x) : ys.map g = xs.map f := by
  induction h with
  | nil => rfl
  | cons hxy _ ih =>
    rw [List.map_cons, List.map_cons, heq _ List.mem_cons_self _ hxy,
      ih (fun x hx => heq x (List.mem_cons_of_mem _ hx))]

/-- A fold sees no conversion that changes nothing for its numbers. -/
theorem fold_convert {f : Fold M α} {g : Fold N α} (hnull : f.null = g.null)
    (hbool : f.bool = g.bool) (hstring : f.string = g.string) (harray : f.array = g.array)
    (hobject : f.object = g.object) (d : Document N) : ∀ {opened : Nat} {r : Document M},
    (∀ n ∈ numbers d, ∀ m, number n = .ok m → f.number m = g.number n) →
      convert limit number d opened = .ok r → fold f r = fold g d := by
  induction d using induct with
  | null => exact fun _ h => by obtain rfl := Except.ok.inj h; exact hnull
  | bool b => exact fun _ h => by obtain rfl := Except.ok.inj h; exact congrFun hbool b
  | string s => exact fun _ h => by obtain rfl := Except.ok.inj h; exact congrFun hstring s
  | number n =>
    intro opened r hnumber h
    obtain ⟨m,hm,rfl⟩ := Checked.map_ok.mp h
    exact hnumber n List.mem_cons_self m hm
  | array items ih =>
    intro opened r hnumber h
    obtain ⟨-,rs,hrs,rfl⟩ := convert_array_ok.mp h
    rw [numbers_array] at hnumber
    have hitems := map_of_forall₂ (g := fold f) (f := fold g) (Checked.mapM_forall₂ hrs)
      (fun item hitem r hr => ih item hitem
        (fun n hn => hnumber n (List.mem_flatMap.mpr ⟨item,hitem,hn⟩)) hr)
    rw [fold, fold, foldItems_eq, foldItems_eq, harray, hitems]
  | object fields ih =>
    intro opened r hnumber h
    obtain ⟨-,rs,hrs,rfl⟩ := convert_object_ok.mp h
    rw [numbers_object] at hnumber
    have hfields := map_of_forall₂ (g := fun field => (field.1,fold f field.2))
      (f := fun field => (field.1,fold g field.2)) (Checked.mapM_forall₂ hrs)
      (fun field hfield r hr => by
        obtain ⟨value,hvalue,rfl⟩ := Checked.map_ok.mp hr
        rw [ih field hfield (fun n hn => hnumber n (List.mem_flatMap.mpr ⟨field,hfield,hn⟩)) hvalue])
    rw [fold, fold, foldFields_eq, foldFields_eq, hobject, hfields]

theorem nesting_convert {d : Document N} {r : Document M}
    (h : convert limit number d opened = .ok r) : nesting r = nesting d := by
  have hfold := fold_convert (f := (Fold.nesting : Fold M Nat))
    (g := (Fold.nesting : Fold N Nat)) rfl rfl rfl rfl rfl d (fun _ _ _ _ => rfl) h
  exact hfold

theorem toJson_convert {d : Document N} {r : Document M} {v : M → Rat} {w : N → Rat}
    (hvalue : ∀ n ∈ numbers d, ∀ m, number n = .ok m → v m = w n)
    (h : convert limit number d opened = .ok r) : toJson v r = toJson w d := by
  have hfold := fold_convert (f := Fold.json v) (g := Fold.json w) rfl rfl rfl rfl rfl d
    (fun n hn m hm => congrArg Json.number (hvalue n hn m hm)) h
  exact hfold

theorem forall_of_forall₂ {R : α → β → Prop} {xs : List α} {ys : List β} {A : β → Prop}
    {B : α → Prop} (h : List.Forall₂ R xs ys) (heq : ∀ x ∈ xs, ∀ y, R x y → (A y ↔ B x)) :
    (∀ y ∈ ys, A y) ↔ ∀ x ∈ xs, B x := by
  induction h with
  | nil => simp
  | cons hxy _ ih =>
    rw [List.forall_mem_cons, List.forall_mem_cons, heq _ List.mem_cons_self _ hxy,
      ih (fun x hx => heq x (List.mem_cons_of_mem _ hx))]

/-- The numbers of the result are those of the document, converted. -/
theorem numbers_convert {Q : M → Prop} (d : Document N) : ∀ {opened : Nat} {r : Document M},
    convert limit number d opened = .ok r →
      ((∀ m ∈ numbers r, Q m) ↔ ∀ n ∈ numbers d, ∀ m, number n = .ok m → Q m) := by
  induction d using induct with
  | null => exact fun h => by obtain rfl := Except.ok.inj h; exact iff_of_true (List.forall_mem_nil _) (List.forall_mem_nil _)
  | bool b => exact fun h => by obtain rfl := Except.ok.inj h; exact iff_of_true (List.forall_mem_nil _) (List.forall_mem_nil _)
  | string s => exact fun h => by obtain rfl := Except.ok.inj h; exact iff_of_true (List.forall_mem_nil _) (List.forall_mem_nil _)
  | number n =>
    intro opened r h
    obtain ⟨m,hm,rfl⟩ := Checked.map_ok.mp h
    change (∀ m' ∈ [m], Q m') ↔ ∀ n' ∈ [n], ∀ m, number n' = .ok m → Q m
    simp [hm]
  | array items ih =>
    intro opened r h
    obtain ⟨-,rs,hrs,rfl⟩ := convert_array_ok.mp h
    rw [numbers_array, numbers_array, List.forall_mem_flatMap, List.forall_mem_flatMap]
    exact forall_of_forall₂ (Checked.mapM_forall₂ hrs) (fun item hitem r hr => ih item hitem hr)
  | object fields ih =>
    intro opened r h
    obtain ⟨-,rs,hrs,rfl⟩ := convert_object_ok.mp h
    rw [numbers_object, numbers_object, List.forall_mem_flatMap, List.forall_mem_flatMap]
    refine forall_of_forall₂ (Checked.mapM_forall₂ hrs) (fun field hfield r hr => ?_)
    obtain ⟨value,hvalue,rfl⟩ := Checked.map_ok.mp hr
    exact ih field hfield hvalue

theorem convert_keys {fields : List (String × Document N)} {r : Document M}
    (h : convert limit number (.object fields) opened = .ok r) :
    ∃ fields', r = .object fields' ∧ fields'.map Prod.fst = fields.map Prod.fst := by
  obtain ⟨-,rs,hrs,rfl⟩ := convert_object_ok.mp h
  refine ⟨rs,rfl,map_of_forall₂ (Checked.mapM_forall₂ hrs) (fun field _ r hr => ?_)⟩
  obtain ⟨value,-,rfl⟩ := Checked.map_ok.mp hr
  rfl

end Convert

/-! ### Values -/

section Values

variable {value : N → Option Rat} {d : Document N}

theorem valued_some {v : Json} : valued value d = some v ↔
    (∀ n ∈ numbers d, ∃ x, value n = some x) ∧ toJson (fun n => (value n).getD 0) d = v := by
  unfold valued
  split_ifs with h
  · simp only [List.all_eq_true, Option.isSome_iff_exists] at h
    exact ⟨fun hv => ⟨h,Option.some.inj hv⟩,fun hv => congrArg some hv.2⟩
  · simp only [List.all_eq_true, Option.isSome_iff_exists] at h
    exact ⟨fun hv => (by cases hv),fun hv => absurd hv.1 h⟩

theorem toJson_array (v : N → Rat) (items : List (Document N)) :
    toJson v (.array items) = .array (items.map (toJson v)) := by
  rw [toJson, fold, foldItems_eq]
  rfl

theorem toJson_object (v : N → Rat) (fields : List (String × Document N)) :
    toJson v (.object fields) = .object (fields.map (fun field => (field.1,toJson v field.2))) := by
  rw [toJson, fold, foldFields_eq]
  rfl

theorem toJson_string {v : N → Rat} {s : String} (h : toJson v d = .string s) :
    d = .string s := by
  cases d with
  | string s' => exact congrArg Document.string (Json.string.inj h)
  | null => cases h
  | bool b => cases h
  | number n => cases h
  | array items => cases h
  | object fields => cases h

theorem toJson_fields {v : N → Rat} {members : Params} (h : toJson v d = .object members) :
    ∃ fields, d = .object fields ∧
      fields.map (fun field => (field.1,toJson v field.2)) = members := by
  cases d with
  | object fields =>
    rw [toJson_object] at h
    exact ⟨fields,rfl,Json.object.inj h⟩
  | array items =>
    rw [toJson_array] at h
    cases h
  | null => cases h
  | bool b => cases h
  | number n => cases h
  | string s => cases h

end Values

/-! ### Doubles -/

theorem toDouble_self {r x : Rat} (h : toDouble r = some x) : toDouble x = some x := by
  unfold toDouble at h ⊢
  simp only at h ⊢
  split_ifs at h with hfinite
  obtain rfl := Option.some.inj h
  rw [Format.nearest_nearest (by decide), if_pos hfinite]

theorem toDouble_repr {r x : Rat} (h : toDouble r = some x) : toDouble (floatRepr x) = some x := by
  unfold floatRepr
  cases hfound : ((List.range' 1 17).map (significant · x)).find? (fun d => toDouble d = some x) with
  | none => exact toDouble_self h
  | some d =>
    have hdouble := List.find?_some hfound
    exact of_decide_eq_true hdouble

/-- A finite double has less than `2^1024` behind it. -/
theorem lt_of_toDouble {r x : Rat} (h : toDouble r = some x) : |r| < 2^(1024 : Int) := by
  by_contra hbig
  have hround := Format.power_le_abs_nearest (f := Format.double) (e := 1024) (by decide)
    (by decide) (not_lt.mp hbig)
  unfold toDouble at h
  simp only at h
  rw [if_neg (not_lt.mpr hround)] at h
  cases h

/-! ### Tokens -/

/-- What the host reads where Python writes a number. -/
def numberRead : Number → Option Rat
  | .int value => Token.read (.integer value)
  | .float value => toDouble (floatRepr value)
  | .infinity _ => none

section Tokens

variable {python : Interpreter} {t t' : Token} {m : Number} {x : Rat}

theorem read_parseFloat (value : Rat) : numberRead (parseFloat value) = toDouble value := by
  unfold parseFloat
  cases hdouble : toDouble value with
  | some double => exact toDouble_repr hdouble
  | none => rfl

theorem read_parse (h : python.parseNumber t = .ok m) : numberRead m = t.read := by
  cases t with
  | integer value =>
    obtain ⟨-,-,rfl⟩ := Checked.map_ok.mp h
    rfl
  | decimal value =>
    obtain rfl := Except.ok.inj h
    exact read_parseFloat value
  | infinity negative =>
    obtain rfl := Except.ok.inj h
    rfl

theorem read_format (h : python.formatNumber m = .ok t) : t.read = numberRead m := by
  cases m with
  | int value =>
    obtain ⟨-,-,rfl⟩ := Checked.map_ok.mp h
    rfl
  | float value =>
    obtain rfl := Except.ok.inj h
    rfl
  | infinity negative =>
    obtain rfl := Except.ok.inj h
    rfl

/-- What Python has read it can write. -/
theorem format_parsed (h : python.parseNumber t = .ok m) :
    ∃ t', python.formatNumber m = .ok t' := by
  cases t with
  | integer value =>
    obtain ⟨u,hu,rfl⟩ := Checked.map_ok.mp h
    exact ⟨.integer value,by rw [Interpreter.formatNumber, hu]; rfl⟩
  | decimal value =>
    obtain rfl := Except.ok.inj h
    unfold parseFloat
    cases toDouble value with
    | some double => exact ⟨_,rfl⟩
    | none => exact ⟨_,rfl⟩
  | infinity negative =>
    obtain rfl := Except.ok.inj h
    exact ⟨_,rfl⟩

/-- An integer that a double reaches has few digits. -/
theorem checkDigits_ok (python : Interpreter) {value : Int} (h : |(value : Rat)| < 2^(1024 : Int)) :
    python.checkDigits value = .ok () := by
  have hpow : (2 : Rat)^(1024 : Int) ≤ ((10^10)^64 : Nat) := by
    rw [show (1024 : Int) = ((16*64 : Nat) : Int) by rfl, zpow_natCast, pow_mul, Nat.cast_pow]
    exact pow_le_pow_left₀ (by norm_num) (by norm_num) 64
  have hlt : value.natAbs < (10^10)^64 := by
    have habs : (value.natAbs : Rat) = |(value : Rat)| := by rw [Nat.cast_natAbs, Int.cast_abs]
    exact Nat.cast_lt.mp (habs.trans_lt (h.trans_le hpow))
  have hdigits : (Nat.digits 10 value.natAbs).length ≤ 10*64 := by
    rw [← pow_mul] at hlt
    exact (Nat.digits_length_le_iff (by decide) _).mpr hlt
  unfold Interpreter.checkDigits
  cases hmax : python.maxStrDigits with
  | none => rfl
  | some n =>
    have hn := python.threshold n hmax
    exact if_neg (by omega)

theorem parse_of_read (python : Interpreter) (h : t.read = some x) :
    ∃ m, python.parseNumber t = .ok m := by
  cases t with
  | integer value =>
    have hsmall : |(value : Rat)| < 2^(1024 : Int) := by
      simp only [Token.read] at h
      split at h
      · rename_i hfits
        have habs : |value| ≤ 2^64 := abs_le.mpr ⟨by omega,by omega⟩
        have hle : |(value : Rat)| ≤ 2^64 := by
          rw [← Int.cast_abs]
          exact_mod_cast habs
        refine hle.trans_lt ?_
        rw [← zpow_natCast]
        exact zpow_lt_zpow_right₀ (by norm_num) (by norm_num)
      · exact lt_of_toDouble h
    exact ⟨.int value,by rw [Interpreter.parseNumber, checkDigits_ok python hsmall]; rfl⟩
  | decimal value =>
    exact ⟨_,rfl⟩
  | infinity negative => cases h

end Tokens

end Cpipe.Proofs.JsonText
