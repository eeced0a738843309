import Cpipe.Library.Rounding
import Mathlib.Data.Nat.Prime.Basic
import Mathlib.Data.Rat.Lemmas

/-! Formatted extraction from a text, as an input stream does it. -/

namespace Library.Scan
open Rounding

/-- The longest start of a text an acceptor takes, and the rest. -/
def scan {σ : Type} (accept : σ → Char → Option σ) : σ → List Char → List Char × List Char
  | _, [] => ([],[])
  | s, c :: cs =>
    match accept s c with
    | some s' => (c :: (scan accept s' cs).1,(scan accept s' cs).2)
    | none => ([],c :: cs)

def isSpace (c : Char) : Bool := c = ' ' || ('\t' ≤ c && c ≤ '\r')

/-- What `>>` does to the text in front of it: a value and the rest, or the fail bit. -/
abbrev Extract (α : Type) := StateT (List Char) Option α

/-- Skip the white space, take the field the acceptor describes and convert it. -/
def extract {σ α : Type} (accept : σ → Char → Option σ) (start : σ)
    (convert : List Char → Option α) : Extract α := fun text =>
  let field := scan accept start (text.dropWhile isSpace)
  (convert field.1).map (·,field.2)

/-- The lines `getline` gives one after the other. -/
def getlines : List Char → List (List Char)
  | [] => []
  | c :: cs =>
    if c = '\n' then [] :: getlines cs
    else
      match getlines cs with
      | [] => [[c]]
      | line :: rest => (c :: line) :: rest

/-! ### Words and numbers -/

def wordChar (_ : Unit) (c : Char) : Option Unit := if isSpace c then none else some ()

def word : Extract (List Char) :=
  extract wordChar () (fun field => if field = [] then none else some field)

def natOf (digits : List Char) : Nat := Nat.ofDigitChars 10 digits 0

/-- A sign and what follows it. -/
def takeSign : List Char → Bool × List Char
  | '-' :: cs => (true,cs)
  | '+' :: cs => (false,cs)
  | cs => (false,cs)

/-- The state says whether a sign may still come. -/
def intChar (sign : Bool) (c : Char) : Option Bool :=
  if (c = '+' || c = '-') && sign then some false
  else if c.isDigit then some false
  else none

/-- A number outside the range of `int` sets the fail bit. -/
def intOf (field : List Char) : Option Int :=
  let digits := (takeSign field).2
  let value : Int := if (takeSign field).1 then -natOf digits else natOf digits
  if digits = [] ∨ value < -2^31 ∨ 2^31 ≤ value then none else some value

def int : Extract Int := extract intChar true intOf

structure RealField where
  sign : Bool := true
  mantissa : Bool := false
  point : Bool := false
  exponent : Bool := false
deriving DecidableEq, Repr

/-- A second point, a second exponent or a late sign ends the field. -/
def realChar (s : RealField) (c : Char) : Option RealField :=
  if (c = '+' || c = '-') && s.sign then some { s with sign := false }
  else if c.isDigit then some { s with sign := false, mantissa := true }
  else if c = '.' && !s.point && !s.exponent then some { s with sign := false, point := true }
  else if (c = 'e' || c = 'E') && !s.exponent && s.mantissa then
    some { s with sign := true, exponent := true }
  else none

/-- The exponent behind a mantissa; nothing but the letter is no exponent. -/
def exponentOf : List Char → Option Int
  | [] => some 0
  | _ :: cs =>
    let digits := (takeSign cs).2
    if digits = [] ∨ !digits.all Char.isDigit then none
    else some (if (takeSign cs).1 then -natOf digits else natOf digits)

def decimalOf (field : List Char) : Option Rat :=
  let unsigned := (takeSign field).2
  let whole := unsigned.takeWhile Char.isDigit
  let behind := unsigned.dropWhile Char.isDigit
  let fraction := if behind.head? = some '.' then behind.tail.takeWhile Char.isDigit else []
  let rest := if behind.head? = some '.' then behind.tail.dropWhile Char.isDigit else behind
  if whole ++ fraction = [] then none
  else
    (exponentOf rest).map (fun e =>
      let magnitude : Rat := natOf (whole ++ fraction) * 10^(e - (fraction.length : Int))
      if (takeSign field).1 then -magnitude else magnitude)

/-- The nearest value of the format; an overflow sets the fail bit. -/
def realOf (f : Format) (bound : Nat) (field : List Char) : Option Rat :=
  (decimalOf field).bind (fun r => if |f.nearest r| < 2^bound then some (f.nearest r) else none)

def real (f : Format) (bound : Nat) : Extract Rat := extract realChar {} (realOf f bound)

/-! ### Fields in a text -/

section Scan

variable {σ : Type} {accept : σ → Char → Option σ} {c : Char} {text : List Char}

theorem scan_taken {s s' : σ} (h : accept s c = some s') :
    scan accept s (c :: text) = (c :: (scan accept s' text).1,(scan accept s' text).2) := by
  simp [scan, h]

theorem scan_refused {s : σ} (h : accept s c = none) :
    scan accept s (c :: text) = ([],c :: text) := by
  simp [scan, h]

theorem scan_append_rest (accept : σ → Char → Option σ) (s : σ) (text : List Char) :
    (scan accept s text).1 ++ (scan accept s text).2 = text := by
  induction text generalizing s with
  | nil => rfl
  | cons d text ih =>
    cases hd : accept s d with
    | none => simp [scan_refused hd]
    | some s' => simp [scan_taken hd, ih]

/-- A field ends at the latest where a character follows that no state takes. -/
theorem scan_separated (hc : ∀ s, accept s c = none) (s : σ) (text rest : List Char) :
    scan accept s (text ++ c :: rest) =
      ((scan accept s text).1,(scan accept s text).2 ++ c :: rest) := by
  induction text generalizing s with
  | nil => simp [scan, hc]
  | cons d text ih =>
    rw [List.cons_append]
    cases hd : accept s d with
    | none => rw [scan_refused hd, scan_refused hd, List.cons_append]
    | some s' => rw [scan_taken hd, scan_taken hd, ih s']

theorem accepted_of_mem (s : σ) (h : (scan accept s text).2 = []) :
    ∀ d ∈ text, ∃ s', accept s' d ≠ none := by
  induction text generalizing s with
  | nil => simp
  | cons d text ih =>
    cases hd : accept s d with
    | none =>
      rw [scan_refused hd] at h
      cases h
    | some s' =>
      rw [scan_taken hd] at h
      exact List.forall_mem_cons.mpr ⟨⟨s,by simp [hd]⟩,ih s' h⟩

/-- A text of characters that every state takes is one field. -/
theorem scan_all (hall : ∀ d ∈ text, ∀ s, accept s d ≠ none) (s : σ) :
    scan accept s text = (text,[]) := by
  induction text generalizing s with
  | nil => rfl
  | cons d text ih =>
    obtain ⟨hd,htext⟩ := List.forall_mem_cons.mp hall
    obtain ⟨s',hs'⟩ := Option.ne_none_iff_exists'.mp (hd s)
    rw [scan_taken hs', ih htext]

end Scan

/-- White space stands between the fields and in none of them. -/
structure Token {α : Type} (x : Extract α) : Prop where
  skips : ∀ c text, isSpace c = true → x (c :: text) = x text
  stops : ∀ text a behind c rest, isSpace c = true → x text = some (a,behind) →
    x (text ++ c :: rest) = some (a,behind ++ c :: rest)
  shrinks : ∀ text a rest, x text = some (a,rest) → rest.length < text.length

theorem dropWhile_append_of_ne {text : List Char} (h : text.dropWhile isSpace ≠ [])
    (rest : List Char) :
    (text ++ rest).dropWhile isSpace = text.dropWhile isSpace ++ rest := by
  induction text with
  | nil => cases h rfl
  | cons d text ih =>
    cases hd : isSpace d with
    | true =>
      simp only [List.cons_append, List.dropWhile_cons, hd, if_true] at h ⊢
      exact ih h
    | false => simp [hd]

theorem token_extract {σ α : Type} {accept : σ → Char → Option σ} {start : σ}
    {convert : List Char → Option α} (hspace : ∀ s c, isSpace c = true → accept s c = none)
    (hempty : convert [] = none) : Token (extract accept start convert) where
  skips c text hc := by simp [extract, hc]
  stops text a behind c rest hc h := by
    simp only [extract, Option.map_eq_some_iff, Prod.mk.injEq] at h ⊢
    obtain ⟨a',hconvert,rfl,rfl⟩ := h
    have hne : text.dropWhile isSpace ≠ [] := by
      intro hnil
      rw [hnil, scan, hempty] at hconvert
      cases hconvert
    rw [dropWhile_append_of_ne hne, scan_separated (fun s => hspace s c hc)]
    exact ⟨a',hconvert,rfl,rfl⟩
  shrinks text a rest h := by
    simp only [extract, Option.map_eq_some_iff, Prod.mk.injEq] at h
    obtain ⟨a',hconvert,rfl,rfl⟩ := h
    have hfield := scan_append_rest accept start (text.dropWhile isSpace)
    have hne : (scan accept start (text.dropWhile isSpace)).1 ≠ [] := by
      intro hnil
      rw [hnil, hempty] at hconvert
      cases hconvert
    have hlength := congrArg List.length hfield
    have hskip := (List.dropWhile_suffix isSpace (l := text)).length_le
    have hpos := List.length_pos_of_ne_nil hne
    rw [List.length_append] at hlength
    omega

section Sequence

variable {α β : Type} {x : Extract α} {y : α → Extract β}

theorem bind_apply (x : Extract α) (y : α → Extract β) (text : List Char) :
    (x >>= y) text = (x text).bind (fun read => y read.1 read.2) := rfl

theorem Token.bind (hx : Token x) (hy : ∀ a, Token (y a)) : Token (x >>= y) where
  skips c text hc := by rw [bind_apply, bind_apply, hx.skips c text hc]
  stops text b behind c rest hc h := by
    rw [bind_apply, Option.bind_eq_some_iff] at h ⊢
    obtain ⟨⟨a,between⟩,ha,hb⟩ := h
    exact ⟨_,hx.stops text a between c rest hc ha,(hy a).stops between b behind c rest hc hb⟩
  shrinks text b rest h := by
    rw [bind_apply, Option.bind_eq_some_iff] at h
    obtain ⟨⟨a,between⟩,ha,hb⟩ := h
    exact ((hy a).shrinks between b rest hb).trans (hx.shrinks text a between ha)

theorem Token.bind_pure (hx : Token x) (f : α → β) : Token (x >>= fun a => pure (f a)) where
  skips c text hc := by rw [bind_apply, bind_apply, hx.skips c text hc]
  stops text b behind c rest hc h := by
    rw [bind_apply, Option.bind_eq_some_iff] at h ⊢
    obtain ⟨⟨a,between⟩,ha,hb⟩ := h
    cases hb
    exact ⟨_,hx.stops text a between c rest hc ha,rfl⟩
  shrinks text b rest h := by
    rw [bind_apply, Option.bind_eq_some_iff] at h
    obtain ⟨⟨a,between⟩,ha,hb⟩ := h
    cases hb
    exact hx.shrinks text a between ha

/-- The next extraction starts behind the separator. -/
theorem Token.read_bind (hx : Token x) (hy : ∀ a, Token (y a)) {text : List Char} {a : α} {c : Char}
    (hc : isSpace c = true) (h : x text = some (a,[])) (rest : List Char) :
    (x >>= y) (text ++ c :: rest) = y a rest := by
  rw [bind_apply, hx.stops text a [] c rest hc h]
  exact (hy a).skips c rest hc

end Sequence

theorem token_word : Token word :=
  token_extract (fun _ c h => by simp [wordChar, h]) rfl

theorem space_not_digit {c : Char} (h : isSpace c = true) :
    c.isDigit = false ∧ c ≠ '+' ∧ c ≠ '-' ∧ c ≠ '.' ∧ c ≠ 'e' ∧ c ≠ 'E' := by
  have hsmall : c.toNat ≤ 32 := by
    simp only [isSpace, Bool.or_eq_true, Bool.and_eq_true, decide_eq_true_eq] at h
    rcases h with rfl | ⟨_,hle⟩
    · decide
    · have : c.toNat ≤ '\r'.toNat := hle
      exact this.trans (by decide)
  refine ⟨?_,?_,?_,?_,?_,?_⟩
  · rw [Char.isDigit, Bool.and_eq_false_iff, decide_eq_false_iff_not]
    left
    intro hle
    have : 48 ≤ c.toNat := hle
    omega
  all_goals
    rintro rfl
    revert hsmall
    decide

theorem token_int : Token int := by
  refine token_extract (fun s c h => ?_) rfl
  obtain ⟨hdigit,hplus,hminus,_⟩ := space_not_digit h
  simp [intChar, hdigit, hplus, hminus]

theorem token_real (f : Format) (bound : Nat) : Token (real f bound) := by
  refine token_extract (fun s c h => ?_) rfl
  obtain ⟨hdigit,hplus,hminus,hpoint,he,hE⟩ := space_not_digit h
  simp [realChar, hdigit, hplus, hminus, hpoint, he, hE]

theorem word_of_noSpace {text : List Char} (hne : text ≠ []) (h : ∀ c ∈ text, isSpace c = false) :
    word text = some (text,[]) := by
  have hskip : text.dropWhile isSpace = text := by
    cases text with
    | nil => rfl
    | cons c text => simp [h c List.mem_cons_self]
  have hscan : scan wordChar () text = (text,[]) :=
    scan_all (fun d hd _ => by simp [wordChar, h d hd]) ()
  simp [word, extract, hskip, hscan, hne]

theorem digit_not_space {c : Char} (h : c.isDigit = true) : isSpace c = false := by
  cases hc : isSpace c with
  | false => rfl
  | true =>
    rw [(space_not_digit hc).1] at h
    cases h

theorem takeSign_digit {c : Char} (h : c.isDigit = true) (cs : List Char) :
    takeSign (c :: cs) = (false,c :: cs) := by
  unfold takeSign
  split
  · rename_i heq
    obtain ⟨rfl,_⟩ := List.cons.inj heq
    cases h
  · rename_i heq
    obtain ⟨rfl,_⟩ := List.cons.inj heq
    cases h
  · rfl

theorem toDigits_digit {n : Nat} {c : Char} (h : c ∈ Nat.toDigits 10 n) : c.isDigit = true :=
  Nat.isDigit_of_mem_toDigits (by decide) (by decide) h

theorem int_toDigits {n : Nat} (h : n < 2^31) :
    int (Nat.toDigits 10 n) = some ((n : Int),[]) := by
  have hdigits : ∀ c ∈ Nat.toDigits 10 n, c.isDigit = true := fun c hc => toDigits_digit hc
  have hvalue : natOf (Nat.toDigits 10 n) = n := Nat.ofDigitChars_ten_toDigits
  have hscan : scan intChar true (Nat.toDigits 10 n) = (Nat.toDigits 10 n,[]) := by
    refine scan_all (fun d hd s => ?_) true
    unfold intChar
    split
    · simp
    · simp [hdigits d hd]
  obtain ⟨c,cs,hcons⟩ := List.exists_cons_of_ne_nil (@Nat.toDigits_ne_nil n 10)
  rw [hcons] at hdigits hvalue hscan ⊢
  have hc := hdigits c List.mem_cons_self
  have hint : intOf (c :: cs) = some (n : Int) := by
    simp only [intOf, takeSign_digit hc, hvalue]
    rw [if_neg]
    · rfl
    · simp
      omega
  simp [int, extract, digit_not_space hc, hscan, hint]

/-! ### A text for every value -/

/-- Where the acceptor gets with a whole text. -/
theorem scan_append {σ : Type} {accept : σ → Char → Option σ} {s s' : σ} {text : List Char}
    (h : text.foldlM accept s = some s') (rest : List Char) :
    scan accept s (text ++ rest) = (text ++ (scan accept s' rest).1,(scan accept s' rest).2) := by
  induction text generalizing s with
  | nil =>
    obtain rfl := Option.some.inj h
    rfl
  | cons c text ih =>
    rw [List.foldlM_cons] at h
    obtain ⟨next,hc,htext⟩ := Option.bind_eq_some_iff.mp h
    rw [List.cons_append, scan_taken hc, ih htext]
    rfl

theorem realChar_digit {s : RealField} {c : Char} (h : c.isDigit = true) :
    realChar s c = some { s with sign := false, mantissa := true } := by
  unfold realChar
  rw [if_neg, if_pos h]
  simp only [Bool.and_eq_true, Bool.or_eq_true, decide_eq_true_eq]
  rintro ⟨rfl | rfl,_⟩
  · cases h
  · cases h

theorem realChar_digits {digits : List Char} (hne : digits ≠ [])
    (h : ∀ c ∈ digits, c.isDigit = true) (s : RealField) :
    digits.foldlM realChar s = some { s with sign := false, mantissa := true } := by
  induction digits generalizing s with
  | nil => cases hne rfl
  | cons c digits ih =>
    obtain ⟨hc,hrest⟩ := List.forall_mem_cons.mp h
    rw [List.foldlM_cons, realChar_digit hc]
    cases hd : digits with
    | nil => rfl
    | cons d ds => exact hd ▸ ih (by simp [hd]) hrest _

/-- Digits with a power of ten that is not positive. -/
def scaledText (m k : Nat) : List Char :=
  Nat.toDigits 10 m ++ 'e' :: '-' :: Nat.toDigits 10 k

def signText (negative : Bool) : List Char := if negative then ['-'] else []

theorem scaledText_accepted (m k : Nat) {s : RealField} (hs : s.exponent = false) :
    (scaledText m k).foldlM realChar s =
      some { s with sign := false, mantissa := true, exponent := true } := by
  have hdigits : ∀ n, ∀ c ∈ Nat.toDigits 10 n, c.isDigit = true := fun n c hc => toDigits_digit hc
  rw [scaledText, List.foldlM_append, realChar_digits Nat.toDigits_ne_nil (hdigits m)]
  simp only [Option.bind_eq_bind, Option.bind_some, List.foldlM_cons]
  have he : realChar { s with sign := false, mantissa := true } 'e' =
      some { s with sign := true, mantissa := true, exponent := true } := by
    simp [realChar, hs]
  have hminus : realChar { s with sign := true, mantissa := true, exponent := true } '-' =
      some { s with sign := false, mantissa := true, exponent := true } := by
    simp [realChar]
  rw [he, Option.bind_some, hminus, Option.bind_some,
    realChar_digits Nat.toDigits_ne_nil (hdigits k)]

theorem scan_signed (negative : Bool) (m k : Nat) :
    scan realChar {} (signText negative ++ scaledText m k) =
      (signText negative ++ scaledText m k,[]) := by
  have haccepted : ∃ s, (signText negative ++ scaledText m k).foldlM realChar {} = some s := by
    cases negative with
    | false => exact ⟨_,scaledText_accepted m k rfl⟩
    | true => exact ⟨_,scaledText_accepted (s := { sign := false }) m k rfl⟩
  obtain ⟨s,hs⟩ := haccepted
  simpa [scan] using scan_append hs []

theorem takeSign_signed (negative : Bool) (m k : Nat) :
    takeSign (signText negative ++ scaledText m k) = (negative,scaledText m k) := by
  cases negative with
  | true => rfl
  | false =>
    obtain ⟨c,cs,hcons⟩ := List.exists_cons_of_ne_nil (@Nat.toDigits_ne_nil m 10)
    have hc : c.isDigit = true := toDigits_digit (n := m) (by simp [hcons])
    simp only [signText, scaledText, hcons]
    exact takeSign_digit hc _

theorem exponentOf_negative (k : Nat) :
    exponentOf ('e' :: '-' :: Nat.toDigits 10 k) = some (-(k : Int)) := by
  have hall : (Nat.toDigits 10 k).all Char.isDigit = true :=
    List.all_eq_true.mpr (fun c hc => toDigits_digit hc)
  have hvalue : natOf (Nat.toDigits 10 k) = k := Nat.ofDigitChars_ten_toDigits
  simp [exponentOf, takeSign, Nat.toDigits_ne_nil, hall, hvalue]

theorem decimalOf_signed (negative : Bool) (m k : Nat) :
    decimalOf (signText negative ++ scaledText m k) =
      some (if negative then -((m : Rat) / 10^k) else (m : Rat) / 10^k) := by
  have hdigits : ∀ c ∈ Nat.toDigits 10 m, c.isDigit = true := fun c hc => toDigits_digit hc
  have hwhole : (scaledText m k).takeWhile Char.isDigit = Nat.toDigits 10 m := by
    rw [scaledText, List.takeWhile_append_of_pos hdigits]
    simp
  have hbehind : (scaledText m k).dropWhile Char.isDigit = 'e' :: '-' :: Nat.toDigits 10 k := by
    rw [scaledText, List.dropWhile_append_of_pos hdigits]
    simp
  have hvalue : natOf (Nat.toDigits 10 m) = m := Nat.ofDigitChars_ten_toDigits
  simp [decimalOf, takeSign_signed, hwhole, hbehind, exponentOf_negative, hvalue,
    Nat.toDigits_ne_nil, div_eq_mul_inv]

/-- A dyadic number in full: `num / 2^k` is `num * 5^k` times a power of ten. -/
def exactText (v : Rat) : List Char :=
  signText (v < 0) ++ scaledText (v.num.natAbs * 5^Nat.log 2 v.den) (Nat.log 2 v.den)

theorem exactText_noSpace (v : Rat) : ∀ c ∈ exactText v, isSpace c = false := by
  intro c hc
  have hdigit : ∀ n, c ∈ Nat.toDigits 10 n → isSpace c = false :=
    fun n h => digit_not_space (toDigits_digit h)
  simp only [exactText, signText, scaledText, List.mem_append, List.mem_cons] at hc
  rcases hc with hc | hc | rfl | rfl | hc
  · split at hc
    · rw [List.mem_singleton.mp hc]
      rfl
    · cases hc
  · exact hdigit _ hc
  · rfl
  · rfl
  · exact hdigit _ hc

theorem den_of_dyadic {v : Rat} {n e : Int} (h : v = n * 2^e) : ∃ k, v.den = 2^k := by
  have hinteger : v = Rat.divInt (n * 2^(e + (-e).toNat).toNat) (2^(-e).toNat) := by
    have hpower : (2 : Rat)^e * 2^(-e).toNat = 2^(e + (-e).toNat).toNat := by
      rw [← zpow_natCast, ← zpow_natCast, ← zpow_add₀ (by norm_num : (2 : Rat) ≠ 0)]
      congr 1
      omega
    rw [Rat.divInt_eq_div, eq_div_iff (by push_cast; positivity), h]
    push_cast
    rw [mul_assoc, hpower]
  have hdvd : v.den ∣ 2^(-e).toNat := by
    have := Rat.den_dvd (n * 2^(e + (-e).toNat).toNat) (2^(-e).toNat)
    rw [← hinteger] at this
    exact_mod_cast this
  obtain ⟨k,_,hk⟩ := (Nat.dvd_prime_pow Nat.prime_two).mp hdvd
  exact ⟨k,hk⟩

theorem decimalOf_exactText {v : Rat} {k : Nat} (h : v.den = 2^k) :
    decimalOf (exactText v) = some v := by
  have hlog : Nat.log 2 v.den = k := by rw [h, Nat.log_pow (by norm_num)]
  have habs : ((v.num.natAbs * 5^k : Nat) : Rat) / 10^k = |v| := by
    have hvalue : |v| = (v.num.natAbs : Rat) / 2^k := by
      rw [Rat.abs_def, Rat.divInt_eq_div, h]
      push_cast
      rw [Nat.cast_natAbs, Int.cast_abs]
    have hten : (10 : Rat)^k = 2^k * 5^k := by
      rw [← mul_pow]
      norm_num
    rw [hvalue, hten]
    push_cast
    rw [mul_div_mul_right _ _ (by positivity)]
  rw [exactText, hlog, decimalOf_signed, habs]
  by_cases hneg : v < 0
  · simp [hneg, abs_of_neg hneg]
  · simp [hneg, abs_of_nonneg (not_lt.mp hneg)]

/-- Every value of a format has a text that reads back as it. -/
theorem real_exactText {f : Format} {bound : Nat} {v : Rat} (hv : f.nearest v = v)
    (hbound : |v| < 2^bound) : real f bound (exactText v) = some (v,[]) := by
  obtain ⟨k,hk⟩ := den_of_dyadic (v := v) hv.symm
  have hskip : (exactText v).dropWhile isSpace = exactText v := by
    cases htext : exactText v with
    | nil => rfl
    | cons c cs => simp [exactText_noSpace v c (by simp [htext])]
  have hscan : scan realChar {} (exactText v) = (exactText v,[]) := scan_signed _ _ _
  simp [real, extract, realOf, hskip, hscan, decimalOf_exactText hk, hv, hbound]

/-! ### Lines -/

theorem getlines_append {line : List Char} (h : '\n' ∉ line) (rest : List Char) :
    getlines (line ++ '\n' :: rest) = line :: getlines rest := by
  induction line with
  | nil => rfl
  | cons c line ih =>
    obtain ⟨hc,hline⟩ := not_or.mp (fun hmem => h (List.mem_cons.mpr hmem))
    rw [List.cons_append, getlines, if_neg (Ne.symm hc), ih hline]

def unlines (lines : List (List Char)) : List Char := lines.flatMap (fun line => line ++ ['\n'])

theorem unlines_cons (line : List Char) (lines : List (List Char)) :
    unlines (line :: lines) = line ++ '\n' :: unlines lines := by
  simp [unlines]

theorem length_le_unlines (lines : List (List Char)) : lines.length ≤ (unlines lines).length := by
  induction lines with
  | nil => rfl
  | cons line lines ih =>
    rw [unlines_cons, List.length_cons, List.length_append, List.length_cons]
    omega

theorem getlines_unlines {lines : List (List Char)} (h : ∀ line ∈ lines, '\n' ∉ line) :
    getlines (unlines lines) = lines := by
  induction lines with
  | nil => rfl
  | cons line lines ih =>
    obtain ⟨hline,hlines⟩ := List.forall_mem_cons.mp h
    rw [unlines_cons, getlines_append hline, ih hlines]

end Library.Scan
