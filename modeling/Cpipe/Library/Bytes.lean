import Mathlib.Data.List.Basic
import Mathlib.Data.Nat.Bitwise

namespace Library.Bytes

/-- A read outside a buffer: the index asked for and the size of the buffer. -/
structure Fault where
  index : Nat
  size : Nat
deriving DecidableEq, Repr

def byteAt (bytes : List UInt8) (index : Nat) : Except Fault UInt8 :=
  match bytes[index]? with
  | some b => .ok b
  | none => .error ⟨index,bytes.length⟩

theorem byteAt_ok {bytes : List UInt8} {index : Nat} (h : index < bytes.length) :
    byteAt bytes index = .ok bytes[index] := by
  simp [byteAt, h]

/-- A copy of `n` bytes from `offset` on. -/
def copyN (bytes : List UInt8) (offset n : Nat) : Except Fault (List UInt8) :=
  (List.range n).mapM (fun i => byteAt bytes (offset+i))

/-! ### Words -/

def join32 (a b c d : UInt8) : UInt32 :=
  (a.toUInt32 <<< 24) ||| (b.toUInt32 <<< 16) ||| (c.toUInt32 <<< 8) ||| d.toUInt32

/-- The word in four bytes that are known to be there. -/
def be32At (bytes : List UInt8) (offset : Nat) (h : offset+4 ≤ bytes.length) : UInt32 :=
  join32 bytes[offset] bytes[offset+1] bytes[offset+2] bytes[offset+3]

def be32 (v : UInt32) : List UInt8 :=
  [(v >>> 24).toUInt8,(v >>> 16).toUInt8,(v >>> 8).toUInt8,v.toUInt8]

def join64 (high low : UInt32) : UInt64 :=
  (high.toUInt64 <<< 32) ||| low.toUInt64

def be64 (v : UInt64) : List UInt8 :=
  be32 (v >>> 32).toUInt32 ++ be32 v.toUInt32

/-- The native layout of a word in memory. -/
def le32 (v : UInt32) : List UInt8 :=
  [v.toUInt8,(v >>> 8).toUInt8,(v >>> 16).toUInt8,(v >>> 24).toUInt8]

def le64 (v : UInt64) : List UInt8 :=
  le32 v.toUInt32 ++ le32 (v >>> 32).toUInt32

@[simp] theorem be32_length (v : UInt32) : (be32 v).length = 4 := rfl

private theorem or_shift {x y k : Nat} (h : y < 2 ^ k) : x <<< k ||| y = x * 2 ^ k + y := by
  rw [← Nat.shiftLeft_add_eq_or_of_lt h, Nat.shiftLeft_eq]

theorem join32_toNat (a b c d : UInt8) :
    (join32 a b c d).toNat = a.toNat*2^24 + b.toNat*2^16 + c.toNat*2^8 + d.toNat := by
  have ha := a.toNat_lt
  have hb := b.toNat_lt
  have hc := c.toNat_lt
  have hd := d.toNat_lt
  have h24 : a.toNat <<< 24 < 2 ^ 32 := by rw [Nat.shiftLeft_eq]; omega
  have h16 : b.toNat <<< 16 < 2 ^ 32 := by rw [Nat.shiftLeft_eq]; omega
  have h8 : c.toNat <<< 8 < 2 ^ 32 := by rw [Nat.shiftLeft_eq]; omega
  simp only [join32, UInt32.toNat_or, UInt32.toNat_shiftLeft, UInt8.toNat_toUInt32,
    UInt32.reduceToNat, Nat.reduceMod]
  rw [Nat.mod_eq_of_lt h24, Nat.mod_eq_of_lt h16, Nat.mod_eq_of_lt h8]
  rw [Nat.lor_assoc, Nat.lor_assoc, or_shift hd]
  rw [or_shift (x := b.toNat) (k := 16) (by omega), or_shift (x := a.toNat) (k := 24) (by omega)]
  omega

theorem join64_toNat (high low : UInt32) :
    (join64 high low).toNat = high.toNat*2^32 + low.toNat := by
  have hh := high.toNat_lt
  have hl := low.toNat_lt
  have h32 : high.toNat <<< 32 < 2 ^ 64 := by rw [Nat.shiftLeft_eq]; omega
  simp only [join64, UInt64.toNat_or, UInt64.toNat_shiftLeft, UInt32.toNat_toUInt64,
    UInt64.reduceToNat, Nat.reduceMod]
  rw [Nat.mod_eq_of_lt h32, or_shift hl]

/-- Four bytes are the encoding of the word they join to. -/
theorem be32_join32 (a b c d : UInt8) : be32 (join32 a b c d) = [a,b,c,d] := by
  have ha := a.toNat_lt
  have hb := b.toNat_lt
  have hc := c.toNat_lt
  have hd := d.toNat_lt
  simp only [be32, List.cons.injEq, and_true]
  refine ⟨?_,?_,?_,?_⟩ <;> apply UInt8.toNat_inj.mp <;>
    simp only [join32_toNat, UInt32.toNat_toUInt8, UInt32.toNat_shiftRight,
      Nat.shiftRight_eq_div_pow, UInt32.reduceToNat, Nat.reduceMod, Nat.reducePow] at * <;> omega

theorem be32_injective : Function.Injective be32 := by
  intro v w h
  have hv := v.toNat_lt
  have hw := w.toNat_lt
  simp only [be32, List.cons.injEq, and_true, ← UInt8.toNat_inj, UInt32.toNat_toUInt8,
    UInt32.toNat_shiftRight, Nat.shiftRight_eq_div_pow, UInt32.reduceToNat, Nat.reduceMod,
    Nat.reducePow] at h hv hw
  apply UInt32.toNat_inj.mp
  omega

theorem join32_be32 (v : UInt32) :
    join32 (v >>> 24).toUInt8 (v >>> 16).toUInt8 (v >>> 8).toUInt8 v.toUInt8 = v := by
  apply be32_injective
  rw [be32_join32]
  rfl

theorem be32_append_inj {a b : UInt32} {s t : List UInt8} (h : be32 a ++ s = be32 b ++ t) :
    a = b ∧ s = t := by
  obtain ⟨hword,htail⟩ := List.append_inj h ((be32_length a).trans (be32_length b).symm)
  exact ⟨be32_injective hword,htail⟩

theorem split64_join64 (high low : UInt32) :
    ((join64 high low >>> 32).toUInt32,(join64 high low).toUInt32) = (high,low) := by
  have hh := high.toNat_lt
  have hl := low.toNat_lt
  rw [Prod.mk.injEq, ← UInt32.toNat_inj, ← UInt32.toNat_inj]
  simp only [join64_toNat, UInt64.toNat_toUInt32, UInt64.toNat_shiftRight,
    Nat.shiftRight_eq_div_pow, UInt64.reduceToNat, Nat.reduceMod, Nat.reducePow] at *
  omega

theorem join64_split64 (v : UInt64) : join64 (v >>> 32).toUInt32 v.toUInt32 = v := by
  have hv := v.toNat_lt
  apply UInt64.toNat_inj.mp
  simp only [join64_toNat, UInt64.toNat_toUInt32, UInt64.toNat_shiftRight,
    Nat.shiftRight_eq_div_pow, UInt64.reduceToNat, Nat.reduceMod, Nat.reducePow] at *
  omega

theorem toNat_ofNat_lt {n : Nat} (h : n < 2^32) : (UInt32.ofNat n).toNat = n := by
  simpa using Nat.mod_eq_of_lt h

theorem ofNat_length_eq {α : Type} {xs : List α} {n : UInt32} (h : xs.length = n.toNat) :
    UInt32.ofNat xs.length = n := by
  rw [h]
  exact UInt32.ofNat_toNat

/-! ### A cursor over a buffer -/

structure Reader where
  bytes : List UInt8
  offset : Nat := 0
deriving DecidableEq

/-- Reads move the cursor and fault outside the buffer. -/
abbrev Read (α : Type) := StateT Reader (Except Fault) α

namespace Reader

def canRead (r : Reader) (size : Nat) : Bool :=
  r.offset ≤ r.bytes.length && size ≤ r.bytes.length - r.offset

/-- What the cursor has not passed yet. -/
def rest (r : Reader) : List UInt8 := r.bytes.drop r.offset

def skip (r : Reader) (n : Nat) : Reader := { r with offset := r.offset+n }

def Within (r : Reader) : Prop := r.offset ≤ r.bytes.length

variable {r : Reader} {n m : Nat}

@[simp] theorem rest_length : r.rest.length = r.bytes.length - r.offset := by
  simp [rest]

@[simp] theorem rest_skip : (r.skip n).rest = r.rest.drop n := by
  simp [rest, skip]

@[simp] theorem skip_skip : (r.skip n).skip m = r.skip (n+m) := by
  simp [skip, Nat.add_assoc]

@[simp] theorem rest_start (bytes : List UInt8) : (Reader.mk bytes 0).rest = bytes := rfl

theorem within_start (bytes : List UInt8) : (Reader.mk bytes 0).Within := Nat.zero_le _

theorem Within.skip (h : r.Within) (hn : n ≤ r.rest.length) : (r.skip n).Within := by
  simp only [rest_length] at hn
  simp only [Within, Reader.skip] at h ⊢
  omega

theorem Within.canRead_iff (h : r.Within) : r.canRead n = true ↔ n ≤ r.rest.length := by
  simp only [Within] at h
  simp [canRead, h]

end Reader

/-- Four bytes in the order they stand in. -/
def readQuad : Read (UInt8 × UInt8 × UInt8 × UInt8) := do
  let r ← get
  let a ← byteAt r.bytes r.offset
  let b ← byteAt r.bytes (r.offset+1)
  let c ← byteAt r.bytes (r.offset+2)
  let d ← byteAt r.bytes (r.offset+3)
  set (r.skip 4)
  return (a,b,c,d)

def readU32 : Read UInt32 := do
  let (a,b,c,d) ← readQuad
  return join32 a b c d

def readLE32 : Read UInt32 := do
  let (a,b,c,d) ← readQuad
  return join32 d c b a

def readU64 : Read UInt64 := do
  let high ← readU32
  let low ← readU32
  return join64 high low

def readLE64 : Read UInt64 := do
  let low ← readLE32
  let high ← readLE32
  return join64 high low

/-- A counted loop of reads. -/
def readMany (m : Read α) : Nat → Read (List α)
  | 0 => return []
  | k+1 => do
    let v ← m
    let vs ← readMany m k
    return v :: vs

theorem bind_read {m : Read α} {f : α → Read β} {r r' : Reader} {a : α} (h : m r = .ok (a,r')) :
    (m >>= f) r = f a r' := by
  simp only [bind, StateT.bind, h, Except.bind]

theorem map_read {m : Read α} {f : α → β} {r r' : Reader} {a : α} (h : m r = .ok (a,r')) :
    (f <$> m) r = .ok (f a,r') := by
  simp only [Functor.map, StateT.map, h, bind, Except.bind, pure, Except.pure]

theorem get_read (f : Reader → Read α) (r : Reader) : (get >>= f) r = f r r := rfl

theorem lift_read {x : Except Fault α} {a : α} (h : x = .ok a) (f : α → Read β) (r : Reader) :
    ((x : Read α) >>= f) r = f a r := by
  rw [h]
  rfl

theorem set_read (f : PUnit → Read α) (r r' : Reader) : (set r' >>= f) r = f ⟨⟩ r' := rfl

/-! ### Fixed-width formats -/

/-- `m` reads exactly the `n` bytes that `enc` writes: wherever `n` bytes are
left, it returns the one value whose encoding stands there. -/
structure Codec (n : Nat) (enc : α → List UInt8) (m : Read α) : Prop where
  length : ∀ v, (enc v).length = n
  inj : Function.Injective enc
  reads : ∀ r : Reader, n ≤ r.rest.length →
    ∃ v, r.rest = enc v ++ (r.skip n).rest ∧ m r = .ok (v,r.skip n)

namespace Codec

variable {α β : Type} {n p : Nat} {enc : α → List UInt8} {m : Read α}
  {enc' : β → List UInt8} {m' : Read β} {r : Reader}

theorem congr (c : Codec n enc m) {m₂ : Read α} (h : m₂ = m) : Codec n enc m₂ := h ▸ c

theorem read_append (c : Codec n enc m) {v : α} {tail : List UInt8}
    (h : r.rest = enc v ++ tail) : m r = .ok (v,r.skip n) ∧ (r.skip n).rest = tail := by
  have hn : n ≤ r.rest.length := by
    rw [h, List.length_append, c.length v]
    omega
  obtain ⟨w,hw,hm⟩ := c.reads r hn
  obtain ⟨hv,ht⟩ := List.append_inj (h.symm.trans hw) ((c.length v).trans (c.length w).symm)
  obtain rfl := c.inj hv
  exact ⟨hm,ht.symm⟩

theorem pair (c : Codec n enc m) (d : Codec p enc' m') :
    Codec (n+p) (fun v : α × β => enc v.1 ++ enc' v.2)
      (m >>= fun a => m' >>= fun b => pure (a,b)) where
  length := by
    intro v
    rw [List.length_append, c.length, d.length]
  inj := by
    intro v w h
    obtain ⟨h1,h2⟩ := List.append_inj h ((c.length _).trans (c.length _).symm)
    exact Prod.ext (c.inj h1) (d.inj h2)
  reads := by
    intro r hr
    obtain ⟨a,ha,hm⟩ := c.reads r (by omega)
    have hp : p ≤ (r.skip n).rest.length := by
      rw [Reader.rest_skip, List.length_drop]
      omega
    obtain ⟨b,hb,hm'⟩ := d.reads (r.skip n) hp
    rw [Reader.skip_skip] at hb hm'
    refine ⟨(a,b),?_,?_⟩
    · rw [ha, hb, List.append_assoc]
    · rw [bind_read hm, bind_read hm']
      rfl

/-- The same bytes under another name of the values. -/
theorem xmap (c : Codec n enc m) (f : α → β) (g : β → α) (hf : ∀ a, g (f a) = a)
    (hg : ∀ b, f (g b) = b) : Codec n (fun b => enc (g b)) (f <$> m) where
  length := fun b => c.length (g b)
  inj := by
    intro v w h
    rw [← hg v, ← hg w, c.inj h]
  reads := by
    intro r hr
    obtain ⟨a,ha,hm⟩ := c.reads r hr
    refine ⟨f a,?_,map_read hm⟩
    rw [hf a]
    exact ha

theorem length_flatMap (c : Codec n enc m) (vs : List α) :
    (vs.flatMap enc).length = vs.length*n := by
  induction vs with
  | nil => simp
  | cons v vs ih =>
    rw [List.flatMap_cons, List.length_append, c.length, ih, List.length_cons, Nat.succ_mul]
    omega

/-- A counted loop over a fixed-width format reads that many encodings. -/
theorem many (c : Codec n enc m) (k : Nat) :
    ∀ r : Reader, k*n ≤ r.rest.length →
      ∃ vs, vs.length = k ∧ r.rest = vs.flatMap enc ++ (r.skip (k*n)).rest ∧
        readMany m k r = .ok (vs,r.skip (k*n)) := by
  induction k with
  | zero =>
    intro r _
    refine ⟨[],rfl,?_,?_⟩
    · simp
    · rw [Nat.zero_mul]
      rfl
  | succ k ih =>
    intro r hr
    rw [Nat.succ_mul] at hr ⊢
    obtain ⟨v,hv,hm⟩ := c.reads r (by omega)
    have hk : k*n ≤ (r.skip n).rest.length := by
      rw [Reader.rest_skip, List.length_drop]
      omega
    obtain ⟨vs,hlen,hrest,hms⟩ := ih (r.skip n) hk
    rw [Reader.skip_skip, Nat.add_comm n] at hrest hms
    refine ⟨v :: vs,by rw [List.length_cons, hlen],?_,?_⟩
    · rw [hv, hrest, List.flatMap_cons, List.append_assoc]
    · rw [readMany, bind_read hm, bind_read hms]
      rfl

theorem flatMap_inj (c : Codec n enc m) :
    ∀ {vs ws : List α}, vs.length = ws.length → vs.flatMap enc = ws.flatMap enc → vs = ws := by
  intro vs
  induction vs with
  | nil =>
    intro ws hlen _
    exact (List.length_eq_zero_iff.mp hlen.symm).symm
  | cons v vs ih =>
    intro ws hlen h
    cases ws with
    | nil => cases hlen
    | cons w ws =>
      simp only [List.flatMap_cons] at h
      obtain ⟨h1,h2⟩ := List.append_inj h ((c.length v).trans (c.length w).symm)
      rw [c.inj h1, ih (Nat.succ.inj hlen) h2]

theorem many_append (c : Codec n enc m) {vs : List α} {tail : List UInt8}
    (h : r.rest = vs.flatMap enc ++ tail) :
    readMany m vs.length r = .ok (vs,r.skip (vs.length*n)) ∧
      (r.skip (vs.length*n)).rest = tail := by
  have hn : vs.length*n ≤ r.rest.length := by
    rw [h, List.length_append, c.length_flatMap]
    omega
  obtain ⟨ws,hlen,hrest,hm⟩ := c.many vs.length r hn
  have he : (vs.flatMap enc).length = (ws.flatMap enc).length := by
    rw [c.length_flatMap, c.length_flatMap, hlen]
  obtain ⟨h1,h2⟩ := List.append_inj (h.symm.trans hrest) he
  obtain rfl := c.flatMap_inj hlen.symm h1
  exact ⟨hm,h2.symm⟩

end Codec

theorem codecQuad : Codec 4 (fun q : UInt8 × UInt8 × UInt8 × UInt8 => [q.1,q.2.1,q.2.2.1,q.2.2.2])
    readQuad where
  length := fun _ => rfl
  inj := by
    intro p q h
    simp only [List.cons.injEq, and_true] at h
    exact Prod.ext h.1 (Prod.ext h.2.1 (Prod.ext h.2.2.1 h.2.2.2))
  reads := by
    intro r hr
    rw [Reader.rest_length] at hr
    have h0 : r.offset < r.bytes.length := by omega
    have h1 : r.offset+1 < r.bytes.length := by omega
    have h2 : r.offset+2 < r.bytes.length := by omega
    have h3 : r.offset+3 < r.bytes.length := by omega
    refine ⟨(r.bytes[r.offset],r.bytes[r.offset+1],r.bytes[r.offset+2],r.bytes[r.offset+3]),?_,?_⟩
    · rw [Reader.rest_skip, Reader.rest, List.drop_drop, List.drop_eq_getElem_cons h0,
        List.drop_eq_getElem_cons h1, List.drop_eq_getElem_cons h2, List.drop_eq_getElem_cons h3]
      rfl
    · rw [readQuad, get_read, lift_read (byteAt_ok h0), lift_read (byteAt_ok h1),
        lift_read (byteAt_ok h2), lift_read (byteAt_ok h3), set_read]
      rfl

theorem codecU32 : Codec 4 be32 readU32 := by
  have c := codecQuad.xmap (fun q => join32 q.1 q.2.1 q.2.2.1 q.2.2.2)
    (fun v => ((v >>> 24).toUInt8,(v >>> 16).toUInt8,(v >>> 8).toUInt8,v.toUInt8))
    (by
      intro (a,b,c,d)
      have h := be32_join32 a b c d
      simp only [be32, List.cons.injEq, and_true] at h
      simp only [h])
    join32_be32
  exact c.congr (by simp [readU32])

theorem codecLE32 : Codec 4 le32 readLE32 := by
  have c := codecQuad.xmap (fun q => join32 q.2.2.2 q.2.2.1 q.2.1 q.1)
    (fun v => (v.toUInt8,(v >>> 8).toUInt8,(v >>> 16).toUInt8,(v >>> 24).toUInt8))
    (by
      intro (a,b,c,d)
      have h := be32_join32 d c b a
      simp only [be32, List.cons.injEq, and_true] at h
      simp only [h])
    join32_be32
  exact c.congr (by simp [readLE32])

theorem exists_count {bytes : List UInt8} (h : ¬ bytes.length < 4) :
    ∃ count tail, bytes = be32 count ++ tail := by
  obtain ⟨count,hc,_⟩ := codecU32.reads { bytes := bytes } (by
    rw [Reader.rest_start]
    omega)
  exact ⟨count,_,hc⟩

theorem codecU64 : Codec 8 be64 readU64 := by
  have c := (codecU32.pair codecU32).xmap (fun v => join64 v.1 v.2)
    (fun v => ((v >>> 32).toUInt32,v.toUInt32)) (fun v => split64_join64 v.1 v.2) join64_split64
  exact c.congr (by simp [readU64])

theorem codecLE64 : Codec 8 le64 readLE64 := by
  have c := (codecLE32.pair codecLE32).xmap (fun v => join64 v.2 v.1)
    (fun v => (v.toUInt32,(v >>> 32).toUInt32))
    (by
      intro (low,high)
      have h := split64_join64 high low
      simp only [Prod.mk.injEq] at h
      simp only [h])
    join64_split64
  exact c.congr (by simp [readLE64])

/-! ### Formats with padding -/

/-- `m` reads back the `n` bytes that `enc` writes. -/
structure Loads (n : Nat) (enc : α → List UInt8) (m : Read α) : Prop where
  length : ∀ v, (enc v).length = n
  read : ∀ {r : Reader} {v : α} {tail : List UInt8}, r.rest = enc v ++ tail →
    m r = .ok (v,r.skip n) ∧ (r.skip n).rest = tail

theorem Codec.loads {n : Nat} {enc : α → List UInt8} {m : Read α} (c : Codec n enc m) :
    Loads n enc m :=
  ⟨c.length,fun h => c.read_append h⟩

namespace Loads

variable {α : Type} {n : Nat} {enc : α → List UInt8} {m : Read α}

theorem length_flatMap (l : Loads n enc m) (vs : List α) : (vs.flatMap enc).length = vs.length*n := by
  simp [List.length_flatMap, l.length]

theorem many (l : Loads n enc m) :
    ∀ {vs : List α} {r : Reader} {tail : List UInt8}, r.rest = vs.flatMap enc ++ tail →
      readMany m vs.length r = .ok (vs,r.skip (vs.length*n)) ∧
        (r.skip (vs.length*n)).rest = tail := by
  intro vs
  induction vs with
  | nil =>
    intro r tail h
    refine ⟨?_,by simpa using h⟩
    rw [List.length_nil, Nat.zero_mul]
    rfl
  | cons v vs ih =>
    intro r tail h
    rw [List.flatMap_cons, List.append_assoc] at h
    obtain ⟨hv,hrest⟩ := l.read h
    obtain ⟨hvs,htail⟩ := ih hrest
    have hskip : (r.skip n).skip (vs.length*n) = r.skip ((v :: vs).length*n) := by
      rw [Reader.skip_skip, List.length_cons, Nat.succ_mul, Nat.add_comm]
    rw [hskip] at hvs htail
    refine ⟨?_,htail⟩
    rw [List.length_cons, readMany, bind_read hv, bind_read hvs]
    rfl

/-- An element of a table, by its index. -/
theorem element (l : Loads n enc m) {bytes tail : List UInt8} {start : Nat} {vs : List α}
    (h : bytes.drop start = vs.flatMap enc ++ tail) {k : Nat} (hk : k < vs.length) :
    m.run' { bytes := bytes, offset := start + k*n } = .ok vs[k] := by
  have hdrop : (Reader.mk bytes (start + k*n)).rest = enc vs[k] ++
      ((vs.drop (k + 1)).flatMap enc ++ tail) := by
    have hprefix : vs.flatMap enc = (vs.take k).flatMap enc ++ (vs.drop k).flatMap enc := by
      rw [← List.flatMap_append, List.take_append_drop]
    have hlen : ((vs.take k).flatMap enc).length = k*n := by
      rw [l.length_flatMap, List.length_take, Nat.min_eq_left (Nat.le_of_lt hk)]
    rw [Reader.rest, ← List.drop_drop, h, hprefix, List.append_assoc, ← hlen, List.drop_left,
      List.drop_eq_getElem_cons hk, List.flatMap_cons, List.append_assoc]
  rw [StateT.run', (l.read hdrop).1]
  rfl

/-- A slice of a table. -/
theorem slice (l : Loads n enc m) {bytes tail : List UInt8} {start : Nat} {vs : List α}
    (h : bytes.drop start = vs.flatMap enc ++ tail) {first count : Nat}
    (hk : first + count ≤ vs.length) :
    (List.range count).mapM (fun i =>
      m.run' { bytes := bytes, offset := start + (first + i)*n }) =
      .ok ((vs.drop first).take count) := by
  induction count with
  | zero => simp [pure, Except.pure]
  | succ count ih =>
    rw [List.range_succ, List.mapM_append, ih (by omega)]
    have hlast := l.element h (k := first + count) (by omega)
    simp only [List.mapM_cons, List.mapM_nil, hlast, bind, Except.bind, pure, Except.pure]
    rw [List.take_add_one, List.getElem?_drop, List.getElem?_eq_getElem (by omega)]
    rfl

end Loads

/-! ### Whole buffers -/

/-- A parser of a whole buffer never faults and accepts exactly the encodings
of the valid values. -/
def Decodes (valid : α → Prop) (enc : α → List UInt8)
    (parse : List UInt8 → Except Fault (Option α)) : Prop :=
  ∀ bytes, ∃ found, parse bytes = .ok found ∧ ∀ v, found = some v ↔ valid v ∧ bytes = enc v

theorem Decodes.intro {valid : α → Prop} {enc : α → List UInt8}
    {parse : List UInt8 → Except Fault (Option α)}
    (sound : ∀ bytes, ∃ found, parse bytes = .ok found ∧
      ∀ v, found = some v → valid v ∧ bytes = enc v)
    (complete : ∀ v, valid v → parse (enc v) = .ok (some v)) : Decodes valid enc parse := by
  intro bytes
  obtain ⟨found,hp,hs⟩ := sound bytes
  refine ⟨found,hp,fun v => ⟨hs v,?_⟩⟩
  intro ⟨hv,he⟩
  rw [he, complete v hv] at hp
  exact (Except.ok.inj hp).symm

/-- A fixed-width format behind a check of the exact size. -/
theorem Codec.decodes {n : Nat} {enc : α → List UInt8} {m : Read α} (c : Codec n enc m)
    {parse : List UInt8 → Read (Option α)}
    (h : ∀ bytes, parse bytes = if bytes.length ≠ n then pure none else some <$> m) :
    Decodes (fun _ => True) enc (fun bytes => (parse bytes).run' { bytes := bytes }) := by
  intro bytes
  by_cases hn : bytes.length = n
  · obtain ⟨v,hv,hm⟩ := c.reads { bytes := bytes } (by simp [hn])
    have hend : (Reader.skip { bytes := bytes } n).rest = [] := by
      simp [hn]
    rw [hend, List.append_nil, Reader.rest_start] at hv
    refine ⟨some v,?_,?_⟩
    · simp only [h, hn, ne_eq, not_true_eq_false, if_false, StateT.run', map_read hm]
      rfl
    · intro w
      rw [Option.some.injEq, hv]
      simp [c.inj.eq_iff]
  · refine ⟨none,?_,?_⟩
    · simp only [h, hn, ne_eq, not_false_eq_true, if_true]
      rfl
    · intro w
      simp only [reduceCtorEq, true_and, false_iff]
      intro hw
      rw [hw] at hn
      exact hn (c.length w)

/-! ### Runs without a fault -/

def Safe (x : Except Fault α) : Prop := ∃ a, x = .ok a

namespace Safe

variable {α β : Type} {x : Except Fault α}

theorem pure (a : α) : Safe (Pure.pure a : Except Fault α) := ⟨a,rfl⟩

theorem bind {f : α → Except Fault β} (hx : Safe x) (hf : ∀ a, Safe (f a)) : Safe (x >>= f) := by
  obtain ⟨a,rfl⟩ := hx
  exact hf a

theorem bind_ok {f : α → Except Fault β} {a : α} (hx : x = .ok a) :
    Safe (x >>= f) ↔ Safe (f a) := by
  rw [hx]
  exact Iff.rfl

theorem map {f : α → β} (hx : Safe x) : Safe (f <$> x) := by
  obtain ⟨a,rfl⟩ := hx
  exact ⟨f a,rfl⟩

theorem mapM {f : α → Except Fault β} {xs : List α} (h : ∀ a ∈ xs, Safe (f a)) :
    Safe (xs.mapM f) := by
  induction xs with
  | nil => exact ⟨[],rfl⟩
  | cons a xs ih =>
    rw [List.mapM_cons]
    exact .bind (h a List.mem_cons_self) fun _ =>
      .bind (ih fun b hb => h b (List.mem_cons_of_mem a hb)) fun _ => .pure _

theorem ite {c : Prop} [Decidable c] {y : Except Fault α} (hx : c → Safe x) (hy : ¬ c → Safe y) :
    Safe (if c then x else y) := by
  split
  · exact hx ‹c›
  · exact hy ‹¬ c›

end Safe

theorem safe_byteAt_iff {bytes : List UInt8} {index : Nat} :
    Safe (byteAt bytes index) ↔ index < bytes.length := by
  constructor
  · intro ⟨b,hb⟩
    by_contra h
    rw [byteAt, List.getElem?_eq_none (by omega)] at hb
    cases hb
  · intro h
    exact ⟨_,byteAt_ok h⟩

theorem safe_copyN {bytes : List UInt8} {offset n : Nat} (h : offset+n ≤ bytes.length) :
    Safe (copyN bytes offset n) := by
  apply Safe.mapM
  intro i hi
  rw [List.mem_range] at hi
  exact safe_byteAt_iff.mpr (by omega)

end Library.Bytes
