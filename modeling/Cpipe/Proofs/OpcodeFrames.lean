import Cpipe.Library.Bytes

namespace Cpipe.Ingest
open Library.Bytes

/-- An opcode as the container of both opcode lists frames it: its header words
and its parameter bytes, whose number fits the header's size word. -/
structure Frame where
  id : UInt32
  version : UInt32
  flags : UInt32
  params : List UInt8
  fits : params.length < 2^32
deriving DecidableEq

namespace Frame

def size (f : Frame) : UInt32 := UInt32.ofNat f.params.length

def encode (f : Frame) : List UInt8 :=
  be32 f.id ++ (be32 f.version ++ (be32 f.flags ++ (be32 f.size ++ f.params)))

/-- Bit 0 of the flags word. -/
def optional (f : Frame) : Bool := f.flags &&& 1 != 0

@[simp] theorem size_toNat (f : Frame) : f.size.toNat = f.params.length := by
  simpa [size] using Nat.mod_eq_of_lt f.fits

@[simp] theorem encode_length (f : Frame) : f.encode.length = 16 + f.params.length := by
  simp only [encode, List.length_append, be32_length]
  omega

/-- The encoding of a frame ends where its own size word says. -/
theorem encode_append_inj {f g : Frame} {s t : List UInt8}
    (h : f.encode ++ s = g.encode ++ t) : f = g ∧ s = t := by
  simp only [encode, List.append_assoc] at h
  obtain ⟨hid,h⟩ := be32_append_inj h
  obtain ⟨hversion,h⟩ := be32_append_inj h
  obtain ⟨hflags,h⟩ := be32_append_inj h
  obtain ⟨hsize,h⟩ := be32_append_inj h
  have hs : f.params.length = g.params.length := by
    rw [← size_toNat f, ← size_toNat g, hsize]
  obtain ⟨hparams,htail⟩ := List.append_inj h hs
  refine ⟨?_,htail⟩
  cases f
  cases g
  simp only [Frame.mk.injEq]
  exact ⟨hid,hversion,hflags,hparams⟩

end Frame

variable {r : Reader}

/-- The four words of a header, one read after the other. -/
structure HeaderAt (r : Reader) (id version flags size : UInt32) : Prop where
  bytes : r.rest = be32 id ++ (be32 version ++ (be32 flags ++ (be32 size ++ (r.skip 16).rest)))
  read_id : readU32 r = .ok (id,r.skip 4)
  read_version : readU32 (r.skip 4) = .ok (version,r.skip 8)
  read_flags : readU32 (r.skip 8) = .ok (flags,r.skip 12)
  read_size : readU32 (r.skip 12) = .ok (size,r.skip 16)

theorem header_at (h : 16 ≤ r.rest.length) :
    ∃ id version flags size, HeaderAt r id version flags size := by
  have hlen : ∀ n, (r.skip n).rest.length = r.rest.length - n := by
    intro n
    rw [Reader.rest_skip, List.length_drop]
  obtain ⟨a,ha,ma⟩ := codecU32.reads r (by omega)
  obtain ⟨b,hb,mb⟩ := codecU32.reads (r.skip 4) (by rw [hlen]; omega)
  obtain ⟨c,hc,mc⟩ := codecU32.reads (r.skip 8) (by rw [hlen]; omega)
  obtain ⟨d,hd,md⟩ := codecU32.reads (r.skip 12) (by rw [hlen]; omega)
  rw [Reader.skip_skip] at hb mb hc mc hd md
  exact ⟨a,b,c,d,⟨by rw [← hd, ← hc, ← hb, ← ha],ma,mb,mc,md⟩⟩

theorem HeaderAt.of_bytes {id version flags size : UInt32} {tail : List UInt8}
    (h : r.rest = be32 id ++ (be32 version ++ (be32 flags ++ (be32 size ++ tail)))) :
    HeaderAt r id version flags size ∧ (r.skip 16).rest = tail := by
  obtain ⟨ma,ha⟩ := codecU32.read_append h
  obtain ⟨mb,hb⟩ := codecU32.read_append ha
  obtain ⟨mc,hc⟩ := codecU32.read_append hb
  obtain ⟨md,hd⟩ := codecU32.read_append hc
  simp only [Reader.skip_skip, Nat.reduceAdd] at mb mc md hd
  refine ⟨⟨?_,ma,mb,mc,md⟩,hd⟩
  rw [h, hd]

/-- What a parser of the container can meet at its cursor. -/
inductive FrameAt (r : Reader) : Prop
  | short (h : r.rest.length < 16)
  | cut (id version flags size : UInt32) (header : HeaderAt r id version flags size)
      (h : (r.skip 16).rest.length < size.toNat)
  | frame (f : Frame) (h : r.rest = f.encode ++ (r.skip (16 + f.params.length)).rest)

theorem frame_at (r : Reader) : FrameAt r := by
  by_cases h16 : 16 ≤ r.rest.length
  · obtain ⟨id,version,flags,size,header⟩ := header_at h16
    by_cases hs : size.toNat ≤ (r.skip 16).rest.length
    · have hlen : ((r.skip 16).rest.take size.toNat).length = size.toNat := by
        rw [List.length_take]
        omega
      let f : Frame := ⟨id,version,flags,(r.skip 16).rest.take size.toNat,by
        rw [hlen]
        exact size.toNat_lt⟩
      have hf : f.size = size := by
        apply UInt32.toNat_inj.mp
        rw [Frame.size_toNat]
        exact hlen
      refine .frame f ?_
      have hcut : (r.skip 16).rest = f.params ++ (r.skip (16 + f.params.length)).rest := by
        have hp : f.params.length = size.toNat := hlen
        rw [hp, ← Reader.skip_skip, Reader.rest_skip (n := size.toNat)]
        exact (List.take_append_drop _ _).symm
      rw [header.bytes]
      simp only [Frame.encode, hf, List.append_assoc]
      rw [← hcut]
    · exact .cut id version flags size header (by omega)
  · exact .short (by omega)

/-- The header words of a frame and the slice its parameters are cut from. -/
theorem Frame.at_cursor {f : Frame} {tail : List UInt8} (h : r.rest = f.encode ++ tail) :
    HeaderAt r f.id f.version f.flags f.size ∧ (r.skip 16).rest = f.params ++ tail ∧
      (r.skip (16 + f.params.length)).rest = tail := by
  simp only [Frame.encode, List.append_assoc] at h
  obtain ⟨header,hrest⟩ := HeaderAt.of_bytes h
  refine ⟨header,hrest,?_⟩
  rw [← Reader.skip_skip, Reader.rest_skip, hrest]
  simp

/-! ### Parsers of the container

Both list parsers check and read the container in the same steps; they differ in
the texts of their errors and in what they make of a complete frame. -/

/-- One round: the header, the bounds of the parameters, then `body`. -/
def framed (short cut : β) (body : UInt32 → UInt32 → UInt32 → List UInt8 → Read β) :
    Read β := do
  let reader ← get
  if !reader.canRead 16 then
    return short
  else
    let id ← readU32
    let version ← readU32
    let flags ← readU32
    let size ← readU32
    let reader ← get
    if !reader.canRead size.toNat then
      return cut
    else
      let params := (reader.bytes.drop reader.offset).take size.toNat
      set (reader.skip size.toNat)
      body id version flags params

/-- The count in front of the rounds. -/
def counted (empty short : β) (loop : Nat → Read β) (bytes : List UInt8) : Read β :=
  if bytes = [] then
    return empty
  else do
    let reader ← get
    if !reader.canRead 4 then
      return short
    else
      let count ← readU32
      loop count.toNat

section
variable {β : Type} {empty short cut : β}
  {body : UInt32 → UInt32 → UInt32 → List UInt8 → Read β} {loop : Nat → Read β}
  {bytes tail : List UInt8}

theorem framed_short (hw : r.Within) (h : r.rest.length < 16) :
    framed short cut body r = .ok (short,r) := by
  have hc : r.canRead 16 = false := by
    rw [← Bool.not_eq_true, hw.canRead_iff]
    omega
  rw [framed, get_read, hc]
  rfl

theorem framed_cut (hw : r.Within) {id version flags size : UInt32}
    (header : HeaderAt r id version flags size) (h : (r.skip 16).rest.length < size.toNat) :
    framed short cut body r = .ok (cut,r.skip 16) := by
  have h16 : 16 ≤ r.rest.length := by
    rw [header.bytes]
    simp only [List.length_append, be32_length]
    omega
  have hc : r.canRead 16 = true := hw.canRead_iff.mpr h16
  have hc' : (r.skip 16).canRead size.toNat = false := by
    rw [← Bool.not_eq_true, (hw.skip h16).canRead_iff]
    omega
  rw [framed, get_read, hc]
  simp only [Bool.not_true, Bool.false_eq_true, if_false]
  rw [bind_read header.read_id, bind_read header.read_version, bind_read header.read_flags,
    bind_read header.read_size, get_read, hc']
  rfl

theorem framed_frame (hw : r.Within) {f : Frame} (h : r.rest = f.encode ++ tail) :
    framed short cut body r =
      body f.id f.version f.flags f.params (r.skip (16 + f.params.length)) := by
  obtain ⟨header,hrest,_⟩ := f.at_cursor h
  have h16 : 16 ≤ r.rest.length := by
    rw [h, List.length_append, f.encode_length]
    omega
  have hc : r.canRead 16 = true := hw.canRead_iff.mpr h16
  have hc' : (r.skip 16).canRead f.size.toNat = true := by
    rw [(hw.skip h16).canRead_iff, hrest, List.length_append, f.size_toNat]
    omega
  have hp : ((r.skip 16).bytes.drop (r.skip 16).offset).take f.size.toNat = f.params := by
    have hdrop : (r.skip 16).bytes.drop (r.skip 16).offset = f.params ++ tail := hrest
    rw [hdrop, f.size_toNat, List.take_left]
  rw [framed, get_read, hc]
  simp only [Bool.not_true, Bool.false_eq_true, if_false]
  rw [bind_read header.read_id, bind_read header.read_version, bind_read header.read_flags,
    bind_read header.read_size, get_read, hc']
  simp only [Bool.not_true, Bool.false_eq_true, if_false, hp]
  rw [set_read, Reader.skip_skip, f.size_toNat]

/-- The cursor behind a frame is still inside the buffer. -/
theorem within_frame (hw : r.Within) {f : Frame} (h : r.rest = f.encode ++ tail) :
    (r.skip (16 + f.params.length)).Within := by
  apply hw.skip
  rw [h, List.length_append, f.encode_length]
  omega

theorem counted_short (h : bytes ≠ []) (h4 : bytes.length < 4) :
    counted empty short loop bytes { bytes := bytes } = .ok (short,{ bytes := bytes }) := by
  have hc : Reader.canRead { bytes := bytes } 4 = false := by
    rw [← Bool.not_eq_true, (Reader.within_start bytes).canRead_iff, Reader.rest_start]
    omega
  rw [counted, if_neg h, get_read, hc]
  rfl

theorem counted_count {count : UInt32} (h : bytes = be32 count ++ tail) :
    counted empty short loop bytes { bytes := bytes } =
        loop count.toNat (Reader.skip { bytes := bytes } 4) ∧
      (Reader.skip { bytes := bytes } 4).rest = tail ∧
      (Reader.skip { bytes := bytes } 4).Within := by
  have hne : bytes ≠ [] := by
    intro he
    rw [he] at h
    cases h
  have h4 : 4 ≤ (Reader.mk bytes 0).rest.length := by
    rw [Reader.rest_start, h, List.length_append, be32_length]
    omega
  have hc : Reader.canRead { bytes := bytes } 4 = true :=
    (Reader.within_start bytes).canRead_iff.mpr h4
  obtain ⟨mc,hrest⟩ := codecU32.read_append (r := { bytes := bytes }) h
  refine ⟨?_,hrest,(Reader.within_start bytes).skip h4⟩
  rw [counted, if_neg hne, get_read, hc]
  simp only [Bool.not_true, Bool.false_eq_true, if_false]
  rw [bind_read mc]

end

/-! ### Runs over the frames of a list -/

/-- A frame with what a parser appends for it. -/
abbrev Item (ε : Type) := Frame × List ε

def itemBytes (items : List (Item ε)) : List UInt8 := items.flatMap (fun p => p.1.encode)

def itemValues (items : List (Item ε)) : List ε := items.flatMap Prod.snd

/-- What the loop of a list parser does in one round, by what stands at the
cursor. A frame is judged on its own: it is refused, or something is appended. -/
structure Rounds (short cut : β) (judge : Frame → Except Fault (Except β (List ε)))
    (finish : List ε → β) (loop : Nat → List ε → Read β) : Prop where
  total : ∀ f, ∃ v, judge f = .ok v
  zero : ∀ acc r, loop 0 acc r = .ok (finish acc,r)
  short : ∀ k acc r, Reader.Within r → r.rest.length < 16 → loop (k+1) acc r = .ok (short,r)
  cut : ∀ k acc r id version flags size, Reader.Within r → HeaderAt r id version flags size →
    (r.skip 16).rest.length < size.toNat → loop (k+1) acc r = .ok (cut,r.skip 16)
  refused : ∀ k acc r f tail e, Reader.Within r → r.rest = f.encode ++ tail →
    judge f = .ok (.error e) → loop (k+1) acc r = .ok (e,r.skip (16 + f.params.length))
  appended : ∀ k acc r f tail values, Reader.Within r → r.rest = f.encode ++ tail →
    judge f = .ok (.ok values) →
      loop (k+1) acc r = loop k (acc ++ values) (r.skip (16 + f.params.length))

section
variable {β ε : Type} {short cut : β} {judge : Frame → Except Fault (Except β (List ε))}
  {finish : List ε → β} {loop : Nat → List ε → Read β} {items : List (Item ε)}
  {tail : List UInt8}

/-- What is appended for a frame that is judged to be `d`. -/
def appending (judge : Frame → Except Fault (Except β δ)) (put : δ → List ε) (f : Frame) :
    Except Fault (Except β (List ε)) :=
  (judge f).map (Except.map put)

theorem appending_ok {δ : Type} {judge : Frame → Except Fault (Except β δ)} {put : δ → List ε}
    {f : Frame} {values : List ε} (h : appending judge put f = .ok (.ok values)) :
    ∃ d, judge f = .ok (.ok d) ∧ values = put d := by
  unfold appending at h
  cases hj : judge f with
  | error e => rw [hj] at h; cases h
  | ok x =>
    rw [hj] at h
    cases x with
    | error e => cases h
    | ok d => cases h; exact ⟨d,rfl,rfl⟩

theorem appending_error {δ : Type} {judge : Frame → Except Fault (Except β δ)} {put : δ → List ε}
    {f : Frame} {e : β} (h : appending judge put f = .ok (.error e)) :
    judge f = .ok (.error e) := by
  unfold appending at h
  cases hj : judge f with
  | error e => rw [hj] at h; cases h
  | ok x =>
    rw [hj] at h
    cases x with
    | error e => cases h; rfl
    | ok d => cases h

/-- A loop whose body is a framed step. -/
theorem Rounds.of_framed {δ : Type} {judge : Frame → Except Fault (Except β δ)}
    {put : δ → List ε} {step : Read (Except β δ)}
    {body : UInt32 → UInt32 → UInt32 → List UInt8 → Read (Except β δ)}
    (total : ∀ f, ∃ x, judge f = .ok x) (framed_eq : step = framed (.error short) (.error cut) body)
    (frame : ∀ r f tail, Reader.Within r → r.rest = f.encode ++ tail →
      step r = (judge f).map (fun x => (x,r.skip (16 + f.params.length))))
    (zero : ∀ acc r, loop 0 acc r = .ok (finish acc,r))
    (succ : ∀ k acc, loop (k+1) acc = step >>= fun x =>
      match x with
      | .error e => pure e
      | .ok d => loop k (acc ++ put d)) :
    Rounds short cut (appending judge put) finish loop where
  total := by
    intro f
    obtain ⟨x,hx⟩ := total f
    exact ⟨x.map put,by rw [appending, hx]; rfl⟩
  zero := zero
  short := by
    intro k acc r hw hs
    rw [succ, framed_eq, bind_read (framed_short hw hs)]
    rfl
  cut := by
    intro k acc r id version flags size hw header hs
    rw [succ, framed_eq, bind_read (framed_cut hw header hs)]
    rfl
  refused := by
    intro k acc r f tail e hw hrest hv
    have hp : step r = .ok (.error e,r.skip (16 + f.params.length)) := by
      rw [frame r f tail hw hrest, appending_error hv]
      rfl
    rw [succ, bind_read hp]
    rfl
  appended := by
    intro k acc r f tail values hw hrest hv
    obtain ⟨d,hj,rfl⟩ := appending_ok hv
    have hp : step r = .ok (.ok d,r.skip (16 + f.params.length)) := by
      rw [frame r f tail hw hrest, hj]
      rfl
    rw [succ, bind_read hp]

/-- The parser appends for each of these frames what stands beside it. -/
def Judged (judge : Frame → Except Fault (Except β (List ε))) (items : List (Item ε)) : Prop :=
  ∀ p ∈ items, judge p.1 = .ok (.ok p.2)

/-- The loop walks over the frames that it accepts. -/
theorem Rounds.walk (h : Rounds short cut judge finish loop) (hj : Judged judge items)
    (hw : r.Within) (hrest : r.rest = itemBytes items ++ tail) (k : Nat) (acc : List ε) :
    ∃ n, loop (items.length + k) acc r = loop k (acc ++ itemValues items) (r.skip n) ∧
      (r.skip n).Within ∧ (r.skip n).rest = tail := by
  induction items generalizing r acc with
  | nil =>
    refine ⟨0,?_,?_,?_⟩
    · simp [itemValues, Reader.skip]
    · simpa [Reader.skip] using hw
    · simpa [itemBytes] using hrest
  | cons p items ih =>
    rw [itemBytes, List.flatMap_cons, List.append_assoc] at hrest
    have hw' := within_frame hw hrest
    obtain ⟨_,_,hnext⟩ := Frame.at_cursor hrest
    obtain ⟨n,hn,hwn,ht⟩ := ih (fun q hq => hj q (by simp [hq])) hw' hnext (acc ++ p.2)
    rw [Reader.skip_skip] at hn hwn ht
    refine ⟨_,?_,hwn,ht⟩
    rw [List.append_assoc] at hn
    rw [itemValues, List.flatMap_cons, ← itemValues, ← hn, List.length_cons, Nat.add_right_comm]
    exact h.appended _ acc r p.1 _ p.2 hw hrest (hj p (by simp))

/-- How a loop can end that began at the cursor with `k` rounds to go. -/
inductive Ended (short cut : β) (judge : Frame → Except Fault (Except β (List ε)))
    (finish : List ε → β) (k : Nat) (acc : List ε) (r : Reader) : β → Reader → Prop
  | done (items : List (Item ε)) (hj : Judged judge items) (hk : items.length = k) (r' : Reader)
      (hr : r' = r.skip (itemBytes items).length) (h : r.rest = itemBytes items ++ r'.rest) :
      Ended short cut judge finish k acc r (finish (acc ++ itemValues items)) r'
  | refused (items : List (Item ε)) (hj : Judged judge items) (hk : items.length < k) (f : Frame)
      (e : β) (hf : judge f = .ok (.error e)) (tail : List UInt8)
      (h : r.rest = itemBytes items ++ (f.encode ++ tail)) (r' : Reader) :
      Ended short cut judge finish k acc r e r'
  | short (r' : Reader) : Ended short cut judge finish k acc r short r'
  | cut (r' : Reader) : Ended short cut judge finish k acc r cut r'

/-- One more accepted frame in front. -/
theorem Ended.cons {k : Nat} {acc : List ε} {f : Frame} {values : List ε}
    (hf : judge f = .ok (.ok values))
    (h : r.rest = f.encode ++ (r.skip (16 + f.params.length)).rest) {result : β} {r' : Reader}
    (he : Ended short cut judge finish k (acc ++ values) (r.skip (16 + f.params.length)) result
      r') :
    Ended short cut judge finish (k+1) acc r result r' := by
  have hall : ∀ {items : List (Item ε)}, Judged judge items →
      Judged judge ((f,values) :: items) := by
    intro items hj p hp
    rcases List.mem_cons.mp hp with rfl | hp
    · exact hf
    · exact hj p hp
  have hbytes : ∀ items : List (Item ε), itemBytes ((f,values) :: items) =
      f.encode ++ itemBytes items := by
    intro items
    rw [itemBytes, List.flatMap_cons, itemBytes]
  cases he with
  | done items hj hk _ hr hrest =>
    rw [List.append_assoc]
    refine .done ((f,values) :: items) (hall hj) (by rw [List.length_cons, hk]) _ ?_ ?_
    · rw [hr, Reader.skip_skip, hbytes, List.length_append, f.encode_length]
    · rw [h, hrest, hbytes, List.append_assoc]
  | refused items hj hk g e hg tail hrest =>
    refine .refused ((f,values) :: items) (hall hj) (Nat.succ_lt_succ hk) g _ hg tail ?_ _
    rw [h, hrest, hbytes, List.append_assoc]
  | short => exact .short _
  | cut => exact .cut _

theorem Rounds.ended (h : Rounds short cut judge finish loop) (k : Nat) (hw : r.Within)
    (acc : List ε) :
    ∃ result r', loop k acc r = .ok (result,r') ∧
      Ended short cut judge finish k acc r result r' := by
  induction k generalizing r acc with
  | zero =>
    have hd : Ended short cut judge finish 0 acc r (finish (acc ++ itemValues [])) r :=
      .done [] (by intro p hp; cases hp) rfl r rfl rfl
    refine ⟨finish acc,r,h.zero acc r,?_⟩
    rwa [itemValues, List.flatMap_nil, List.append_nil] at hd
  | succ k ih =>
    rcases frame_at r with hs | ⟨id,version,flags,size,header,hs⟩ | ⟨f,hf⟩
    · exact ⟨_,_,h.short k acc r hw hs,.short _⟩
    · exact ⟨_,_,h.cut k acc r id version flags size hw header hs,.cut _⟩
    · obtain ⟨v,hv⟩ := h.total f
      cases v with
      | error e =>
        refine ⟨_,_,h.refused k acc r f _ e hw hf hv,?_⟩
        exact .refused [] (by intro p hp; cases hp) (Nat.succ_pos k) f e hv _ hf _
      | ok values =>
        obtain ⟨result,r',hrun,he⟩ := ih (within_frame hw hf) (acc ++ values)
        refine ⟨result,r',?_,he.cons hv hf⟩
        rw [h.appended k acc r f _ values hw hf hv, hrun]

/-- How a parser of a whole list can end: the list is empty or its count is cut
off, or the rounds begin behind the count. -/
inductive ListEnded (empty truncated short cut : β)
    (judge : Frame → Except Fault (Except β (List ε))) (finish : List ε → β)
    (bytes : List UInt8) : β → Reader → Prop
  | empty (h : bytes = []) (r : Reader) :
      ListEnded empty truncated short cut judge finish bytes empty r
  | truncated (h : bytes ≠ []) (r : Reader) :
      ListEnded empty truncated short cut judge finish bytes truncated r
  | rounds (count : UInt32) (tail : List UInt8) (h : bytes = be32 count ++ tail)
      (hrest : (Reader.skip { bytes := bytes } 4).rest = tail) (result : β) (r : Reader)
      (he : Ended short cut judge finish count.toNat [] (Reader.skip { bytes := bytes } 4)
        result r) :
      ListEnded empty truncated short cut judge finish bytes result r

theorem Rounds.list_ended {empty truncated : β} (h : Rounds short cut judge finish loop)
    (bytes : List UInt8) :
    ∃ result r, counted empty truncated (fun k => loop k []) bytes { bytes := bytes } =
        .ok (result,r) ∧
      ListEnded empty truncated short cut judge finish bytes result r := by
  by_cases h0 : bytes = []
  · refine ⟨empty,{ bytes := bytes },?_,.empty h0 _⟩
    rw [counted, if_pos h0]
    rfl
  by_cases h4 : bytes.length < 4
  · exact ⟨_,_,counted_short h0 h4,.truncated h0 _⟩
  · obtain ⟨count,tail,hc⟩ := exists_count h4
    have hcount : counted empty truncated (fun k => loop k []) bytes { bytes := bytes } =
        loop count.toNat [] (Reader.skip { bytes := bytes } 4) ∧ _ := counted_count hc
    obtain ⟨hp,hrest,hw⟩ := hcount
    obtain ⟨result,r,hrun,he⟩ := h.ended count.toNat hw []
    exact ⟨result,r,hp.trans hrun,.rounds count tail hc hrest result r he⟩

end

/-! ### The opcodes of a list -/

/-- The complete frames behind the count of a list. -/
def Lists (bytes : List UInt8) (frames : List Frame) : Prop :=
  frames.length < 2^32 ∧ ∃ tail,
    bytes = be32 (UInt32.ofNat frames.length) ++ (frames.flatMap Frame.encode ++ tail)

theorem flatMap_encode_inj {fs gs : List Frame} {s t : List UInt8} (hlen : fs.length = gs.length)
    (h : fs.flatMap Frame.encode ++ s = gs.flatMap Frame.encode ++ t) : fs = gs := by
  induction fs generalizing gs with
  | nil => exact (List.length_eq_zero_iff.mp hlen.symm).symm
  | cons f fs ih =>
    cases gs with
    | nil => cases hlen
    | cons g gs =>
      simp only [List.flatMap_cons, List.append_assoc] at h
      obtain ⟨hf,hrest⟩ := Frame.encode_append_inj h
      rw [hf, ih (Nat.succ.inj hlen) hrest]

theorem Lists.unique {bytes : List UInt8} {fs gs : List Frame} (hf : Lists bytes fs)
    (hg : Lists bytes gs) : fs = gs := by
  obtain ⟨hlf,s,hs⟩ := hf
  obtain ⟨hlg,t,ht⟩ := hg
  obtain ⟨hcount,hrest⟩ := be32_append_inj (hs.symm.trans ht)
  have hlen : fs.length = gs.length := by
    rw [← toNat_ofNat_lt hlf, ← toNat_ofNat_lt hlg, hcount]
  exact flatMap_encode_inj hlen hrest

section
variable {β ε : Type} {empty truncated short cut : β}
  {judge : Frame → Except Fault (Except β (List ε))} {finish : List ε → β}
  {loop : Nat → List ε → Read β} {bytes : List UInt8} {frames : List Frame}

theorem itemBytes_eq (items : List (Item ε)) :
    itemBytes items = (items.map Prod.fst).flatMap Frame.encode := by
  rw [itemBytes, List.flatMap_map]

/-- A parser that ends with what it appended has judged every frame of the list. -/
theorem ListEnded.lists {result : β} {r : Reader}
    (h : ListEnded empty truncated short cut judge finish bytes result r) (hne : bytes ≠ [])
    (ht : result ≠ truncated) (hs : result ≠ short) (hc : result ≠ cut)
    (hf : ∀ f, judge f ≠ .ok (.error result)) :
    ∃ items, Judged judge items ∧ Lists bytes (items.map Prod.fst) ∧
      result = finish (itemValues items) := by
  cases h with
  | empty h0 => exact absurd h0 hne
  | truncated => exact absurd rfl ht
  | rounds count tail hb hrest _ _ he =>
    cases he with
    | short => exact absurd rfl hs
    | cut => exact absurd rfl hc
    | refused items hj hk f _ hv => exact absurd hv (hf f)
    | done items hj hk _ hr hitems =>
      refine ⟨items,hj,⟨?_,r.rest,?_⟩,by rw [List.nil_append]⟩
      · rw [List.length_map, hk]
        exact count.toNat_lt
      · rw [List.length_map, ofNat_length_eq hk, ← itemBytes_eq, ← hitems, hrest]
        exact hb

/-- A list whose frames are all accepted is parsed to what they append. -/
theorem Rounds.parse_lists (h : Rounds short cut judge finish loop) {items : List (Item ε)}
    (hj : Judged judge items) (hl : Lists bytes (items.map Prod.fst)) :
    ∃ r, counted empty truncated (fun k => loop k []) bytes { bytes := bytes } =
      .ok (finish (itemValues items),r) := by
  obtain ⟨hlen,tail,hb⟩ := hl
  have hcount : counted empty truncated (fun k => loop k []) bytes { bytes := bytes } =
      loop _ [] (Reader.skip { bytes := bytes } 4) ∧ _ := counted_count hb
  obtain ⟨hp,hrest,hw⟩ := hcount
  rw [← itemBytes_eq] at hrest
  obtain ⟨n,hn,_,_⟩ := h.walk hj hw hrest 0 []
  rw [toNat_ofNat_lt hlen, List.length_map] at hp
  rw [Nat.add_zero, h.zero, List.nil_append] at hn
  exact ⟨_,hp.trans hn⟩

end

end Cpipe.Ingest
