import Cpipe.Color.Cube3dLutLoader
import Cpipe.Library.Checked

namespace Cpipe.Proofs.LutFormats
open Cpipe.Color Cpipe.Color.Cube3dLutLoader Library Library.Rounding Library.Scan

variable {text rest line : List Char} {lut lut' : Cube3dLut} {n : Nat}

/-! ### Every text -/

structure WellFormed (lut : Cube3dLut) : Prop where
  atLeast : 2 ≤ lut.size
  atMost : lut.size ≤ 256
  count : lut.values.length = 3 * lut.size^3

theorem validSize_ok : validSize n = .ok () ↔ 2 ≤ n ∧ n ≤ 256 := by
  unfold validSize
  split
  · simp
    omega
  · split
    · simp
      omega
    · simp
      omega

theorem valueCount_eq (n : Nat) : valueCountForSize n = 3 * n^3 := by
  rw [valueCountForSize]
  ring

/-- A size is set by a line that checks it. -/
theorem cubeLine_size (h : cubeLine lut line = .ok lut') :
    lut'.size = lut.size ∨ 2 ≤ lut'.size ∧ lut'.size ≤ 256 := by
  unfold cubeLine at h
  split at h
  · cases h
    exact .inl rfl
  · split at h
    · cases h
      exact .inl rfl
    · split at h
      · split at h
        · cases h
        · split at h
          · cases h
          · obtain ⟨_,hvalid,hlut⟩ := Checked.bind_ok.mp h
            cases hlut
            exact .inr (validSize_ok.mp hvalid)
      · split at h
        · cases h
        · cases h
          exact .inl rfl

theorem loadCube_wellFormed (h : loadCube text = .ok lut) : WellFormed lut := by
  obtain ⟨read,hlines,hend⟩ := Checked.bind_ok.mp h
  have hsize : read.size = 0 ∨ 2 ≤ read.size ∧ read.size ≤ 256 :=
    Checked.foldlM_invariant (fun _ s => s.size = 0 ∨ 2 ≤ s.size ∧ s.size ≤ 256)
      (fun _ s line s' hs hline => (cubeLine_size hline).elim (fun he => he ▸ hs) .inr)
      (getlines text) [] {} read (.inl rfl) hlines
  split at hend
  · cases hend
  · rename_i hzero
    split at hend
    · cases hend
    · rename_i hcount
      cases hend
      obtain ⟨hlow,hhigh⟩ := hsize.resolve_left hzero
      exact ⟨hlow,hhigh,(not_not.mp hcount).trans (valueCount_eq _)⟩

theorem place_length {size : Nat} {grid grid' : Grid} {s : Sample}
    (h : place size grid s = .ok grid') : grid'.values.length = grid.values.length := by
  unfold place at h
  split at h
  · cases h
  · cases h
    simp

theorem expect_ok {α : Type} {x : Extract α} {ok : α → Bool} {message : String} {a : α} :
    expect x ok message text = .ok (a,rest) ↔ x text = some (a,rest) ∧ ok a = true := by
  unfold expect
  split
  · rename_i hx
    simp [hx]
  · rename_i a' rest' hx
    split
    · rename_i hok
      simp [hx]
      rintro rfl _
      exact hok
    · rename_i hok
      simp [hx]
      rintro rfl _
      simpa using hok

theorem loadSpi3d_wellFormed (h : loadSpi3d text = .ok lut) : WellFormed lut := by
  obtain ⟨⟨_,text₁⟩,_,h⟩ := Checked.bind_ok.mp h
  obtain ⟨⟨_,text₂⟩,_,h⟩ := Checked.bind_ok.mp h
  obtain ⟨⟨sizes,text₃⟩,_,h⟩ := Checked.bind_ok.mp h
  obtain ⟨_,hvalid,h⟩ := Checked.bind_ok.mp h
  obtain ⟨grid,hrows,h⟩ := Checked.bind_ok.mp h
  obtain ⟨hlow,hhigh⟩ := validSize_ok.mp hvalid
  have hlength : grid.values.length = valueCountForSize sizes.1.toNat :=
    Checked.foldlM_invariant
      (fun _ grid => grid.values.length = valueCountForSize sizes.1.toNat)
      (fun _ _ _ _ hs hplace => (place_length hplace).trans hs)
      _ [] _ grid (by simp) hrows
  split at h
  · cases h
    exact ⟨hlow,hhigh,hlength.trans (valueCount_eq _)⟩
  · cases h

theorem loadFile_wellFormed {path : PosixPath.Path} {file : Option (List Char)}
    (h : loadFile path file = .ok lut) : WellFormed lut := by
  unfold loadFile at h
  split at h
  · cases h
  · split at h
    · exact loadCube_wellFormed h
    · split at h
      · exact loadSpi3d_wellFormed h
      · cases h

theorem load_outcome (path : PosixPath.Path) (file : Option (List Char))
    (out : Option Cube3dLut) :
    ((load path file out).1 = .ok () → ∃ lut, (load path file out).2 = some lut ∧ WellFormed lut) ∧
    ((load path file out).1 ≠ .ok () → (load path file out).2 = out.map (fun _ => {})) := by
  unfold load
  split
  · simp
  · split
    · rename_i lut hfile
      simp [loadFile_wellFormed hfile]
    · simp

/-! ### Rows -/

theorem token_float : Token float := token_real _ _

theorem token_rgbRow : Token rgbRow :=
  token_float.bind (fun r => token_float.bind (fun g =>
    token_float.bind_pure (fun b => (⟨r,g,b⟩ : Rgb))))

theorem token_sampleRow : Token sampleRow :=
  token_int.bind (fun r => token_int.bind (fun g => token_int.bind (fun b =>
    token_rgbRow.bind_pure (fun rgb => (⟨r,g,b,rgb⟩ : Sample)))))

theorem token_magicRow : Token magicRow :=
  token_word.bind (fun magic => (token_real _ _).bind_pure (fun _ => magic))

theorem token_componentRow : Token componentRow :=
  token_int.bind (fun inputs => token_int.bind_pure (fun outputs => (inputs,outputs)))

theorem token_sizeRow : Token sizeRow :=
  token_int.bind (fun r => token_int.bind (fun g => token_int.bind_pure (fun b => (r,g,b))))

/-! ### Files of one table -/

/-- The text of a number reads back as it. -/
structure Prints (print : Rat → List Char) (v : Rat) : Prop where
  reads : float (print v) = some (v,[])
  noSpace : ∀ c ∈ print v, isSpace c = false

def rgbText (print : Rat → List Char) (c : Rgb) : List Char :=
  print c.r ++ ' ' :: (print c.g ++ ' ' :: print c.b)

def digits (n : Nat) : List Char := Nat.toDigits 10 n

/-- A table of the size by its three indices. -/
abbrev Table := Nat → Nat → Nat → Rgb

/-- The standard order of the rows: the red index is the fastest. -/
def redFastest (n : Nat) (table : Table) : List Rgb :=
  (List.range (n * n * n)).map (fun m => table (m % n) (m / n % n) (m / (n * n)))

/-- The order of the files the repository brings: the blue index is the fastest. -/
def blueFastest (n : Nat) (table : Table) : List Rgb :=
  (List.range (n * n * n)).map (fun m => table (m / (n * n)) (m / n % n) (m % n))

/-- The lines of the file: a title, the size, the default domain and the rows. -/
def cubeLines (title : List Char) (n : Nat) (rows : List Rgb) (print : Rat → List Char) :
    List (List Char) :=
  ("TITLE".toList ++ ' ' :: title) ::
  ("LUT_3D_SIZE".toList ++ ' ' :: digits n) ::
  ("DOMAIN_MIN".toList ++ ' ' :: "0 0 0".toList) ::
  ("DOMAIN_MAX".toList ++ ' ' :: "1 1 1".toList) ::
  rows.map (rgbText print)

def cubeText (title : List Char) (n : Nat) (rows : List Rgb) (print : Rat → List Char) :
    List Char :=
  unlines (cubeLines title n rows print)

def sampleText (table : Table) (print : Rat → List Char) (p : Nat × Nat × Nat) : List Char :=
  digits p.1 ++ ' ' :: (digits p.2.1 ++ ' ' :: (digits p.2.2 ++ ' ' ::
    rgbText print (table p.1 p.2.1 p.2.2)))

/-- The rows stand in the given order. -/
def spi3dText (order : List (Nat × Nat × Nat)) (n : Nat) (table : Table)
    (print : Rat → List Char) : List Char :=
  "SPILUT 1.0".toList ++ '\n' :: ("3 3".toList ++ '\n' ::
    ((digits n ++ ' ' :: (digits n ++ ' ' :: digits n)) ++ '\n' ::
      unlines (order.map (sampleText table print))))

section Texts

variable {print : Rat → List Char} {c : Rgb} {rows : List Rgb} {table : Table}

theorem rgbRow_rgbText (h : ∀ v ∈ c.channels, Prints print v) :
    rgbRow (rgbText print c) = some (c,[]) := by
  obtain ⟨hr,hg,hb,_⟩ : Prints print c.r ∧ Prints print c.g ∧ Prints print c.b ∧ True := by
    simpa [Rgb.channels] using h
  rw [rgbRow, rgbText, token_float.read_bind
      (fun r => token_float.bind (fun g => token_float.bind_pure (fun b => (⟨r,g,b⟩ : Rgb))))
      rfl hr.reads,
    token_float.read_bind (fun g => token_float.bind_pure (fun b => (⟨c.r,g,b⟩ : Rgb)))
      rfl hg.reads, bind_apply, hb.reads]
  rfl

theorem sampleRow_sampleText {p : Nat × Nat × Nat} (hp : p.1 < 256 ∧ p.2.1 < 256 ∧ p.2.2 < 256)
    (h : ∀ v ∈ (table p.1 p.2.1 p.2.2).channels, Prints print v) :
    sampleRow (sampleText table print p) =
      some (⟨p.1,p.2.1,p.2.2,table p.1 p.2.1 p.2.2⟩,[]) := by
  obtain ⟨hr,hg,hb⟩ := hp
  rw [sampleRow, sampleText, digits, token_int.read_bind
      (fun r => token_int.bind (fun g => token_int.bind (fun b =>
        token_rgbRow.bind_pure (fun rgb => (⟨r,g,b,rgb⟩ : Sample)))))
      rfl (int_toDigits (by omega)), digits, token_int.read_bind
      (fun g => token_int.bind (fun b =>
        token_rgbRow.bind_pure (fun rgb => (⟨p.1,g,b,rgb⟩ : Sample))))
      rfl (int_toDigits (by omega)), digits, token_int.read_bind
      (fun b => token_rgbRow.bind_pure (fun rgb => (⟨p.1,p.2.1,b,rgb⟩ : Sample)))
      rfl (int_toDigits (by omega)), bind_apply, rgbRow_rgbText h]
  rfl

theorem noHash {v : Rat} (h : Prints print v) : '#' ∉ print v := by
  intro hmem
  have hskip : (print v).dropWhile isSpace = print v := by
    cases hv : print v with
    | nil => rfl
    | cons d text => simp [h.noSpace d (by simp [hv])]
  obtain ⟨_,_,hread⟩ := Option.map_eq_some_iff.mp h.reads
  rw [hskip] at hread
  obtain ⟨s,hs⟩ := @accepted_of_mem _ realChar _ _ (Prod.mk.inj hread).2 '#' hmem
  exact hs (by simp [realChar])

theorem stripComment_append {w : List Char} (h : '#' ∉ w) (rest : List Char) :
    stripComment (w ++ rest) = w ++ stripComment rest := by
  refine List.takeWhile_append_of_pos (fun d hd => ?_)
  have hne : d ≠ '#' := fun he => h (he ▸ hd)
  simpa using hne

theorem stripComment_eq (h : '#' ∉ line) : stripComment line = line := by
  simpa [stripComment] using stripComment_append h []

theorem stripComment_word {w : List Char} (h : '#' ∉ w) (rest : List Char) :
    stripComment (w ++ ' ' :: rest) = w ++ ' ' :: stripComment rest := by
  rw [stripComment_append h]
  rfl

theorem noSpace_of_all {w : List Char} (h : w.all (fun d => !isSpace d) = true) :
    ∀ d ∈ w, isSpace d = false := by
  simpa using h

theorem word_before {w : List Char} (hne : w ≠ []) (h : ∀ d ∈ w, isSpace d = false)
    (rest : List Char) : word (w ++ ' ' :: rest) = some (w,' ' :: rest) :=
  token_word.stops w w [] ' ' rest rfl (word_of_noSpace hne h)

/-- A line that begins with one of the three words leaves the table as it is. -/
theorem cubeLine_ignored {w : List Char} (hw : w = "TITLE".toList ∨ w = "DOMAIN_MIN".toList ∨
    w = "DOMAIN_MAX".toList) (lut : Cube3dLut) (rest : List Char) :
    cubeLine lut (w ++ ' ' :: rest) = .ok lut := by
  have hshape : '#' ∉ w ∧ w ≠ [] ∧ w.all (fun d => !isSpace d) = true := by
    rcases hw with rfl | rfl | rfl
    · decide
    · decide
    · decide
  obtain ⟨hhash,hne,hspace⟩ := hshape
  simp only [cubeLine, stripComment_word hhash, word_before hne (noSpace_of_all hspace)]
  rw [if_pos hw]

theorem noHash_digits (n : Nat) : '#' ∉ digits n := by
  intro h
  have := toDigits_digit h
  revert this
  decide

theorem cubeLine_declares (hn : 2 ≤ n) (hn' : n ≤ 256) (lut : Cube3dLut) :
    cubeLine lut ("LUT_3D_SIZE".toList ++ ' ' :: digits n) = .ok { lut with size := n } := by
  have hint : int (' ' :: digits n) = some ((n : Int),[]) := by
    rw [token_int.skips ' ' _ rfl]
    exact int_toDigits (by omega)
  have hvalid : validSize n = .ok () := validSize_ok.mpr ⟨hn,hn'⟩
  simp only [cubeLine, stripComment_word (w := "LUT_3D_SIZE".toList) (by decide),
    stripComment_eq (noHash_digits n), word_before (w := "LUT_3D_SIZE".toList) (by decide)
      (noSpace_of_all (by decide)), hint]
  rw [if_neg (by decide), if_pos trivial, if_neg (by omega), Int.toNat_natCast, hvalid]
  rfl

theorem print_not_word {v : Rat} (h : Prints print v) {w : String} (hw : float w.toList = none) :
    print v ≠ w.toList := by
  intro he
  rw [← he, h.reads] at hw
  cases hw

theorem print_ne_nil {v : Rat} (h : Prints print v) : print v ≠ [] := by
  intro he
  have hreads := h.reads
  rw [he] at hreads
  cases hreads

theorem cubeLine_rgb (h : ∀ v ∈ c.channels, Prints print v) (lut : Cube3dLut) :
    cubeLine lut (rgbText print c) = .ok { lut with values := lut.values ++ c.channels } := by
  have hrow := rgbRow_rgbText h
  obtain ⟨hr,hg,hb,_⟩ : Prints print c.r ∧ Prints print c.g ∧ Prints print c.b ∧ True := by
    simpa [Rgb.channels] using h
  have hstrip : stripComment (rgbText print c) = rgbText print c := by
    refine stripComment_eq ?_
    simp [rgbText, noHash hr, noHash hg, noHash hb]
  have hword : word (rgbText print c) = some (print c.r,' ' :: (print c.g ++ ' ' :: print c.b)) :=
    word_before (print_ne_nil hr) hr.noSpace _
  simp only [cubeLine, hstrip, hword, hrow]
  rw [if_neg, if_neg]
  · exact print_not_word hr (by decide +kernel)
  · rintro (he | he | he)
    · exact print_not_word hr (by decide +kernel) he
    · exact print_not_word hr (by decide +kernel) he
    · exact print_not_word hr (by decide +kernel) he

theorem foldlM_rgb {colors : List Rgb} (h : ∀ c ∈ colors, ∀ v ∈ c.channels, Prints print v)
    (lut : Cube3dLut) : (colors.map (rgbText print)).foldlM cubeLine lut =
      .ok { lut with values := lut.values ++ colors.flatMap Rgb.channels } := by
  induction colors generalizing lut with
  | nil => simp [pure, Except.pure]
  | cons c colors ih =>
    obtain ⟨hc,hcolors⟩ := List.forall_mem_cons.mp h
    rw [List.map_cons, Checked.foldlM_cons_ok (cubeLine_rgb hc lut), ih hcolors]
    simp

/-! ### The cells of a table -/

def cell (n r g b : Nat) : Nat := r * n * n + g * n + b

theorem cell_eq (n r g b : Nat) : cell n r g b = b + n * (g + n * r) := by
  rw [cell]
  ring

section Cells

variable {r g b : Nat}

theorem cell_mod (hb : b < n) : cell n r g b % n = b := by
  rw [cell_eq, Nat.add_mul_mod_self_left, Nat.mod_eq_of_lt hb]

theorem cell_div (hb : b < n) : cell n r g b / n = g + n * r := by
  rw [cell_eq, Nat.add_mul_div_left _ _ (by omega), Nat.div_eq_of_lt hb, Nat.zero_add]

theorem cell_div_mod (hg : g < n) (hb : b < n) : cell n r g b / n % n = g := by
  rw [cell_div hb, Nat.add_mul_mod_self_left, Nat.mod_eq_of_lt hg]

theorem cell_div_div (hg : g < n) (hb : b < n) : cell n r g b / (n * n) = r := by
  rw [← Nat.div_div_eq_div_mul, cell_div hb, Nat.add_mul_div_left _ _ (by omega),
    Nat.div_eq_of_lt hg, Nat.zero_add]

theorem cell_lt (hr : r < n) (hg : g < n) (hb : b < n) : cell n r g b < n * n * n := by
  have hrow : g + n * r < n * n := by
    calc g + n * r < n + n * r := by omega
      _ = n * (r + 1) := by ring
      _ ≤ n * n := Nat.mul_le_mul_left n hr
  rw [cell_eq]
  calc b + n * (g + n * r) < n + n * (g + n * r) := by omega
    _ = n * (g + n * r + 1) := by ring
    _ ≤ n * (n * n) := Nat.mul_le_mul_left n hrow
    _ = n * n * n := by ring

theorem cell_inj {r' g' b' : Nat} (hg : g < n) (hb : b < n) (hg' : g' < n) (hb' : b' < n)
    (h : cell n r g b = cell n r' g' b') : r = r' ∧ g = g' ∧ b = b' := by
  refine ⟨?_,?_,?_⟩
  · rw [← cell_div_div (r := r) hg hb, h, cell_div_div hg' hb']
  · rw [← cell_div_mod (r := r) hg hb, h, cell_div_mod hg' hb']
  · rw [← cell_mod (r := r) (g := g) hb, h, cell_mod hb']

theorem cell_of (n m : Nat) : cell n (m / (n * n)) (m / n % n) (m % n) = m := by
  rw [cell_eq, ← Nat.div_div_eq_div_mul, Nat.mod_add_div, Nat.mod_add_div]

end Cells

theorem rgbAt_flatMap (colors : List Rgb) (m : Nat) :
    rgbAt (colors.flatMap Rgb.channels) m = colors[m]? := by
  induction colors generalizing m with
  | nil => simp [rgbAt]
  | cons c colors ih =>
    cases m with
    | zero => rfl
    | succ m =>
      rw [List.getElem?_cons_succ, ← ih m]
      simp only [rgbAt, List.flatMap_cons, Rgb.channels, Nat.succ_mul]
      rfl

/-! ### `.cube` -/

/-- Every number of the table has a text. -/
def Printable (n : Nat) (table : Table) (print : Rat → List Char) : Prop :=
  ∀ r g b, r < n → g < n → b < n → ∀ v ∈ (table r g b).channels, Prints print v

theorem redFastest_printable (h : Printable n table print) :
    ∀ c ∈ redFastest n table, ∀ v ∈ c.channels, Prints print v := by
  intro c hc
  obtain ⟨m,hm,rfl⟩ := List.mem_map.mp hc
  have hcells : m < n * n * n := List.mem_range.mp hm
  have hn : 0 < n := by
    rcases Nat.eq_zero_or_pos n with rfl | hpos
    · simp at hcells
    · exact hpos
  exact h _ _ _ (Nat.mod_lt _ hn) (Nat.mod_lt _ hn) (Nat.div_lt_of_lt_mul hcells)

/-- Rows with the blue index fastest are the standard rows of the mirrored table. -/
theorem blueFastest_mirrored (n : Nat) (table : Table) :
    blueFastest n table = redFastest n (fun r g b => table b g r) := rfl

theorem Printable.mirrored (h : Printable n table print) :
    Printable n (fun r g b => table b g r) print :=
  fun r g b hr hg hb => h b g r hb hg hr

theorem newline_not_mem_print {v : Rat} (h : Prints print v) : '\n' ∉ print v := by
  intro hmem
  cases h.noSpace _ hmem

theorem newline_not_mem_rgbText (h : ∀ v ∈ c.channels, Prints print v) :
    '\n' ∉ rgbText print c := by
  obtain ⟨hr,hg,hb,_⟩ : Prints print c.r ∧ Prints print c.g ∧ Prints print c.b ∧ True := by
    simpa [Rgb.channels] using h
  simp [rgbText, newline_not_mem_print hr, newline_not_mem_print hg, newline_not_mem_print hb]

theorem newline_not_mem_digits (n : Nat) : '\n' ∉ digits n := by
  intro h
  have := toDigits_digit h
  revert this
  decide

theorem length_channels (colors : List Rgb) :
    (colors.flatMap Rgb.channels).length = colors.length * 3 := by
  induction colors with
  | nil => rfl
  | cons c colors ih =>
    rw [List.flatMap_cons, List.length_append, ih, List.length_cons, Rgb.channels]
    simp
    ring

/-- The rows in the order of the file. -/
def cubeLut (n : Nat) (rows : List Rgb) : Cube3dLut := ⟨n,rows.flatMap Rgb.channels⟩

theorem newline_not_mem_cubeLines {title : List Char} (htitle : '\n' ∉ title)
    (h : ∀ c ∈ rows, ∀ v ∈ c.channels, Prints print v) :
    ∀ line ∈ cubeLines title n rows print, '\n' ∉ line := by
  simp only [cubeLines, List.forall_mem_cons]
  refine ⟨?_,?_,by decide,by decide,?_⟩
  · simp [htitle]
  · simp [newline_not_mem_digits]
  · intro line hline
    obtain ⟨c,hc,rfl⟩ := List.mem_map.mp hline
    exact newline_not_mem_rgbText (h c hc)

theorem loadCube_cubeText {title : List Char} (htitle : '\n' ∉ title) (hn : 2 ≤ n)
    (hn' : n ≤ 256) (h : ∀ c ∈ rows, ∀ v ∈ c.channels, Prints print v)
    (hcount : rows.length = n * n * n) :
    loadCube (cubeText title n rows print) = .ok (cubeLut n rows) := by
  have hlines : (cubeLines title n rows print).foldlM cubeLine {} = .ok (cubeLut n rows) := by
    rw [cubeLines, Checked.foldlM_cons_ok (cubeLine_ignored (.inl rfl) {} title),
      Checked.foldlM_cons_ok (cubeLine_declares hn hn' {}),
      Checked.foldlM_cons_ok (cubeLine_ignored (.inr (.inl rfl)) _ _),
      Checked.foldlM_cons_ok (cubeLine_ignored (.inr (.inr rfl)) _ _), foldlM_rgb h]
    simp [cubeLut]
  rw [loadCube, cubeText, getlines_unlines (newline_not_mem_cubeLines htitle h), hlines]
  refine Eq.trans (if_neg (show n ≠ 0 by omega)) (if_neg ?_)
  rw [cubeLut, length_channels, hcount, valueCountForSize]
  simp

/-- The loader's first index walks through the file slowest, and in the standard file that
is blue. -/
theorem atIndex_redFastest {r g b : Nat} (hr : r < n) (hg : g < n) (hb : b < n) :
    (cubeLut n (redFastest n table)).atIndex r g b = some (table b g r) := by
  have hcell := cell_lt hr hg hb
  rw [Cube3dLut.atIndex, cubeLut, rgbAt_flatMap, redFastest, List.getElem?_map]
  change ((List.range (n * n * n))[cell n r g b]?).map _ = _
  rw [List.getElem?_range hcell, Option.map_some, cell_mod hb, cell_div_mod hg hb,
    cell_div_div hg hb]

/-! ### `.spi3d` -/

def sampleOf (table : Table) (p : Nat × Nat × Nat) : Sample :=
  ⟨p.1,p.2.1,p.2.2,table p.1 p.2.1 p.2.2⟩

/-- The order names cells of the table, and every one of them. -/
def Covers (n : Nat) (order : List (Nat × Nat × Nat)) : Prop :=
  ∀ p, p ∈ order ↔ p.1 < n ∧ p.2.1 < n ∧ p.2.2 < n

theorem sampleRows_read {limit : Nat} {sample : Sample} (h : sampleRow text = some (sample,rest)) :
    sampleRows (limit+1) text = sample :: sampleRows limit rest := by
  simp [sampleRows, h]

theorem sampleRows_unlines {order : List (Nat × Nat × Nat)}
    (h : ∀ p ∈ order, sampleRow (sampleText table print p) = some (sampleOf table p,[]))
    {limit : Nat} (hlimit : order.length ≤ limit) :
    sampleRows limit ('\n' :: unlines (order.map (sampleText table print))) =
      order.map (sampleOf table) := by
  induction order generalizing limit with
  | nil =>
    cases limit with
    | zero => rfl
    | succ limit => rfl
  | cons p order ih =>
    obtain ⟨hp,horder⟩ := List.forall_mem_cons.mp h
    cases limit with
    | zero => simp at hlimit
    | succ limit =>
      have hrow : sampleRow ('\n' :: unlines ((p :: order).map (sampleText table print))) =
          some (sampleOf table p,'\n' :: unlines (order.map (sampleText table print))) := by
        rw [token_sampleRow.skips '\n' _ rfl, List.map_cons, unlines_cons]
        exact token_sampleRow.stops _ _ [] '\n' _ rfl hp
      rw [sampleRows_read hrow, ih horder (by simpa using hlimit), List.map_cons]

/-- One row in its three places. -/
def written (grid : Grid) (index : Nat) (c : Rgb) : Grid where
  values := ((grid.values.set (index * 3) c.r).set (index * 3 + 1) c.g).set (index * 3 + 2) c.b
  seen := grid.seen.set index true

theorem place_sampleOf {p : Nat × Nat × Nat} (hp : p.1 < n ∧ p.2.1 < n ∧ p.2.2 < n)
    (grid : Grid) : place n grid (sampleOf table p) =
      .ok (written grid (cell n p.1 p.2.1 p.2.2) (table p.1 p.2.1 p.2.2)) := by
  rw [place, if_neg]
  · rfl
  · simp only [sampleOf]
    omega

theorem rgbAt_written {grid : Grid} {index : Nat} (h : index * 3 + 2 < grid.values.length)
    (c : Rgb) (other : Nat) : rgbAt (written grid index c).values other =
      if index = other then some c else rgbAt grid.values other := by
  by_cases he : index = other
  · subst he
    have hr : (written grid index c).values[index * 3]? = some c.r := by
      rw [written, List.getElem?_set_ne (by omega), List.getElem?_set_ne (by omega),
        List.getElem?_set_self (by omega)]
    have hg : (written grid index c).values[index * 3 + 1]? = some c.g := by
      rw [written, List.getElem?_set_ne (by omega), List.getElem?_set_self (by simp; omega)]
    have hb : (written grid index c).values[index * 3 + 2]? = some c.b := by
      rw [written, List.getElem?_set_self (by simp; omega)]
    simp [rgbAt, hr, hg, hb]
  · have hsame : ∀ k < 3, (written grid index c).values[other * 3 + k]? =
        grid.values[other * 3 + k]? := by
      intro k hk
      rw [written, List.getElem?_set_ne (by omega), List.getElem?_set_ne (by omega),
        List.getElem?_set_ne (by omega)]
    have hfirst := hsame 0 (by omega)
    rw [Nat.add_zero] at hfirst
    simp only [rgbAt, hfirst, hsame 1 (by omega), hsame 2 (by omega), if_neg he]

/-- The rows so far stand in the grid. -/
structure Filled (n : Nat) (table : Table) (done : List (Nat × Nat × Nat)) (grid : Grid) :
    Prop where
  values : grid.values.length = valueCountForSize n
  seen : grid.seen.length = n * n * n
  placed : ∀ p ∈ done, grid.seen[cell n p.1 p.2.1 p.2.2]? = some true ∧
    rgbAt grid.values (cell n p.1 p.2.1 p.2.2) = some (table p.1 p.2.1 p.2.2)

theorem filled_written {done : List (Nat × Nat × Nat)} {grid : Grid} {p : Nat × Nat × Nat}
    (hdone : ∀ q ∈ done, q.1 < n ∧ q.2.1 < n ∧ q.2.2 < n)
    (hp : p.1 < n ∧ p.2.1 < n ∧ p.2.2 < n) (h : Filled n table done grid) :
    Filled n table (done ++ [p])
      (written grid (cell n p.1 p.2.1 p.2.2) (table p.1 p.2.1 p.2.2)) := by
  have hcell := cell_lt hp.1 hp.2.1 hp.2.2
  have hroom : cell n p.1 p.2.1 p.2.2 * 3 + 2 < grid.values.length := by
    rw [h.values, valueCountForSize]
    omega
  have hself : ∀ q : Nat × Nat × Nat, q.1 < n ∧ q.2.1 < n ∧ q.2.2 < n →
      cell n p.1 p.2.1 p.2.2 = cell n q.1 q.2.1 q.2.2 → p = q := by
    intro q hq hcells
    obtain ⟨hr,hg,hb⟩ := cell_inj hp.2.1 hp.2.2 hq.2.1 hq.2.2 hcells
    exact Prod.ext hr (Prod.ext hg hb)
  refine ⟨by simpa [written] using h.values,by simpa [written] using h.seen,?_⟩
  intro q hq
  rw [rgbAt_written hroom, written]
  by_cases hpq : p = q
  · subst hpq
    rw [List.getElem?_set_self (by rw [h.seen]; exact hcell), if_pos rfl]
    exact ⟨rfl,rfl⟩
  · have hold : q ∈ done := by
      rcases List.mem_append.mp hq with hq | hq
      · exact hq
      · exact absurd (List.mem_singleton.mp hq).symm hpq
    have hne : cell n p.1 p.2.1 p.2.2 ≠ cell n q.1 q.2.1 q.2.2 :=
      fun he => hpq (hself q (hdone q hold) he)
    rw [List.getElem?_set_ne hne, if_neg hne]
    exact h.placed q hold

/-- The rows are placed one after the other, and none takes the place of another. -/
theorem foldlM_place (order done : List (Nat × Nat × Nat)) {grid : Grid}
    (hdone : ∀ q ∈ done, q.1 < n ∧ q.2.1 < n ∧ q.2.2 < n)
    (horder : ∀ q ∈ order, q.1 < n ∧ q.2.1 < n ∧ q.2.2 < n) (h : Filled n table done grid) :
    ∃ grid', (order.map (sampleOf table)).foldlM (place n) grid = .ok grid' ∧
      Filled n table (done ++ order) grid' := by
  induction order generalizing done grid with
  | nil => exact ⟨grid,rfl,by simpa using h⟩
  | cons p order ih =>
    obtain ⟨hp,hrest⟩ := List.forall_mem_cons.mp horder
    have hnext : ∀ q ∈ done ++ [p], q.1 < n ∧ q.2.1 < n ∧ q.2.2 < n := by
      intro q hq
      rcases List.mem_append.mp hq with hq | hq
      · exact hdone q hq
      · exact List.mem_singleton.mp hq ▸ hp
    obtain ⟨grid',hrun,hfilled⟩ := ih (done ++ [p]) hnext hrest (filled_written hdone hp h)
    refine ⟨grid',?_,by simpa using hfilled⟩
    rw [List.map_cons, Checked.foldlM_cons_ok (place_sampleOf hp grid), hrun]

theorem filled_empty (n : Nat) (table : Table) :
    Filled n table [] ⟨List.replicate (valueCountForSize n) 0,
      List.replicate (valueCountForSize n / 3) false⟩ :=
  ⟨by simp,by simp [valueCountForSize],by simp⟩

theorem filled_seen {order : List (Nat × Nat × Nat)} {grid : Grid} (horder : Covers n order)
    (h : Filled n table order grid) : grid.seen.all id = true := by
  rw [List.all_eq_true]
  intro flag hflag
  obtain ⟨m,hm⟩ := List.mem_iff_getElem?.mp hflag
  obtain ⟨hlt,_⟩ := List.getElem?_eq_some_iff.mp hm
  rw [h.seen] at hlt
  have hn : 0 < n := by
    rcases Nat.eq_zero_or_pos n with rfl | hpos
    · simp at hlt
    · exact hpos
  have hcell := (h.placed (m / (n * n),m / n % n,m % n) ((horder _).mpr
    ⟨Nat.div_lt_of_lt_mul hlt,Nat.mod_lt _ hn,Nat.mod_lt _ hn⟩)).1
  rw [cell_of] at hcell
  exact Option.some.inj (hm.symm.trans hcell)

theorem sizeRow_digits (hn : n ≤ 256) :
    sizeRow (digits n ++ ' ' :: (digits n ++ ' ' :: digits n)) =
      some (((n : Int),(n : Int),(n : Int)),[]) := by
  have hint : int (digits n) = some ((n : Int),[]) := int_toDigits (by omega)
  rw [sizeRow, token_int.read_bind
      (fun r => token_int.bind (fun g => token_int.bind_pure (fun b => (r,g,b)))) rfl hint,
    token_int.read_bind (fun g => token_int.bind_pure (fun b => ((n : Int),g,b))) rfl hint,
    bind_apply, hint]
  rfl

theorem loadSpi3d_spi3dText {order : List (Nat × Nat × Nat)} (horder : Covers n order)
    (hn : 2 ≤ n) (hn' : n ≤ 256) (h : Printable n table print) :
    ∃ values, loadSpi3d (spi3dText order n table print) = .ok ⟨n,values⟩ ∧
      ∀ r g b, r < n → g < n → b < n → rgbAt values (cell n r g b) = some (table r g b) := by
  obtain ⟨grid,hrun,hfilled⟩ := foldlM_place order [] (by simp)
    (fun q hq => (horder q).mp hq) (filled_empty n table)
  rw [List.nil_append] at hfilled
  refine ⟨grid.values,?_,fun r g b hr hg hb => ?_⟩
  · have hmagic := token_magicRow.stops "SPILUT 1.0".toList "SPILUT".toList [] '\n'
      ("3 3".toList ++ '\n' :: ((digits n ++ ' ' :: (digits n ++ ' ' :: digits n)) ++ '\n' ::
        unlines (order.map (sampleText table print)))) rfl (by decide +kernel)
    have hcomponents := token_componentRow.stops "3 3".toList (3,3) [] '\n'
      ((digits n ++ ' ' :: (digits n ++ ' ' :: digits n)) ++ '\n' ::
        unlines (order.map (sampleText table print))) rfl (by decide +kernel)
    have hsizes := token_sizeRow.stops _ _ [] '\n'
      (unlines (order.map (sampleText table print))) rfl (sizeRow_digits hn')
    rw [← token_componentRow.skips '\n' _ rfl] at hcomponents
    rw [← token_sizeRow.skips '\n' _ rfl] at hsizes
    have hrows := @sampleRows_unlines print table order
      (fun p hp => by
        obtain ⟨hr,hg,hb⟩ := (horder p).mp hp
        exact sampleRow_sampleText ⟨by omega,by omega,by omega⟩ (h _ _ _ hr hg hb))
      ('\n' :: unlines (order.map (sampleText table print))).length (by
        have := length_le_unlines (order.map (sampleText table print))
        rw [List.length_map] at this
        rw [List.length_cons]
        omega)
    refine Checked.bind_ok.mpr ⟨_,expect_ok.mpr ⟨hmagic,rfl⟩,?_⟩
    refine Checked.bind_ok.mpr ⟨_,expect_ok.mpr ⟨hcomponents,rfl⟩,?_⟩
    refine Checked.bind_ok.mpr ⟨_,expect_ok.mpr ⟨hsizes,by simp⟩,?_⟩
    refine Checked.bind_ok.mpr ⟨(),validSize_ok.mpr ⟨hn,hn'⟩,?_⟩
    refine Checked.bind_ok.mpr ⟨grid,?_,if_pos (filled_seen horder hfilled)⟩
    rw [List.nil_append, hrows]
    exact hrun
  · exact (hfilled.placed (r,g,b) ((horder _).mpr ⟨hr,hg,hb⟩)).2

end Texts

/-- With the rows of the `.cube` file in the loader's order both files load as the table. In
the standard order red and blue come back exchanged, so that the two load alike exactly when
the table is its own mirror image; and whatever a file holds, the output is a whole table or
an empty one. -/
theorem lut_formats_agree (n : Nat) (hn : 2 ≤ n) (hn' : n ≤ 256) (table : Table)
    (print : Rat → List Char) (hprint : Printable n table print) (title : List Char)
    (htitle : '\n' ∉ title) (order : List (Nat × Nat × Nat)) (horder : Covers n order)
    (cubePath spi3dPath : PosixPath.Path) (hcube : lowerExtension cubePath = ".cube".toList)
    (hspi3d : lowerExtension spi3dPath = ".spi3d".toList) (out : Cube3dLut) :
    (∃ cube standard spi3d,
      load cubePath (some (cubeText title n (blueFastest n table) print)) (some out) =
        (.ok (),some cube) ∧
      load cubePath (some (cubeText title n (redFastest n table) print)) (some out) =
        (.ok (),some standard) ∧
      load spi3dPath (some (spi3dText order n table print)) (some out) = (.ok (),some spi3d) ∧
      (∀ r g b, r < n → g < n → b < n →
        cube.atIndex r g b = some (table r g b) ∧ spi3d.atIndex r g b = some (table r g b) ∧
          standard.atIndex r g b = spi3d.atIndex b g r) ∧
      ((∀ r g b, r < n → g < n → b < n → standard.atIndex r g b = spi3d.atIndex r g b) ↔
        ∀ r g b, r < n → g < n → b < n → table r g b = table b g r)) ∧
    ∀ path file result,
      ((load path file result).1 = .ok () → ∃ lut, (load path file result).2 = some lut ∧
        2 ≤ lut.size ∧ lut.size ≤ 256 ∧ lut.values.length = 3 * lut.size^3) ∧
      ((load path file result).1 ≠ .ok () →
        (load path file result).2 = result.map (fun _ => { size := 0, values := [] })) := by
  constructor
  · obtain ⟨values,hload,hvalues⟩ := loadSpi3d_spi3dText horder hn hn' hprint
    have hat {r g b : Nat} (hr : r < n) (hg : g < n) (hb : b < n) :
        (⟨n,values⟩ : Cube3dLut).atIndex r g b = some (table r g b) := hvalues r g b hr hg hb
    refine ⟨cubeLut n (blueFastest n table),cubeLut n (redFastest n table),⟨n,values⟩,?_,?_,?_,
      ?_,?_⟩
    · simp only [load, loadFile, hcube, if_true, blueFastest_mirrored,
        loadCube_cubeText htitle hn hn' (redFastest_printable hprint.mirrored) (by simp [redFastest])]
    · simp only [load, loadFile, hcube, if_true,
        loadCube_cubeText htitle hn hn' (redFastest_printable hprint) (by simp [redFastest])]
    · have hother : ".spi3d".toList ≠ ".cube".toList := by decide
      simp only [load, loadFile, hspi3d, if_neg hother, if_true, hload]
    · intro r g b hr hg hb
      rw [blueFastest_mirrored, atIndex_redFastest hr hg hb, atIndex_redFastest hr hg hb,
        hat hr hg hb, hat hb hg hr]
      exact ⟨rfl,rfl,rfl⟩
    · constructor
      · intro hsame r g b hr hg hb
        have hcell := hsame r g b hr hg hb
        rw [atIndex_redFastest hr hg hb, hat hr hg hb] at hcell
        exact (Option.some.inj hcell).symm
      · intro hmirror r g b hr hg hb
        rw [atIndex_redFastest hr hg hb, hat hr hg hb, hmirror r g b hr hg hb]
  · intro path file result
    obtain ⟨hok,herror⟩ := load_outcome path file result
    refine ⟨fun h => ?_,herror⟩
    obtain ⟨lut,hlut,hwell⟩ := hok h
    exact ⟨lut,hlut,hwell.atLeast,hwell.atMost,hwell.count⟩

/-! ### Two tables

Every `float` has a text, so that every table has its two files. -/

theorem prints_exact {v : Rat} (hv : Format.single.nearest v = v) (hbound : |v| < 2^128) :
    Prints exactText v :=
  ⟨real_exactText hv hbound,exactText_noSpace v⟩

def smallOrder : List (Nat × Nat × Nat) :=
  [(1,1,1),(0,0,0),(0,0,1),(0,1,0),(1,0,0),(1,1,0),(1,0,1),(0,1,1)]

theorem smallOrder_covers : Covers 2 smallOrder := by
  rintro ⟨r,g,b⟩
  simp only [smallOrder, List.mem_cons, Prod.mk.injEq, List.not_mem_nil, or_false]
  omega

def identityTable : Table := fun r g b => ⟨r,g,b⟩

theorem identityTable_printable : Printable 2 identityTable exactText := by
  intro r g b hr hg hb v hv
  have hcases : v = 0 ∨ v = 1 := by
    have hchannel (i : Nat) (hi : i < 2) : (i : Rat) = 0 ∨ (i : Rat) = 1 := by
      rcases (show i = 0 ∨ i = 1 by omega) with rfl | rfl
      · exact .inl rfl
      · exact .inr rfl
    obtain rfl | rfl | rfl : v = r ∨ v = g ∨ v = b := by
      simpa [identityTable, Rgb.channels] using hv
    · exact hchannel r hr
    · exact hchannel g hg
    · exact hchannel b hb
  rcases hcases with rfl | rfl
  · exact prints_exact (by decide +kernel) (by decide +kernel)
  · exact prints_exact (by decide +kernel) (by decide +kernel)

theorem lut_formats_agree_identity :
    ∃ cube standard spi3d,
      load "i.cube".toList (some (cubeText [] 2 (blueFastest 2 identityTable) exactText))
        (some {}) = (.ok (),some cube) ∧
      load "i.cube".toList (some (cubeText [] 2 (redFastest 2 identityTable) exactText))
        (some {}) = (.ok (),some standard) ∧
      load "i.SPI3D".toList (some (spi3dText smallOrder 2 identityTable exactText)) (some {}) =
        (.ok (),some spi3d) ∧
      (∀ r g b, r < 2 → g < 2 → b < 2 →
        cube.atIndex r g b = some (identityTable r g b) ∧
          spi3d.atIndex r g b = some (identityTable r g b) ∧
            standard.atIndex r g b = spi3d.atIndex b g r) ∧
      ((∀ r g b, r < 2 → g < 2 → b < 2 → standard.atIndex r g b = spi3d.atIndex r g b) ↔
        ∀ r g b, r < 2 → g < 2 → b < 2 → identityTable r g b = identityTable b g r) :=
  (lut_formats_agree 2 (by decide) (by decide) identityTable exactText identityTable_printable []
    (by decide) smallOrder smallOrder_covers "i.cube".toList "i.SPI3D".toList (by decide)
    (by decide) {}).1

/-- The identity turns red into blue when it comes from the standard `.cube` file. -/
theorem identity_axes_swapped :
    ∃ cube spi3d,
      load "i.cube".toList (some (cubeText [] 2 (redFastest 2 identityTable) exactText))
        (some {}) = (.ok (),some cube) ∧
      load "i.spi3d".toList (some (spi3dText smallOrder 2 identityTable exactText)) (some {}) =
        (.ok (),some spi3d) ∧
      cube.atIndex 1 0 0 = some ⟨0,0,1⟩ ∧ spi3d.atIndex 1 0 0 = some ⟨1,0,0⟩ := by
  refine ⟨⟨2,[0,0,0,1,0,0,0,1,0,1,1,0,0,0,1,1,0,1,0,1,1,1,1,1]⟩,
    ⟨2,[0,0,0,0,0,1,0,1,0,0,1,1,1,0,0,1,0,1,1,1,0,1,1,1]⟩,?_,?_,by decide,by decide⟩
  · decide +kernel
  · decide +kernel

end Cpipe.Proofs.LutFormats
