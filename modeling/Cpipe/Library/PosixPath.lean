import Mathlib.Data.List.Infix
import Mathlib.Data.List.Basic

namespace Library.PosixPath

/-- A path in its native spelling. -/
abbrev Path := List Char

/-- A filename between two separators. -/
abbrev Name := List Char

def dot : Name := ['.']
def dotDot : Name := ['.','.']

/-! ### Elements -/

def isAbsolute (p : Path) : Bool := p.head? == some '/'

/-- A path that ends in a name and not in a separator. -/
def hasFilename (p : Path) : Bool := p.getLast?.any (fun c => c != '/')

/-- The filenames of a path; a run of separators separates once. -/
def names (p : Path) : List Name := (p.splitOn '/').filter (fun n => n != [])

/-- The last element, empty behind a separator. -/
def filename (p : Path) : Name := (p.splitOn '/').getLast?.getD []

/-- The extension of the last element, with its dot. A leading dot starts none. -/
def extension (p : Path) : Name :=
  let name := filename p
  if name = dot ∨ name = dotDot then
    []
  else
    let suffix := (name.reverse.takeWhile (fun c => c != '.')).reverse
    if suffix.length + 1 < name.length then '.' :: suffix else []

/-- An absolute right side replaces the left one. -/
def append (p q : Path) : Path :=
  if isAbsolute q then
    q
  else if hasFilename p then
    p ++ '/' :: q
  else
    p ++ q

/-! ### Normal form -/

/-- One filename on the stack of those before it, the last on top. -/
def push (rooted : Bool) (stack : List Name) (n : Name) : List Name :=
  if n = dot then
    stack
  else if n = dotDot then
    match stack with
    | [] => if rooted then [] else [dotDot]
    | top :: rest => if top = dotDot then dotDot :: stack else rest
  else
    n :: stack

def normalNames (rooted : Bool) (ns : List Name) : List Name :=
  (ns.foldl (push rooted) []).reverse

/-- The normal form keeps a separator at the end behind a name, where the path ends
in one or in a filename that was taken out. -/
def lexicallyNormal (p : Path) : Path :=
  if p = [] then
    []
  else
    let rooted := isAbsolute p
    let ns := normalNames rooted (names p)
    let last := filename p
    let trailing := (last = [] ∨ last = dot ∨ last = dotDot) ∧ ns ≠ [] ∧
      ns.getLast? ≠ some dotDot
    if ns = [] ∧ !rooted then
      dot
    else
      (if rooted then ['/'] else []) ++ ['/'].intercalate ns ++ (if trailing then ['/'] else [])

/-! ### Names -/

variable {p q : Path} {n : Name}

theorem separator_notMem (h : n ∈ p.splitOn '/') : '/' ∉ n := by
  induction p generalizing n with
  | nil =>
    rw [List.splitOn_nil, List.mem_singleton] at h
    rw [h]
    exact List.not_mem_nil
  | cons c cs ih =>
    rw [List.splitOn_cons_eq_if_modifyHead] at h
    split at h
    · rcases List.mem_cons.mp h with rfl | hn
      · exact List.not_mem_nil
      · exact ih hn
    case isFalse hc =>
      cases hpieces : cs.splitOn '/' with
      | nil => exact absurd hpieces (List.splitOn_ne_nil _ _)
      | cons first rest =>
        rw [hpieces] at ih h
        rcases List.mem_cons.mp h with rfl | hn
        · intro hmem
          rcases List.mem_cons.mp hmem with heq | hin
          · exact hc (beq_iff_eq.mpr heq.symm)
          · exact ih List.mem_cons_self hin
        · exact ih (List.mem_cons_of_mem _ hn)

theorem infix_intercalate {ns : List Name} (h : n ∈ ns) : n <:+: ['/'].intercalate ns := by
  induction ns with
  | nil => cases h
  | cons first rest ih =>
    cases rest with
    | nil =>
      rw [List.mem_singleton.mp h, List.intercalate_singleton]
    | cons second rest =>
      rw [List.intercalate_cons_cons]
      rcases List.mem_cons.mp h with rfl | hn
      · exact ((List.prefix_append _ _).trans (List.prefix_append _ _)).isInfix
      · exact (ih hn).trans (List.suffix_append _ _).isInfix

/-- A filename is a non-empty part of the path without a separator. -/
theorem mem_names (h : n ∈ names p) : n ≠ [] ∧ '/' ∉ n ∧ n <:+: p := by
  obtain ⟨hsplit,hne⟩ := List.mem_filter.mp h
  refine ⟨by simpa using hne,separator_notMem hsplit,?_⟩
  have hpart := infix_intercalate hsplit
  rwa [List.intercalate_splitOn] at hpart

theorem names_append_separator (p q : Path) : names (p ++ '/' :: q) = names p ++ names q := by
  rw [names, List.splitOn_append_cons_self, List.filter_append]
  rfl

@[simp] theorem names_nil : names [] = [] := rfl

/-- A path that does not end in a filename is empty or ends in a separator. -/
theorem ends_in_separator (h : hasFilename p = false) : p = [] ∨ ∃ front, p = front ++ ['/'] := by
  rcases List.eq_nil_or_concat p with hnil | ⟨front,c,hp⟩
  · exact .inl hnil
  · right
    subst hp
    simp only [hasFilename, List.concat_eq_append, List.getLast?_append, List.getLast?_singleton,
      Option.some_or, Option.any_some, bne_eq_false_iff_eq] at h
    exact ⟨front,by rw [List.concat_eq_append, h]⟩

theorem append_of_absolute (h : isAbsolute q = true) : append p q = q := if_pos h

theorem names_append (h : isAbsolute q = false) : names (append p q) = names p ++ names q := by
  unfold append
  rw [if_neg (by simp [h])]
  split
  · exact names_append_separator p q
  case isFalse hend =>
    rcases ends_in_separator (Bool.eq_false_iff.mpr hend) with rfl | ⟨front,rfl⟩
    · rfl
    · rw [List.append_assoc, List.singleton_append, names_append_separator,
        names_append_separator, names_nil, List.append_nil]

theorem isAbsolute_append (h : isAbsolute q = false) : isAbsolute (append p q) = isAbsolute p := by
  unfold append
  rw [if_neg (by simp [h])]
  cases p with
  | nil => exact h
  | cons c cs => split <;> rfl

/-! ### Names of a normal form -/

theorem names_intercalate {ns : List Name} (h : ∀ n ∈ ns, n ≠ [] ∧ '/' ∉ n) :
    names (['/'].intercalate ns) = ns := by
  cases ns with
  | nil => rfl
  | cons first rest =>
    rw [names, List.splitOn_intercalate '/' (fun n hn => (h n hn).2) (List.cons_ne_nil _ _)]
    exact List.filter_eq_self.mpr (fun n hn => by simpa using (h n hn).1)

theorem push_up {rooted : Bool} {top : Name} {rest : List Name} (h : top ≠ dotDot) :
    push rooted (top :: rest) dotDot = rest :=
  if_neg h

theorem push_name {rooted : Bool} {stack : List Name} (hdot : n ≠ dot) (hdots : n ≠ dotDot) :
    push rooted stack n = n :: stack := by
  unfold push
  rw [if_neg hdot, if_neg hdots]

/-- What one filename does to the stack: nothing, stay there, or take one off. -/
theorem push_cases (rooted : Bool) (stack : List Name) (n : Name) :
    (n = dot ∧ push rooted stack n = stack) ∨ (n ≠ dot ∧ push rooted stack n = n :: stack) ∨
      (n = dotDot ∧ rooted = true ∧ stack = [] ∧ push rooted stack n = []) ∨
      (n = dotDot ∧ ∃ top, top ≠ dotDot ∧ stack = top :: push rooted stack n) := by
  by_cases hdot : n = dot
  · exact .inl ⟨hdot,if_pos hdot⟩
  by_cases hdots : n = dotDot
  · subst hdots
    cases stack with
    | nil =>
      cases rooted with
      | true => exact .inr (.inr (.inl ⟨rfl,rfl,rfl,rfl⟩))
      | false => exact .inr (.inl ⟨hdot,rfl⟩)
    | cons top rest =>
      by_cases htop : top = dotDot
      · subst htop
        exact .inr (.inl ⟨hdot,rfl⟩)
      · exact .inr (.inr (.inr ⟨rfl,top,htop,by rw [push_up htop]⟩))
  · exact .inr (.inl ⟨hdot,push_name hdot hdots⟩)

theorem mem_foldl_push {rooted : Bool} {m : Name} :
    ∀ {ns stack : List Name}, m ∈ ns.foldl (push rooted) stack →
      m ∈ stack ∨ (m ∈ ns ∧ m ≠ dot) := by
  intro ns
  induction ns with
  | nil => exact fun h => .inl h
  | cons n ns ih =>
    intro stack h
    rcases ih h with hpush | ⟨hmem,hm⟩
    · rcases push_cases rooted stack n with ⟨_,heq⟩ | ⟨hn,heq⟩ | ⟨_,_,_,heq⟩ | ⟨_,top,_,heq⟩
      · exact .inl (heq ▸ hpush)
      · rw [heq] at hpush
        rcases List.mem_cons.mp hpush with rfl | hold
        · exact .inr ⟨List.mem_cons_self,hn⟩
        · exact .inl hold
      · rw [heq] at hpush
        cases hpush
      · exact .inl (heq ▸ List.mem_cons_of_mem top hpush)
    · exact .inr ⟨List.mem_cons_of_mem n hmem,hm⟩

theorem mem_normalNames {rooted : Bool} {ns : List Name} (h : n ∈ normalNames rooted ns) :
    n ∈ ns ∧ n ≠ dot := by
  rcases mem_foldl_push (List.mem_reverse.mp h) with hnil | hmem
  · cases hnil
  · exact hmem

theorem normalNames_spelled {rooted : Bool} (h : n ∈ normalNames rooted (names p)) :
    n ≠ [] ∧ '/' ∉ n := by
  obtain ⟨hempty,hsep,_⟩ := mem_names (mem_normalNames h).1
  exact ⟨hempty,hsep⟩

/-- Names that do not go up only add to the stack. -/
theorem suffix_foldl_push {rooted : Bool} :
    ∀ {ns stack : List Name}, dotDot ∉ ns → stack <:+ ns.foldl (push rooted) stack := by
  intro ns
  induction ns with
  | nil => exact fun _ => List.suffix_rfl
  | cons n ns ih =>
    intro stack h
    rw [List.mem_cons, not_or] at h
    refine List.IsSuffix.trans ?_ (ih h.2)
    rcases push_cases rooted stack n with ⟨_,heq⟩ | ⟨_,heq⟩ | ⟨hn,_⟩ | ⟨hn,_⟩
    · rw [heq]
    · rw [heq]
      exact List.suffix_cons n stack
    · exact absurd hn.symm h.1
    · exact absurd hn.symm h.1

/-- Walking the normal form of some names from a directory ends where walking the
names themselves does. -/
theorem foldl_push_normal {rooted : Bool} {start : List Name}
    (hstart : rooted = true → start = []) :
    ∀ {ns stack : List Name}, dot ∉ stack →
      (ns.foldl (push rooted) stack).reverse.foldl (push true) start =
        ns.foldl (push true) (stack.reverse.foldl (push true) start) := by
  intro ns
  induction ns with
  | nil => exact fun _ => rfl
  | cons n ns ih =>
    intro stack hdot
    rw [List.foldl_cons, List.foldl_cons]
    rcases push_cases rooted stack n with ⟨rfl,heq⟩ | ⟨hn,heq⟩ | ⟨rfl,hroot,rfl,heq⟩ |
      ⟨rfl,top,htop,heq⟩
    · rw [heq, ih hdot]
      rfl
    · have hstack : dot ∉ n :: stack := by
        rw [List.mem_cons, not_or]
        exact ⟨hn.symm,hdot⟩
      rw [heq, ih hstack, List.reverse_cons, List.foldl_append]
      rfl
    · rw [heq, ih hdot, hstart hroot]
      rfl
    · have hrest : dot ∉ push rooted stack dotDot := by
        rw [heq] at hdot
        exact fun hmem => hdot (List.mem_cons_of_mem top hmem)
      have htopdot : top ≠ dot := by
        rintro rfl
        rw [heq] at hdot
        exact hdot List.mem_cons_self
      have hback : stack.reverse.foldl (push true) start =
          top :: (push rooted stack dotDot).reverse.foldl (push true) start := by
        rw [congrArg List.reverse heq, List.reverse_cons, List.foldl_append]
        exact push_name htopdot htop
      rw [ih hrest, hback, push_up htop]

theorem foldl_normalNames {rooted : Bool} {start ns : List Name}
    (hstart : rooted = true → start = []) :
    (normalNames rooted ns).foldl (push true) start = ns.foldl (push true) start :=
  foldl_push_normal hstart List.not_mem_nil

/-- The spelling of a normal form: its root, its names and a separator at the end. -/
theorem names_spelling {rooted trailing : Prop} [Decidable rooted] [Decidable trailing]
    {ns : List Name} (h : ∀ n ∈ ns, n ≠ [] ∧ '/' ∉ n) :
    names ((if rooted then ['/'] else []) ++ ['/'].intercalate ns ++
      (if trailing then ['/'] else [])) = ns := by
  have hend : names (['/'].intercalate ns ++ (if trailing then ['/'] else [])) = ns := by
    split
    · rw [names_append_separator, names_intercalate h, names_nil, List.append_nil]
    · rw [List.append_nil, names_intercalate h]
  rw [List.append_assoc]
  split
  · exact (names_append_separator [] _).trans hend
  · exact hend

/-- The names of a normal form; the empty relative one is spelled as a dot. -/
theorem names_lexicallyNormal (hne : p ≠ []) :
    names (lexicallyNormal p) = normalNames (isAbsolute p) (names p) ∨
      (isAbsolute p = false ∧ normalNames (isAbsolute p) (names p) = [] ∧
        names (lexicallyNormal p) = [dot]) := by
  unfold lexicallyNormal
  rw [if_neg hne]
  dsimp only
  split
  case isTrue h => exact .inr ⟨by simpa using h.2,h.1,rfl⟩
  case isFalse h => exact .inl (names_spelling fun _ hn => normalNames_spelled hn)

theorem isAbsolute_intercalate_append {ns : List Name} (hne : ns ≠ [])
    (h : ∀ n ∈ ns, n ≠ [] ∧ '/' ∉ n) (tail : List Char) :
    isAbsolute (['/'].intercalate ns ++ tail) = false := by
  cases ns with
  | nil => exact absurd rfl hne
  | cons first rest =>
    obtain ⟨hfirst,hsep⟩ := h first List.mem_cons_self
    cases first with
    | nil => exact absurd rfl hfirst
    | cons c cs =>
      have hc : c ≠ '/' := fun heq => hsep (heq ▸ List.mem_cons_self)
      have hhead : (['/'].intercalate ((c :: cs) :: rest) ++ tail).head? = some c := by
        cases rest <;> rfl
      rw [isAbsolute, hhead]
      simpa using hc

theorem isAbsolute_lexicallyNormal (p : Path) : isAbsolute (lexicallyNormal p) = isAbsolute p := by
  by_cases hnil : p = []
  · rw [hnil]
    rfl
  unfold lexicallyNormal
  rw [if_neg hnil]
  dsimp only
  cases hroot : isAbsolute p with
  | true =>
    rw [if_neg (fun h => Bool.noConfusion h.2)]
    rfl
  | false =>
    split
    · rfl
    case isFalse hne =>
      exact isAbsolute_intercalate_append (by simpa using hne)
        (fun _ hn => normalNames_spelled hn) _

/-! ### Directories -/

/-- A directory by an absolute path, such as the current one of a process. -/
structure Directory where
  path : Path
  absolute : isAbsolute path = true

/-- The names that lead from the root directory to what a path names, where no name
is a symbolic link. -/
def resolve (cwd : Directory) (p : Path) : List Name :=
  names (lexicallyNormal (append cwd.path p))

def Inside (cwd : Directory) (dir p : Path) : Prop := resolve cwd dir <+: resolve cwd p

variable {cwd : Directory} {dir : Path}

theorem isAbsolute_from (cwd : Directory) (p : Path) : isAbsolute (append cwd.path p) = true := by
  cases h : isAbsolute p with
  | true => rw [append_of_absolute h, h]
  | false => rw [isAbsolute_append h, cwd.absolute]

theorem resolve_eq (cwd : Directory) (p : Path) :
    resolve cwd p = normalNames true (names (append cwd.path p)) := by
  have habs := isAbsolute_from cwd p
  have hne : append cwd.path p ≠ [] := by
    intro hnil
    rw [hnil] at habs
    cases habs
  rcases names_lexicallyNormal hne with hnames | ⟨hrel,_⟩
  · rw [resolve, hnames, habs]
  · rw [habs] at hrel
    cases hrel

/-- A relative path is walked from where the left side leads. -/
theorem resolve_append (h : isAbsolute q = false) :
    resolve cwd (append p q) =
      ((names q).foldl (push true) (resolve cwd p).reverse).reverse := by
  have hnames : names (append cwd.path (append p q)) = names (append cwd.path p) ++ names q := by
    cases hp : isAbsolute p with
    | true =>
      rw [append_of_absolute hp, append_of_absolute (by rw [isAbsolute_append h, hp]),
        names_append h]
    | false =>
      rw [names_append hp, names_append (by rw [isAbsolute_append h, hp]), names_append h,
        List.append_assoc]
  rw [resolve_eq, resolve_eq, hnames, normalNames, normalNames, List.reverse_reverse,
    List.foldl_append]

/-- What a path names does not change when its spelling is normalised. -/
theorem resolve_lexicallyNormal (cwd : Directory) (p : Path) :
    resolve cwd (lexicallyNormal p) = resolve cwd p := by
  by_cases hnil : p = []
  · rw [hnil]
    rfl
  rw [resolve_eq, resolve_eq]
  cases hp : isAbsolute p with
  | true =>
    rw [append_of_absolute hp, append_of_absolute (by rw [isAbsolute_lexicallyNormal, hp])]
    rcases names_lexicallyNormal hnil with hnames | ⟨hrel,_⟩
    · rw [hnames, hp, normalNames, foldl_normalNames fun _ => rfl]
      rfl
    · rw [hp] at hrel
      cases hrel
  | false =>
    rw [names_append hp, names_append (by rw [isAbsolute_lexicallyNormal, hp]), normalNames,
      normalNames, List.foldl_append, List.foldl_append]
    have hwalk := @foldl_normalNames false ((names cwd.path).foldl (push true) []) (names p)
      (fun hfalse => by cases hfalse)
    rcases names_lexicallyNormal hnil with hnames | ⟨_,hempty,hdot⟩
    · rw [hnames, hp, hwalk]
    · rw [hp] at hempty
      rw [hdot, ← hwalk, hempty]
      rfl

/-- Below a directory a relative path that never goes up stays inside. -/
theorem inside_append (h : Inside cwd dir p) (hrel : isAbsolute q = false)
    (hup : dotDot ∉ names q) : Inside cwd dir (append p q) := by
  rw [Inside, resolve_append hrel]
  refine h.trans ?_
  have hsuffix := @suffix_foldl_push true _ (resolve cwd p).reverse hup
  rwa [← List.reverse_prefix, List.reverse_reverse] at hsuffix

end Library.PosixPath
