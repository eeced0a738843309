import Cpipe.Color.OcioVulkanProcessor
import Cpipe.Library.Holders

namespace Cpipe.Proofs.VulkanHandles
open Cpipe.Compute Cpipe.Color Cpipe.Color.OcioVulkanProcessor Library

variable {r : PipelineResources} {driver : Driver} {device : Device} {fails : Stage → Bool}
  {rest : List Handle} {p : Processor} {format : PixelFormat}

/-! ### The ledger -/

/-- The log as acts on handles. -/
def act : Call → Option (Handle × Ledger.Act)
  | .created h => some (h,.opened)
  | .destroyed h => some (h,.closed)
  | _ => none

def acts (log : List Call) : List (Handle × Ledger.Act) := log.filterMap act

theorem acts_append (log more : List Call) : acts (log ++ more) = acts log ++ acts more :=
  List.filterMap_append

theorem acts_destroyed (hs : List Handle) : acts (hs.map .destroyed) = Ledger.closes hs := by
  rw [acts, List.filterMap_map, Ledger.closes, ← List.filterMap_eq_map]
  rfl

/-- The driver's log is balanced once the handles are destroyed, and the driver's next number
is new. -/
abbrev Kept (driver : Driver) (held : List Handle) : Prop :=
  Holders.Kept Handle.id driver.next (acts driver.log) held

theorem create_kept (h : Kept driver rest) (device : Device) (kind : Kind) :
    Kept (create driver device kind).2 ((create driver device kind).1 :: rest) := by
  have hacts : acts (create driver device kind).2.log =
      acts driver.log ++ [(⟨device,kind,driver.next⟩,.opened)] := acts_append _ _
  rw [Kept, hacts]
  exact h.opened rfl

theorem destroy_kept {held : List Handle} (h : Kept driver (held ++ rest)) :
    Kept (destroyHandles driver held) rest := by
  have hacts : acts (destroyHandles driver held).log = acts driver.log ++ Ledger.closes held := by
    rw [destroyHandles, acts_append, acts_destroyed]
  rw [Kept, hacts]
  exact h.closes

/-! ### One entry -/

/-- The variable a stage fills. -/
def slot (r : PipelineResources) : Stage → Option Nat
  | .setLayout => r.setLayout
  | .pipelineLayout => r.pipelineLayout
  | .source => none
  | .shader => r.shader
  | .pipeline => r.pipeline

theorem createStage_device (device : Device) (stage : Stage) (r : PipelineResources)
    (driver : Driver) : (createStage device stage r driver).1.device = r.device := by
  cases stage <;> rfl

theorem createStage_slot {stage other : Stage} (h : other ≠ stage) :
    slot (createStage device stage r driver).1 other = slot r other := by
  cases stage <;> cases other <;> first | rfl | exact absurd rfl h

theorem createStage_kept {stage : Stage} (hd : r.device = some device) (hslot : slot r stage = none)
    (h : Kept driver (r.handles ++ rest)) :
    Kept (createStage device stage r driver).2
      ((createStage device stage r driver).1.handles ++ rest) := by
  obtain ⟨_,setLayout,pipelineLayout,shader,pipeline⟩ := r
  obtain rfl := hd
  cases stage with
  | source => exact h
  | setLayout | pipelineLayout | shader | pipeline =>
    obtain rfl := hslot
    refine (create_kept h device _).perm (List.perm_iff_count.mpr (fun k => ?_))
    simp only [PipelineResources.handles, createStage, create, Option.map_none, Option.toList_none,
      Option.map_some, Option.toList_some, List.count_cons, List.count_append, List.count_nil]
    omega

/-- A chain of stages whose variables are empty. -/
theorem createStages_kept {stages : List Stage} (hnodup : stages.Nodup)
    (hd : r.device = some device) (hslots : ∀ stage ∈ stages, slot r stage = none)
    (h : Kept driver (r.handles ++ rest)) :
    Kept (createStages fails device stages r driver).2.2
      ((createStages fails device stages r driver).2.1.handles ++ rest) := by
  induction stages generalizing r driver with
  | nil => exact h
  | cons stage stages ih =>
    obtain ⟨hnew,hnodup⟩ := List.nodup_cons.mp hnodup
    unfold createStages
    split
    · exact h
    · have hkept := createStage_kept hd (hslots stage List.mem_cons_self) h
      refine ih hnodup ((createStage_device device stage r driver).trans hd) ?_ hkept
      intro other hother
      have hne : other ≠ stage := fun he => hnew (he ▸ hother)
      rw [createStage_slot hne]
      exact hslots other (List.mem_cons_of_mem stage hother)

/-- A chain leaves alone what it has no stage for. -/
theorem createStages_keeps {stages : List Stage} :
    (createStages fails device stages r driver).2.1.device = r.device ∧
    ∀ other, other ∉ stages →
      slot (createStages fails device stages r driver).2.1 other = slot r other := by
  induction stages generalizing r driver with
  | nil => exact ⟨rfl,fun _ _ => rfl⟩
  | cons stage stages ih =>
    unfold createStages
    split
    · exact ⟨rfl,fun _ _ => rfl⟩
    · obtain ⟨hdevice,hslot⟩ := @ih (createStage device stage r driver).1
        (createStage device stage r driver).2
      refine ⟨hdevice.trans (createStage_device device stage r driver),?_⟩
      intro other hother
      simp only [List.mem_cons, not_or] at hother
      exact (hslot other hother.2).trans (createStage_slot hother.1)

/-- The log grows by handles that are new. -/
structure Grows (driver driver' : Driver) (more : List Call) : Prop where
  log : driver'.log = driver.log ++ more
  next : driver.next ≤ driver'.next
  fresh : ∀ entry ∈ acts more, driver.next ≤ entry.1.id

theorem createStage_grows (device : Device) (stage : Stage) (r : PipelineResources)
    (driver : Driver) : ∃ more, Grows driver (createStage device stage r driver).2 more := by
  cases stage with
  | source => exact ⟨[],(List.append_nil _).symm,Nat.le_refl _,by simp [acts]⟩
  | setLayout | pipelineLayout | shader | pipeline =>
    exact ⟨_,rfl,Nat.le_succ _,by simp [acts, act]⟩

theorem createStages_grows {stages : List Stage} :
    ∃ more, Grows driver (createStages fails device stages r driver).2.2 more := by
  induction stages generalizing r driver with
  | nil => exact ⟨[],(List.append_nil _).symm,Nat.le_refl _,by simp [acts]⟩
  | cons stage stages ih =>
    unfold createStages
    split
    · exact ⟨[],(List.append_nil _).symm,Nat.le_refl _,by simp [acts]⟩
    · obtain ⟨first,hfirst⟩ := createStage_grows device stage r driver
      obtain ⟨more,hmore⟩ := @ih (createStage device stage r driver).1
        (createStage device stage r driver).2
      refine ⟨first ++ more,?_,Nat.le_trans hfirst.next hmore.next,?_⟩
      · rw [hmore.log, hfirst.log, List.append_assoc]
      · intro entry hentry
        rw [acts_append] at hentry
        rcases List.mem_append.mp hentry with hentry | hentry
        · exact hfirst.fresh entry hentry
        · exact Nat.le_trans hfirst.next (hmore.fresh entry hentry)

/-! ### The entries of a processor -/

/-- The first variable is filled before the others, on a device. -/
structure Shaped (r : PipelineResources) : Prop where
  first : r.setLayout = none → r.pipelineLayout = none ∧ r.shader = none ∧ r.pipeline = none
  located : r.setLayout ≠ none → r.device ≠ none

def entryFor (p : Processor) (format : PixelFormat) : PipelineResources :=
  (p.pipelines.lookup format).getD {}

def held (p : Processor) : List Handle := p.pipelines.entries.flatMap (fun e => e.2.handles)

/-- What the other entries hold. -/
def others (p : Processor) (format : PixelFormat) : List Handle :=
  (p.pipelines.entries.kerase format).flatMap (fun e => e.2.handles)

theorem held_perm (p : Processor) (format : PixelFormat) :
    (held p).Perm ((entryFor p format).handles ++ others p format) := by
  by_cases hmem : format ∈ p.pipelines.entries.keys
  · obtain ⟨r,before,after,_,hsplit,herase⟩ := List.exists_of_kerase hmem
    have hlookup : p.pipelines.lookup format = some r := by
      refine AList.mem_lookup_iff.mpr ?_
      rw [hsplit]
      exact List.mem_append_right _ List.mem_cons_self
    rw [entryFor, hlookup, Option.getD_some, held, others, herase, hsplit]
    simp only [List.flatMap_append, List.flatMap_cons]
    rw [← List.append_assoc, ← List.append_assoc]
    exact List.Perm.append_right _ List.perm_append_comm
  · have hlookup : p.pipelines.lookup format = none := AList.lookup_eq_none.mpr hmem
    rw [entryFor, hlookup, held, others, List.kerase_of_notMem_keys hmem]
    exact .refl _

theorem held_insert (p : Processor) (format : PixelFormat) (r : PipelineResources)
    (driver : Driver) :
    held ⟨p.pipelines.insert format r,driver⟩ = r.handles ++ others p format := by
  rw [held, AList.entries_insert]
  rfl

theorem entry_insert_self (p : Processor) (format : PixelFormat) (r : PipelineResources)
    (driver : Driver) : entryFor ⟨p.pipelines.insert format r,driver⟩ format = r := by
  rw [entryFor, AList.lookup_insert, Option.getD_some]

theorem entry_insert_ne (p : Processor) {format other : PixelFormat} (r : PipelineResources)
    (driver : Driver) (h : other ≠ format) :
    entryFor ⟨p.pipelines.insert format r,driver⟩ other = entryFor p other := by
  rw [entryFor, AList.lookup_insert_ne h]
  rfl

/-! ### One call -/

structure Request where
  fails : Stage → Bool := fun _ => false
  device : Device
  format : PixelFormat

def call (p : Processor) (c : Request) : Processor :=
  (pipelineFor c.fails c.device c.format p).1

def allStages : List Stage :=
  createDescriptorSetLayout ++ createPipelineLayout ++ createShaderAndPipeline

/-- The stages of a call from an entry on. -/
def chain (c : Request) (r : PipelineResources) (driver : Driver) :
    Bool × PipelineResources × Driver :=
  createStages (throws c.fails c.format) c.device allStages { r with device := some c.device }
    driver

def stored (p : Processor) (c : Request) (made : Bool × PipelineResources × Driver) : Processor :=
  ⟨p.pipelines.insert c.format made.2.1,made.2.2⟩

/-- What a call can do: find its pipeline, replace one of another device, or go on from what
an entry without a pipeline has. -/
theorem call_cases (p : Processor) (c : Request) :
    ((entryFor p c.format).pipeline ≠ none ∧ (entryFor p c.format).device = some c.device ∧
      call p c = p) ∨
    ((entryFor p c.format).pipeline ≠ none ∧
      call p c = stored p c
        (chain c {} (destroyHandles p.driver (entryFor p c.format).handles))) ∨
    ((entryFor p c.format).pipeline = none ∧
      call p c = stored p c (chain c (entryFor p c.format) p.driver)) := by
  by_cases hp : (entryFor p c.format).pipeline = none
  · refine .inr (.inr ⟨hp,?_⟩)
    have hnone : ¬ ((p.pipelines.lookup c.format).getD {}).pipeline.isSome = true := by
      simpa [entryFor] using hp
    unfold call pipelineFor
    dsimp only
    rw [if_neg (fun h => hnone h.1), if_neg hnone]
    rfl
  · have hsome : ((p.pipelines.lookup c.format).getD {}).pipeline.isSome = true :=
      Option.isSome_iff_ne_none.mpr hp
    by_cases hd : (entryFor p c.format).device = some c.device
    · refine .inl ⟨hp,hd,?_⟩
      unfold call pipelineFor
      dsimp only
      rw [if_pos ⟨hsome,hd⟩]
    · refine .inr (.inl ⟨hp,?_⟩)
      unfold call pipelineFor
      dsimp only
      rw [if_neg (fun h => hd h.2), if_pos hsome]
      rfl

/-- The call finds its entry with a pipeline or without handles, or fails at its first handle
on the entry's own device. -/
def Sound (p : Processor) (c : Request) : Prop :=
  (entryFor p c.format).pipeline ≠ none ∨ (entryFor p c.format).handles = [] ∨
    (c.fails .setLayout = true ∧ (entryFor p c.format).device = some c.device)

structure Inv (p : Processor) : Prop where
  kept : Kept p.driver (held p)
  shaped : ∀ format, Shaped (entryFor p format)

theorem allStages_nodup : allStages.Nodup := by decide

theorem Shaped.empty (h : Shaped r) (hnone : r.handles = []) : ∀ stage, slot r stage = none := by
  have hfirst : r.setLayout = none := by
    by_contra hsome
    obtain ⟨id,hid⟩ := Option.ne_none_iff_exists'.mp hsome
    obtain ⟨device,hdevice⟩ := Option.ne_none_iff_exists'.mp (h.located hsome)
    simp [PipelineResources.handles, hdevice, hid] at hnone
  obtain ⟨h1,h2,h3⟩ := h.first hfirst
  intro stage
  cases stage <;> first | assumption | rfl

theorem handles_of_slots (h : ∀ stage, slot r stage = none) : r.handles = [] := by
  have h1 : r.setLayout = none := h .setLayout
  have h2 : r.pipelineLayout = none := h .pipelineLayout
  have h3 : r.shader = none := h .shader
  have h4 : r.pipeline = none := h .pipeline
  unfold PipelineResources.handles
  split
  · rfl
  · simp [h1, h2, h3, h4]

theorem slot_device (r : PipelineResources) (device : Option Device) (stage : Stage) :
    slot { r with device := device } stage = slot r stage := by
  cases stage <;> rfl

/-- A chain that starts without handles accounts for all it makes. -/
theorem chain_kept {c : Request} (hslots : ∀ stage, slot r stage = none)
    (h : Kept driver rest) :
    Kept (chain c r driver).2.2 ((chain c r driver).2.1.handles ++ rest) := by
  have hslots' : ∀ stage, slot { r with device := some c.device } stage = none :=
    fun stage => (slot_device r _ stage).trans (hslots stage)
  refine createStages_kept allStages_nodup rfl (fun stage _ => hslots' stage) ?_
  rw [handles_of_slots hslots']
  exact h

theorem chain_device {c : Request} : (chain c r driver).2.1.device = some c.device :=
  createStages_keeps.1

theorem chain_refused {c : Request} (h : c.fails .setLayout = true) :
    chain c r driver = (false,{ r with device := some c.device },driver) := by
  have hthrows : throws c.fails c.format .setLayout = true := by simp [throws, h]
  exact if_pos hthrows

theorem chain_first {c : Request} (h : c.fails .setLayout = false) :
    (chain c r driver).2.1.setLayout = some driver.next := by
  have hthrows : ¬ throws c.fails c.format .setLayout = true := by simp [throws, h]
  have hchain : chain c r driver = createStages (throws c.fails c.format) c.device
      [.pipelineLayout,.source,.shader,.pipeline]
      { r with device := some c.device, setLayout := some driver.next }
      (create driver c.device .setLayout).2 := if_neg hthrows
  rw [hchain]
  exact createStages_keeps.2 .setLayout (by decide)

theorem chain_shaped {c : Request} (h : Shaped r) : Shaped (chain c r driver).2.1 := by
  cases hfails : c.fails .setLayout with
  | true =>
    rw [chain_refused hfails]
    exact ⟨h.first,by simp⟩
  | false =>
    refine ⟨?_,fun _ => by simp [chain_device]⟩
    intro hnone
    rw [chain_first hfails] at hnone
    cases hnone

theorem shaped_default : Shaped {} := ⟨fun _ => ⟨rfl,rfl,rfl⟩,by simp⟩

theorem stored_shaped {c : Request} {made : Bool × PipelineResources × Driver}
    (h : ∀ format, Shaped (entryFor p format)) (hmade : Shaped made.2.1) :
    ∀ format, Shaped (entryFor (stored p c made) format) := by
  intro format
  by_cases hf : format = c.format
  · subst hf
    rw [stored, entry_insert_self]
    exact hmade
  · rw [stored, entry_insert_ne p _ _ hf]
    exact h format

theorem call_shaped (h : ∀ format, Shaped (entryFor p format)) (c : Request) :
    ∀ format, Shaped (entryFor (call p c) format) := by
  rcases call_cases p c with ⟨_,_,heq⟩ | ⟨_,heq⟩ | ⟨_,heq⟩
  · rw [heq]
    exact h
  · rw [heq]
    exact stored_shaped h (chain_shaped shaped_default)
  · rw [heq]
    exact stored_shaped h (chain_shaped (h c.format))

/-- A sound call keeps the books. -/
theorem call_kept {c : Request} (h : Inv p) (hs : Sound p c) :
    Kept (call p c).driver (held (call p c)) := by
  have hsplit := h.kept.perm (held_perm p c.format)
  rcases call_cases p c with ⟨_,_,heq⟩ | ⟨_,heq⟩ | ⟨hnone,heq⟩
  · rw [heq]
    exact h.kept
  · rw [heq, stored, held_insert]
    exact chain_kept (fun stage => by cases stage <;> rfl) (destroy_kept hsplit)
  · rw [heq, stored, held_insert]
    rcases hs with hs | hs | ⟨hfails,hdevice⟩
    · exact absurd hnone hs
    · rw [hs, List.nil_append] at hsplit
      exact chain_kept ((h.shaped c.format).empty hs) hsplit
    · have hsame : { entryFor p c.format with device := some c.device } = entryFor p c.format := by
        rw [← hdevice]
      rw [chain_refused hfails, hsame]
      exact hsplit

theorem acts_tearDown (p : Processor) :
    acts (tearDown p).driver.log = acts p.driver.log ++ Ledger.closes (held p) := by
  rw [tearDown, destroyHandles, acts_append, acts_destroyed]
  rfl

theorem mem_handles_setLayout {id : Nat} (hdevice : r.device = some device)
    (hid : r.setLayout = some id) : ⟨device,.setLayout,id⟩ ∈ r.handles := by
  simp [PipelineResources.handles, hdevice, hid]

theorem handle_eq_setLayout {h : Handle} (hm : h ∈ r.handles) (hk : h.kind = .setLayout) :
    r.device = some h.device ∧ r.setLayout = some h.id := by
  unfold PipelineResources.handles at hm
  split at hm
  · cases hm
  · rename_i device hdevice
    simp only [List.mem_append, Option.mem_toList, Option.map_eq_some_iff] at hm
    rcases hm with ((⟨_,_,rfl⟩ | ⟨_,_,rfl⟩) | ⟨_,_,rfl⟩) | ⟨_,hid,rfl⟩
    · cases hk
    · cases hk
    · cases hk
    · exact ⟨hdevice,hid⟩

/-- Any other call loses the handle of the set layout: it is overwritten, or the entry moves
to another device with it. -/
theorem call_lost {c : Request} (h : Inv p) (hs : ¬ Sound p c) :
    ¬ Ledger.Balanced (acts (tearDown (call p c)).driver.log) := by
  simp only [Sound, not_or, not_not, not_and] at hs
  obtain ⟨hnone,hhandles,hfirst⟩ := hs
  have hsplit := h.kept.perm (held_perm p c.format)
  have hshaped := h.shaped c.format
  have hlayout : (entryFor p c.format).setLayout ≠ none := by
    intro hempty
    refine hhandles (handles_of_slots (fun stage => ?_))
    obtain ⟨h1,h2,h3⟩ := hshaped.first hempty
    cases stage <;> first | assumption | rfl
  obtain ⟨id,hid⟩ := Option.ne_none_iff_exists'.mp hlayout
  obtain ⟨device,hdevice⟩ := Option.ne_none_iff_exists'.mp (hshaped.located hlayout)
  have hmem := mem_handles_setLayout hdevice hid
  have hnot : ⟨device,.setLayout,id⟩ ∉ others p c.format :=
    fun hother => List.disjoint_of_nodup_append
      (Ledger.nodup_of_balanced_closes hsplit.balanced) hmem hother
  have hheld := List.mem_append_left (others p c.format) hmem
  rcases call_cases p c with ⟨hsome,_,_⟩ | ⟨hsome,_⟩ | ⟨_,heq⟩
  · exact absurd hnone hsome
  · exact absurd hnone hsome
  · obtain ⟨more,hgrows⟩ :
        ∃ more, Grows p.driver (chain c (entryFor p c.format) p.driver).2.2 more :=
      createStages_grows
    rw [acts_tearDown, heq, stored, held_insert]
    dsimp only
    rw [hgrows.log, acts_append]
    refine Ledger.not_balanced_lost hsplit.balanced hheld ?_ ?_
    · intro entry hentry heq
      have hle := hgrows.fresh entry hentry
      obtain ⟨old,hold,hsame⟩ := Ledger.mem_log_of_mem_closes hsplit.balanced hheld
      have hlt := h.kept.fresh old hold
      rw [hsame] at hlt
      rw [heq] at hle
      exact Nat.lt_irrefl _ (Nat.lt_of_lt_of_le hlt hle)
    · intro hafter
      rcases List.mem_append.mp hafter with hafter | hafter
      · obtain ⟨hdev,hset⟩ := handle_eq_setLayout hafter rfl
        rw [chain_device] at hdev
        cases hfails : c.fails .setLayout with
        | true => exact hfirst hfails (hdevice.trans hdev.symm)
        | false =>
          rw [chain_first hfails] at hset
          obtain ⟨old,hold,hsame⟩ := Ledger.mem_log_of_mem_closes hsplit.balanced hheld
          have hlt := h.kept.fresh old hold
          rw [hsame] at hlt
          have hnext : p.driver.next = id := Option.some.inj hset
          exact Nat.lt_irrefl _ (hnext ▸ hlt)
      · exact hnot hafter

/-! ### Runs -/

def after (calls : List Request) : Processor := calls.foldl call {}

/-- When the processor is destroyed every handle created is destroyed exactly once, and until
then every live handle is stored in an entry on its device. -/
structure Accounted (p : Processor) : Prop where
  balanced : Ledger.Balanced (acts (tearDown p).driver.log)
  stored : ∀ h, .created h ∈ p.driver.log → .destroyed h ∉ p.driver.log → h ∈ held p

theorem accounted_of_kept (h : Kept p.driver (held p)) : Accounted p := by
  refine ⟨by rw [acts_tearDown]; exact h.balanced,?_⟩
  intro k hcreated hlive
  have hopened : (k,Ledger.Act.opened) ∈ acts p.driver.log :=
    List.mem_filterMap.mpr ⟨_,hcreated,rfl⟩
  refine Ledger.mem_closes_of_opened h.balanced hopened (fun hclosed => hlive ?_)
  obtain ⟨entry,hentry,hact⟩ := List.mem_filterMap.mp hclosed
  cases entry with
  | destroyed h =>
    obtain ⟨rfl,_⟩ := Prod.mk.inj (Option.some.inj hact)
    exact hentry
  | created | submitted | reached => cases hact

theorem after_inv {calls : List Request}
    (h : ∀ past c later, calls = past ++ c :: later → Sound (after past) c) :
    Inv (after calls) := by
  induction calls using List.reverseRecOn with
  | nil =>
    refine ⟨⟨Ledger.Balanced.nil,fun _ hentry => by cases hentry⟩,fun _ => ?_⟩
    exact shaped_default
  | append_singleton calls c ih =>
    have hinv := ih (fun past d later hsplit =>
      h past d (later ++ [c]) (by rw [hsplit, List.append_assoc, List.cons_append]))
    have hsound := h calls c [] rfl
    rw [after, List.foldl_append]
    exact ⟨call_kept hinv hsound,call_shaped hinv.shaped c⟩

theorem sound_of_accounted {past : List Request}
    (h : ∀ first more, past = first ++ more → Accounted (after first)) :
    ∀ first c more, past = first ++ c :: more → Sound (after first) c := by
  induction past using List.reverseRecOn with
  | nil => simp
  | append_singleton past d ih =>
    have hbefore := ih (fun first more hsplit =>
      h first (more ++ [d]) (by rw [hsplit, List.append_assoc]))
    have hlast : Sound (after past) d := by
      by_contra hnot
      refine call_lost (after_inv hbefore) hnot ?_
      have haccounted := h (past ++ [d]) [] (List.append_nil _).symm
      rw [after, List.foldl_append] at haccounted
      exact haccounted.balanced
    intro first c more hsplit
    rcases List.eq_nil_or_concat more with rfl | ⟨init,last,rfl⟩
    · obtain ⟨rfl,heq⟩ := List.append_inj' hsplit rfl
      obtain rfl := (List.cons.inj heq).1
      exact hlast
    · have hcut : past ++ [d] = (first ++ c :: init) ++ [last] := by simpa using hsplit
      exact hbefore first c init (List.append_inj' hcut rfl).1

/-- The books are kept through every sequence of calls exactly when no call goes on from an
entry that an earlier call left without its pipeline but with handles, unless it fails at once
on the same device. -/
theorem ledger_kept_iff (calls : List Request) :
    (∀ past later, calls = past ++ later → Accounted (after past)) ↔
      ∀ past c later, calls = past ++ c :: later → Sound (after past) c := by
  constructor
  · exact sound_of_accounted
  · intro h past later hsplit
    refine accounted_of_kept (after_inv (fun first c more hfirst => ?_)).kept
    exact h first c (more ++ later) (by rw [hsplit, hfirst, List.append_assoc, List.cons_append])

/-- The pipeline layout cannot be made, and the next call begins with the set layout again. -/
theorem retry_loses_handle :
    ¬ Accounted (after [
      { fails := fun stage => stage == .pipelineLayout, device := 0, format := .r8g8b8a8Unorm },
      { device := 0, format := .r8g8b8a8Unorm }]) := by
  intro h
  have hlost := h.balanced ⟨0,.setLayout,0⟩
  revert hlost
  decide

end Cpipe.Proofs.VulkanHandles
