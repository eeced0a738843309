import Cpipe.Proofs.EditorServer
import Cpipe.Proofs.Fields
import Cpipe.Web.PipelineStore

namespace Cpipe.Proofs.ParamSync
open Cpipe.Server Cpipe.Server.EditorServer Cpipe.Proofs.EditorServer Cpipe.Proofs.Fields Cpipe.Web

/-! ### Documents both sides treat alike -/

/-- What the server compares with the id of an update; none where it throws. -/
def idText (node : Json) : Option String :=
  match property node "id" with
  | none => some ""
  | some (.string id) => some id
  | some _ => none

/-- The parameters are absent, null or an object. -/
def Settable (node : Json) : Prop :=
  match property node "params" with
  | none => True
  | some .null => True
  | some (.object _) => True
  | some _ => False

/-- The id of a node is its own among the nodes before it, every one of which the server
can read, and its parameters can be set. A node without id is behind one at which the
server stops. -/
structure Aligned (nodes : List Json) : Prop where
  named : ∀ before node after id, nodes = before ++ node :: after →
    property node "id" = some (.string id) →
    Settable node ∧ ∀ other ∈ before, ∃ text, idText other = some text ∧ text ≠ id
  nameless : ∀ before node after, nodes = before ++ node :: after →
    property node "id" = none → Settable node →
    ∃ other ∈ before, idText other = none ∨ idText other = some ""

structure ParamUpdate where
  nodeId : String
  key : String
  value : Json

/-- The editor's store after some updates. -/
def edited (store : PipelineStore) (updates : List ParamUpdate) : PipelineStore :=
  updates.foldl (fun store u => (sendParamUpdate u.nodeId u.key u.value store).1) store

/-- The server after the frames of these updates, in their order. -/
def delivered (encode : UInt32 → List UInt8) (client : Client) (s : EditorServer)
    (updates : List ParamUpdate) : EditorServer :=
  updates.foldl (fun s u => s.step encode
    (.control client (sendParamUpdate u.nodeId u.key u.value {}).2)) s

/-! ### One node -/

/-- The node with one parameter set, as the editor writes it. -/
def withParam (node : Json) (key : String) (value : Json) : Json :=
  withField node "params" (withField (orEmpty (property node "params")) key value)

/-- Where the parameters can be set both sides write the same. -/
theorem setParam_settable {fields : Params} (h : Settable (.object fields)) (key : String)
    (value : Json) : ∃ changed, setParam fields key value = .ok changed ∧
      withParam (.object fields) key value = .object changed := by
  have hread : property (.object fields) "params" = Params.lookup fields "params" := rfl
  simp only [Settable, hread] at h
  simp only [setParam, withParam, hread]
  cases hl : Params.lookup fields "params" with
  | none => exact ⟨_,rfl,rfl⟩
  | some params =>
    rw [hl] at h
    cases params with
    | null => exact ⟨_,rfl,rfl⟩
    | object params => exact ⟨_,rfl,rfl⟩
    | bool b => exact h.elim
    | number v => exact h.elim
    | string t => exact h.elim
    | array items => exact h.elim

theorem setParam_unsettable {fields : Params} (h : ¬ Settable (.object fields)) (key : String)
    (value : Json) : setParam fields key value = .error .thrown := by
  have hread : property (.object fields) "params" = Params.lookup fields "params" := rfl
  simp only [Settable, hread] at h
  simp only [setParam]
  cases hl : Params.lookup fields "params" with
  | none => simp [hl] at h
  | some params =>
    rw [hl] at h
    cases params with
    | null => exact (h trivial).elim
    | object params => exact (h trivial).elim
    | bool b => rfl
    | number v => rfl
    | string t => rfl
    | array items => rfl

theorem withParam_params (fields : Params) (key : String) (value : Json) :
    ∃ params, property (withParam (.object fields) key value) "params" = some (.object params) ∧
      Params.lookup params key = some value :=
  ⟨_,lookup_assign_self _ _ _,lookup_assign_self _ _ _⟩

theorem withParam_id (fields : Params) (key : String) (value : Json) :
    property (withParam (.object fields) key value) "id" = property (.object fields) "id" :=
  lookup_assign_ne _ _ (by decide)

/-- Setting a parameter changes the node for some value. -/
theorem withParam_changes (fields : Params) (key : String) :
    ∃ value, withParam (.object fields) key value ≠ .object fields := by
  by_contra hno
  have hall : ∀ value, withParam (.object fields) key value = .object fields :=
    fun value => not_not.mp (fun hne => hno ⟨value,hne⟩)
  obtain ⟨p,hp,hnull⟩ := withParam_params fields key .null
  obtain ⟨q,hq,htrue⟩ := withParam_params fields key (.bool true)
  rw [hall] at hp hq
  rw [hp] at hq
  obtain rfl := Json.object.inj (Option.some.inj hq)
  rw [hnull] at htrue
  cases htrue

/-! ### The list of nodes -/

theorem textValue_idText (fields : Params) : textValue (.object fields) "id" =
    match idText (.object fields) with
    | some id => .ok id
    | none => .error .thrown := by
  have hread : property (.object fields) "id" = Params.lookup fields "id" := rfl
  simp only [textValue, idText, hread]
  cases Params.lookup fields "id" with
  | none => rfl
  | some id => cases id <;> rfl

theorem updateNodes_skip {nodeId key id : String} {value node : Json} {rest : List Json}
    (hnode : ∃ fields, node = .object fields) (hid : idText node = some id) (hne : id ≠ nodeId) :
    updateNodes nodeId key value (node :: rest) =
      (updateNodes nodeId key value rest).map (node :: ·) := by
  obtain ⟨fields,rfl⟩ := hnode
  have htext : textValue (.object fields) "id" = .ok id := by rw [textValue_idText, hid]
  simp only [updateNodes, htext]
  exact if_pos hne

theorem updateNodes_throw {nodeId key : String} {value node : Json} {rest : List Json}
    (hnode : ∃ fields, node = .object fields) (hid : idText node = none) :
    updateNodes nodeId key value (node :: rest) = .error .thrown := by
  obtain ⟨fields,rfl⟩ := hnode
  have htext : textValue (.object fields) "id" = .error .thrown := by rw [textValue_idText, hid]
  simp only [updateNodes, htext]

theorem updateNodes_here {nodeId key : String} {value : Json} {fields : Params} {rest : List Json}
    (hid : idText (.object fields) = some nodeId) :
    updateNodes nodeId key value (.object fields :: rest) =
      (setParam fields key value).map (fun changed => .object changed :: rest) := by
  have htext : textValue (.object fields) "id" = .ok nodeId := by rw [textValue_idText, hid]
  simp only [updateNodes, htext]
  exact if_neg (by simp)

/-- The server can read the ids of these nodes and looks for another. -/
def Passed (nodeId : String) (nodes : List Json) : Prop :=
  ∀ node ∈ nodes, ∃ text, idText node = some text ∧ text ≠ nodeId

theorem updateNodes_passed {nodeId key : String} {value : Json} {before rest : List Json}
    (hobj : ∀ node ∈ before, ∃ fields, node = .object fields) (h : Passed nodeId before) :
    updateNodes nodeId key value (before ++ rest) =
      (updateNodes nodeId key value rest).map (before ++ ·) := by
  induction before with
  | nil => simp [Except.map]; cases updateNodes nodeId key value rest <;> rfl
  | cons node before ih =>
    obtain ⟨text,hid,hne⟩ := h node (by simp)
    rw [List.cons_append, updateNodes_skip (hobj node (by simp)) hid hne,
      ih (fun n hn => hobj n (by simp [hn])) (fun n hn => h n (by simp [hn]))]
    cases updateNodes nodeId key value rest <;> rfl

/-- The server's loop ends at this node. -/
def Stops (nodeId : String) (node : Json) : Prop :=
  idText node = none ∨ idText node = some nodeId

/-- Every list either is passed or has a first node that is not. -/
theorem passed_cases (nodeId : String) (nodes : List Json) : Passed nodeId nodes ∨
    ∃ before node after, nodes = before ++ node :: after ∧ Passed nodeId before ∧
      Stops nodeId node := by
  induction nodes with
  | nil => exact .inl (by simp [Passed])
  | cons node nodes ih =>
    by_cases hstop : Stops nodeId node
    · exact .inr ⟨[],node,nodes,rfl,by simp [Passed],hstop⟩
    · obtain ⟨hnone,hsome⟩ := not_or.mp hstop
      obtain ⟨text,htext⟩ := Option.ne_none_iff_exists'.mp hnone
      have hnode : ∃ text, idText node = some text ∧ text ≠ nodeId :=
        ⟨text,htext,fun he => hsome (he ▸ htext)⟩
      rcases ih with hpassed | ⟨before,stop,after,rfl,hpassed,hstop⟩
      · exact .inl (List.forall_mem_cons.mpr ⟨hnode,hpassed⟩)
      · exact .inr ⟨node :: before,stop,after,rfl,List.forall_mem_cons.mpr ⟨hnode,hpassed⟩,hstop⟩

/-- The nodes of the server after an update. -/
def serverNodes (nodeId key : String) (value : Json) (nodes : List Json) : List Json :=
  match updateNodes nodeId key value nodes with
  | .ok changed => changed
  | .error _ => nodes

theorem serverNodes_here {nodeId key : String} {value node : Json} {before after : List Json}
    (hobj : ∀ n ∈ before ++ node :: after, ∃ fields, n = .object fields)
    (hp : Passed nodeId before) (hid : idText node = some nodeId) (hset : Settable node) :
    serverNodes nodeId key value (before ++ node :: after) =
      before ++ withParam node key value :: after := by
  obtain ⟨fields,rfl⟩ := hobj node (by simp)
  obtain ⟨changed,hok,heq⟩ := setParam_settable hset key value
  rw [serverNodes, updateNodes_passed (fun n hn => hobj n (by simp [hn])) hp,
    updateNodes_here hid, hok, heq]
  rfl

theorem serverNodes_stuck {nodeId key : String} {value node : Json} {before after : List Json}
    (hobj : ∀ n ∈ before ++ node :: after, ∃ fields, n = .object fields)
    (hp : Passed nodeId before)
    (hstop : idText node = none ∨ (idText node = some nodeId ∧ ¬ Settable node)) :
    serverNodes nodeId key value (before ++ node :: after) = before ++ node :: after := by
  obtain ⟨fields,rfl⟩ := hobj node (by simp)
  have herror : updateNodes nodeId key value (.object fields :: after) = .error .thrown := by
    rcases hstop with hid | ⟨hid,hset⟩
    · exact updateNodes_throw ⟨fields,rfl⟩ hid
    · rw [updateNodes_here hid, setParam_unsettable hset]
      rfl
  rw [serverNodes, updateNodes_passed (fun n hn => hobj n (by simp [hn])) hp, herror]
  rfl

theorem serverNodes_passed {nodeId key : String} {value : Json} {nodes : List Json}
    (hobj : ∀ n ∈ nodes, ∃ fields, n = .object fields) (hp : Passed nodeId nodes) :
    serverNodes nodeId key value nodes = nodes := by
  have herror : updateNodes nodeId key value (nodes ++ []) =
      (updateNodes nodeId key value []).map (nodes ++ ·) := updateNodes_passed hobj hp
  rw [List.append_nil] at herror
  rw [serverNodes, herror]
  rfl

/-! ### The editor's map -/

/-- The nodes of the editor after an update. -/
def editorNodes (nodeId key : String) (value : Json) (nodes : List Json) : List Json :=
  nodes.map (updatePipelineNode nodeId key value)

theorem updatePipelineNode_named {nodeId key : String} {value node : Json}
    (h : property node "id" = some (.string nodeId)) :
    updatePipelineNode nodeId key value node = withParam node key value := by
  simp only [updatePipelineNode, h]
  exact if_pos trivial

theorem updatePipelineNode_other {nodeId key : String} {value node : Json}
    (h : property node "id" ≠ some (.string nodeId)) :
    updatePipelineNode nodeId key value node = node := by
  unfold updatePipelineNode
  split
  · rename_i id hid
    rw [if_neg (fun he : id = nodeId => h (he ▸ hid))]
  · rfl

theorem idText_named {node : Json} {nodeId : String}
    (h : property node "id" = some (.string nodeId)) : idText node = some nodeId := by
  simp only [idText, h]

theorem named_of_idText {node : Json} {nodeId : String} (h : idText node = some nodeId) :
    property node "id" = some (.string nodeId) ∨ (property node "id" = none ∧ nodeId = "") := by
  unfold idText at h
  split at h
  · rename_i hid
    exact .inr ⟨hid,(Option.some.inj h).symm⟩
  · rename_i id hid
    exact .inl (by rw [hid, Option.some.inj h])
  · cases h

/-- Nodes the server passes are not the editor's either. -/
theorem editorNodes_passed {nodeId key : String} {value : Json} {nodes : List Json}
    (hp : Passed nodeId nodes) : editorNodes nodeId key value nodes = nodes := by
  have hsame : ∀ node ∈ nodes, updatePipelineNode nodeId key value node = id node := by
    intro node hn
    refine updatePipelineNode_other (fun hid => ?_)
    obtain ⟨text,htext,hne⟩ := hp node hn
    rw [idText_named hid] at htext
    exact hne (Option.some.inj htext).symm
  rw [editorNodes, List.map_congr_left hsame, List.map_id]

/-! ### Aligned documents stay equal -/

variable {nodes : List Json}

theorem aligned_update (hobj : ∀ n ∈ nodes, ∃ fields, n = .object fields) (ha : Aligned nodes)
    (nodeId key : String) (value : Json) :
    editorNodes nodeId key value nodes = serverNodes nodeId key value nodes := by
  by_cases hnamed : ∃ node ∈ nodes, property node "id" = some (.string nodeId)
  · obtain ⟨node,hmem,hid⟩ := hnamed
    obtain ⟨before,after,rfl⟩ := List.append_of_mem hmem
    obtain ⟨hset,hp⟩ := ha.named before node after nodeId rfl hid
    have hafter : editorNodes nodeId key value after = after := by
      have hsame : ∀ n ∈ after, updatePipelineNode nodeId key value n = id n := by
        intro other hother
        refine updatePipelineNode_other (fun hsecond => ?_)
        obtain ⟨first,last,rfl⟩ := List.append_of_mem hother
        obtain ⟨_,hbefore⟩ := ha.named (before ++ node :: first) other last nodeId
          (by rw [List.append_assoc, List.cons_append]) hsecond
        obtain ⟨text,htext,hne⟩ := hbefore node (by simp)
        rw [idText_named hid] at htext
        exact hne (Option.some.inj htext).symm
      rw [editorNodes, List.map_congr_left hsame, List.map_id]
    rw [serverNodes_here hobj hp (idText_named hid) hset, editorNodes, List.map_append,
      List.map_cons, updatePipelineNode_named hid]
    exact congrArg₂ _ (editorNodes_passed hp) (congrArg _ hafter)
  · have hsame : ∀ n ∈ nodes, updatePipelineNode nodeId key value n = id n :=
      fun n hn => updatePipelineNode_other (fun hid => hnamed ⟨n,hn,hid⟩)
    rw [editorNodes, List.map_congr_left hsame, List.map_id]
    rcases passed_cases nodeId nodes with hp | ⟨before,node,after,rfl,hp,hstop⟩
    · exact (serverNodes_passed hobj hp).symm
    · refine (serverNodes_stuck hobj hp ?_).symm
      refine hstop.imp id (fun hid => ⟨hid,fun hset => ?_⟩)
      rcases named_of_idText hid with hown | ⟨hnone,rfl⟩
      · exact hnamed ⟨node,by simp,hown⟩
      · obtain ⟨other,hother,hbad⟩ := ha.nameless before node after rfl hnone hset
        obtain ⟨text,htext,hne⟩ := hp other hother
        rcases hbad with hbad | hbad
        · rw [hbad] at htext
          cases htext
        · rw [hbad] at htext
          exact hne (Option.some.inj htext).symm

theorem updatePipelineNode_object {nodeId key : String} {value node : Json}
    (h : ∃ fields, node = .object fields) :
    ∃ fields, updatePipelineNode nodeId key value node = .object fields := by
  by_cases hid : property node "id" = some (.string nodeId)
  · rw [updatePipelineNode_named hid]
    exact ⟨_,rfl⟩
  · rw [updatePipelineNode_other hid]
    exact h

theorem updatePipelineNode_id {nodeId key : String} {value node : Json}
    (h : ∃ fields, node = .object fields) :
    property (updatePipelineNode nodeId key value node) "id" = property node "id" := by
  by_cases hid : property node "id" = some (.string nodeId)
  · obtain ⟨fields,rfl⟩ := h
    rw [updatePipelineNode_named hid]
    exact withParam_id fields key value
  · rw [updatePipelineNode_other hid]

/-- An update changes no id and makes no parameters settable that were not. -/
theorem aligned_kept (hobj : ∀ n ∈ nodes, ∃ fields, n = .object fields) (ha : Aligned nodes)
    (nodeId key : String) (value : Json) : Aligned (editorNodes nodeId key value nodes) := by
  have hidText : ∀ n ∈ nodes, idText (updatePipelineNode nodeId key value n) = idText n := by
    intro n hn
    rw [idText, idText, updatePipelineNode_id (hobj n hn)]
  have hsettable : ∀ n ∈ nodes,
      (Settable (updatePipelineNode nodeId key value n) ↔ Settable n) := by
    intro n hn
    by_cases hid : property n "id" = some (.string nodeId)
    · obtain ⟨before,after,hsplit⟩ := List.append_of_mem hn
      obtain ⟨fields,rfl⟩ := hobj n hn
      obtain ⟨params,hparams,_⟩ := withParam_params fields key value
      refine iff_of_true ?_ (ha.named before _ after nodeId hsplit hid).1
      rw [updatePipelineNode_named hid, Settable, hparams]
      trivial
    · rw [updatePipelineNode_other hid]
  have hsplits : ∀ before node after,
      editorNodes nodeId key value nodes = before ++ node :: after →
      ∃ first n last, nodes = first ++ n :: last ∧
        updatePipelineNode nodeId key value n = node ∧
        first.map (updatePipelineNode nodeId key value) = before := by
    intro before node after h
    obtain ⟨first,rest,rfl,hfirst,hrest⟩ := List.map_eq_append_iff.mp h
    obtain ⟨n,last,rfl,hn,_⟩ := List.map_eq_cons_iff.mp hrest
    exact ⟨first,n,last,rfl,hn,hfirst⟩
  constructor
  · intro before node after id h hid
    obtain ⟨first,n,last,rfl,rfl,rfl⟩ := hsplits before node after h
    rw [updatePipelineNode_id (hobj n (by simp))] at hid
    obtain ⟨hset,hbefore⟩ := ha.named first n last id rfl hid
    refine ⟨(hsettable n (by simp)).mpr hset,fun other hother => ?_⟩
    obtain ⟨o,ho,rfl⟩ := List.mem_map.mp hother
    rw [hidText o (by simp [ho])]
    exact hbefore o ho
  · intro before node after h hid hset
    obtain ⟨first,n,last,rfl,rfl,rfl⟩ := hsplits before node after h
    rw [updatePipelineNode_id (hobj n (by simp))] at hid
    obtain ⟨o,ho,hbad⟩ := ha.nameless first n last rfl hid ((hsettable n (by simp)).mp hset)
    refine ⟨_,List.mem_map.mpr ⟨o,ho,rfl⟩,?_⟩
    rw [hidText o (by simp [ho])]
    exact hbad

/-! ### Documents that stay equal are aligned -/

theorem getElem?_at (before after : List Json) (node : Json) :
    (before ++ node :: after)[before.length]? = some node := by
  rw [List.getElem?_append_right (Nat.le_refl _), Nat.sub_self, List.getElem?_cons_zero]

theorem getElem?_beside {first last : List Json} {i : Nat} (h : i ≠ first.length) (x y : Json) :
    (first ++ x :: last)[i]? = (first ++ y :: last)[i]? := by
  rcases Nat.lt_or_gt_of_ne h with hlt | hgt
  · rw [List.getElem?_append_left hlt, List.getElem?_append_left hlt]
  · obtain ⟨k,rfl⟩ := Nat.exists_eq_add_of_lt hgt
    rw [List.getElem?_append_right (by omega), List.getElem?_append_right (by omega)]
    have hk : first.length + k + 1 - first.length = k + 1 := by omega
    rw [hk, List.getElem?_cons_succ, List.getElem?_cons_succ]

/-- A node the editor writes into is the node the server finds. -/
theorem found_of_equal {before after : List Json} {fields : Params} {nodeId : String}
    (hobj : ∀ n ∈ before ++ .object fields :: after, ∃ fields, n = .object fields)
    (hid : property (.object fields) "id" = some (.string nodeId))
    (h : ∀ key value, editorNodes nodeId key value (before ++ .object fields :: after) =
      serverNodes nodeId key value (before ++ .object fields :: after)) :
    Settable (.object fields) ∧ Passed nodeId before := by
  obtain ⟨value,hchange⟩ := withParam_changes fields ""
  have hedit : (serverNodes nodeId "" value (before ++ .object fields :: after))[before.length]? =
      some (withParam (.object fields) "" value) := by
    rw [← h, editorNodes, List.getElem?_map, getElem?_at, Option.map_some,
      updatePipelineNode_named hid]
  have hkept : serverNodes nodeId "" value (before ++ .object fields :: after) ≠
      before ++ .object fields :: after := by
    intro heq
    rw [heq, getElem?_at] at hedit
    exact hchange (Option.some.inj hedit).symm
  rcases passed_cases nodeId (before ++ .object fields :: after) with
    hp | ⟨first,stop,last,hsplit,hp,hstop⟩
  · exact absurd (serverNodes_passed hobj hp) hkept
  · rw [hsplit] at hkept hobj hedit
    have hhere : idText stop = some nodeId ∧ Settable stop := by
      by_contra hno
      refine hkept (serverNodes_stuck hobj hp (hstop.imp_right (fun hid' => ⟨hid',?_⟩)))
      exact fun hset => hno ⟨hid',hset⟩
    rw [serverNodes_here hobj hp hhere.1 hhere.2] at hedit
    have hlength : before.length = first.length := by
      by_contra hne
      rw [getElem?_beside hne _ stop, ← hsplit, getElem?_at] at hedit
      exact hchange (Option.some.inj hedit).symm
    obtain ⟨rfl,hrest⟩ := List.append_inj hsplit hlength
    obtain ⟨rfl,_⟩ := List.cons.inj hrest
    exact ⟨hhere.2,hp⟩

theorem aligned_of_equal (hobj : ∀ n ∈ nodes, ∃ fields, n = .object fields)
    (h : ∀ nodeId key value,
      editorNodes nodeId key value nodes = serverNodes nodeId key value nodes) :
    Aligned nodes := by
  constructor
  · intro before node after id hsplit hid
    subst hsplit
    obtain ⟨fields,rfl⟩ := hobj node (by simp)
    exact found_of_equal hobj hid (h id)
  · intro before node after hsplit hid hset
    subst hsplit
    by_contra hno
    have hp : Passed "" before := by
      intro other hother
      obtain ⟨hnone,hempty⟩ := not_or.mp (fun hbad => hno ⟨other,hother,hbad⟩)
      obtain ⟨text,htext⟩ := Option.ne_none_iff_exists'.mp hnone
      exact ⟨text,htext,fun he => hempty (he ▸ htext)⟩
    obtain ⟨fields,rfl⟩ := hobj node (by simp)
    obtain ⟨value,hchange⟩ := withParam_changes fields ""
    have hempty : idText (.object fields) = some "" := by simp only [idText, hid]
    have hserver : serverNodes "" "" value (before ++ .object fields :: after) =
        before ++ withParam (.object fields) "" value :: after :=
      serverNodes_here hobj hp hempty hset
    have hat := congrArg (fun l => l[before.length]?) ((h "" "" value).trans hserver)
    simp only [editorNodes, List.getElem?_map, getElem?_at, Option.map_some] at hat
    rw [updatePipelineNode_other (by rw [hid]; exact nofun)] at hat
    exact hchange (Option.some.inj hat).symm

/-! ### Whole documents -/

variable {fields : Params}

/-- A document with this list of nodes, as both sides keep it. -/
structure HasNodes (fields : Params) (nodes : List Json) : Prop where
  keys : (fields.map Prod.fst).Nodup
  found : Params.lookup fields "nodes" = some (.array nodes)
  objects : ∀ node ∈ nodes, ∃ fields, node = .object fields

theorem HasNodes.assign (h : HasNodes fields nodes) {changed : List Json}
    (hobj : ∀ node ∈ changed, ∃ fields, node = .object fields) :
    HasNodes (Params.assign fields "nodes" (.array changed)) changed where
  keys := by rw [keys_assign h.found]; exact h.keys
  found := lookup_assign_self _ _ _
  objects := hobj

theorem updatePipeline_eq (h : HasNodes fields nodes) (nodeId key : String) (value : Json) :
    updatePipeline nodeId key value (.object fields) =
      .object (Params.assign fields "nodes" (.array (editorNodes nodeId key value nodes))) := by
  have hread : property (.object fields) "nodes" = some (.array nodes) := h.found
  simp only [updatePipeline, hread]
  rfl

/-- The server's answer to the frame of an update. -/
theorem step_update (encode : UInt32 → List UInt8) (client : Client) {s : EditorServer}
    (h : HasNodes fields nodes) (hs : s.activePipeline = .object fields) (nodeId key : String)
    (value : Json) :
    (s.step encode (.control client (updateParam nodeId key value))).activePipeline =
      .object (Params.assign fields "nodes" (.array (serverNodes nodeId key value nodes))) := by
  have hcontrol : s.onControl client (updateParam nodeId key value) =
      s.updateActive nodeId key value := rfl
  have hactive : s.updateActive nodeId key value =
      (updateIn nodeId key value (.array nodes)).map (fun changed =>
        { s with activePipeline := .object (Params.assign fields "nodes" changed) }) := by
    simp only [updateActive, hs, h.found]
  rw [step, hcontrol, hactive, updateIn, serverNodes]
  cases updateNodes nodeId key value nodes with
  | ok changed => rfl
  | error e =>
    rw [assign_same h.keys h.found]
    exact hs

theorem editorNodes_objects (hobj : ∀ node ∈ nodes, ∃ fields, node = .object fields)
    (nodeId key : String) (value : Json) :
    ∀ node ∈ editorNodes nodeId key value nodes, ∃ fields, node = .object fields := by
  intro node hm
  obtain ⟨n,hn,rfl⟩ := List.mem_map.mp hm
  exact updatePipelineNode_object (hobj n hn)

/-- Aligned sides are equal after any number of updates. -/
theorem aligned_run (encode : UInt32 → List UInt8) (client : Client) (updates : List ParamUpdate)
    {store : PipelineStore} {s : EditorServer} (h : HasNodes fields nodes) (ha : Aligned nodes)
    (hw : store.pipeline = some (.object fields)) (hs : s.activePipeline = .object fields) :
    (edited store updates).pipeline =
      some (delivered encode client s updates).activePipeline := by
  induction updates generalizing fields nodes store s with
  | nil =>
    change store.pipeline = some s.activePipeline
    rw [hw, hs]
  | cons u updates ih =>
    have heq := aligned_update h.objects ha u.nodeId u.key u.value
    have hweb : (updateNodeParam u.nodeId u.key u.value store).pipeline =
        some (updatePipeline u.nodeId u.key u.value (.object fields)) := by
      rw [updateNodeParam, hw, Option.map_some]
    rw [updatePipeline_eq h] at hweb
    have hserver := step_update encode client h hs u.nodeId u.key u.value
    rw [← heq] at hserver
    exact ih (h.assign (editorNodes_objects h.objects u.nodeId u.key u.value))
      (aligned_kept h.objects ha u.nodeId u.key u.value) hweb hserver

/-- Sides that are equal after any single update are aligned. -/
theorem aligned_of_runs (encode : UInt32 → List UInt8) (client : Client)
    {store : PipelineStore} {s : EditorServer} (h : HasNodes fields nodes)
    (hw : store.pipeline = some (.object fields)) (hs : s.activePipeline = .object fields)
    (hall : ∀ u, (edited store [u]).pipeline =
      some (delivered encode client s [u]).activePipeline) : Aligned nodes := by
  refine aligned_of_equal h.objects (fun nodeId key value => ?_)
  have hu := hall ⟨nodeId,key,value⟩
  have hweb : (edited store [⟨nodeId,key,value⟩]).pipeline =
      some (updatePipeline nodeId key value (.object fields)) := by
    change store.pipeline.map (updatePipeline nodeId key value) = _
    rw [hw, Option.map_some]
  have hserver : (delivered encode client s [⟨nodeId,key,value⟩]).activePipeline =
      .object (Params.assign fields "nodes" (.array (serverNodes nodeId key value nodes))) :=
    step_update encode client h hs nodeId key value
  rw [hweb, hserver, updatePipeline_eq h] at hu
  have hfields := Json.object.inj (Option.some.inj hu)
  have hlook := congrArg (fun ps => Params.lookup ps "nodes") hfields
  simp only [lookup_assign_self] at hlook
  exact Json.array.inj (Option.some.inj hlook)

/-! ### Documents both sides accept -/

theorem mapM_isSome {α β : Type} {f : α → Option β} {xs : List α} {ys : List β}
    (h : xs.mapM f = some ys) : ∀ x ∈ xs, ∃ y, f x = some y := by
  induction xs generalizing ys with
  | nil => simp
  | cons x xs ih =>
    rw [List.mapM_cons] at h
    obtain ⟨y,hy,h⟩ := Option.bind_eq_some_iff.mp h
    obtain ⟨rest,hrest,_⟩ := Option.bind_eq_some_iff.mp h
    exact List.forall_mem_cons.mpr ⟨⟨y,hy⟩,ih hrest⟩

theorem flowNode_object {node : Json} {flow : FlowNode} (h : flowNode node = some flow) :
    ∃ fields, node = .object fields := by
  cases node with
  | object fields => exact ⟨fields,rfl⟩
  | _ => cases h

/-- The nodes of a document. -/
def nodesOf (fields : Params) : List Json :=
  match Params.lookup fields "nodes" with
  | some (.array nodes) => nodes
  | _ => []

theorem loadPipeline_some {store : PipelineStore} (hkeys : (fields.map Prod.fst).Nodup)
    (h : loadPipeline (.object fields) = some store) :
    HasNodes fields (nodesOf fields) ∧ store.pipeline = some (.object fields) := by
  obtain ⟨flow,hflow,rfl⟩ := Option.map_eq_some_iff.mp h
  refine ⟨?_,rfl⟩
  unfold pipelineToFlow at hflow
  split at hflow
  · rename_i nodes edges hnodes _
    have hfound : Params.lookup fields "nodes" = some (.array nodes) := hnodes
    obtain ⟨list,hlist,_⟩ := Option.bind_eq_some_iff.mp hflow
    have heq : nodesOf fields = nodes := by simp only [nodesOf, hfound]
    rw [heq]
    refine ⟨hkeys,hfound,fun node hn => ?_⟩
    obtain ⟨_,hnode⟩ := mapM_isSome hlist node hn
    exact flowNode_object hnode
  · cases hflow

/-- Editor and server hold the same pipeline after every sequence of updates exactly when
the document is aligned. A parsed object has every key once. -/
theorem same_pipeline_iff (encode : UInt32 → List UInt8) (client : Client) (fields : Params)
    (hkeys : (fields.map Prod.fst).Nodup) (store : PipelineStore) (before s : EditorServer)
    (hweb : loadPipeline (.object fields) = some store)
    (hserver : before.replaceActivePipeline (.object fields) = .ok s) :
    (∀ updates, (edited store updates).pipeline =
      some (delivered encode client s updates).activePipeline) ↔ Aligned (nodesOf fields) := by
  obtain ⟨hnodes,hstore⟩ := loadPipeline_some hkeys hweb
  have hactive : s.activePipeline = .object fields := by rw [replace_ok hserver]
  constructor
  · intro hall
    exact aligned_of_runs encode client hnodes hstore hactive (fun u => hall [u])
  · intro ha updates
    exact aligned_run encode client updates hnodes ha hstore hactive

def toneNode : Json :=
  .object [("id",.string "tone"),("type",.string "com.cpipe.tone.filmic_rgb")]

def documentOf (nodes : List Json) : Params :=
  [("version",.string "0.4"),("nodes",.array nodes),("edges",.array [])]

def filmicNode : Json :=
  .object [("id",.string "filmic"),("type",.string "com.cpipe.tone.filmic_rgb"),
    ("params",.object [("contrast",.number 2)])]

def usmNode : Json :=
  .object [("id",.string "usm"),("type",.string "com.cpipe.sharpen.edge_aware_usm"),
    ("params",.object [("radius",.number 1),("strength",.number 0)])]

theorem aligned_two : Aligned [filmicNode,usmNode] where
  named before node after id h hid := by
    rcases before with _ | ⟨first,_ | ⟨second,rest⟩⟩
    · obtain ⟨rfl,_⟩ := List.cons.inj h
      exact ⟨trivial,List.forall_mem_nil _⟩
    · obtain ⟨rfl,htail⟩ := List.cons.inj h
      obtain ⟨rfl,_⟩ := List.cons.inj htail
      obtain rfl : "usm" = id := Json.string.inj (Option.some.inj hid)
      exact ⟨trivial,List.forall_mem_singleton.mpr ⟨"filmic",rfl,by decide⟩⟩
    · simp at h
  nameless before node after h hid := by
    have hnode : node ∈ [filmicNode,usmNode] := by simp [h]
    rcases List.mem_pair.mp hnode with rfl | rfl
    · cases hid
    · cases hid

/-- Two nodes with parameters. -/
theorem same_pipeline_two : ∃ store s,
    loadPipeline (.object (documentOf [filmicNode,usmNode])) = some store ∧
    EditorServer.replaceActivePipeline {} (.object (documentOf [filmicNode,usmNode])) = .ok s ∧
    ∀ updates, (edited store updates).pipeline =
      some (delivered (fun _ => []) 0 s updates).activePipeline :=
  ⟨_,_,rfl,rfl,(same_pipeline_iff (fun _ => []) 0 (documentOf [filmicNode,usmNode]) (by decide) _ {}
    _ rfl rfl).mpr aligned_two⟩

/-- What a document says about its second node's parameters. -/
def secondParams (pipeline : Option Json) : Option Json :=
  match pipeline.bind (property · "nodes") with
  | some (.array (_ :: second :: _)) => property second "params"
  | _ => none

/-- Two nodes with one id: the editor changes both, the server the first. -/
theorem same_pipeline_twins : ∃ store s,
    loadPipeline (.object (documentOf [toneNode,toneNode])) = some store ∧
    EditorServer.replaceActivePipeline {} (.object (documentOf [toneNode,toneNode])) = .ok s ∧
    (edited store [⟨"tone","ev",.number 1⟩]).pipeline ≠
      some (delivered (fun _ => []) 0 s [⟨"tone","ev",.number 1⟩]).activePipeline := by
  refine ⟨_,_,rfl,rfl,fun h => ?_⟩
  have hseen := congrArg secondParams h
  change some (Json.object [("ev",.number 1)]) = none at hseen
  cases hseen

end Cpipe.Proofs.ParamSync
