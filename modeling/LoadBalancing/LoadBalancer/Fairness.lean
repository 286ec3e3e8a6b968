/-
LoadBalancing.LoadBalancer.Fairness — `GetNextWorker` is a fair round
robin while workers come and go.

The order in which the workers come up is the list read from `current`
on. Every call is a turn of that order (`call_turn`): a selection rotates
it, `AddWorker` inserts before the head, wherever that is, and
`RemoveWorker` takes a member out, with `current` going to its successor.
The rotation rules then give the alternation of two ready workers.

`round_robin_fair`: a selection succeeds exactly when some worker is
connected and ready, and between two consecutive selections of a worker
that stays, every other worker that is listed and ready throughout is
selected exactly once.

No `sorry`, no `axiom`, no `native_decide`.
-/
import LoadBalancing.Base.Rotation
import LoadBalancing.LoadBalancer.WorkerRing
import Mathlib.Data.List.Rotate

namespace LoadBalancing.LoadBalancer.Fairness

open LoadBalancing.Base LoadBalancing.Lib

/-! ## Selections -/

/-- The next call. -/
def step (list : WorkerList) (call : Call) : Option WorkerList := some (list.call call).2

/-- The worker a call selects. -/
def selected (list : WorkerList) (call : Call) : Option Int32 :=
  match (list.call call).1 with
  | .chosen worker => worker.map Prod.fst
  | _ => none

/-- The workers a run selects, in order. -/
def selections : WorkerList → List Call → List Int32
  | _, [] => []
  | list, call :: calls =>
    (selected list call).toList ++ selections (list.call call).2 calls

/-- The states of a run, the first and the last one included. -/
def states : WorkerList → List Call → List WorkerList
  | list, [] => [list]
  | list, call :: calls => list :: states (list.call call).2 calls

/-- The last state of a run. -/
def after : WorkerList → List Call → WorkerList
  | list, [] => list
  | list, call :: calls => after (list.call call).2 calls

/-- A worker is in the list. -/
def Listed (list : WorkerList) (workerId : Int32) : Prop :=
  ∃ node ∈ list.nodes, node.workerId = workerId

/-- A worker is in the list, connected and ready. -/
def Ready (list : WorkerList) (workerId : Int32) : Prop :=
  ∃ node ∈ list.nodes, node.workerId = workerId ∧ node.isConnected = true ∧ node.isReady = true

/-- If this call registers a worker, its id is not in the list. -/
def Distinct (list : WorkerList) : Call → Prop
  | .addWorker w _ => ¬Listed list w.workerId
  | _ => True

instance (list : WorkerList) (workerId : Int32) : Decidable (Listed list workerId) :=
  inferInstanceAs (Decidable (∃ node ∈ list.nodes, _))

instance (list : WorkerList) (workerId : Int32) : Decidable (Ready list workerId) :=
  inferInstanceAs (Decidable (∃ node ∈ list.nodes, _))

instance (list : WorkerList) (call : Call) : Decidable (Distinct list call) := by
  unfold Distinct
  split <;> infer_instance

/-! ## The order -/

/-- The nodes from `current` on. -/
def order (list : WorkerList) : List WorkerNode := list.nodes.rotate list.current

/-- The ids in the order in which they come up. -/
def ids (list : WorkerList) : List Int32 := (order list).map WorkerNode.workerId

/-- What every run of calls with distinct ids keeps. -/
structure Valid (list : WorkerList) : Prop where
  count_eq : list.count = list.nodes.length
  current_le : list.current ≤ list.nodes.length
  nodup : (ids list).Nodup
  connected : ∀ node ∈ list.nodes, node.isConnected = true

theorem valid_initialize : Valid initializeWorkerList := by
  refine ⟨rfl, Nat.le_refl _, List.nodup_nil, ?_⟩
  intro node hnode
  exact absurd hnode List.not_mem_nil

section Order

variable {list : WorkerList}

theorem mem_order {node : WorkerNode} : node ∈ order list ↔ node ∈ list.nodes :=
  List.mem_rotate

theorem listed_iff_mem_ids {workerId : Int32} : Listed list workerId ↔ workerId ∈ ids list := by
  simp only [Listed, ids, List.mem_map, mem_order]

/-- Distinct ids: a node is known by its id. -/
theorem Valid.node_eq (h : Valid list) {a b : WorkerNode} (ha : a ∈ list.nodes)
    (hb : b ∈ list.nodes) (hab : a.workerId = b.workerId) : a = b :=
  List.inj_on_of_nodup_map h.nodup (mem_order.mpr ha) (mem_order.mpr hb) hab

/-- A ready worker's node passes the selection test. -/
theorem Valid.ready_iff (h : Valid list) {node : WorkerNode} (hnode : node ∈ list.nodes) :
    Ready list node.workerId ↔ node.selectable = true := by
  constructor
  · rintro ⟨other, hother, hid, hconnected, hready⟩
    rw [← h.node_eq hother hnode hid]
    simp [WorkerNode.selectable, hconnected, hready]
  · intro hselectable
    simp only [WorkerNode.selectable, Bool.and_eq_true] at hselectable
    exact ⟨node, hnode, rfl, hselectable⟩

/-- The order is the list from `current` on and then from the head. -/
theorem Valid.order_eq (h : Valid list) :
    order list = list.nodes.drop list.current ++ list.nodes.take list.current :=
  List.rotate_eq_drop_append_take h.current_le

/-- `k` links behind `current` stands the `k`-th node of the order. -/
theorem fromCurrent_eq {k : Nat} (hk : k < list.nodes.length) :
    list.fromCurrent k = (order list)[k]? := by
  rw [WorkerList.fromCurrent, order, List.getElem?_rotate hk, Nat.add_comm]

end Order

/-! ## Every call is a turn -/

section Turns

variable {list : WorkerList}

/-- What a successful selection found. -/
theorem getNextWorker_eq_some {node : WorkerNode} {list' : WorkerList}
    (h : list.getNextWorker = some (node, list')) :
    ∃ k < list.count, list.fromCurrent k = some node ∧ node.selectable = true ∧
      (∀ j < k, (list.fromCurrent j).any WorkerNode.selectable = false) ∧
      list' = { list with current := (list.current + k + 1) % list.nodes.length } := by
  unfold WorkerList.getNextWorker at h
  split at h
  · cases h
  · simp only [Option.bind_eq_bind, Option.bind_eq_some_iff, Option.some.injEq,
      Prod.mk.injEq] at h
    obtain ⟨k, hfind, found, hfound, rfl, rfl⟩ := h
    obtain ⟨hany, hmem, hbefore⟩ := List.find?_range_eq_some.mp hfind
    rw [hfound, Option.any_some] at hany
    refine ⟨k, List.mem_range.mp hmem, hfound, hany, ?_, rfl⟩
    intro j hj
    simpa using hbefore j hj

/-- **A selection** rotates the order to behind the first ready worker. -/
theorem getNextWorker_turn (h : Valid list) {node : WorkerNode} {list' : WorkerList}
    (hnext : list.getNextWorker = some (node, list')) :
    Rotation.Turn (Ready list) (ids list) (some node.workerId) (ids list') ∧ Valid list' := by
  obtain ⟨k, hk, hfound, hselectable, hbefore, rfl⟩ := getNextWorker_eq_some hnext
  rw [h.count_eq] at hk
  have hlength : (order list).length = list.nodes.length := List.length_rotate ..
  rw [fromCurrent_eq hk] at hfound
  have hk' : k < (order list).length := by
    rw [hlength]
    exact hk
  have hget : (order list)[k] = node := by
    rw [List.getElem?_eq_getElem hk', Option.some.injEq] at hfound
    exact hfound
  have hsplit : order list = (order list).take k ++ node :: (order list).drop (k + 1) := by
    rw [← hget, ← List.drop_eq_getElem_cons hk', List.take_append_drop]
  have hnode : node ∈ list.nodes := mem_order.mp (List.mem_of_getElem? hfound)
  have hrotated : order { list with current := (list.current + k + 1) % list.nodes.length }
      = (order list).drop (k + 1) ++ (order list).take k ++ [node] := by
    calc list.nodes.rotate ((list.current + k + 1) % list.nodes.length)
      _ = (order list).rotate (k + 1) := by
          rw [List.rotate_mod, Nat.add_assoc, order, List.rotate_rotate]
      _ = (order list).drop (k + 1) ++ (order list).take (k + 1) :=
          List.rotate_eq_drop_append_take hk'
      _ = (order list).drop (k + 1) ++ (order list).take k ++ [node] := by
          rw [List.append_assoc, ← hget, List.take_concat_get']
  have hturn : Rotation.Turn (Ready list) (ids list) (some node.workerId)
      (ids { list with current := (list.current + k + 1) % list.nodes.length }) := by
    have hids : ids list = ((order list).take k).map WorkerNode.workerId ++
        node.workerId :: ((order list).drop (k + 1)).map WorkerNode.workerId := by
      rw [← List.map_cons, ← List.map_append, ← hsplit]
      rfl
    rw [hids, ids, hrotated, List.map_append, List.map_append]
    refine .select ?_ ((h.ready_iff hnode).mpr hselectable)
    intro workerId hmem hready
    obtain ⟨passed, hpassed, rfl⟩ := List.mem_map.mp hmem
    have hpassed' : passed ∈ list.nodes := mem_order.mp (List.mem_of_mem_take hpassed)
    obtain ⟨j, hj, hjget⟩ := List.mem_take_iff_getElem.mp hpassed
    have hjk : j < k := by omega
    have hnot := hbefore j hjk
    rw [fromCurrent_eq (by omega), List.getElem?_eq_getElem (by omega), hjget, Option.any_some,
      (h.ready_iff hpassed').mp hready] at hnot
    cases hnot
  refine ⟨hturn, h.count_eq, Nat.le_of_lt (Nat.mod_lt _ (by omega)), hturn.nodup h.nodup,
    h.connected⟩

/-- **`AddWorker`** inserts into the order. -/
theorem addSection_turn (h : Valid list) {w : NewWorker} (hnew : ¬Listed list w.workerId) :
    let list' : WorkerList := { list with
      nodes := list.nodes ++ [w.node]
      current := if list.nodes = [] then 0 else list.current
      count := list.count + 1 }
    Rotation.Turn (Ready list) (ids list) none (ids list') ∧ Valid list' := by
  intro list'
  have hcurrent : list'.current ≤ list.nodes.length := by
    by_cases hempty : list.nodes = []
    · simp [list', hempty]
    · simp only [list', hempty, if_false]
      exact h.current_le
  have hlength : list'.nodes.length = list.nodes.length + 1 := by simp [list']
  have hold : order list = list.nodes.drop list'.current ++ list.nodes.take list'.current := by
    by_cases hempty : list.nodes = []
    · simp [order, hempty]
    · simp only [list', hempty, if_false]
      exact h.order_eq
  have horder : order list' = list.nodes.drop list'.current ++
      w.node :: list.nodes.take list'.current := by
    have hle : list'.current ≤ list'.nodes.length := by omega
    rw [order, List.rotate_eq_drop_append_take hle]
    simp only [list']
    rw [List.drop_append_of_le_length hcurrent, List.take_append_of_le_length hcurrent,
      List.append_assoc, List.singleton_append]
  have hturn : Rotation.Turn (Ready list) (ids list) none (ids list') := by
    have hids : ids list = (list.nodes.drop list'.current).map WorkerNode.workerId ++
        (list.nodes.take list'.current).map WorkerNode.workerId := by
      rw [← List.map_append, ← hold]
      rfl
    have hids' : ids list' = (list.nodes.drop list'.current).map WorkerNode.workerId ++
        w.workerId :: (list.nodes.take list'.current).map WorkerNode.workerId := by
      rw [ids, horder, List.map_append, List.map_cons]
      rfl
    rw [listed_iff_mem_ids, hids] at hnew
    rw [hids, hids']
    exact .insert _ _ hnew
  refine ⟨hturn, ?_, ?_, hturn.nodup h.nodup, ?_⟩
  · rw [hlength, ← h.count_eq]
  · omega
  · intro node hnode
    rcases List.mem_append.mp hnode with hnode | hnode
    · exact h.connected node hnode
    · rw [List.mem_singleton.mp hnode]
      rfl

/-- Unlinking a node takes it out of the order, wherever `current` is. -/
theorem unlink_order (h : Valid list) {i : Nat} (hi : i < list.nodes.length) :
    (list.unlink i).current ≤ (list.unlink i).nodes.length ∧
      ∃ p q node, order list = p ++ node :: q ∧ order (list.unlink i) = p ++ q := by
  have hle := h.current_le
  have horder := h.order_eq
  obtain ⟨front, node, back, hnodes, hfront⟩ : ∃ front node back,
      list.nodes = front ++ node :: back ∧ front.length = i := by
    refine ⟨list.nodes.take i, list.nodes[i], list.nodes.drop (i + 1), ?_, ?_⟩
    · rw [← List.drop_eq_getElem_cons hi, List.take_append_drop]
    · rw [List.length_take, Nat.min_eq_left (Nat.le_of_lt hi)]
  have hleft : (list.unlink i).nodes = front ++ back := by
    simp only [WorkerList.unlink, hnodes]
    rw [List.eraseIdx_append_of_length_le (by omega), hfront, Nat.sub_self]
    rfl
  have hlength : list.nodes.length = i + 1 + back.length := by
    rw [hnodes, List.length_append, List.length_cons]
    omega
  have hlength' : (list.unlink i).nodes.length = i + back.length := by
    rw [hleft, List.length_append, hfront]
  rcases Nat.lt_trichotomy list.current i with hlt | heq | hgt
  · -- `current` is in front of the node
    have hcurrent : (list.unlink i).current = list.current := if_pos hlt
    have hle' : (list.unlink i).current ≤ (list.unlink i).nodes.length := by omega
    refine ⟨hle', front.drop list.current, back ++ front.take list.current, node, ?_, ?_⟩
    · rw [horder, hnodes, List.drop_append_of_le_length (by omega),
        List.take_append_of_le_length (by omega), List.append_assoc, List.cons_append]
    · rw [order, List.rotate_eq_drop_append_take hle', hcurrent, hleft,
        List.drop_append_of_le_length (by omega), List.take_append_of_le_length (by omega),
        List.append_assoc]
  · -- `current` is the node itself, and goes to its successor
    have hcurrent : (list.unlink i).current = if i = i + back.length then 0 else i := by
      rw [← hlength']
      simp [WorkerList.unlink, heq]
    have hrotate : order (list.unlink i) = back ++ front := by
      rw [order, hcurrent, hleft]
      by_cases hback : i = i + back.length
      · have hnil : back = [] := List.length_eq_zero_iff.mp (by omega)
        rw [if_pos hback, List.rotate_zero, hnil, List.append_nil, List.nil_append]
      · rw [if_neg hback, ← hfront, List.rotate_append_length_eq]
    refine ⟨by rw [hcurrent]; split <;> omega, [], back ++ front, node, ?_, ?_⟩
    · rw [horder, hnodes, heq, ← hfront, List.drop_left, List.take_left, List.nil_append,
        List.cons_append]
    · rw [hrotate, List.nil_append]
  · -- `current` is behind the node
    have hcurrent : (list.unlink i).current = list.current - 1 := by
      simp [WorkerList.unlink, hgt, Nat.not_lt.mpr (Nat.le_of_lt hgt)]
    have hle' : (list.unlink i).current ≤ (list.unlink i).nodes.length := by omega
    obtain ⟨k, hk⟩ : ∃ k, list.current = front.length + (k + 1) :=
      ⟨list.current - i - 1, by omega⟩
    refine ⟨hle', back.drop k ++ front, back.take k, node, ?_, ?_⟩
    · rw [horder, hnodes, hk, List.drop_length_add_append, List.take_length_add_append,
        List.drop_succ_cons, List.take_succ_cons, List.append_assoc]
    · have hk' : list.current - 1 = front.length + k := by omega
      rw [order, List.rotate_eq_drop_append_take hle', hcurrent, hleft, hk',
        List.drop_length_add_append, List.take_length_add_append, List.append_assoc]

/-- **`RemoveWorker`** takes a member out of the order. -/
theorem unlink_turn (h : Valid list) {i : Nat} (hi : i < list.nodes.length) :
    Rotation.Turn (Ready list) (ids list) none (ids (list.unlink i)) ∧ Valid (list.unlink i) := by
  obtain ⟨hle, p, q, node, horder, horder'⟩ := unlink_order h hi
  have hturn : Rotation.Turn (Ready list) (ids list) none (ids (list.unlink i)) := by
    rw [ids, horder, ids, horder', List.map_append, List.map_append, List.map_cons]
    exact .remove _ _ _
  refine ⟨hturn, ?_, hle, hturn.nodup h.nodup, ?_⟩
  · have hlength := WorkerList.length_unlink hi
    have hcount := h.count_eq
    simp only [WorkerList.unlink] at hlength ⊢
    omega
  · intro other hother
    exact h.connected other (List.mem_of_mem_eraseIdx hother)

/-- **A change of a node** that keeps its id and its connection leaves the
order as it is. -/
theorem modify_turn (h : Valid list) (i : Nat) {f : WorkerNode → WorkerNode}
    (hid : ∀ node, (f node).workerId = node.workerId)
    (hconnected : ∀ node, (f node).isConnected = node.isConnected) :
    Rotation.Turn (Ready list) (ids list) none (ids { list with nodes := list.nodes.modify i f }) ∧
      Valid { list with nodes := list.nodes.modify i f } := by
  have hnodes := map_modify_of_eq list.nodes i hid
  have hids : ids { list with nodes := list.nodes.modify i f } = ids list := by
    simp only [ids, order, List.map_rotate, hnodes]
  refine ⟨hids ▸ .stay _, by simp [h.count_eq], by simpa using h.current_le, hids ▸ h.nodup, ?_⟩
  intro node hnode
  rcases mem_modify hnode with hnode | ⟨old, hold, rfl⟩
  · exact h.connected node hnode
  · rw [hconnected]
    exact h.connected old (List.mem_of_getElem? hold)

/-- The semaphores have no part in the order. -/
theorem turn_semaphores {list list' : WorkerList} {chosen : Option Int32}
    (h : Rotation.Turn (Ready list) (ids list) chosen (ids list') ∧ Valid list')
    (notEmpty notFull : Semaphore maxWorkers) :
    Rotation.Turn (Ready list) (ids list) chosen
        (ids { list' with notEmpty := notEmpty, notFull := notFull }) ∧
      Valid { list' with notEmpty := notEmpty, notFull := notFull } :=
  ⟨h.1, h.2.count_eq, h.2.current_le, h.2.nodup, h.2.connected⟩

/-- **Every call** with a fresh id is a turn of the order, and the worker
it selects is the one the call answers. -/
theorem call_turn (h : Valid list) {call : Call} (hdistinct : Distinct list call) :
    Rotation.Turn (Ready list) (ids list) (selected list call) (ids (list.call call).2) ∧
      Valid (list.call call).2 := by
  have hstay : Rotation.Turn (Ready list) (ids list) none (ids list) ∧ Valid list :=
    ⟨.stay _, h⟩
  cases call with
  | addWorker w allocated =>
    simp only [selected, WorkerList.call, WorkerList.addWorker, Prod.map, id]
    by_cases hsocket : w.workerSocket = none
    · rw [if_pos hsocket]
      exact hstay
    · rw [if_neg hsocket]
      cases list.notFull.wait with
      | none => exact hstay
      | some notFull =>
        simp only [WorkerList.addSection]
        by_cases hfull : maxWorkers ≤ list.count
        · rw [if_pos hfull]
          exact turn_semaphores hstay _ _
        · rw [if_neg hfull]
          cases allocated with
          | none => exact turn_semaphores hstay _ _
          | some newNode => exact turn_semaphores (addSection_turn h hdistinct) _ _
  | removeWorker workerId =>
    simp only [selected, WorkerList.call, WorkerList.removeWorker, Prod.map, id]
    by_cases hid : workerId ≤ 0
    · rw [if_pos hid]
      exact hstay
    · rw [if_neg hid]
      cases list.notEmpty.wait with
      | none => exact hstay
      | some notEmpty =>
        simp only [WorkerList.removeSection]
        cases hindex : ({ list with notEmpty := notEmpty } : WorkerList).indexOf workerId with
        | none => exact turn_semaphores hstay _ _
        | some i =>
          have hi : i < list.nodes.length := WorkerList.indexOf_lt hindex
          exact turn_semaphores (unlink_turn h hi) _ _
  | getNextWorker =>
    cases hnext : list.getNextWorker with
    | none =>
      simp only [selected, WorkerList.call, hnext, Option.map_none]
      exact hstay
    | some found =>
      simp only [selected, WorkerList.call, hnext, Option.map_some]
      exact getNextWorker_turn h hnext
  | setWorkerReady workerId =>
    simp only [selected, WorkerList.call, WorkerList.setWorkerReady, Prod.map, id]
    cases list.indexOf workerId with
    | none => exact hstay
    | some i =>
      simp only
      split
      · exact hstay
      · exact modify_turn h i (fun _ => rfl) (fun _ => rfl)
  | updateWorkerPeerPort workerId peerPort =>
    simp only [selected, WorkerList.call, WorkerList.updateWorkerPeerPort, Prod.map, id]
    cases list.indexOf workerId with
    | none => exact hstay
    | some i => exact modify_turn h i (fun _ => rfl) (fun _ => rfl)
  | getWorkerById workerId => exact hstay

end Turns

/-! ## Runs -/

section Runs

variable {list : WorkerList} {w v : Int32}

/-- What is ready at an index is ready after a change of the first node
with some id. -/
theorem exists_mem_updateFirst (workerId : Int32) (f : WorkerNode → WorkerNode)
    {nodes : List WorkerNode} {node : WorkerNode} (h : node ∈ nodes) :
    ∃ node' ∈ WorkerRing.updateFirst workerId f nodes, node' = node ∨ node' = f node := by
  induction nodes with
  | nil => exact absurd h List.not_mem_nil
  | cons first nodes ih =>
    rw [WorkerRing.updateFirst]
    split
    · rcases List.mem_cons.mp h with rfl | h
      · exact ⟨f node, List.mem_cons_self, Or.inr rfl⟩
      · exact ⟨node, List.mem_cons_of_mem _ h, Or.inl rfl⟩
    · rcases List.mem_cons.mp h with rfl | h
      · exact ⟨node, List.mem_cons_self, Or.inl rfl⟩
      · obtain ⟨node', hmem, heq⟩ := ih h
        exact ⟨node', List.mem_cons_of_mem _ hmem, heq⟩

/-- **No call makes a worker unready** that stays in the list. -/
theorem ready_call (h : Valid list) {call : Call} (hready : Ready list w)
    (hlisted : Listed (list.call call).2 w) : Ready (list.call call).2 w := by
  obtain ⟨node, hnode, hid, hconnected, hisReady⟩ := hready
  have hnodes := WorkerRing.nodes_call list call
  have hupdate : ∀ (workerId : Int32) (f : WorkerNode → WorkerNode),
      (list.call call).2.nodes = WorkerRing.updateFirst workerId f list.nodes →
      (f node).workerId = node.workerId → (f node).isConnected = true → (f node).isReady = true →
      Ready (list.call call).2 w := by
    intro workerId f heq hfid hfconnected hfready
    obtain ⟨node', hmem, hcase⟩ := exists_mem_updateFirst workerId f hnode
    rw [← heq] at hmem
    rcases hcase with rfl | rfl
    · exact ⟨_, hmem, hid, hconnected, hisReady⟩
    · exact ⟨_, hmem, hfid.trans hid, hfconnected, hfready⟩
  cases call with
  | addWorker added allocated =>
    have hmem : node ∈ (list.call (.addWorker added allocated)).2.nodes := by
      rw [hnodes, WorkerRing.onWorkers]
      split
      · exact List.mem_append_left _ hnode
      · exact hnode
    exact ⟨node, hmem, hid, hconnected, hisReady⟩
  | removeWorker workerId =>
    obtain ⟨other, hother, hotherId⟩ := hlisted
    have hmem : other ∈ list.nodes := by
      rw [hnodes, WorkerRing.onWorkers] at hother
      split at hother
      · exact List.mem_of_mem_eraseP hother
      · exact hother
    have hsame : other = node := h.node_eq hmem hnode (hotherId.trans hid.symm)
    exact ⟨other, hother, hotherId, hsame ▸ hconnected, hsame ▸ hisReady⟩
  | getNextWorker => exact ⟨node, hnodes ▸ hnode, hid, hconnected, hisReady⟩
  | setWorkerReady workerId => exact hupdate _ _ hnodes rfl hconnected rfl
  | updateWorkerPeerPort workerId peerPort => exact hupdate _ _ hnodes rfl hconnected hisReady
  | getWorkerById workerId => exact ⟨node, hnode, hid, hconnected, hisReady⟩

/-- A run of calls with distinct ids ends in a valid state. -/
theorem valid_of_run {calls : List Call} {end' : WorkerList}
    (hdistinct : Along step Distinct initializeWorkerList calls)
    (hrun : exec step initializeWorkerList calls = some end') : Valid end' := by
  refine exec_invariant_along ?_ valid_initialize hdistinct hrun
  intro s call t hvalid hfresh hstep
  cases hstep
  exact (call_turn hvalid hfresh).2

theorem self_mem_states (list : WorkerList) (calls : List Call) : list ∈ states list calls := by
  cases calls with
  | nil => exact List.mem_singleton_self list
  | cons call calls => exact List.mem_cons_self

/-- **Between two selections of `w`**: the count of the selections of `v`
goes on with every call. -/
theorem waits_run {n : Nat} {calls : List Call} (hvalid : Valid list)
    (hready : Ready list w) (hdistinct : Along step Distinct list calls)
    (hstates : ∀ s ∈ states list calls, Listed s w ∧ Ready s v)
    (hother : w ∉ selections list calls) (hwaits : Rotation.Waits v w n (ids list)) :
    Valid (after list calls) ∧ Ready (after list calls) v ∧
      Rotation.Waits v w (n + (selections list calls).count v) (ids (after list calls)) := by
  induction calls generalizing list n with
  | nil =>
    have hlast := hstates list List.mem_cons_self
    exact ⟨hvalid, hlast.2, hwaits⟩
  | cons call calls ih =>
    obtain ⟨hfresh, hrest⟩ := (along_cons rfl).mp hdistinct
    obtain ⟨hturn, hvalid'⟩ := call_turn hvalid hfresh
    have hnow := hstates list List.mem_cons_self
    have hthen := hstates _ (List.mem_cons_of_mem _ (self_mem_states (list.call call).2 calls))
    have hready' : Ready (list.call call).2 w := ready_call hvalid hready hthen.1
    rw [selections, List.mem_append, not_or] at hother
    have hchosen : selected list call ≠ some w := by
      intro heq
      exact hother.1 (by simp [heq])
    have hlistedV : Listed (list.call call).2 v := by
      obtain ⟨node, hnode, hid, -⟩ := hthen.2
      exact ⟨node, hnode, hid⟩
    have hstep := Rotation.waits_turn hturn hvalid.nodup hnow.2 hready
      (listed_iff_mem_ids.mp hlistedV) (listed_iff_mem_ids.mp hthen.1) hchosen hwaits
    have hrun := ih hvalid' hready' hrest
      (fun s hs => hstates s (List.mem_cons_of_mem _ hs)) hother.2 hstep
    rw [selections, List.count_append, ← Nat.add_assoc]
    exact hrun

/-- **A selection succeeds** exactly when some worker is ready. -/
theorem selected_isSome_iff (h : Valid list) :
    (selected list .getNextWorker).isSome = true ↔ ∃ workerId, Ready list workerId := by
  constructor
  · intro hsome
    obtain ⟨workerId, hselected⟩ := Option.isSome_iff_exists.mp hsome
    cases hnext : list.getNextWorker with
    | none => simp [selected, WorkerList.call, hnext] at hselected
    | some found =>
      obtain ⟨k, -, hfound, hselectable, -⟩ := getNextWorker_eq_some hnext
      have hmem : found.1 ∈ list.nodes := List.mem_of_getElem? hfound
      exact ⟨found.1.workerId, (h.ready_iff hmem).mpr hselectable⟩
  · rintro ⟨workerId, node, hnode, rfl, hflags⟩
    have hselectable := (h.ready_iff hnode).mp ⟨node, hnode, rfl, hflags⟩
    obtain ⟨chosen, current, hnext, -⟩ :=
      WorkerList.getNextWorker_of_selectable h.count_eq hnode hselectable
    simp [selected, WorkerList.call, hnext]

/-- **Round robin is fair.** In every state that calls with distinct ids
lead to, a selection succeeds exactly when some worker is connected and
ready, and answers such a worker; and if it selects `w`, which then stays
in the list until it is selected again, every other worker that is listed
and ready all that time is selected exactly once in between. -/
theorem round_robin_fair {calls : List Call}
    (hdistinct : Along step Distinct initializeWorkerList calls)
    (hrun : exec step initializeWorkerList calls = some list) :
    ((selected list .getNextWorker).isSome = true ↔
      ∃ node ∈ list.nodes, node.isConnected = true ∧ node.isReady = true) ∧
    (∀ worker, (list.call .getNextWorker).1 = .chosen (some worker) →
      ∃ node ∈ list.nodes, worker = (node.workerId, node.workerSocket) ∧
        node.isConnected = true ∧ node.isReady = true) ∧
    ∀ w v between, v ≠ w → selected list .getNextWorker = some w →
      Along step Distinct (list.call .getNextWorker).2 between →
      (∀ s ∈ states (list.call .getNextWorker).2 between, Listed s w ∧ Ready s v) →
      w ∉ selections (list.call .getNextWorker).2 between →
      selected (after (list.call .getNextWorker).2 between) .getNextWorker = some w →
      (selections (list.call .getNextWorker).2 between).count v = 1 := by
  have hvalid := valid_of_run hdistinct hrun
  refine ⟨?_, ?_, ?_⟩
  · rw [selected_isSome_iff hvalid]
    constructor
    · rintro ⟨workerId, node, hnode, -, hflags⟩
      exact ⟨node, hnode, hflags⟩
    · rintro ⟨node, hnode, hflags⟩
      exact ⟨node.workerId, node, hnode, rfl, hflags⟩
  · intro worker hanswer
    cases hnext : list.getNextWorker with
    | none => simp [WorkerList.call, hnext] at hanswer
    | some found =>
      obtain ⟨k, -, hfound, hselectable, -⟩ := getNextWorker_eq_some hnext
      simp only [WorkerNode.selectable, Bool.and_eq_true] at hselectable
      simp only [WorkerList.call, hnext, Reply.chosen.injEq, Option.some.injEq] at hanswer
      exact ⟨found.1, List.mem_of_getElem? hfound, hanswer.symm, hselectable⟩
  · intro w v between hne hfirst hbetween hstates hother hlast
    have hnext : Distinct list .getNextWorker := trivial
    obtain ⟨hturn, hvalid'⟩ := call_turn hvalid hnext
    rw [hfirst] at hturn
    have hnow := hstates _ (self_mem_states _ between)
    have hlistedV : Listed (list.call .getNextWorker).2 v := by
      obtain ⟨node, hnode, hid, -⟩ := hnow.2
      exact ⟨node, hnode, hid⟩
    have hstart := Rotation.waits_start hturn (listed_iff_mem_ids.mp hlistedV) hne
    have hreadyW := ready_call hvalid hturn.ready_of_selected hnow.1
    obtain ⟨hvalidLast, hreadyV, hwaits⟩ :=
      waits_run hvalid' hreadyW hbetween hstates hother hstart
    have hagain : Distinct (after (list.call .getNextWorker).2 between) .getNextWorker := trivial
    obtain ⟨hturnLast, -⟩ := call_turn hvalidLast hagain
    rw [hlast] at hturnLast
    rw [Nat.zero_add] at hwaits
    exact Rotation.waits_end hturnLast hvalidLast.nodup hreadyV hne hwaits

/-- Three ready workers, `current` at the first one. -/
def settled : List Call :=
  [.addWorker (WorkerRing.registration 1) (some 0), .setWorkerReady 1,
    .addWorker (WorkerRing.registration 2) (some 1), .setWorkerReady 2,
    .addWorker (WorkerRing.registration 3) (some 2), .setWorkerReady 3]

/-- The next worker, the one at `current`, is removed; another one
registers and is not ready. -/
def churn : List Call :=
  [.removeWorker 2, .addWorker (WorkerRing.registration 4) (some 1), .getNextWorker]

theorem round_robin_fair_churn :
    (selections ((after initializeWorkerList settled).call .getNextWorker).2 churn).count 3
      = 1 := by
  have hsettled : Along step Distinct initializeWorkerList settled := by decide
  obtain ⟨-, -, hfair⟩ := round_robin_fair hsettled rfl
  exact hfair 1 3 churn (by decide) (by decide) (by decide) (by decide) (by decide) (by decide)

end Runs

end LoadBalancing.LoadBalancer.Fairness
