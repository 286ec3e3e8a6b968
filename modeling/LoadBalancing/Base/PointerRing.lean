/-
LoadBalancing.Base.PointerRing — doubly linked rings in a heap of cells.

A heap maps addresses to cells; a pointer is an optional address, and
reading or writing through NULL or through a freed cell is `none`, as is
a search that runs out of fuel. `LinkedRing heap addrs values` says that the
cells at `addrs` are linked into one cycle, in this order, and hold
`values`.

Three facts are needed of a ring: a search that starts at its first cell
and stops when it is back there finds what a search of the list finds
(`search_eq`); two links written around a fresh cell put it at the end
(`LinkedRing.append`); one link written around a cell takes it out
(`LinkedRing.erase`).

No `sorry`, no `axiom`, no `native_decide`.
-/
import Mathlib.Data.List.Nodup

namespace LoadBalancing.Base

/-! ## Heaps -/

/-- An address. A pointer is an `Option Addr`; NULL is `none`. -/
abbrev Addr := Nat

/-- A cell of a doubly linked structure. -/
structure Cell (α : Type u) where
  value : α
  next : Option Addr
  prev : Option Addr
  deriving DecidableEq

/-- The allocated cells. -/
abbrev Heap (α : Type u) := Addr → Option (Cell α)

namespace Heap

variable {α : Type u}

/-- The heap with another cell, or none, at an address. -/
def put (heap : Heap α) (a : Addr) (cell : Option (Cell α)) : Heap α :=
  fun b => if b = a then cell else heap b

/-- Read through a pointer. -/
def load (heap : Heap α) (p : Option Addr) : Option (Cell α) := p.bind heap

/-- Write through a pointer. -/
def write (heap : Heap α) (p : Option Addr) (f : Cell α → Cell α) : Option (Heap α) :=
  p.bind fun a => (heap a).map fun cell => heap.put a (some (f cell))

/-- `p->next = q`. -/
def setNext (heap : Heap α) (p q : Option Addr) : Option (Heap α) :=
  heap.write p fun cell => { cell with next := q }

/-- `p->prev = q`. -/
def setPrev (heap : Heap α) (p q : Option Addr) : Option (Heap α) :=
  heap.write p fun cell => { cell with prev := q }

/-- Change the value behind a pointer. -/
def setValue (heap : Heap α) (p : Option Addr) (f : α → α) : Option (Heap α) :=
  heap.write p fun cell => { cell with value := f cell.value }

/-- `p->next = q; q->prev = p;`. -/
def link (heap : Heap α) (p q : Option Addr) : Option (Heap α) :=
  (heap.setNext p q).bind fun heap => heap.setPrev q p

/-- `do { if (test(p)) break; p = p->next; } while (p != head)`, from `p`
on: the pointer it breaks at. `none` when it faults or takes more than
`fuel` turns. -/
def search (heap : Heap α) (head : Option Addr) (test : α → Bool) :
    Nat → Option Addr → Option (Option Addr)
  | 0, _ => none
  | fuel + 1, p => (heap.load p).bind fun cell =>
    if test cell.value then some p
    else if cell.next = head then some none
    else search heap head test fuel cell.next

/-- `while (attempts < limit) { if (test(p)) break; p = p->next; attempts++; }`
with `n` attempts left: the pointer it breaks at. -/
def advance (heap : Heap α) (test : α → Bool) : Nat → Option Addr → Option (Option Addr)
  | 0, _ => some none
  | n + 1, p => (heap.load p).bind fun cell =>
    if test cell.value then some p else advance heap test n cell.next

theorem load_some (heap : Heap α) (a : Addr) : heap.load (some a) = heap a := rfl

theorem put_self (heap : Heap α) (a : Addr) (cell : Option (Cell α)) :
    heap.put a cell a = cell := if_pos rfl

theorem put_of_ne (heap : Heap α) {a b : Addr} (h : b ≠ a) (cell : Option (Cell α)) :
    heap.put a cell b = heap b := if_neg h

/-- A write changes the cell it goes to. -/
theorem write_of_ne {heap heap' : Heap α} {p a : Addr} {f : Cell α → Cell α}
    (h : heap.write (some p) f = some heap') (hne : a ≠ p) : heap' a = heap a := by
  simp only [write, Option.bind_some, Option.map_eq_some_iff] at h
  obtain ⟨cell, -, rfl⟩ := h
  exact put_of_ne _ hne _

/-- What a link does to the cell at `c`. -/
def relink (p q c : Addr) (cell : Cell α) : Cell α :=
  { cell with
    next := if c = p then some q else cell.next
    prev := if c = q then some p else cell.prev }

/-- **A link** between allocated cells changes one pointer of each. -/
theorem link_eq {heap : Heap α} {p q : Addr} (hp : (heap p).isSome = true)
    (hq : (heap q).isSome = true) :
    heap.link (some p) (some q) = some fun c => (heap c).map (relink p q c) := by
  obtain ⟨pcell, hp⟩ := Option.isSome_iff_exists.mp hp
  obtain ⟨qcell, hq⟩ := Option.isSome_iff_exists.mp hq
  by_cases hpq : q = p
  · subst hpq
    have hcell : qcell = pcell := Option.some.inj (hq.symm.trans hp)
    simp only [link, setNext, setPrev, write, Option.bind_some, hp, Option.map_some, put_self,
      Option.some.injEq]
    funext c
    by_cases hc : c = q
    · simp [hc, put_self, hp, relink]
    · rw [put_of_ne _ hc, put_of_ne _ hc]
      cases heap c <;> simp [relink, hc]
  · simp only [link, setNext, setPrev, write, Option.bind_some, hp, hq, Option.map_some,
      put_of_ne _ hpq, Option.some.injEq]
    funext c
    by_cases hcq : c = q
    · simp [hcq, put_self, hq, relink, hpq]
    · rw [put_of_ne _ hcq]
      by_cases hcp : c = p
      · simp [hcp, put_self, hp, relink, Ne.symm hpq]
      · rw [put_of_ne _ hcp]
        cases heap c <;> simp [relink, hcp, hcq]

end Heap

/-! ## Rings -/

/-- The index behind `i` on a ring of `n`. -/
def indexAfter (n i : Nat) : Nat := if i + 1 = n then 0 else i + 1

/-- The index in front of `i` on a ring of `n`. -/
def indexBefore (n i : Nat) : Nat := if i = 0 then n - 1 else i - 1

/-- The index that `j` has before the cell at `i` is erased. -/
def unerased (i j : Nat) : Nat := if j < i then j else j + 1

/-- The cells at `addrs` form one cycle in this order and hold `values`. -/
structure LinkedRing {α : Type u} (heap : Heap α) (addrs : List Addr) (values : List α) : Prop where
  nodup : addrs.Nodup
  length_eq : addrs.length = values.length
  cell_eq : ∀ {i : Nat} {a : Addr} {v : α}, addrs[i]? = some a → values[i]? = some v →
    heap a = some ⟨v, addrs[indexAfter addrs.length i]?, addrs[indexBefore addrs.length i]?⟩

namespace LinkedRing

variable {α : Type u} {heap : Heap α} {addrs : List Addr} {values : List α}

/-- The empty ring. -/
theorem empty (heap : Heap α) : LinkedRing heap [] [] := by
  refine ⟨List.nodup_nil, rfl, ?_⟩
  intro i a v ha
  simp at ha

/-- An address of the ring has a value of the ring. -/
theorem exists_value (h : LinkedRing heap addrs values) {i : Nat} {a : Addr}
    (ha : addrs[i]? = some a) : ∃ v, values[i]? = some v := by
  have hi := (List.getElem?_eq_some_iff.mp ha).1
  have hi' : i < values.length := by
    rw [← h.length_eq]
    exact hi
  exact ⟨values[i], List.getElem?_eq_getElem hi'⟩

/-- An address stands at one index only. -/
theorem index_inj (h : LinkedRing heap addrs values) {i j : Nat} {a : Addr}
    (hi : addrs[i]? = some a) (hj : addrs[j]? = some a) : i = j := by
  have hlt := (List.getElem?_eq_some_iff.mp hi).1
  exact (List.getElem?_inj hlt h.nodup).mp (hi.trans hj.symm)

/-- The cells of a ring are allocated. -/
theorem isSome_of_mem (h : LinkedRing heap addrs values) {i : Nat} {a : Addr}
    (ha : addrs[i]? = some a) : (heap a).isSome = true := by
  obtain ⟨v, hv⟩ := h.exists_value ha
  rw [h.cell_eq ha hv]
  rfl

theorem ne_of_fresh (h : LinkedRing heap addrs values) {i : Nat} {a b : Addr}
    (ha : addrs[i]? = some a) (hb : heap b = none) : a ≠ b := by
  have hcell := h.isSome_of_mem ha
  intro hab
  rw [hab, hb] at hcell
  cases hcell

/-! ## Searches -/

theorem indexAfter_eq_mod {n i : Nat} (h : i < n) : indexAfter n i = (i + 1) % n := by
  unfold indexAfter
  split
  · rename_i heq
    rw [heq, Nat.mod_self]
  · rw [Nat.mod_eq_of_lt (by omega)]

theorem indexAfter_indexBefore {n i : Nat} (h : i < n) : indexAfter n (indexBefore n i) = i := by
  unfold indexAfter indexBefore
  by_cases hzero : i = 0
  · rw [if_pos hzero, if_pos (by omega), hzero]
  · rw [if_neg hzero, if_neg (by omega)]
    omega

theorem indexBefore_indexAfter (n i : Nat) : indexBefore n (indexAfter n i) = i := by
  unfold indexAfter indexBefore
  by_cases hlast : i + 1 = n
  · rw [if_pos hlast, if_pos rfl]
    omega
  · rw [if_neg hlast, if_neg (by omega)]
    omega

/-- A search that has come as far as index `i`. -/
theorem search_from (h : LinkedRing heap addrs values) (test : α → Bool) {fuel : Nat} :
    ∀ {i : Nat}, i < addrs.length → addrs.length - i ≤ fuel →
      heap.search addrs[0]? test fuel addrs[i]? =
        some (((values.drop i).findIdx? test).bind fun k => addrs[i + k]?) := by
  induction fuel with
  | zero =>
    intro i hi hfuel
    omega
  | succ fuel ih =>
    intro i hi hfuel
    have ha : addrs[i]? = some addrs[i] := List.getElem?_eq_getElem hi
    have hi' : i < values.length := by
      rw [← h.length_eq]
      exact hi
    have hv : values[i]? = some values[i] := List.getElem?_eq_getElem hi'
    rw [Heap.search, ha, Heap.load_some, h.cell_eq ha hv, Option.bind_some,
      List.drop_eq_getElem_cons hi', List.findIdx?_cons]
    by_cases htest : test values[i] = true
    · simp [htest, ha]
    · rw [if_neg htest, if_neg htest]
      by_cases hlast : i + 1 = addrs.length
      · have hdrop : values.drop (i + 1) = [] := by
          rw [hlast, h.length_eq, List.drop_length]
        have hnext : indexAfter addrs.length i = 0 := if_pos hlast
        rw [hnext, if_pos rfl, hdrop]
        rfl
      · have hnext : indexAfter addrs.length i = i + 1 := if_neg hlast
        have hne : addrs[i + 1]? ≠ addrs[0]? := by
          intro heq
          have hsome : addrs[0]? = some addrs[0] := List.getElem?_eq_getElem (by omega)
          have hzero := h.index_inj (heq.trans hsome) hsome
          omega
        rw [hnext, if_neg hne, ih (by omega) (by omega)]
        cases (values.drop (i + 1)).findIdx? test with
        | none => rfl
        | some k => simp [Nat.add_assoc, Nat.add_comm 1]

/-- **A search from the first cell** finds the first value that passes the
test, and with fuel for each cell it ends. -/
theorem search_eq (h : LinkedRing heap addrs values) (test : α → Bool) {fuel : Nat}
    (hpos : 0 < addrs.length) (hfuel : addrs.length ≤ fuel) :
    heap.search addrs[0]? test fuel addrs[0]? =
      some ((values.findIdx? test).bind fun k => addrs[k]?) := by
  simpa using h.search_from test hpos (by omega)

/-- **A bounded walk** tests the values around the ring. -/
theorem advance_eq (h : LinkedRing heap addrs values) (test : α → Bool) {n : Nat} :
    ∀ {i : Nat}, i < addrs.length →
      heap.advance test n addrs[i]? =
        some (((List.range n).find? fun k =>
          (values[(i + k) % values.length]?).any test).bind fun k =>
            addrs[(i + k) % values.length]?) := by
  induction n with
  | zero =>
    intro i hi
    rfl
  | succ n ih =>
    intro i hi
    have ha : addrs[i]? = some addrs[i] := List.getElem?_eq_getElem hi
    have hi' : i < values.length := by
      rw [← h.length_eq]
      exact hi
    have hv : values[i]? = some values[i] := List.getElem?_eq_getElem hi'
    have hmod : (i + 0) % values.length = i := Nat.mod_eq_of_lt hi'
    have hstart : addrs[(i + 0) % values.length]? = some addrs[i] := by rw [hmod, ha]
    rw [Heap.advance, ha, Heap.load_some, h.cell_eq ha hv, Option.bind_some,
      List.range_succ_eq_map, List.find?_cons, hmod, hv, Option.any_some]
    by_cases htest : test values[i] = true
    · simp only [htest, if_true, Option.bind_some, hstart]
    · have hlt : indexAfter addrs.length i < addrs.length := by
        unfold indexAfter
        split <;> omega
      have hshift : ∀ k, (indexAfter addrs.length i + k) % values.length
          = (i + (k + 1)) % values.length := by
        intro k
        rw [indexAfter_eq_mod hi, h.length_eq, Nat.mod_add_mod]
        congr 1
        omega
      simp only [htest, Bool.false_eq_true, if_false, ih hlt, hshift, List.find?_map,
        Option.bind_map, Function.comp_def, Nat.succ_eq_add_one]

/-! ## Changes -/

/-- A changed value. -/
theorem modify (h : LinkedRing heap addrs values) {i : Nat} {a : Addr} (ha : addrs[i]? = some a)
    (f : α → α) :
    ∃ heap', heap.setValue (some a) f = some heap' ∧
      LinkedRing heap' addrs (values.modify i f) := by
  obtain ⟨v, hv⟩ := h.exists_value ha
  have hcell := h.cell_eq ha hv
  have hset : heap.setValue (some a) f = some (heap.put a (some ⟨f v,
      addrs[indexAfter addrs.length i]?, addrs[indexBefore addrs.length i]?⟩)) := by
    simp only [Heap.setValue, Heap.write, Option.bind_some, hcell, Option.map_some]
  refine ⟨_, hset, h.nodup, by rw [List.length_modify, h.length_eq], ?_⟩
  intro j b w hb hw
  rw [List.getElem?_modify] at hw
  by_cases hij : i = j
  · subst hij
    have hba : b = a := Option.some.inj (hb.symm.trans ha)
    subst hba
    rw [hv] at hw
    cases hw
    rw [Heap.put_self]
    simp
  · have hba : b ≠ a := by
      intro heq
      subst heq
      exact hij (h.index_inj ha hb)
    simp only [hij, if_false, Option.map_eq_map, Option.map_id'] at hw
    rw [Heap.put_of_ne _ hba]
    exact h.cell_eq hb hw

/-- The first cell of an empty ring points to itself. -/
theorem single (heap : Heap α) (a : Addr) (v : α) :
    LinkedRing (heap.put a (some ⟨v, some a, some a⟩)) [a] [v] := by
  refine ⟨List.nodup_singleton a, rfl, ?_⟩
  intro i b w hb hw
  cases i with
  | zero =>
    cases hb
    cases hw
    simp [Heap.put_self, indexAfter, indexBefore]
  | succ i => simp at hb

/-- **A fresh cell between the tail and the head** is the new tail. -/
theorem append (h : LinkedRing heap addrs values) {new head tail : Addr} (hfresh : heap new = none)
    (hhead : addrs[0]? = some head) (htail : addrs[addrs.length - 1]? = some tail) (v : α) :
    ∃ heap', (((heap.put new (some ⟨v, none, none⟩)).link (some tail) (some new)).bind fun heap =>
        heap.link (some new) (some head)) = some heap' ∧
      LinkedRing heap' (addrs ++ [new]) (values ++ [v]) := by
  have hpos : 0 < addrs.length := (List.getElem?_eq_some_iff.mp hhead).1
  have hheadNew := h.ne_of_fresh hhead hfresh
  have htailNew := h.ne_of_fresh htail hfresh
  have hlinked : (heap.put new (some ⟨v, none, none⟩)).link (some tail) (some new)
      = some fun c => (heap.put new (some ⟨v, none, none⟩) c).map (Heap.relink tail new c) := by
    apply Heap.link_eq
    · rw [Heap.put_of_ne _ htailNew]
      exact h.isSome_of_mem htail
    · rw [Heap.put_self]
      rfl
  rw [hlinked, Option.bind_some, Heap.link_eq]
  · refine ⟨_, rfl, ?_, by simp [h.length_eq], ?_⟩
    · refine List.nodup_append.mpr ⟨h.nodup, List.nodup_singleton new, ?_⟩
      intro a ha b hb
      obtain ⟨i, hi⟩ := List.mem_iff_getElem?.mp ha
      rw [List.mem_singleton.mp hb]
      exact h.ne_of_fresh hi hfresh
    · intro i a w ha hw
      simp only [List.length_append, List.length_singleton]
      by_cases hi : i < addrs.length
      · rw [List.getElem?_append_left hi] at ha
        rw [List.getElem?_append_left (by rw [← h.length_eq]; exact hi)] at hw
        have haNew := h.ne_of_fresh ha hfresh
        have hisHead : a = head ↔ i = 0 :=
          ⟨fun heq => h.index_inj ha (heq ▸ hhead), fun heq => by
            subst heq
            exact Option.some.inj (ha.symm.trans hhead)⟩
        have hisTail : a = tail ↔ i + 1 = addrs.length :=
          ⟨fun heq => by have := h.index_inj ha (heq ▸ htail); omega, fun heq => by
            have hlast : i = addrs.length - 1 := by omega
            subst hlast
            exact Option.some.inj (ha.symm.trans htail)⟩
        simp only [Heap.put_of_ne _ haNew, h.cell_eq ha hw, Option.map_some, Heap.relink, hisHead,
          hisTail, haNew, if_false, Option.some.injEq, Cell.mk.injEq, true_and]
        constructor
        · by_cases hlast : i + 1 = addrs.length
          · rw [if_pos hlast, indexAfter, if_neg (by omega), hlast]
            simp
          · rw [if_neg hlast, indexAfter, indexAfter, if_neg hlast, if_neg (by omega),
              List.getElem?_append_left (by omega)]
        · by_cases hzero : i = 0
          · simp [hzero, indexBefore]
          · rw [if_neg hzero, indexBefore, indexBefore, if_neg hzero, if_neg hzero,
              List.getElem?_append_left (by omega)]
      · have hlen : i < (addrs ++ [new]).length := (List.getElem?_eq_some_iff.mp ha).1
        have hlast : i = addrs.length := by
          rw [List.length_append, List.length_singleton] at hlen
          omega
        subst hlast
        rw [List.getElem?_append_right (Nat.le_refl _), Nat.sub_self] at ha
        rw [h.length_eq, List.getElem?_append_right (Nat.le_refl _), Nat.sub_self] at hw
        cases ha
        cases hw
        simp only [Heap.put_self, Option.map_some, Heap.relink, Ne.symm hheadNew,
          Ne.symm htailNew, if_false, if_true, indexAfter, indexBefore, Nat.ne_of_gt hpos,
          List.getElem?_append_left hpos, hhead,
          List.getElem?_append_left (Nat.sub_lt hpos Nat.one_pos), htail]
  · rw [Heap.put_self]
    rfl
  · rw [Heap.put_of_ne _ hheadNew, Option.isSome_map]
    exact h.isSome_of_mem hhead

/-- An erased cell has no index any more. -/
theorem unerased_ne (i j : Nat) : unerased i j ≠ i := by
  unfold unerased
  split <;> omega

theorem getElem?_unerased {β : Type u} (xs : List β) (i j : Nat) :
    (xs.eraseIdx i)[j]? = xs[unerased i j]? := by
  rw [List.getElem?_eraseIdx]
  unfold unerased
  split <;> rfl

/-- The cell in front of the erased one is followed by the one behind it. -/
theorem unerased_indexAfter {n i j : Nat} (hi : i < n) (hj : unerased i j < n) (hn : 2 ≤ n) :
    unerased i (indexAfter (n - 1) j) =
      if unerased i j = indexBefore n i then indexAfter n i else indexAfter n (unerased i j) := by
  unfold unerased indexAfter indexBefore at *
  split_ifs at * <;> omega

theorem unerased_indexBefore {n i j : Nat} (hi : i < n) (hj : unerased i j < n) (hn : 2 ≤ n) :
    unerased i (indexBefore (n - 1) j) =
      if unerased i j = indexAfter n i then indexBefore n i else indexBefore n (unerased i j) := by
  unfold unerased indexAfter indexBefore at *
  split_ifs at * <;> omega

/-- **A link across a cell** takes it out of the ring, unless it is the
only one. -/
theorem erase (h : LinkedRing heap addrs values) {i : Nat} {a p q : Addr} (ha : addrs[i]? = some a)
    (hp : addrs[indexBefore addrs.length i]? = some p)
    (hq : addrs[indexAfter addrs.length i]? = some q) (hlen : 2 ≤ addrs.length) :
    ∃ heap', heap.link (some p) (some q) = some heap' ∧
      LinkedRing (heap'.put a none) (addrs.eraseIdx i) (values.eraseIdx i) := by
  have hi : i < addrs.length := (List.getElem?_eq_some_iff.mp ha).1
  refine ⟨_, Heap.link_eq (h.isSome_of_mem hp) (h.isSome_of_mem hq),
    h.nodup.sublist (List.eraseIdx_sublist _ _), ?_, ?_⟩
  · rw [List.length_eraseIdx_of_lt hi,
      List.length_eraseIdx_of_lt (by rw [← h.length_eq]; exact hi), h.length_eq]
  · intro j b w hb hw
    rw [getElem?_unerased] at hb hw
    have hjlt : unerased i j < addrs.length := (List.getElem?_eq_some_iff.mp hb).1
    have hba : b ≠ a := by
      intro heq
      subst heq
      exact unerased_ne i j (h.index_inj hb ha)
    have hisp : b = p ↔ unerased i j = indexBefore addrs.length i :=
      ⟨fun heq => h.index_inj hb (heq ▸ hp), fun heq => by
        rw [heq] at hb
        exact Option.some.inj (hb.symm.trans hp)⟩
    have hisq : b = q ↔ unerased i j = indexAfter addrs.length i :=
      ⟨fun heq => h.index_inj hb (heq ▸ hq), fun heq => by
        rw [heq] at hb
        exact Option.some.inj (hb.symm.trans hq)⟩
    simp only [Heap.put_of_ne _ hba, h.cell_eq hb hw, Option.map_some, Heap.relink, hisp, hisq,
      Option.some.injEq, Cell.mk.injEq, true_and, List.length_eraseIdx_of_lt hi,
      getElem?_unerased, unerased_indexAfter hi hjlt hlen, unerased_indexBefore hi hjlt hlen,
      ← hp, ← hq]
    constructor <;> split <;> rfl

end LinkedRing

end LoadBalancing.Base
