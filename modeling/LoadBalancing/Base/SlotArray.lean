/-
LoadBalancing.Base.SlotArray — a list kept in the first slots of an array
of fixed size.

The slots in use come first; behind them are free slots, of which
something may be known (`Free`). An element is added in the first free
slot and taken out by moving every later one down by one slot, which
leaves a stale copy of the last element behind. `Holds.shiftDown` says
where that copy is, and `Holds.remove` that clearing it is enough.

No `sorry`, no `axiom`, no `native_decide`.
-/
import Mathlib.Data.List.Basic

namespace LoadBalancing.Base.SlotArray

variable {α : Type u}

/-! ## Moving slots -/

/-- `slots[j] = slots[j + 1]`. -/
def copyDown (slots : List α) (j : Nat) : List α :=
  match slots[j + 1]? with
  | some next => slots.set j next
  | none => slots

/-- `for (j = i; j < i + steps; j++) slots[j] = slots[j + 1]`. -/
def shiftDown (slots : List α) (i : Nat) : Nat → List α
  | 0 => slots
  | steps + 1 => shiftDown (copyDown slots i) (i + 1) steps

@[simp] theorem length_copyDown (slots : List α) (j : Nat) :
    (copyDown slots j).length = slots.length := by
  unfold copyDown
  cases slots[j + 1]? with
  | none => rfl
  | some next => exact List.length_set

@[simp] theorem length_shiftDown (slots : List α) (i steps : Nat) :
    (shiftDown slots i steps).length = slots.length := by
  induction steps generalizing slots i with
  | zero => rfl
  | succ steps ih => rw [shiftDown, ih, length_copyDown]

/-- One copy, at the end of a known front. -/
theorem copyDown_append (front back : List α) (x y : α) :
    copyDown (front ++ x :: y :: back) front.length = front ++ y :: y :: back := by
  have hnext : (front ++ x :: y :: back)[front.length + 1]? = some y := by
    rw [List.getElem?_append_right (Nat.le_add_right ..), Nat.add_sub_cancel_left]
    rfl
  have hset : (front ++ x :: y :: back).set front.length y = front ++ y :: y :: back := by
    rw [List.set_append_right _ _ (Nat.le_refl _), Nat.sub_self]
    rfl
  unfold copyDown
  rw [hnext]
  exact hset

/-- **What the loop leaves**: the element at its start is gone, and the last
one is there twice. -/
theorem shiftDown_append (front later back : List α) (x : α) :
    ∃ stale, shiftDown (front ++ x :: later ++ back) front.length later.length =
      front ++ later ++ stale :: back := by
  induction later generalizing front x with
  | nil => exact ⟨x, by simp [shiftDown]⟩
  | cons y later ih =>
    obtain ⟨stale, hrest⟩ := ih (front ++ [y]) y
    have hfront : (front ++ [y]).length = front.length + 1 := by simp
    have hcopied : copyDown (front ++ x :: y :: (later ++ back)) front.length =
        front ++ [y] ++ y :: later ++ back := by
      rw [copyDown_append]
      simp
    rw [hfront] at hrest
    refine ⟨stale, ?_⟩
    calc shiftDown (front ++ x :: y :: later ++ back) front.length (y :: later).length
        = shiftDown (copyDown (front ++ x :: y :: (later ++ back)) front.length)
            (front.length + 1) later.length := by simp [shiftDown]
      _ = shiftDown (front ++ [y] ++ y :: later ++ back) (front.length + 1) later.length := by
        rw [hcopied]
      _ = front ++ [y] ++ later ++ stale :: back := hrest
      _ = front ++ y :: later ++ stale :: back := by simp

/-! ## Changing one slot -/

theorem modify_append_left {front : List α} {i : Nat} (hi : i < front.length) (back : List α)
    (f : α → α) : (front ++ back).modify i f = front.modify i f ++ back := by
  induction front generalizing i with
  | nil => cases hi
  | cons x front ih =>
    cases i with
    | zero => rfl
    | succ i =>
      have hrest := ih (Nat.lt_of_succ_lt_succ hi)
      rw [List.cons_append, List.modify_succ_cons, hrest, List.modify_succ_cons, List.cons_append]

theorem modify_append_cons (front back : List α) (x : α) (f : α → α) :
    (front ++ x :: back).modify front.length f = front ++ f x :: back := by
  induction front with
  | nil => rfl
  | cons y front ih =>
    rw [List.cons_append, List.length_cons, List.modify_succ_cons, ih, List.cons_append]

/-! ## The list in the slots -/

/-- The slots hold `content`, and those behind it are free. -/
def Holds (Free : α → Prop) (slots content : List α) : Prop :=
  ∃ rest, slots = content ++ rest ∧ ∀ slot ∈ rest, Free slot

variable {Free : α → Prop} {slots content : List α}

theorem holds_replicate {free : α} (hfree : Free free) (capacity : Nat) :
    Holds Free (List.replicate capacity free) [] := by
  refine ⟨_, rfl, ?_⟩
  intro slot hslot
  rw [List.eq_of_mem_replicate hslot]
  exact hfree

namespace Holds

theorem take (h : Holds Free slots content) : slots.take content.length = content := by
  obtain ⟨rest, rfl, -⟩ := h
  exact List.take_left

theorem length_le (h : Holds Free slots content) : content.length ≤ slots.length := by
  obtain ⟨rest, rfl, -⟩ := h
  rw [List.length_append]
  exact Nat.le_add_right ..

/-- **Adding** in the first free slot. -/
theorem append (h : Holds Free slots content) (hroom : content.length < slots.length) (x : α) :
    Holds Free (slots.set content.length x) (content ++ [x]) := by
  obtain ⟨rest, rfl, hfree⟩ := h
  cases rest with
  | nil => simp at hroom
  | cons slot rest =>
    refine ⟨rest, ?_, fun s hs => hfree s (List.mem_cons_of_mem _ hs)⟩
    rw [List.set_append_right _ _ (Nat.le_refl _), Nat.sub_self]
    simp

/-- Changing an element in place. -/
theorem modify (h : Holds Free slots content) {i : Nat} (hi : i < content.length) (f : α → α) :
    Holds Free (slots.modify i f) (content.modify i f) := by
  obtain ⟨rest, rfl, hfree⟩ := h
  exact ⟨rest, modify_append_left hi rest f, hfree⟩

/-- **Taking out** an element: the later ones move down and a copy of the
last stays in the slot that is no longer used. -/
theorem shiftDown (h : Holds Free slots content) {i : Nat} (hi : i < content.length) :
    ∃ stale rest, SlotArray.shiftDown slots i (content.length - 1 - i) =
      content.eraseIdx i ++ stale :: rest ∧ ∀ slot ∈ rest, Free slot := by
  obtain ⟨rest, rfl, hfree⟩ := h
  have hsplit : content = content.take i ++ content[i] :: content.drop (i + 1) := by simp
  have hlength : (content.take i).length = i := by
    rw [List.length_take]
    omega
  have hsteps : (content.drop (i + 1)).length = content.length - 1 - i := by
    rw [List.length_drop]
    omega
  obtain ⟨stale, hloop⟩ := shiftDown_append (content.take i) (content.drop (i + 1)) rest content[i]
  rw [← hsplit, hlength, hsteps, ← List.eraseIdx_eq_take_drop_succ] at hloop
  exact ⟨stale, rest, hloop, hfree⟩

/-- Where what stays behind is cleared, the slot is free again. -/
theorem remove (h : Holds Free slots content) {i : Nat} (hi : i < content.length) {clear : α → α}
    (hclear : ∀ slot, Free (clear slot)) :
    Holds Free ((SlotArray.shiftDown slots i (content.length - 1 - i)).modify
      (content.length - 1) clear) (content.eraseIdx i) := by
  obtain ⟨stale, rest, hloop, hfree⟩ := h.shiftDown hi
  have hlength : (content.eraseIdx i).length = content.length - 1 := by
    rw [List.length_eraseIdx_of_lt hi]
  refine ⟨clear stale :: rest, ?_, ?_⟩
  · rw [hloop, ← hlength]
    exact modify_append_cons ..
  · intro slot hslot
    rcases List.mem_cons.mp hslot with rfl | hmem
    · exact hclear stale
    · exact hfree slot hmem

end Holds

end LoadBalancing.Base.SlotArray
