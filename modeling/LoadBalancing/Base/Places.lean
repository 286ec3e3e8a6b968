/-
LoadBalancing.Base.Places — things that go from place to place.

The things in all places of a system are one multiset; `pile` is one
place and `gather` a family of them. A step of the system takes a thing
out of its place and puts what has become of it into the next one, loses
some, or lets a new one in: `Transfer`. What every thing says survives a
transfer if each hop keeps it (`Transfer.forall_mem`). Of a kind that no
hop makes there are never more than have come in (`Transfer.countP_le`),
and of one that no hop unmakes and no step loses never fewer
(`Transfer.le_countP`).

No `sorry`, no `axiom`, no `native_decide`.
-/
import Mathlib.Algebra.BigOperators.Group.Finset.Piecewise
import Mathlib.Algebra.Order.BigOperators.Group.Finset
import Mathlib.Algebra.Order.Group.Multiset

namespace LoadBalancing.Base

variable {α : Type u} {β : Type v}

/-! ## Places -/

/-- What is in a place, as things of the system. -/
def pile (f : β → α) (place : List β) : Multiset α := (place.map f : List α)

@[simp] theorem pile_nil (f : β → α) : pile f [] = 0 := rfl

@[simp] theorem pile_cons (f : β → α) (b : β) (place : List β) :
    pile f (b :: place) = f b ::ₘ pile f place := rfl

@[simp] theorem pile_append (f : β → α) (place more : List β) :
    pile f (place ++ more) = pile f place + pile f more := by
  rw [pile, List.map_append, ← Multiset.coe_add]
  rfl

theorem mem_pile {f : β → α} {place : List β} {a : α} :
    a ∈ pile f place ↔ ∃ b ∈ place, f b = a := by
  simp [pile]

/-- What is in the first `n` places of a family. -/
def gather (n : Nat) (f : Nat → β → α) (places : Nat → List β) : Multiset α :=
  ∑ i ∈ Finset.range n, pile (f i) (places i)

section Gather

variable {n i : Nat} {f : Nat → β → α} {places : Nat → List β}

theorem mem_gather {a : α} : a ∈ gather n f places ↔ ∃ i < n, ∃ b ∈ places i, f i b = a := by
  simp [gather, Multiset.mem_sum, mem_pile]

@[simp] theorem gather_nil : gather n f (fun _ => []) = 0 := by
  simp [gather]

/-- Empty places. -/
theorem gather_eq_zero (h : ∀ i < n, places i = []) : gather n f places = 0 := by
  refine Finset.sum_eq_zero fun i hi => ?_
  rw [h i (Finset.mem_range.mp hi), pile_nil]

/-- More places hold more. -/
theorem gather_mono {m : Nat} (h : n ≤ m) (f : Nat → β → α) (places : Nat → List β) :
    gather n f places ≤ gather m f places :=
  Finset.sum_le_sum_of_subset_of_nonneg (Finset.range_subset_range.mpr h) fun _ _ _ =>
    Multiset.zero_le _

/-- Other contents of one place. -/
theorem gather_update (h : i < n) (f : Nat → β → α) (places : Nat → List β)
    (contents : List β) :
    gather n f (Function.update places i contents) + pile (f i) (places i)
      = gather n f places + pile (f i) contents := by
  have hi : i ∈ Finset.range n := Finset.mem_range.mpr h
  have hpile : (fun j => pile (f j) (Function.update places i contents j))
      = Function.update (fun j => pile (f j) (places j)) i (pile (f i) contents) := by
    funext j
    exact Function.apply_update (fun j (l : List β) => pile (f j) l) places i contents j
  unfold gather
  rw [hpile, Finset.sum_update_of_mem hi, ← Finset.add_sum_erase _ _ hi,
    Finset.sdiff_singleton_eq_erase, add_assoc, add_comm]
  rw [add_comm (∑ j ∈ (Finset.range n).erase i, pile (f j) (places j))]

/-- A thing is put behind the others of its place. -/
theorem gather_append (h : i < n) (f : Nat → β → α) (places : Nat → List β) (b : β) :
    gather n f (Function.update places i (places i ++ [b])) = f i b ::ₘ gather n f places := by
  have hupdate := gather_update h f places (places i ++ [b])
  rw [pile_append, ← add_assoc, add_right_comm, add_left_inj] at hupdate
  rw [hupdate, pile_cons, pile_nil, add_comm, Multiset.cons_add, zero_add]

/-- The first thing of a place is taken. -/
theorem gather_tail (h : i < n) {b : β} {rest : List β} (hplace : places i = b :: rest) :
    gather n f places = f i b ::ₘ gather n f (Function.update places i rest) := by
  have hupdate := gather_update h f places rest
  rw [hplace, pile_cons, Multiset.add_cons, ← Multiset.cons_add, add_left_inj] at hupdate
  exact hupdate.symm

/-- A place outside the family. -/
theorem gather_update_of_le (h : n ≤ i) (contents : List β) :
    gather n f (Function.update places i contents) = gather n f places := by
  refine Finset.sum_congr rfl fun j hj => ?_
  have hne : j ≠ i := by
    have hlt := Finset.mem_range.mp hj
    omega
  rw [Function.update_of_ne hne]

/-- A place loses what is in it. -/
theorem gather_clear (n i : Nat) (f : Nat → β → α) (places : Nat → List β) :
    ∃ lost ≤ pile (f i) (places i),
      gather n f places = lost + gather n f (Function.update places i []) := by
  by_cases h : i < n
  · have hupdate := gather_update h f places []
    rw [pile_nil, add_zero] at hupdate
    exact ⟨_, le_rfl, by rw [← hupdate, add_comm]⟩
  · refine ⟨0, Multiset.zero_le _, ?_⟩
    rw [gather_update_of_le (Nat.le_of_not_lt h), zero_add]

theorem gather_clear_le : gather n f (Function.update places i []) ≤ gather n f places := by
  obtain ⟨lost, -, hsplit⟩ := gather_clear n i f places
  rw [hsplit]
  exact Multiset.le_add_left _ _

end Gather

/-! ## Hops -/

/-- What a step does to the things in all places: nothing, it loses some,
replaces one by what becomes of it, lets one in, or lets one in for one
that it loses. -/
inductive Transfer (Next : α → α → Prop) (New Lost : α → Prop) (s t : Multiset α) : Prop
  | still (h : t = s)
  | lose (lost : Multiset α) (hlost : ∀ x ∈ lost, Lost x) (hs : s = lost + t)
  | pass {x y : α} (rest : Multiset α) (hnext : Next x y) (hs : s = x ::ₘ rest)
      (ht : t = y ::ₘ rest)
  | enter {y : α} (hnew : New y) (ht : t = y ::ₘ s)
  | replace {x y : α} (rest : Multiset α) (hlost : Lost x) (hnew : New y) (hs : s = x ::ₘ rest)
      (ht : t = y ::ₘ rest)

namespace Transfer

variable {Next : α → α → Prop} {New Lost : α → Prop} {s t : Multiset α}

/-- Losing one thing. -/
theorem lose_one {x : α} (hlost : Lost x) (hs : s = x ::ₘ t) : Transfer Next New Lost s t := by
  refine .lose {x} (fun y hy => ?_) (by rw [hs, Multiset.singleton_add])
  rw [Multiset.mem_singleton.mp hy]
  exact hlost

/-- **What things say.** If each hop keeps it and each new thing says it,
all things still say it. -/
theorem forall_mem {P : α → Prop} (h : Transfer Next New Lost s t) (hs : ∀ x ∈ s, P x)
    (hnext : ∀ x y, P x → Next x y → P y) (hnew : ∀ y, New y → P y) : ∀ y ∈ t, P y := by
  intro z hz
  cases h with
  | still h => exact hs z (h ▸ hz)
  | lose lost hlost hsplit =>
    exact hs z (by rw [hsplit]; exact Multiset.mem_add.mpr (Or.inr hz))
  | @pass x y rest hxy hsplit ht =>
    rw [ht] at hz
    rcases Multiset.mem_cons.mp hz with rfl | hrest
    · exact hnext x z (hs x (by rw [hsplit]; exact Multiset.mem_cons_self x rest)) hxy
    · exact hs z (by rw [hsplit]; exact Multiset.mem_cons_of_mem hrest)
  | @enter y hy ht =>
    rw [ht] at hz
    rcases Multiset.mem_cons.mp hz with rfl | hold
    · exact hnew z hy
    · exact hs z hold
  | @replace x y rest hlost hy hsplit ht =>
    rw [ht] at hz
    rcases Multiset.mem_cons.mp hz with rfl | hold
    · exact hnew z hy
    · exact hs z (by rw [hsplit]; exact Multiset.mem_cons_of_mem hold)

section Count

variable {p : α → Prop} [DecidablePred p]

/-- **How many there are.** Of a kind that no hop makes out of another one
there are no more than before and the new thing. -/
theorem countP_le (h : Transfer Next New Lost s t) (hnext : ∀ x y, Next x y → p y → p x) :
    t.countP p ≤ s.countP p ∨
      ∃ y, New y ∧ t.countP p ≤ s.countP p + if p y then 1 else 0 := by
  cases h with
  | still h => exact Or.inl (h ▸ le_rfl)
  | lose lost hlost hs =>
    rw [hs, Multiset.countP_add]
    exact Or.inl (Nat.le_add_left _ _)
  | @pass x y rest hxy hs ht =>
    refine Or.inl ?_
    rw [hs, ht, Multiset.countP_cons, Multiset.countP_cons]
    by_cases hy : p y
    · rw [if_pos hy, if_pos (hnext x y hxy hy)]
    · rw [if_neg hy]
      omega
  | @enter y hy ht =>
    refine Or.inr ⟨y, hy, ?_⟩
    rw [ht, Multiset.countP_cons]
  | @replace x y rest hlost hy hs ht =>
    refine Or.inr ⟨y, hy, ?_⟩
    rw [hs, ht, Multiset.countP_cons, Multiset.countP_cons]
    omega

/-- **How many there are at least.** Of a kind that no hop makes another one
of, and of which nothing is lost, there are no fewer than before. -/
theorem le_countP (h : Transfer Next New Lost s t) (hnext : ∀ x ∈ s, ∀ y, Next x y → p x → p y)
    (hlost : ∀ x ∈ s, Lost x → ¬ p x) : s.countP p ≤ t.countP p := by
  cases h with
  | still h => exact h ▸ le_rfl
  | lose lost hlost' hs =>
    have hnone : lost.countP p = 0 := by
      refine Multiset.countP_eq_zero.mpr fun x hx => hlost x ?_ (hlost' x hx)
      rw [hs]
      exact Multiset.mem_add.mpr (Or.inl hx)
    rw [hs, Multiset.countP_add, hnone, Nat.zero_add]
  | @pass x y rest hxy hs ht =>
    have hx : x ∈ s := by
      rw [hs]
      exact Multiset.mem_cons_self x rest
    rw [ht, hs, Multiset.countP_cons, Multiset.countP_cons]
    by_cases hpx : p x
    · rw [if_pos hpx, if_pos (hnext x hx y hxy hpx)]
    · rw [if_neg hpx]
      omega
  | @enter y hy ht =>
    rw [ht, Multiset.countP_cons]
    exact Nat.le_add_right _ _
  | @replace x y rest hx hy hs ht =>
    have hmem : x ∈ s := by
      rw [hs]
      exact Multiset.mem_cons_self x rest
    rw [ht, hs, Multiset.countP_cons, Multiset.countP_cons, if_neg (hlost x hmem hx)]
    omega

end Count

end Transfer

end LoadBalancing.Base
