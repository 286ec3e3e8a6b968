/-
LoadBalancing.Base.Rotation — round-robin orders under churn.

A rotation keeps its members in the order in which they come up. A turn
passes over the members that are not ready, selects the first one that is,
and goes on behind it: what was passed over and the one selected come up
last. Between turns members may be inserted anywhere and removed from
anywhere; neither changes the order of the others.

Two members that stay ready alternate: `Waits v w n order` says that since
the last selection of `w` the member `v` was selected `n` times, with `n`
at most 1, and which of the two comes up next. A selection of `w` makes
the count 0 (`waits_start`), every turn that is not a selection of `w`
keeps it (`waits_turn`), and at the next selection of `w` it is 1
(`waits_end`).

No `sorry`, no `axiom`, no `native_decide`.
-/
import Mathlib.Data.List.Nodup

namespace LoadBalancing.Base.Rotation

variable {ι : Type u}

/-- What may happen to the order: a selection, an insertion, a removal, or
nothing. The middle argument is the member selected. -/
inductive Turn (ready : ι → Prop) : List ι → Option ι → List ι → Prop
  | select {a b : List ι} {x : ι} (hskip : ∀ y ∈ a, ¬ready y) (hready : ready x) :
      Turn ready (a ++ x :: b) (some x) (b ++ a ++ [x])
  | insert (a b : List ι) {x : ι} (hnew : x ∉ a ++ b) : Turn ready (a ++ b) none (a ++ x :: b)
  | remove (a b : List ι) (x : ι) : Turn ready (a ++ x :: b) none (a ++ b)
  | stay (order : List ι) : Turn ready order none order

/-- `v` comes up before `w`. -/
def Ahead (v w : ι) (order : List ι) : Prop := [v, w].Sublist order

/-! ## The order of two members -/

/-- What is in front of the members does not matter. -/
theorem Ahead.of_append {v w : ι} {a b : List ι} (h : Ahead v w (a ++ b)) (hv : v ∉ a) :
    Ahead v w b := by
  obtain ⟨l₁, l₂, heq, hl₁, hl₂⟩ := List.sublist_append_iff.mp h
  cases l₁ with
  | nil =>
    rw [List.nil_append] at heq
    rw [Ahead, heq]
    exact hl₂
  | cons y l₁ =>
    rw [List.cons_append, List.cons.injEq] at heq
    rw [heq.1] at hv
    exact absurd (hl₁.subset List.mem_cons_self) hv

/-- A member that neither of them is may be taken out. -/
theorem Ahead.erase {v w x : ι} {a b : List ι} (h : Ahead v w (a ++ x :: b)) (hv : v ≠ x)
    (hw : w ≠ x) : Ahead v w (a ++ b) := by
  obtain ⟨l₁, l₂, heq, hl₁, hl₂⟩ := List.sublist_append_iff.mp h
  rw [Ahead, heq]
  rcases List.sublist_cons_iff.mp hl₂ with hl₂ | ⟨l, rfl, hl⟩
  · exact hl₁.append hl₂
  · have hx : x ∈ [v, w] := by
      rw [heq]
      simp
    rcases List.mem_pair.mp hx with hx | hx
    · exact absurd hx.symm hv
    · exact absurd hx.symm hw

/-- Both members are in the order. -/
theorem Ahead.mem {v w : ι} {order : List ι} (h : Ahead v w order) : v ∈ order ∧ w ∈ order :=
  ⟨h.subset List.mem_cons_self, h.subset (List.mem_cons_of_mem _ List.mem_cons_self)⟩

/-- One of two members comes first, and not both do. -/
theorem ahead_cons {v w x : ι} {b : List ι} (h : Ahead v w (x :: b)) :
    (v = x ∧ w ∈ b) ∨ Ahead v w b := by
  rcases List.sublist_cons_iff.mp h with h | ⟨l, heq, hl⟩
  · exact Or.inr h
  · rw [List.cons.injEq] at heq
    refine Or.inl ⟨heq.1, hl.subset ?_⟩
    rw [← heq.2]
    exact List.mem_singleton_self w

/-- A turn keeps the members distinct. -/
theorem Turn.nodup {ready : ι → Prop} {order order' : List ι} {chosen : Option ι}
    (h : Turn ready order chosen order') (hnodup : order.Nodup) : order'.Nodup := by
  cases h with
  | @select a b x hskip hready =>
    have hperm : (b ++ a ++ [x]).Perm (a ++ x :: b) := by
      rw [List.append_assoc]
      exact List.perm_append_comm.trans (by simp)
    exact hperm.nodup_iff.mpr hnodup
  | insert a b hnew => exact (List.nodup_middle).mpr (List.nodup_cons.mpr ⟨hnew, hnodup⟩)
  | remove a b x => exact (List.nodup_cons.mp (List.nodup_middle.mp hnodup)).2
  | stay => exact hnodup

/-- A member that is selected is ready. -/
theorem Turn.ready_of_selected {ready : ι → Prop} {order order' : List ι} {w : ι}
    (h : Turn ready order (some w) order') : ready w := by
  cases h with
  | select hskip hready => exact hready

/-! ## Two members alternate -/

section Alternation

variable {ready : ι → Prop} {order order' : List ι} {v w : ι} {chosen : Option ι} {n : Nat}

/-- Since the last selection of `w`, the member `v` was selected `n`
times, and the other one is next. -/
def Waits (v w : ι) (n : Nat) (order : List ι) : Prop :=
  n = 0 ∧ Ahead v w order ∨ n = 1 ∧ Ahead w v order

/-- **A selection of `w`** puts every other member ahead of it. -/
theorem waits_start (h : Turn ready order (some w) order') (hv : v ∈ order') (hne : v ≠ w) :
    Waits v w 0 order' := by
  cases h with
  | @select a b _ hskip hready =>
    have hv' : v ∈ b ++ a := by
      rcases List.mem_append.mp hv with hv | hv
      · exact hv
      · exact absurd (List.mem_singleton.mp hv) hne
    exact Or.inl ⟨rfl, (List.singleton_sublist.mpr hv').append (List.Sublist.refl [w])⟩

/-- **A turn that does not select `w`** selects `v` if it comes up before
`w` and is reached. -/
theorem waits_turn [DecidableEq ι] (h : Turn ready order chosen order') (hnodup : order.Nodup)
    (hv : ready v) (hw : ready w) (hv' : v ∈ order') (hw' : w ∈ order')
    (hchosen : chosen ≠ some w) (hwaits : Waits v w n order) :
    Waits v w (n + chosen.toList.count v) order' := by
  cases h with
  | @select a b x hskip hready =>
    have hva : v ∉ a := fun hmem => hskip v hmem hv
    have hwa : w ∉ a := fun hmem => hskip w hmem hw
    have hwx : w ≠ x := fun heq => hchosen (by rw [heq])
    have hxb : x ∉ b := by
      have hback := hnodup.sublist (List.sublist_append_right a (x :: b))
      exact (List.nodup_cons.mp hback).1
    rcases hwaits with ⟨rfl, hahead⟩ | ⟨rfl, hahead⟩
    · rcases ahead_cons (hahead.of_append hva) with ⟨rfl, hwb⟩ | hahead
      · -- `v` is selected and goes behind `w`
        have hlast : Ahead w v (b ++ a ++ [v]) := by
          have hwb' : w ∈ b ++ a := List.mem_append_left a hwb
          exact (List.singleton_sublist.mpr hwb').append (List.Sublist.refl [v])
        have hcount : (some v).toList.count v = 1 := by simp
        rw [hcount]
        exact Or.inr ⟨rfl, hlast⟩
      · have hvx : v ≠ x := fun heq => hxb (heq ▸ hahead.mem.1)
        have hkept : Ahead v w (b ++ a ++ [x]) := by
          rw [List.append_assoc]
          exact hahead.trans (List.sublist_append_left b _)
        have hcount : (some x).toList.count v = 0 := by simp [Ne.symm hvx]
        rw [hcount]
        exact Or.inl ⟨rfl, hkept⟩
    · rcases ahead_cons (hahead.of_append hwa) with ⟨heq, -⟩ | hahead
      · exact absurd heq hwx
      · have hvx : v ≠ x := fun heq => hxb (heq ▸ hahead.mem.2)
        have hkept : Ahead w v (b ++ a ++ [x]) := by
          rw [List.append_assoc]
          exact hahead.trans (List.sublist_append_left b _)
        have hcount : (some x).toList.count v = 0 := by simp [Ne.symm hvx]
        rw [hcount]
        exact Or.inr ⟨rfl, hkept⟩
  | @insert a b x hnew =>
    have hgrow : (a ++ b).Sublist (a ++ x :: b) :=
      (List.Sublist.refl a).append (List.sublist_cons_self x b)
    exact hwaits.imp (fun h => ⟨h.1, h.2.trans hgrow⟩) (fun h => ⟨h.1, h.2.trans hgrow⟩)
  | remove a b x =>
    have hx : x ∉ a ++ b := (List.nodup_cons.mp (List.nodup_middle.mp hnodup)).1
    have hvx : v ≠ x := fun heq => hx (heq ▸ hv')
    have hwx : w ≠ x := fun heq => hx (heq ▸ hw')
    exact hwaits.imp (fun h => ⟨h.1, h.2.erase hvx hwx⟩) (fun h => ⟨h.1, h.2.erase hwx hvx⟩)
  | stay => exact hwaits

/-- **At the next selection of `w`** the count is 1: a ready member that
came up before `w` would not have been passed over. -/
theorem waits_end (h : Turn ready order (some w) order') (hnodup : order.Nodup) (hv : ready v)
    (hne : v ≠ w) (hwaits : Waits v w n order) : n = 1 := by
  cases h with
  | @select a b _ hskip hready =>
    have hwb : w ∉ b := by
      have hback := hnodup.sublist (List.sublist_append_right a (w :: b))
      exact (List.nodup_cons.mp hback).1
    rcases hwaits with ⟨-, hahead⟩ | ⟨rfl, -⟩
    · rcases ahead_cons (hahead.of_append fun hmem => hskip v hmem hv) with ⟨heq, -⟩ | hahead
      · exact absurd heq hne
      · exact absurd hahead.mem.2 hwb
    · rfl

end Alternation

end LoadBalancing.Base.Rotation
