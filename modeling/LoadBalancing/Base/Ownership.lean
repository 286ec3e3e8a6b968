/-
LoadBalancing.Base.Ownership — exactly which entries a partial map has.

`Owns f owned` says that the entries of the partial map `f` are those of the
multiset `owned`, each at a key of its own. A part of the multiset belongs to
whoever holds it: as long as nobody else uses the entries of that part, what
they do elsewhere is an operation on the rest, and one rule for each
operation is all it takes. An entry that is not in the multiset is not in the
map, so nothing is left behind when the multiset is empty.

No `sorry`, no `axiom`, no `native_decide`.
-/
import Mathlib.Algebra.Order.Group.Multiset
import Mathlib.Logic.Function.Basic

namespace LoadBalancing.Base

variable {κ : Type u} {β : Type v}

/-- These entries and no others are in the map. -/
structure Owns (f : κ → Option β) (owned : Multiset (κ × β)) : Prop where
  nodup : (owned.map Prod.fst).Nodup
  mem_iff : ∀ a b, f a = some b ↔ (a, b) ∈ owned

namespace Owns

variable {f : κ → Option β} {owned : Multiset (κ × β)} {a : κ} {b : β}

theorem empty : Owns (fun _ => none : κ → Option β) 0 where
  nodup := Multiset.nodup_zero
  mem_iff a b := by simp

/-- A key is not among those of the other entries. -/
theorem notMem (h : Owns f ((a, b) ::ₘ owned)) (c : β) : (a, c) ∉ owned := by
  intro hmem
  have hnodup := h.nodup
  rw [Multiset.map_cons, Multiset.nodup_cons] at hnodup
  exact hnodup.1 (Multiset.mem_map.mpr ⟨(a, c), hmem, rfl⟩)

variable [DecidableEq κ]

/-- **A new entry**, at a key that has none. -/
theorem insert (h : Owns f owned) (hfree : f a = none) (b : β) :
    Owns (Function.update f a (some b)) ((a, b) ::ₘ owned) where
  nodup := by
    rw [Multiset.map_cons, Multiset.nodup_cons]
    refine ⟨fun hmem => ?_, h.nodup⟩
    obtain ⟨⟨a', c⟩, hp, rfl⟩ := Multiset.mem_map.mp hmem
    rw [(h.mem_iff a' c).mpr hp] at hfree
    cases hfree
  mem_iff := by
    intro a' c
    rw [Multiset.mem_cons, Prod.mk.injEq]
    by_cases ha : a' = a
    · subst ha
      have hfresh : (a', c) ∉ owned := by
        intro hmem
        rw [(h.mem_iff a' c).mpr hmem] at hfree
        cases hfree
      simp [eq_comm, hfresh]
    · simp [ha, h.mem_iff]

/-- **Another value** for an entry. -/
theorem replace (h : Owns f ((a, b) ::ₘ owned)) (c : β) :
    Owns (Function.update f a (some c)) ((a, c) ::ₘ owned) where
  nodup := by
    have hnodup := h.nodup
    rwa [Multiset.map_cons] at hnodup ⊢
  mem_iff := by
    intro a' c'
    rw [Multiset.mem_cons, Prod.mk.injEq]
    by_cases ha : a' = a
    · subst ha
      simp [h.notMem, eq_comm]
    · have hiff := h.mem_iff a' c'
      rw [Multiset.mem_cons, Prod.mk.injEq] at hiff
      simpa [ha] using hiff

/-- **An entry less.** -/
theorem erase (h : Owns f ((a, b) ::ₘ owned)) : Owns (Function.update f a none) owned where
  nodup := by
    have hnodup := h.nodup
    rw [Multiset.map_cons, Multiset.nodup_cons] at hnodup
    exact hnodup.2
  mem_iff := by
    intro a' c'
    by_cases ha : a' = a
    · subst ha
      simp [h.notMem]
    · have hiff := h.mem_iff a' c'
      rw [Multiset.mem_cons, Prod.mk.injEq] at hiff
      simpa [ha] using hiff

end Owns

end LoadBalancing.Base
