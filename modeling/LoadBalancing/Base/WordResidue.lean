/-
LoadBalancing.Base.WordResidue — machine words modulo a divisor of their
range.

Arithmetic on words of `w` bits wraps around at `2 ^ w`. A modulus that
divides `2 ^ w` does not see it: the residue of a sum, a shift or a sign
extension is the one of the unbounded operation, signed or unsigned.

`foldl_modEq` is the rule for a loop that takes a list into an
accumulator: where one step adds the contribution of its element up to the
modulus, the whole loop adds the sum of the contributions, so their order
is lost.

No `sorry`, no `axiom`, no `native_decide`.
-/
import Mathlib.Data.Int.ModEq
import Mathlib.Algebra.BigOperators.Group.List.Basic

namespace LoadBalancing.Base.WordResidue

section Words

variable {w m : ℕ}

/-- What wraps around at the range keeps its residue. -/
theorem mod_modEq (hm : m ∣ 2 ^ w) (n : ℕ) : ((n % 2 ^ w : ℕ) : ℤ) ≡ n [ZMOD m] := by
  rw [Int.natCast_mod]
  exact (Int.mod_modEq (n : ℤ) _).of_dvd (Int.natCast_dvd_natCast.mpr hm)

theorem toNat_add_modEq (hm : m ∣ 2 ^ w) (x y : BitVec w) :
    ((x + y).toNat : ℤ) ≡ x.toNat + y.toNat [ZMOD m] := by
  rw [BitVec.toNat_add, ← Int.natCast_add]
  exact mod_modEq hm _

theorem toNat_shiftLeft_modEq (hm : m ∣ 2 ^ w) (x : BitVec w) (n : ℕ) :
    ((x <<< n).toNat : ℤ) ≡ x.toNat * 2 ^ n [ZMOD m] := by
  rw [BitVec.toNat_shiftLeft, Nat.shiftLeft_eq]
  have h := mod_modEq hm (x.toNat * 2 ^ n)
  push_cast at h ⊢
  exact h

/-- A word and its signed reading have the same residue. -/
theorem toNat_modEq_toInt (hm : m ∣ 2 ^ w) (x : BitVec w) : (x.toNat : ℤ) ≡ x.toInt [ZMOD m] := by
  have h : (x.toNat : ℤ) ≡ x.toInt [ZMOD (2 ^ w : ℕ)] := by
    rw [BitVec.toInt_eq_toNat_bmod]
    exact Int.bmod_emod.symm
  exact h.of_dvd (Int.natCast_dvd_natCast.mpr hm)

/-- A sign extension keeps the signed value. -/
theorem toNat_signExtend_modEq {v : ℕ} (hm : m ∣ 2 ^ w) (hv : v ≤ w) (x : BitVec v) :
    ((x.signExtend w).toNat : ℤ) ≡ x.toInt [ZMOD m] := by
  have h := toNat_modEq_toInt hm (x.signExtend w)
  rwa [BitVec.toInt_signExtend_of_le hv] at h

end Words

/-- **Loop rule.** -/
theorem foldl_modEq {α : Type u} {β : Type v} {m : ℤ} {step : α → β → α} (value : α → ℤ)
    {contribution : β → ℤ}
    (hstep : ∀ a b, value (step a b) ≡ value a + contribution b [ZMOD m]) (a : α) (bs : List β) :
    value (bs.foldl step a) ≡ value a + (bs.map contribution).sum [ZMOD m] := by
  induction bs generalizing a with
  | nil =>
    rw [List.foldl_nil, List.map_nil, List.sum_nil, add_zero]
  | cons b bs ih =>
    rw [List.foldl_cons, List.map_cons, List.sum_cons, ← add_assoc]
    exact (ih (step a b)).trans ((hstep a b).add_right _)

end LoadBalancing.Base.WordResidue
