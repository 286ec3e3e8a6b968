/-
LoadBalancing.Base.BigEndian — numbers as base-256 digit strings, most
significant digit first, at any width.

`toBigEndian w v` writes `v` in `w` bytes and `ofBigEndian` reads a byte
string back. The two invert each other in both directions: a value that
fits its width is read back (`ofBigEndian_toBigEndian`), and a byte
string is rewritten as it was (`toBigEndian_ofBigEndian`).

No `sorry`, no `axiom`, no `native_decide`.
-/
import Mathlib.Algebra.Order.Ring.Nat
import Mathlib.Tactic.Ring

namespace LoadBalancing.Base

/-- The `w` base-256 digits of `v`, most significant first. -/
def toBigEndian : Nat → Nat → List UInt8
  | 0, _ => []
  | w + 1, v => UInt8.ofNat (v / 256 ^ w) :: toBigEndian w (v % 256 ^ w)

/-- The number a digit string denotes. -/
def ofBigEndian : List UInt8 → Nat
  | [] => 0
  | b :: bs => b.toNat * 256 ^ bs.length + ofBigEndian bs

@[simp] theorem length_toBigEndian (w v : Nat) : (toBigEndian w v).length = w := by
  induction w generalizing v with
  | zero => rfl
  | succ w ih => simp [toBigEndian, ih]

/-- A digit string denotes a number below its power of 256. -/
theorem ofBigEndian_lt (bs : List UInt8) : ofBigEndian bs < 256 ^ bs.length := by
  induction bs with
  | nil => simp [ofBigEndian]
  | cons b bs ih =>
    have hb : b.toNat < 256 := b.toNat_lt
    have hmul : b.toNat * 256 ^ bs.length + 256 ^ bs.length ≤ 256 * 256 ^ bs.length := by
      rw [← Nat.succ_mul]
      exact Nat.mul_le_mul_right (256 ^ bs.length) hb
    simp only [ofBigEndian, List.length_cons]
    rw [Nat.pow_succ, Nat.mul_comm (256 ^ bs.length) 256]
    omega

/-- Reading back a number that fits its width. -/
theorem ofBigEndian_toBigEndian (w v : Nat) (h : v < 256 ^ w) :
    ofBigEndian (toBigEndian w v) = v := by
  induction w generalizing v with
  | zero =>
    have hv : v = 0 := Nat.lt_one_iff.mp h
    rw [hv]; rfl
  | succ w ih =>
    have hpos : 0 < 256 ^ w := Nat.pow_pos (by decide)
    have hdigit : v / 256 ^ w < 256 := by
      rw [Nat.div_lt_iff_lt_mul hpos, Nat.mul_comm, ← Nat.pow_succ]
      exact h
    have htop : (UInt8.ofNat (v / 256 ^ w)).toNat = v / 256 ^ w :=
      UInt8.toNat_ofNat_of_lt' hdigit
    simp only [toBigEndian, ofBigEndian, length_toBigEndian, htop]
    rw [ih _ (Nat.mod_lt _ hpos), Nat.mul_comm]
    exact Nat.div_add_mod v (256 ^ w)

/-- Rewriting a digit string gives the same digits. -/
theorem toBigEndian_ofBigEndian (bs : List UInt8) :
    toBigEndian bs.length (ofBigEndian bs) = bs := by
  induction bs with
  | nil => rfl
  | cons b bs ih =>
    have hpos : 0 < 256 ^ bs.length := Nat.pow_pos (by decide)
    have hlt := ofBigEndian_lt bs
    have hdiv : (b.toNat * 256 ^ bs.length + ofBigEndian bs) / 256 ^ bs.length = b.toNat := by
      rw [Nat.mul_comm, Nat.mul_add_div hpos, Nat.div_eq_of_lt hlt, Nat.add_zero]
    have hmod : (b.toNat * 256 ^ bs.length + ofBigEndian bs) % 256 ^ bs.length
        = ofBigEndian bs := by
      rw [Nat.mul_comm, Nat.mul_add_mod, Nat.mod_eq_of_lt hlt]
    simp only [ofBigEndian, List.length_cons, toBigEndian, hdiv, hmod, ih]
    simp

end LoadBalancing.Base
