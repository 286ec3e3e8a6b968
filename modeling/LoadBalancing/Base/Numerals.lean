/-
LoadBalancing.Base.Numerals — decimal numerals in text.

A numeral is digits, with a sign in front when the number is negative; so
it has none of the other characters, and a separator that is not one of
them shows where it ends: texts that are joined by a separator are read
back by `separated_inj`. A numeral determines its number, and its length
is bounded by the number of digits.

`Plain` texts are the ones whose characters are bytes other than NUL; a
`CString` keeps them (`bytes_ofString`).

No `sorry`, no `axiom`, no `native_decide`.
-/
import LoadBalancing.Base.CString
import Mathlib.Algebra.Order.Ring.Nat
import Mathlib.Data.List.Basic

namespace LoadBalancing.Base.Numerals

/-! ## Separated texts -/

/-- **A separator shows where the first part ends.** -/
theorem separated_inj {α : Type u} {sep : α} {a a' b b' : List α} (ha : sep ∉ a)
    (ha' : sep ∉ a') : a ++ sep :: b = a' ++ sep :: b' ↔ a = a' ∧ b = b' := by
  constructor
  · intro h
    induction a generalizing a' with
    | nil =>
      cases a' with
      | nil => exact ⟨rfl, (List.cons.inj h).2⟩
      | cons x a' => exact absurd ((List.cons.inj h).1 ▸ List.mem_cons_self) ha'
    | cons x a ih =>
      cases a' with
      | nil => exact absurd ((List.cons.inj h).1 ▸ List.mem_cons_self) ha
      | cons y a' =>
        obtain ⟨rfl, htail⟩ := List.cons.inj h
        obtain ⟨rfl, rfl⟩ := ih (fun hmem => ha (List.mem_cons_of_mem x hmem))
          (fun hmem => ha' (List.mem_cons_of_mem x hmem)) htail
        exact ⟨rfl, rfl⟩
  · rintro ⟨rfl, rfl⟩
    rfl

/-! ## Numerals -/

/-- The characters of numerals. -/
def IsNumeral (c : Char) : Prop := c.isDigit = true ∨ c = '-'

theorem isNumeral_of_mem_nat {n : Nat} {c : Char} (h : c ∈ (toString n).toList) : IsNumeral c := by
  rw [Nat.toString_eq_repr, Nat.toList_repr] at h
  exact Or.inl (Nat.isDigit_of_mem_toDigits (by decide) (by decide) h)

/-- The characters of numerals lie between '-' and '9'. -/
theorem IsNumeral.toNat {c : Char} (h : IsNumeral c) : 45 ≤ c.toNat ∧ c.toNat ≤ 57 := by
  rcases h with hdigit | rfl
  · have hrange := Char.isDigit_iff_toNat.mp hdigit
    have hzero : '0'.toNat = 48 := rfl
    have hnine : '9'.toNat = 57 := rfl
    omega
  · decide

/-- The digits determine the number. -/
theorem toString_nat_injective {m n : Nat} (h : (toString m).toList = (toString n).toList) :
    m = n := by
  rw [Nat.toString_eq_repr, Nat.toString_eq_repr, Nat.toList_repr, Nat.toList_repr] at h
  have hvalue := congrArg (fun digits => Nat.ofDigitChars 10 digits 0) h
  simp only [Nat.ofDigitChars_ten_toDigits] at hvalue
  exact hvalue

/-- The digits of a number do not start with a sign. -/
theorem toString_nat_ne_sign (n : Nat) (text : List Char) : (toString n).toList ≠ '-' :: text := by
  intro h
  rw [Nat.toString_eq_repr, Nat.toList_repr] at h
  have hsign : '-' ∈ Nat.toDigits 10 n := h ▸ List.mem_cons_self
  have hdigit := Nat.isDigit_of_mem_toDigits (by decide) (by decide) hsign
  exact absurd hdigit (by decide)

/-- A numeral of an integer is the one of its absolute value, behind a sign
when it is negative. -/
theorem toList_toString_int (i : Int) :
    (toString i).toList =
      if 0 ≤ i then (toString i.natAbs).toList else '-' :: (toString i.natAbs).toList := by
  rw [Int.toString_eq_repr, Int.repr_eq_if]
  split
  · have hvalue : i.toNat = i.natAbs := by omega
    rw [hvalue]
    rfl
  · have hvalue : (-i).toNat = i.natAbs := by omega
    rw [hvalue, String.toList_append]
    rfl

/-- The sign and the digits determine the integer. -/
theorem toString_int_injective {i j : Int} (h : (toString i).toList = (toString j).toList) :
    i = j := by
  rw [toList_toString_int, toList_toString_int] at h
  split at h
  · split at h
    · have hvalue := toString_nat_injective h
      omega
    · exact absurd h (toString_nat_ne_sign _ _)
  · split at h
    · exact absurd h.symm (toString_nat_ne_sign _ _)
    · have hvalue := toString_nat_injective (List.cons.inj h).2
      omega

theorem length_toString_nat_le {n k : Nat} (hk : 0 < k) (h : n < 10 ^ k) :
    (toString n).toList.length ≤ k := by
  rw [Nat.toString_eq_repr, Nat.toList_repr]
  exact (Nat.length_toDigits_le_iff (by decide) hk).mpr h

theorem length_toString_int_le {i : Int} {k : Nat} (hk : 0 < k) (h : i.natAbs < 10 ^ k) :
    (toString i).toList.length ≤ k + 1 := by
  have hle := length_toString_nat_le hk h
  rw [toList_toString_int]
  split
  · exact Nat.le_succ_of_le hle
  · exact Nat.succ_le_succ hle

theorem isNumeral_of_mem_int {i : Int} {c : Char} (h : c ∈ (toString i).toList) : IsNumeral c := by
  rw [toList_toString_int] at h
  split at h
  · exact isNumeral_of_mem_nat h
  · rcases List.mem_cons.mp h with hsign | hdigit
    · exact Or.inr hsign
    · exact isNumeral_of_mem_nat hdigit

/-! ## Texts in strings -/

/-- The characters of the text are bytes other than NUL. -/
def Plain (text : String) : Prop := ∀ c ∈ text.toList, 0 < c.toNat ∧ c.toNat < 256

theorem Plain.append {s t : String} (hs : Plain s) (ht : Plain t) : Plain (s ++ t) := by
  intro c hc
  rw [String.toList_append] at hc
  rcases List.mem_append.mp hc with hc | hc
  · exact hs c hc
  · exact ht c hc

theorem plain_of_isNumeral {text : String} (h : ∀ c ∈ text.toList, IsNumeral c) : Plain text := by
  intro c hc
  have hrange := (h c hc).toNat
  omega

/-- A string keeps a plain text. -/
theorem bytes_ofString {text : String} (h : Plain text) :
    (CString.ofString text).bytes = text.toList.map fun c => UInt8.ofNat c.toNat := by
  refine CString.bytes_ofBuffer_eq.mpr fun hzero => ?_
  obtain ⟨c, hc, hnul⟩ := List.mem_map.mp hzero
  have hrange := h c hc
  have hnat := congrArg UInt8.toNat hnul
  rw [UInt8.toNat_ofNat', UInt8.toNat_zero] at hnat
  omega

theorem strlen_ofString {text : String} (h : Plain text) :
    (CString.ofString text).strlen = text.toList.length := by
  rw [CString.strlen, bytes_ofString h, List.length_map]

/-- Plain texts are read back from the bytes of their strings. -/
theorem ofString_injective {s t : String} (hs : Plain s) (ht : Plain t)
    (h : CString.ofString s = CString.ofString t) : s = t := by
  have hread : ∀ {text : String}, Plain text →
      (CString.ofString text).bytes.map (fun b => Char.ofNat b.toNat) = text.toList := by
    intro text htext
    rw [bytes_ofString htext, List.map_map]
    refine (List.map_congr_left fun c hc => ?_).trans (List.map_id _)
    have hbyte : (UInt8.ofNat c.toNat).toNat = c.toNat := by
      rw [UInt8.toNat_ofNat']
      exact Nat.mod_eq_of_lt (htext c hc).2
    rw [Function.comp_apply, hbyte, Char.ofNat_toNat, id]
  apply String.toList_injective
  rw [← hread hs, ← hread ht, h]

end LoadBalancing.Base.Numerals
