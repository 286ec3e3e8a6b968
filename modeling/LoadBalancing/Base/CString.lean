/-
LoadBalancing.Base.CString — NUL-terminated strings.

A `CString` is the byte string in front of its terminator, so it carries
the proof that it has no NUL byte of its own. `CString.ofBuffer` is what
a consumer of a character buffer sees: the bytes up to the first NUL,
whatever the code that filled the buffer believes its length to be.

No `sorry`, no `axiom`, no `native_decide`.
-/
import Mathlib.Data.List.TakeWhile

namespace LoadBalancing.Base

/-- The bytes of a NUL-terminated string, terminator excluded. -/
structure CString where
  bytes : List UInt8
  noNul : (0 : UInt8) ∉ bytes
  deriving DecidableEq

namespace CString

@[ext] theorem ext {s t : CString} (h : s.bytes = t.bytes) : s = t := by
  cases s; cases t; simp_all

/-- `strlen`. -/
def strlen (s : CString) : Nat := s.bytes.length

/-- The empty string. -/
def empty : CString := ⟨[], by simp⟩

/-- The string a buffer holds: everything before its first NUL. -/
def ofBuffer (raw : List UInt8) : CString :=
  ⟨raw.takeWhile (fun b => b != 0), fun h => by
    simpa using List.mem_takeWhile_imp h⟩

/-- A string literal of the source, which is ASCII. -/
def ofString (text : String) : CString := ofBuffer (text.toList.map fun c => UInt8.ofNat c.toNat)

/-- `strncpy_s` with `_TRUNCATE` into a buffer of `limit + 1` bytes. -/
def truncate (s : CString) (limit : Nat) : CString :=
  ⟨s.bytes.take limit, fun h => s.noNul (List.mem_of_mem_take h)⟩

@[simp] theorem bytes_empty : empty.bytes = [] := rfl

/-- A buffer without NUL bytes is the string it holds. -/
theorem ofBuffer_bytes (s : CString) : ofBuffer s.bytes = s := by
  apply ext
  refine List.takeWhile_eq_self_iff.mpr fun b hb => ?_
  have : b ≠ 0 := fun h0 => s.noNul (h0 ▸ hb)
  simpa using this

/-- A buffer is read whole exactly when it has no NUL. -/
theorem bytes_ofBuffer_eq {raw : List UInt8} : (ofBuffer raw).bytes = raw ↔ (0 : UInt8) ∉ raw := by
  constructor
  · intro h hzero
    exact (ofBuffer raw).noNul (h.symm ▸ hzero)
  · intro h
    exact congrArg bytes (ofBuffer_bytes ⟨raw, h⟩)

/-- Reading a buffer as a string never makes it longer. -/
theorem strlen_ofBuffer_le (raw : List UInt8) : (ofBuffer raw).strlen ≤ raw.length :=
  (List.takeWhile_prefix _).length_le

/-- A buffer holds the empty string exactly when it is empty or starts
with a NUL. -/
theorem strlen_ofBuffer_eq_zero (raw : List UInt8) :
    (ofBuffer raw).strlen = 0 ↔ raw = [] ∨ raw.head? = some 0 := by
  cases raw with
  | nil => simp [ofBuffer, strlen]
  | cons b bs => by_cases hb : b = 0 <;> simp [ofBuffer, strlen, hb]

end CString

end LoadBalancing.Base
