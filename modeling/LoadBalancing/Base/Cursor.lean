/-
LoadBalancing.Base.Cursor — bounds-checked reading of a byte buffer, and
what it means for such a reader to be exact for a format.

A `Cursor` is a program that walks a buffer by an offset. It ends in one
of three ways: it accepts with a value and a new offset, it rejects, or
it touches memory outside a buffer it was given (`fault`). The fault is
an outcome of its own so that memory safety is a theorem about the
reader and not an assumption of the model.

A format is a relation between values and the byte strings that spell
them. `Exact d G` says that the reader `d` never faults and accepts a
value exactly when some prefix of what is left spells it under `G`. The
rules `exact_pure` and `exact_bind` follow the reader's own sequencing,
so a reader written with `do` is proved exact one field at a time.

No `sorry`, no `axiom`, no `native_decide`.
-/
import LoadBalancing.Base.BigEndian

namespace LoadBalancing.Base

/-- How a reader ends. -/
inductive Outcome (α : Type) where
  /-- A byte outside one of the buffers was read or written. -/
  | fault
  /-- The input was refused. -/
  | reject
  | accept (a : α)
  deriving DecidableEq

/-- Rewrap the value of an accepting outcome. -/
def Outcome.map {α β : Type} (f : α → β) : Outcome α → Outcome β
  | .fault => .fault
  | .reject => .reject
  | .accept a => .accept (f a)

theorem Outcome.map_map {α β γ : Type} (f : α → β) (g : β → γ) (o : Outcome α) :
    (o.map f).map g = o.map fun a => g (f a) := by
  cases o <;> rfl

theorem Outcome.map_eq_fault {α β : Type} {f : α → β} {o : Outcome α} :
    o.map f = .fault ↔ o = .fault := by
  cases o <;> simp [Outcome.map]

theorem Outcome.map_eq_accept {α β : Type} {f : α → β} {o : Outcome α} {b : β} :
    o.map f = .accept b ↔ ∃ a, o = .accept a ∧ f a = b := by
  cases o <;> simp [Outcome.map]

/-- A reader: from a buffer and an offset to an outcome with the offset
behind what was read. -/
def Cursor (α : Type) : Type :=
  List UInt8 → Nat → Outcome (α × Nat)

namespace Cursor

variable {α β : Type}

protected def pure (a : α) : Cursor α :=
  fun _ off => .accept (a, off)

protected def bind (d : Cursor α) (f : α → Cursor β) : Cursor β :=
  fun buf off =>
    match d buf off with
    | .fault => .fault
    | .reject => .reject
    | .accept (a, off') => f a buf off'

instance : Monad Cursor where
  pure := Cursor.pure
  bind := Cursor.bind

/-- Run a reader from the start of a buffer, forgetting the offset. -/
def run (d : Cursor α) (buf : List UInt8) : Outcome α :=
  match d buf 0 with
  | .fault => .fault
  | .reject => .reject
  | .accept (a, _) => .accept a

/-- Refuse the input. -/
def reject : Cursor α := fun _ _ => .reject

/-- Refuse the input unless `n` more bytes are left. -/
def require (n : Nat) : Cursor Unit :=
  fun buf off => if buf.length < off + n then .reject else .accept ((), off)

/-- Read `n` bytes, unchecked: past the end of the buffer this faults. -/
def take (n : Nat) : Cursor (List UInt8) :=
  fun buf off =>
    if buf.length < off + n then .fault
    else .accept ((buf.drop off).take n, off + n)

/-- Store `n` bytes into an output buffer of `capacity` bytes. -/
def store (capacity n : Nat) : Cursor Unit :=
  fun _ off => if capacity < n then .fault else .accept ((), off)

/-! How each primitive runs inside a sequence. -/

theorem require_bind (n : Nat) (f : Unit → Cursor α) (buf : List UInt8) (off : Nat) :
    (require n >>= f) buf off = if buf.length < off + n then .reject else f () buf off := by
  change Cursor.bind (require n) f buf off = _
  unfold Cursor.bind require
  by_cases h : buf.length < off + n <;> simp [h]

theorem store_bind (capacity n : Nat) (f : Unit → Cursor α) (buf : List UInt8)
    (off : Nat) :
    (store capacity n >>= f) buf off = if capacity < n then .fault else f () buf off := by
  change Cursor.bind (store capacity n) f buf off = _
  unfold Cursor.bind store
  by_cases h : capacity < n <;> simp [h]

theorem take_bind (n : Nat) (f : List UInt8 → Cursor α) (buf : List UInt8) (off : Nat) :
    (take n >>= f) buf off =
      if buf.length < off + n then .fault else f ((buf.drop off).take n) buf (off + n) := by
  change Cursor.bind (take n) f buf off = _
  unfold Cursor.bind take
  by_cases h : buf.length < off + n <;> simp [h]

theorem pure_apply (a : α) (buf : List UInt8) (off : Nat) :
    (pure a : Cursor α) buf off = .accept (a, off) := rfl

/-- A big-endian number of `w` bytes, checked and then read. -/
def number (w : Nat) : Cursor Nat := do
  require w
  let digits ← take w
  pure (ofBigEndian digits)

/-! ## Exactness -/

/-- `d` never faults, and accepts exactly the prefixes that `G` allows. -/
structure Exact (d : Cursor α) (G : α → List UInt8 → Prop) : Prop where
  safe : ∀ buf off, off ≤ buf.length → d buf off ≠ .fault
  accepts : ∀ buf off a off', off ≤ buf.length →
    (d buf off = .accept (a, off') ↔
      ∃ bs, G a bs ∧ bs <+: buf.drop off ∧ off' = off + bs.length)

variable {G : α → List UInt8 → Prop}

/-- Formats that allow the same strings have the same exact readers. -/
theorem Exact.congr {d : Cursor α} {G' : α → List UInt8 → Prop} (h : Exact d G)
    (hG : ∀ a bs, G a bs ↔ G' a bs) : Exact d G' := by
  refine ⟨h.safe, fun buf off a off' hoff => ?_⟩
  simp only [h.accepts buf off a off' hoff, hG]

/-- What an exact reader accepts lies within the buffer. -/
theorem Exact.offset_le {d : Cursor α} (h : Exact d G) {buf : List UInt8} {off off' : Nat}
    {a : α} (hoff : off ≤ buf.length) (ha : d buf off = .accept (a, off')) :
    off' ≤ buf.length := by
  obtain ⟨bs, -, hpre, rfl⟩ := (h.accepts buf off a off' hoff).mp ha
  have := hpre.length_le
  rw [List.length_drop] at this
  omega

theorem exact_pure (a : α) : Exact (pure a) (fun b bs => b = a ∧ bs = []) := by
  refine ⟨fun buf off _ h => (by cases h), fun buf off b off' _ => ?_⟩
  constructor
  · rintro ⟨⟩
    exact ⟨[], ⟨rfl, rfl⟩, List.nil_prefix, rfl⟩
  · rintro ⟨bs, ⟨rfl, rfl⟩, -, rfl⟩
    rfl

theorem exact_reject : Exact (reject : Cursor α) (fun _ _ => False) := by
  refine ⟨fun buf off _ h => (by cases h), fun buf off b off' _ => ?_⟩
  constructor
  · rintro ⟨⟩
  · rintro ⟨_, ⟨⟩, _⟩

/-- A sequence of readers that never fault. -/
theorem bind_ne_fault {d : Cursor α} {f : α → Cursor β} (hd : Exact d G)
    (hf : ∀ a xs, G a xs → ∀ buf off, off ≤ buf.length → f a buf off ≠ .fault)
    (buf : List UInt8) (off : Nat) (hoff : off ≤ buf.length) : (d >>= f) buf off ≠ .fault := by
  intro hfault
  change Cursor.bind d f buf off = .fault at hfault
  unfold Cursor.bind at hfault
  split at hfault
  · next h => exact hd.safe buf off hoff h
  · cases hfault
  · next a off' h =>
    obtain ⟨xs, hx, -, -⟩ := (hd.accepts buf off a off' hoff).mp h
    exact hf a xs hx buf off' (hd.offset_le hoff h) hfault

/-- Sequencing: first a string of the first format, then one of the
second, which may depend on the value of the first. -/
theorem exact_bind {d : Cursor α} {f : α → Cursor β} {H : α → β → List UInt8 → Prop}
    (hd : Exact d G) (hf : ∀ a xs, G a xs → Exact (f a) (H a)) :
    Exact (d >>= f) (fun b bs => ∃ a xs ys, G a xs ∧ H a b ys ∧ bs = xs ++ ys) := by
  constructor
  · exact bind_ne_fault hd fun a xs hx => (hf a xs hx).safe
  · intro buf off b off'' hoff
    change Cursor.bind d f buf off = .accept (b, off'') ↔ _
    constructor
    · intro h
      unfold Cursor.bind at h
      split at h
      · cases h
      · cases h
      · next a off' ha =>
        obtain ⟨xs, hx, hpre, rfl⟩ := (hd.accepts buf off a off' hoff).mp ha
        obtain ⟨ys, hy, hpre', rfl⟩ :=
          ((hf a xs hx).accepts buf _ b off'' (hd.offset_le hoff ha)).mp h
        refine ⟨xs ++ ys, ⟨a, xs, ys, hx, hy, rfl⟩, ?_, by simp; omega⟩
        obtain ⟨rest, hrest⟩ := hpre
        rw [← List.drop_drop, ← hrest, List.drop_left] at hpre'
        obtain ⟨rest', hrest'⟩ := hpre'
        exact ⟨rest', by rw [← hrest, ← hrest', List.append_assoc]⟩
    · rintro ⟨bs, ⟨a, xs, ys, hx, hy, rfl⟩, ⟨rest, hrest⟩, rfl⟩
      have ha : d buf off = .accept (a, off + xs.length) :=
        (hd.accepts buf off a _ hoff).mpr
          ⟨xs, hx, ⟨ys ++ rest, by rw [← hrest, List.append_assoc]⟩, rfl⟩
      have hb : f a buf (off + xs.length) = .accept (b, off + xs.length + ys.length) := by
        refine ((hf a xs hx).accepts buf _ b _ (hd.offset_le hoff ha)).mpr
          ⟨ys, hy, ⟨rest, ?_⟩, rfl⟩
        rw [← List.drop_drop, ← hrest, List.append_assoc, List.drop_left]
      unfold Cursor.bind
      rw [ha]
      simp only [hb, List.length_append, Nat.add_assoc]

/-- A number field accepts exactly the digits of its value. -/
theorem exact_number (w : Nat) :
    Exact (number w) (fun v bs => v < 256 ^ w ∧ bs = toBigEndian w v) := by
  have heq : ∀ buf off, number w buf off =
      if buf.length < off + w then .reject
      else .accept (ofBigEndian ((buf.drop off).take w), off + w) := by
    intro buf off
    rw [number, require_bind, take_bind]
    split
    · rfl
    · exact pure_apply _ _ _
  constructor
  · intro buf off _
    rw [heq]
    split <;> simp
  · intro buf off v off' hoff
    rw [heq]
    constructor
    · intro h
      split at h
      · cases h
      · next hlen =>
        cases h
        have hw : ((buf.drop off).take w).length = w := by simp; omega
        refine ⟨(buf.drop off).take w, ⟨?_, ?_⟩, List.take_prefix _ _, by rw [hw]⟩
        · simpa only [hw] using ofBigEndian_lt ((buf.drop off).take w)
        · have := toBigEndian_ofBigEndian ((buf.drop off).take w)
          rw [hw] at this
          exact this.symm
    · rintro ⟨bs, ⟨hv, rfl⟩, hpre, rfl⟩
      have hle := hpre.length_le
      rw [length_toBigEndian, List.length_drop] at hle
      have htake : (buf.drop off).take w = toBigEndian w v := by
        simpa using (List.prefix_iff_eq_take.mp hpre).symm
      rw [if_neg (by omega), htake, ofBigEndian_toBigEndian w v hv, length_toBigEndian]

/-- Copying `n` bytes behind the check that they are there, into an
output that has room for them. -/
theorem exact_checked_take {n m capacity : Nat} (hm : m ≤ capacity) :
    Exact (do require n; store capacity m; take n) (fun v bs => v.length = n ∧ bs = v) := by
  have heq : ∀ buf off,
      (do require n; store capacity m; take n : Cursor (List UInt8)) buf off =
        if buf.length < off + n then .reject
        else .accept ((buf.drop off).take n, off + n) := by
    intro buf off
    rw [require_bind, store_bind, if_neg (Nat.not_lt.mpr hm), take]
    split <;> rfl
  constructor
  · intro buf off _
    rw [heq]
    split <;> simp
  · intro buf off v off' hoff
    rw [heq]
    constructor
    · intro h
      split at h
      · cases h
      · next hlen =>
        cases h
        have hn : ((buf.drop off).take n).length = n := by simp; omega
        exact ⟨_, ⟨hn, rfl⟩, List.take_prefix _ _, by rw [hn]⟩
    · rintro ⟨bs, ⟨hv, rfl⟩, hpre, rfl⟩
      have hle := hpre.length_le
      rw [List.length_drop] at hle
      have htake : (buf.drop off).take n = bs := by
        rw [← hv]; exact (List.prefix_iff_eq_take.mp hpre).symm
      rw [if_neg (by omega), htake, hv]

/-- An exact reader run from the start of a buffer. -/
theorem Exact.run_eq_accept {d : Cursor α} (h : Exact d G) (buf : List UInt8) (a : α) :
    d.run buf = .accept a ↔ ∃ bs, G a bs ∧ bs <+: buf := by
  have hacc := h.accepts buf 0 a
  simp only [List.drop_zero, Nat.zero_le, forall_const] at hacc
  unfold run
  constructor
  · intro hrun
    split at hrun
    · cases hrun
    · cases hrun
    · next off' hd =>
      cases hrun
      obtain ⟨bs, hG, hpre, -⟩ := (hacc off').mp hd
      exact ⟨bs, hG, hpre⟩
  · rintro ⟨bs, hG, hpre⟩
    rw [(hacc (0 + bs.length)).mpr ⟨bs, hG, hpre, rfl⟩]

theorem Exact.run_ne_fault {d : Cursor α} (h : Exact d G) (buf : List UInt8) :
    d.run buf ≠ .fault := by
  have hsafe := h.safe buf 0 (Nat.zero_le _)
  unfold run
  split
  · next hd => exact absurd hd hsafe
  · simp
  · simp

/-! ## Readers that stop early

The last field of a format may be read in part only. Such a reader accepts
what an exact one does, and leaves its offset inside the field. -/

/-- `d` never faults, and accepts when a prefix that `G` allows is there. -/
structure Reads (d : Cursor α) (G : α → List UInt8 → Prop) : Prop where
  safe : ∀ buf off, off ≤ buf.length → d buf off ≠ .fault
  accepts : ∀ buf off a, off ≤ buf.length →
    ((∃ off', d buf off = .accept (a, off')) ↔ ∃ bs, G a bs ∧ bs <+: buf.drop off)

/-- Sequencing: an exact reader, then one that may stop early. -/
theorem reads_bind {d : Cursor α} {f : α → Cursor β} {H : α → β → List UInt8 → Prop}
    (hd : Exact d G) (hf : ∀ a xs, G a xs → Reads (f a) (H a)) :
    Reads (d >>= f) (fun b bs => ∃ a xs ys, G a xs ∧ H a b ys ∧ bs = xs ++ ys) := by
  constructor
  · exact bind_ne_fault hd fun a xs hx => (hf a xs hx).safe
  · intro buf off b hoff
    change (∃ off', Cursor.bind d f buf off = .accept (b, off')) ↔ _
    constructor
    · rintro ⟨off'', h⟩
      unfold Cursor.bind at h
      split at h
      · cases h
      · cases h
      · next a off' ha =>
        obtain ⟨xs, hx, ⟨rest, hrest⟩, rfl⟩ := (hd.accepts buf off a off' hoff).mp ha
        obtain ⟨ys, hy, hpre⟩ :=
          ((hf a xs hx).accepts buf _ b (hd.offset_le hoff ha)).mp ⟨off'', h⟩
        rw [← List.drop_drop, ← hrest, List.drop_left] at hpre
        obtain ⟨rest', hrest'⟩ := hpre
        exact ⟨xs ++ ys, ⟨a, xs, ys, hx, hy, rfl⟩,
          ⟨rest', by rw [← hrest, ← hrest', List.append_assoc]⟩⟩
    · rintro ⟨bs, ⟨a, xs, ys, hx, hy, rfl⟩, rest, hrest⟩
      have ha : d buf off = .accept (a, off + xs.length) :=
        (hd.accepts buf off a _ hoff).mpr
          ⟨xs, hx, ⟨ys ++ rest, by rw [← hrest, List.append_assoc]⟩, rfl⟩
      have hys : ys <+: buf.drop (off + xs.length) := by
        rw [← List.drop_drop, ← hrest, List.append_assoc, List.drop_left]
        exact ⟨rest, rfl⟩
      obtain ⟨off', hb⟩ :=
        ((hf a xs hx).accepts buf _ b (hd.offset_le hoff ha)).mpr ⟨ys, hy, hys⟩
      unfold Cursor.bind
      rw [ha]
      exact ⟨off', hb⟩

theorem Reads.run_eq_accept {d : Cursor α} (h : Reads d G) (buf : List UInt8) (a : α) :
    d.run buf = .accept a ↔ ∃ bs, G a bs ∧ bs <+: buf := by
  have hacc := h.accepts buf 0 a (Nat.zero_le _)
  rw [List.drop_zero] at hacc
  rw [← hacc]
  unfold run
  constructor
  · intro hrun
    split at hrun
    · cases hrun
    · cases hrun
    · next off' hd =>
      cases hrun
      exact ⟨off', hd⟩
  · rintro ⟨off', hd⟩
    rw [hd]

theorem Reads.run_ne_fault {d : Cursor α} (h : Reads d G) (buf : List UInt8) :
    d.run buf ≠ .fault := by
  have hsafe := h.safe buf 0 (Nat.zero_le _)
  unfold run
  split
  · next hd => exact absurd hd hsafe
  · simp
  · simp

end Cursor

end LoadBalancing.Base
