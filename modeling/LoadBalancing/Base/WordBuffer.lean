/-
LoadBalancing.Base.WordBuffer — buffers walked with a 16-bit offset, for
reading and for writing.

A `WordCursor` is a `Cursor` whose offset is a 16-bit word, as in C code
that says `offset += n`: the size checks add in a wider type, the offset
itself wraps. `Tracks d c` says that the word reader `d` does what `c`
does on every buffer that the word can count. It follows the sequencing of
the two readers, so a word reader written with `do` tracks the same text
over `Cursor`, and every exactness result about the latter carries over.

A `WordBuffer` is a local buffer being filled at such an offset. It keeps
the places written, so that "no byte behind the end" is a statement about
it. `Steady b` says that the offset, the number of bytes written and the
end of the last write agree as long as the word can count them, which is
what every write preserves.

No `sorry`, no `axiom`, no `native_decide`.
-/
import LoadBalancing.Base.Cursor

namespace LoadBalancing.Base

/-- A reader with a 16-bit offset. -/
def WordCursor (α : Type) : Type :=
  List UInt8 → UInt16 → Outcome (α × UInt16)

namespace WordCursor

variable {α β : Type}

protected def pure (a : α) : WordCursor α :=
  fun _ off => .accept (a, off)

protected def bind (d : WordCursor α) (f : α → WordCursor β) : WordCursor β :=
  fun buf off =>
    match d buf off with
    | .fault => .fault
    | .reject => .reject
    | .accept (a, off') => f a buf off'

instance : Monad WordCursor where
  pure := WordCursor.pure
  bind := WordCursor.bind

/-- Run a reader from offset 0. -/
def run (d : WordCursor α) (buf : List UInt8) : Outcome α :=
  (d buf 0).map Prod.fst

/-- Refuse the input. -/
def reject : WordCursor α := fun _ _ => .reject

/-- Refuse the input unless `n` more bytes are left. The sum is not a
16-bit one. -/
def require (n : Nat) : WordCursor Unit :=
  fun buf off => if buf.length < off.toNat + n then .reject else .accept ((), off)

/-- Read `n` bytes, unchecked, and advance the offset. -/
def take (n : Nat) : WordCursor (List UInt8) :=
  fun buf off =>
    if buf.length < off.toNat + n then .fault
    else .accept ((buf.drop off.toNat).take n, off + UInt16.ofNat n)

/-- Store `n` bytes into an output buffer of `capacity` bytes. -/
def store (capacity n : Nat) : WordCursor Unit :=
  fun _ off => if capacity < n then .fault else .accept ((), off)

/-- A big-endian number of `w` bytes, checked and then read. -/
def number (w : Nat) : WordCursor Nat := do
  require w
  let digits ← take w
  pure (ofBigEndian digits)

/-! ## Tracking -/

/-- On buffers that a word can count, `d` does what `c` does, and `c` never
leaves the buffer. -/
structure Tracks (d : WordCursor α) (c : Cursor α) : Prop where
  same : ∀ (buf : List UInt8) (off : Nat), buf.length < 65536 → off ≤ buf.length →
    d buf (UInt16.ofNat off) = (c buf off).map fun (a, off') => (a, UInt16.ofNat off')
  within : ∀ (buf : List UInt8) (off : Nat) (a : α) (off' : Nat), off ≤ buf.length →
    c buf off = .accept (a, off') → off' ≤ buf.length

theorem toNat_offset {off size : Nat} (hoff : off ≤ size) (hsize : size < 65536) :
    (UInt16.ofNat off).toNat = off :=
  UInt16.toNat_ofNat_of_lt' (by change off < 65536; omega)

theorem tracks_pure (a : α) : Tracks (pure a) (pure a) := by
  constructor
  · intro buf off _ _
    rfl
  · intro buf off b off' hoff h
    cases h
    exact hoff

theorem tracks_reject : Tracks (reject : WordCursor α) Cursor.reject := by
  constructor
  · intro buf off _ _
    rfl
  · intro buf off a off' _ h
    cases h

theorem tracks_require (n : Nat) : Tracks (require n) (Cursor.require n) := by
  constructor
  · intro buf off hbuf hoff
    rw [require, Cursor.require, toNat_offset hoff hbuf]
    split <;> rfl
  · intro buf off a off' hoff h
    unfold Cursor.require at h
    split at h
    · cases h
    · cases h
      exact hoff

theorem tracks_store (capacity n : Nat) :
    Tracks (store capacity n) (Cursor.store capacity n) := by
  constructor
  · intro buf off _ _
    rw [store, Cursor.store]
    split <;> rfl
  · intro buf off a off' hoff h
    unfold Cursor.store at h
    split at h
    · cases h
    · cases h
      exact hoff

/-- The offset behind what was read is not past the end, so it does not
wrap. -/
theorem tracks_take (n : Nat) : Tracks (take n) (Cursor.take n) := by
  constructor
  · intro buf off hbuf hoff
    rw [take, Cursor.take, toNat_offset hoff hbuf]
    split
    · rfl
    · simp only [Outcome.map, UInt16.ofNat_add]
  · intro buf off a off' hoff h
    unfold Cursor.take at h
    split at h
    · cases h
    · cases h
      omega

/-- Sequencing. -/
theorem tracks_bind {d : WordCursor α} {c : Cursor α} {f : α → WordCursor β} {g : α → Cursor β}
    (hd : Tracks d c) (hf : ∀ a, Tracks (f a) (g a)) : Tracks (d >>= f) (c >>= g) := by
  constructor
  · intro buf off hbuf hoff
    change WordCursor.bind d f buf _ = (Cursor.bind c g buf off).map _
    unfold WordCursor.bind Cursor.bind
    rw [hd.same buf off hbuf hoff]
    cases h : c buf off with
    | fault => rfl
    | reject => rfl
    | accept r =>
      obtain ⟨a, off'⟩ := r
      exact (hf a).same buf off' hbuf (hd.within buf off a off' hoff h)
  · intro buf off b off'' hoff h
    change Cursor.bind c g buf off = _ at h
    unfold Cursor.bind at h
    split at h
    · cases h
    · cases h
    · rename_i a off' ha
      exact (hf a).within buf off' b off'' (hd.within buf off a off' hoff ha) h

theorem tracks_ite {p : Prop} [Decidable p] {d d' : WordCursor α} {c c' : Cursor α}
    (h : Tracks d c) (h' : Tracks d' c') :
    Tracks (if p then d else d') (if p then c else c') := by
  split
  · exact h
  · exact h'

theorem tracks_number (w : Nat) : Tracks (number w) (Cursor.number w) :=
  tracks_bind (tracks_require w) fun _ => tracks_bind (tracks_take w) fun _ => tracks_pure _

/-- **A tracking reader gives the same outcome** on every buffer that a
word can count. -/
theorem Tracks.run_eq {d : WordCursor α} {c : Cursor α} (h : Tracks d c) {buf : List UInt8}
    (hbuf : buf.length < 65536) : d.run buf = c.run buf := by
  have hsame : d buf 0 = _ := h.same buf 0 hbuf (Nat.zero_le _)
  unfold run Cursor.run
  rw [hsame]
  cases c buf 0 <;> rfl

end WordCursor

/-! ## Writing -/

/-- A local buffer being filled: the offset, and the writes so far with
their positions. -/
structure WordBuffer where
  offset : UInt16
  writes : List (Nat × List UInt8)

namespace WordBuffer

/-- Nothing written yet. -/
def empty : WordBuffer := ⟨0, []⟩

/-- Copy bytes to the offset and advance it by their number. -/
def put (b : WordBuffer) (bytes : List UInt8) : WordBuffer :=
  ⟨b.offset + UInt16.ofNat bytes.length, b.writes ++ [(b.offset.toNat, bytes)]⟩

/-- The bytes written, in order. -/
def content (b : WordBuffer) : List UInt8 := b.writes.flatMap Prod.snd

/-- No write reaches past `capacity` bytes. -/
def InBounds (capacity : Nat) (b : WordBuffer) : Prop :=
  ∀ w ∈ b.writes, w.1 + w.2.length ≤ capacity

instance (capacity : Nat) (b : WordBuffer) : Decidable (InBounds capacity b) :=
  inferInstanceAs (Decidable (∀ w ∈ b.writes, _))

@[simp] theorem content_empty : empty.content = [] := rfl

@[simp] theorem content_put (b : WordBuffer) (bytes : List UInt8) :
    (b.put bytes).content = b.content ++ bytes := by
  simp [content, put]

theorem inBounds_put {capacity : Nat} {b : WordBuffer} {bytes : List UInt8} :
    InBounds capacity (b.put bytes) ↔
      InBounds capacity b ∧ b.offset.toNat + bytes.length ≤ capacity := by
  simp [InBounds, put, or_imp, forall_and]

/-- As long as a word can count the bytes written, the offset does, and the
writes end there. -/
structure Steady (b : WordBuffer) : Prop where
  offset : b.content.length < 65536 → b.offset.toNat = b.content.length
  bounds : b.content.length < 65536 →
    ∀ capacity, InBounds capacity b ↔ b.content.length ≤ capacity

theorem steady_empty : Steady empty := by
  constructor
  · intro _
    rfl
  · intro _ capacity
    simp [InBounds, empty, content]

/-- **A write keeps the buffer steady.** -/
theorem Steady.put {b : WordBuffer} (h : Steady b) (bytes : List UInt8) :
    Steady (b.put bytes) := by
  constructor
  · intro hcount
    rw [content_put, List.length_append] at hcount
    have hbytes : (UInt16.ofNat bytes.length).toNat = bytes.length :=
      UInt16.toNat_ofNat_of_lt' (by change _ < 65536; omega)
    have hsum : (b.offset + UInt16.ofNat bytes.length).toNat
        = (b.content.length + bytes.length) % 65536 := by
      rw [UInt16.toNat_add, h.offset (by omega), hbytes]
    change (b.offset + UInt16.ofNat bytes.length).toNat = _
    rw [hsum, content_put, List.length_append, Nat.mod_eq_of_lt hcount]
  · intro hcount capacity
    rw [content_put, List.length_append] at hcount
    rw [inBounds_put, h.bounds (by omega), h.offset (by omega), content_put, List.length_append]
    omega

end WordBuffer

end LoadBalancing.Base
