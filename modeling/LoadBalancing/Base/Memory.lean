/-
LoadBalancing.Base.Memory — `malloc` and `free`.

A memory has blocks by address. Loading, storing to and freeing an address
without a block is a fault; a new block gets an address that no block has
had. `Holds` says exactly which blocks there are, by `Base.Ownership`:
nothing else is allocated, so a block that is missing from it cannot be
leaked and one that is in it has not been freed. Its lemmas are the rules of
the four operations.

A `Program` is a computation on a memory that may fault. `Triple` is its
specification, with the blocks it needs as its precondition: what else is
allocated stays as it is, which makes `Triple.call` the frame rule and the
rule of sequence in one.

No `sorry`, no `axiom`, no `native_decide`.
-/
import LoadBalancing.Base.Ownership
import Mathlib.Data.Multiset.Range

namespace LoadBalancing.Base

/-- The blocks by address. From `next` on no address has been handed out. -/
structure Memory (β : Type u) where
  block : Nat → Option β
  next : Nat

namespace Memory

variable {β : Type u}

/-- Nothing is allocated. -/
def empty : Memory β := ⟨fun _ => none, 0⟩

/-- A new block. -/
def alloc (m : Memory β) (b : β) : Nat × Memory β :=
  (m.next, ⟨Function.update m.block m.next (some b), m.next + 1⟩)

/-- The contents of a block. -/
def load (m : Memory β) (a : Nat) : Option β := m.block a

/-- Write a block. -/
def store (m : Memory β) (a : Nat) (b : β) : Option (Memory β) :=
  if (m.block a).isSome then some { m with block := Function.update m.block a (some b) } else none

/-- Free a block. -/
def free (m : Memory β) (a : Nat) : Option (Memory β) :=
  if (m.block a).isSome then some { m with block := Function.update m.block a none } else none

/-! ## Which blocks there are -/

/-- These blocks and no others are allocated. -/
structure Holds (m : Memory β) (owned : Multiset (Nat × β)) : Prop extends Owns m.block owned where
  lt_next : ∀ p ∈ owned, p.1 < m.next

theorem holds_empty : (empty : Memory β).Holds 0 where
  toOwns := Owns.empty
  lt_next p hp := absurd hp (Multiset.notMem_zero p)

section Rules

variable {m : Memory β} {owned : Multiset (Nat × β)} {a : Nat} {b : β}

theorem Holds.load (h : m.Holds owned) (hmem : (a, b) ∈ owned) : m.load a = some b :=
  (h.mem_iff a b).mpr hmem

/-- The next address has no block. -/
theorem Holds.block_next (h : m.Holds owned) : m.block m.next = none := by
  cases hblock : m.block m.next with
  | none => rfl
  | some b =>
    exact absurd (h.lt_next _ ((h.mem_iff _ _).mp hblock)) (Nat.lt_irrefl _)

/-- **Allocating** adds a block. -/
theorem Holds.alloc (h : m.Holds owned) (b : β) : (m.alloc b).2.Holds ((m.next, b) ::ₘ owned) where
  toOwns := h.toOwns.insert h.block_next b
  lt_next := by
    intro p hp
    change p.1 < m.next + 1
    rcases Multiset.mem_cons.mp hp with rfl | hmem
    · exact Nat.lt_succ_self _
    · exact Nat.lt_succ_of_lt (h.lt_next p hmem)

/-- **Storing** replaces the contents of a block. -/
theorem Holds.store (h : m.Holds ((a, b) ::ₘ owned)) (c : β) :
    ∃ m', m.store a c = some m' ∧ m'.next = m.next ∧ m'.Holds ((a, c) ::ₘ owned) := by
  have hblock : (m.block a).isSome := by
    rw [(h.mem_iff a b).mpr (Multiset.mem_cons_self _ _)]
    rfl
  refine ⟨_, if_pos hblock, rfl, h.toOwns.replace c, ?_⟩
  intro p hp
  rcases Multiset.mem_cons.mp hp with rfl | hmem
  · exact h.lt_next (a, b) (Multiset.mem_cons_self _ _)
  · exact h.lt_next p (Multiset.mem_cons_of_mem hmem)

/-- **Freeing** takes a block away. -/
theorem Holds.free (h : m.Holds ((a, b) ::ₘ owned)) :
    ∃ m', m.free a = some m' ∧ m'.next = m.next ∧ m'.Holds owned := by
  have hblock : (m.block a).isSome := by
    rw [(h.mem_iff a b).mpr (Multiset.mem_cons_self _ _)]
    rfl
  exact ⟨_, if_pos hblock, rfl, h.toOwns.erase,
    fun p hmem => h.lt_next p (Multiset.mem_cons_of_mem hmem)⟩

/-- There are no more blocks than addresses handed out. -/
theorem Holds.card_le (h : m.Holds owned) : owned.card ≤ m.next := by
  have hsub : owned.map Prod.fst ⊆ Multiset.range m.next := by
    intro x hx
    obtain ⟨p, hp, rfl⟩ := Multiset.mem_map.mp hx
    exact Multiset.mem_range.mpr (h.lt_next p hp)
  have hle := Multiset.card_le_card ((Multiset.le_iff_subset h.nodup).mpr hsub)
  rwa [Multiset.card_map, Multiset.card_range] at hle

end Rules

end Memory

/-! ## Programs -/

/-- A computation on a memory. `none` is a fault. -/
abbrev Program (β α : Type) := StateT (Memory β) Option α

namespace Program

variable {β α γ : Type}

/-- A fault. -/
def fault : Program β α := fun _ => none

/-- Allocate a block. -/
def alloc (b : β) : Program β Nat := fun m => some (m.alloc b)

/-- Read a block. -/
def load (a : Nat) : Program β β := fun m => (m.load a).map fun b => (b, m)

/-- Write a block. -/
def store (a : Nat) (b : β) : Program β Unit := fun m => (m.store a b).map fun m' => ((), m')

/-- Free a block. -/
def free (a : Nat) : Program β Unit := fun m => (m.free a).map fun m' => ((), m')

/-- How many addresses have been handed out. A walk through distinct blocks
is no longer than this. -/
def addresses : Program β Nat := fun m => some (m.next, m)

/-- Where the memory holds these blocks, and perhaps others, the program ends
and leaves the others alone, or it faults, which it may under `faults` only. -/
def Triple (owned : Multiset (Nat × β)) (program : Program β α) (faults : Prop)
    (post : α → Multiset (Nat × β) → Prop) : Prop :=
  ∀ m rest, m.Holds (owned + rest) →
    (program m = none ∧ faults) ∨
      ∃ a m' owned', program m = some (a, m') ∧ m'.Holds (owned' + rest) ∧ post a owned'

section Rules

variable {owned part extra : Multiset (Nat × β)} {faults : Prop}
  {post : γ → Multiset (Nat × β) → Prop} {a : Nat} {b : β}

theorem Triple.pure {c : γ} (h : post c owned) : Triple owned (pure c) faults post :=
  fun m _ hm => Or.inr ⟨c, m, owned, rfl, hm, h⟩

theorem Triple.fault (h : faults) : Triple owned fault faults post :=
  fun _ _ _ => Or.inl ⟨rfl, h⟩

/-- **Sequence.** The first part has its own blocks, and the others are there
for the second. -/
theorem Triple.call {f : Program β α} {g : α → Program β γ}
    {mid : α → Multiset (Nat × β) → Prop} (hf : Triple part f faults mid)
    (howned : owned = part + extra)
    (hg : ∀ c part', mid c part' → Triple (part' + extra) (g c) faults post) :
    Triple owned (f >>= g) faults post := by
  intro m rest hm
  rw [howned, add_assoc] at hm
  rcases hf m _ hm with ⟨hnone, hfaults⟩ | ⟨c, m₁, part', hsome, hm₁, hmid⟩
  · refine Or.inl ⟨?_, hfaults⟩
    change (f m).bind _ = none
    rw [hnone]
    rfl
  · rw [← add_assoc] at hm₁
    have hbind : (f >>= g) m = g c m₁ := by
      change (f m).bind _ = _
      rw [hsome]
      rfl
    rw [hbind]
    exact hg c part' hmid m₁ rest hm₁

/-- Sequence, where the first part has all the blocks. -/
theorem Triple.bind {f : Program β α} {g : α → Program β γ}
    {mid : α → Multiset (Nat × β) → Prop} (hf : Triple owned f faults mid)
    (hg : ∀ c owned', mid c owned' → Triple owned' (g c) faults post) :
    Triple owned (f >>= g) faults post :=
  hf.call (add_zero owned).symm fun c owned' hmid => by
    rw [add_zero]
    exact hg c owned' hmid

/-- A weaker specification. -/
theorem Triple.mono {f : Program β γ} {faults' : Prop} {post' : γ → Multiset (Nat × β) → Prop}
    (h : Triple owned f faults post) (hfaults : faults → faults')
    (hpost : ∀ c owned', post c owned' → post' c owned') : Triple owned f faults' post' := by
  intro m rest hm
  rcases h m rest hm with ⟨hnone, hf⟩ | ⟨c, m', owned', hsome, hm', hc⟩
  · exact Or.inl ⟨hnone, hfaults hf⟩
  · exact Or.inr ⟨c, m', owned', hsome, hm', hpost c owned' hc⟩

theorem Triple.fault_bind {g : α → Program β γ} (h : faults) :
    Triple owned (Program.fault >>= g) faults post :=
  fun _ _ _ => Or.inl ⟨rfl, h⟩

/-- A step that ends in one way. -/
theorem Triple.step {f : Program β α} {g : α → Program β γ} {c : α}
    {owned' : Multiset (Nat × β)}
    (hf : ∀ m rest, m.Holds (owned + rest) → ∃ m', f m = some (c, m') ∧ m'.Holds (owned' + rest))
    (hg : Triple owned' (g c) faults post) : Triple owned (f >>= g) faults post := by
  have hstep : Triple owned f faults fun d o => d = c ∧ o = owned' := by
    intro m rest hm
    obtain ⟨m', hsome, hm'⟩ := hf m rest hm
    exact Or.inr ⟨c, m', owned', hsome, hm', rfl, rfl⟩
  exact hstep.bind fun d o h => by
    rw [h.1, h.2]
    exact hg

theorem Triple.load {g : β → Program β γ} (hmem : (a, b) ∈ owned)
    (hg : Triple owned (g b) faults post) : Triple owned (load a >>= g) faults post := by
  refine Triple.step (fun m rest hm => ⟨m, ?_, hm⟩) hg
  have hload := hm.load (Multiset.mem_add.mpr (Or.inl hmem))
  simp [Program.load, hload]

theorem Triple.store {g : Unit → Program β γ} {c : β} (howned : owned = {(a, b)} + extra)
    (hg : Triple ({(a, c)} + extra) (g ()) faults post) :
    Triple owned (store a c >>= g) faults post := by
  refine Triple.step (fun m rest hm => ?_) hg
  rw [howned, add_assoc, Multiset.singleton_add] at hm
  obtain ⟨m', hstore, -, hm'⟩ := hm.store c
  rw [← Multiset.singleton_add, ← add_assoc] at hm'
  exact ⟨m', by simp [Program.store, hstore], hm'⟩

theorem Triple.free {g : Unit → Program β γ} (howned : owned = {(a, b)} + extra)
    (hg : Triple extra (g ()) faults post) : Triple owned (free a >>= g) faults post := by
  refine Triple.step (fun m rest hm => ?_) hg
  rw [howned, add_assoc, Multiset.singleton_add] at hm
  obtain ⟨m', hfree, -, hm'⟩ := hm.free
  exact ⟨m', by simp [Program.free, hfree], hm'⟩

theorem Triple.alloc {g : Nat → Program β γ}
    (hg : ∀ a, Triple ({(a, b)} + owned) (g a) faults post) :
    Triple owned (alloc b >>= g) faults post := by
  intro m rest hm
  have hm' := hm.alloc b
  rw [← Multiset.singleton_add, ← add_assoc] at hm'
  exact hg m.next (m.alloc b).2 rest hm'

theorem Triple.addresses {g : Nat → Program β γ}
    (hg : ∀ n, owned.card ≤ n → Triple owned (g n) faults post) :
    Triple owned (addresses >>= g) faults post := by
  intro m rest hm
  have hcard := hm.card_le
  rw [Multiset.card_add] at hcard
  exact hg m.next (by omega) m rest hm

end Rules

/-- **What a program does**, read off its specification: where its outcomes
exclude a fault it faults exactly under `faults`. -/
theorem Triple.run {program : Program β α} {faults : Prop} {owned : Multiset (Nat × β)}
    {post : α → Multiset (Nat × β) → Prop} (h : Triple owned program faults post)
    (hexcl : ∀ a owned', post a owned' → ¬ faults) {m : Memory β} {rest : Multiset (Nat × β)}
    (hm : m.Holds (owned + rest)) :
    (program m = none ↔ faults) ∧ ∀ a m', program m = some (a, m') →
      ∃ owned', m'.Holds (owned' + rest) ∧ post a owned' := by
  rcases h m rest hm with ⟨hnone, hfaults⟩ | ⟨a, m', owned', hsome, hm', hpost⟩
  · refine ⟨⟨fun _ => hfaults, fun _ => hnone⟩, fun a m' hsome => ?_⟩
    rw [hnone] at hsome
    cases hsome
  · refine ⟨⟨fun hnone => ?_, fun hfaults => absurd hfaults (hexcl a owned' hpost)⟩, ?_⟩
    · rw [hsome] at hnone
      cases hnone
    · intro a₁ m₁ hsome₁
      obtain ⟨rfl, rfl⟩ := Prod.mk.inj (Option.some.inj (hsome.symm.trans hsome₁))
      exact ⟨owned', hm', hpost⟩

end Program

end LoadBalancing.Base
