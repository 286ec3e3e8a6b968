/-
LoadBalancing.Base.Membership — a table of slots for the members of a
group that changes.

The members are those alive now. A table belongs to one member and has
slots for others; nothing tells it of a member that leaves, so a slot may
be held for one that is gone. `length_slots` accounts for the slots: they
are the members but the owner and those without a slot, and the departed.

No `sorry`, no `axiom`, no `native_decide`.
-/
import Mathlib.Data.List.Nodup
import Mathlib.Data.List.Perm.Basic

namespace LoadBalancing.Base

section Records

variable {α : Type u}

/-- A record after a change at one index. -/
theorem mem_modify {records : List α} {i : Nat} {g : α → α} {a : α} (h : a ∈ records.modify i g) :
    a ∈ records ∨ ∃ old, records[i]? = some old ∧ a = g old := by
  obtain ⟨j, hj⟩ := List.mem_iff_getElem?.mp h
  rw [List.getElem?_modify] at hj
  cases hold : records[j]? with
  | none => simp [hold] at hj
  | some old =>
    by_cases hij : i = j
    · simp only [hij, hold, if_true, Option.map_eq_map, Option.map_some, Option.some.injEq] at hj
      exact Or.inr ⟨old, hij ▸ hold, hj.symm⟩
    · simp only [hij, hold, if_false, Option.map_eq_map, Option.map_some, Option.some.injEq] at hj
      exact Or.inl (hj ▸ List.mem_of_getElem? hold)

/-- What becomes of a record in a change at one index. -/
theorem mem_modify_of_mem {records : List α} {i : Nat} {g : α → α} {a : α} (h : a ∈ records) :
    a ∈ records.modify i g ∨ records[i]? = some a ∧ g a ∈ records.modify i g := by
  obtain ⟨j, hj⟩ := List.mem_iff_getElem?.mp h
  by_cases hij : i = j
  · subst hij
    refine Or.inr ⟨hj, List.mem_of_getElem? (i := i) ?_⟩
    simp [hj]
  · refine Or.inl (List.mem_of_getElem? (i := j) ?_)
    simp [hj, hij]

/-- A change that keeps what a record is known by keeps the list of these. -/
theorem map_modify_of_eq {κ : Type v} {f : α → κ} {g : α → α} (records : List α) (i : Nat)
    (h : ∀ a, f (g a) = f a) :
    (records.modify i g).map f = records.map f := by
  apply List.ext_getElem?
  intro j
  rw [List.getElem?_map, List.getElem?_map, List.getElem?_modify]
  by_cases hij : i = j
  · cases records[j]? <;> simp [hij, h]
  · simp [hij]

/-- A change at one index is a change of the records known by that name,
where names are distinct. -/
theorem modify_eq_map {κ : Type v} [DecidableEq κ] {f : α → κ} {records : List α} {i : Nat}
    {a : α} (hnodup : (records.map f).Nodup) (h : records[i]? = some a) (g : α → α) :
    records.modify i g = records.map fun b => if f b = f a then g b else b := by
  induction records generalizing i with
  | nil => cases h
  | cons b records ih =>
    obtain ⟨hfresh, hnodup⟩ := List.nodup_cons.mp hnodup
    cases i with
    | zero =>
      obtain rfl : b = a := Option.some.inj h
      have hother : ∀ c ∈ records, (if f c = f b then g c else c) = c := by
        intro c hc
        exact if_neg fun heq => hfresh (List.mem_map.mpr ⟨c, hc, heq⟩)
      rw [List.modify_zero_cons, List.map_cons, if_pos rfl, List.map_congr_left hother,
        List.map_id']
    | succ i =>
      have hmem : f a ∈ records.map f := List.mem_map.mpr ⟨a, List.mem_of_getElem? h, rfl⟩
      have hne : f b ≠ f a := fun heq => hfresh (heq ▸ hmem)
      rw [List.modify_succ_cons, List.map_cons, if_neg hne, ih hnodup h]

/-- Erasing at an index takes out the records known by that name. -/
theorem eraseIdx_eq_filter {κ : Type v} [DecidableEq κ] {f : α → κ} {records : List α} {i : Nat}
    {a : α} (hnodup : (records.map f).Nodup) (h : records[i]? = some a) :
    records.eraseIdx i = records.filter fun b => f b != f a := by
  induction records generalizing i with
  | nil => cases h
  | cons b records ih =>
    obtain ⟨hfresh, hnodup⟩ := List.nodup_cons.mp hnodup
    cases i with
    | zero =>
      obtain rfl : b = a := Option.some.inj h
      have hall : ∀ c ∈ records, (f c != f b) = true := by
        intro c hc
        exact bne_iff_ne.mpr fun heq => hfresh (List.mem_map.mpr ⟨c, hc, heq⟩)
      rw [List.eraseIdx_cons_zero, List.filter_cons_of_neg (by simp), List.filter_eq_self.mpr hall]
    | succ i =>
      have hmem : f a ∈ records.map f := List.mem_map.mpr ⟨a, List.mem_of_getElem? h, rfl⟩
      have hne : (f b != f a) = true := bne_iff_ne.mpr fun heq => hfresh (heq ▸ hmem)
      have hkept : (b :: records).filter (fun b => f b != f a) =
          b :: records.filter fun b => f b != f a := List.filter_cons_of_pos hne
      rw [List.eraseIdx_cons_succ, hkept, ih hnodup h]

end Records

section Slots

variable {ι : Type u} [DecidableEq ι] {alive slots : List ι}

/-- The slots held for a member that is gone. -/
def departed (alive slots : List ι) : Nat := slots.countP fun i => i ∉ alive

/-- The members without a slot, the owner and a newcomer apart. -/
def unlisted (alive slots : List ι) (owner newcomer : ι) : Nat :=
  alive.countP fun i => i ∉ slots ∧ i ≠ owner ∧ i ≠ newcomer

/-- Two lists without repetition have as many elements of each other. -/
theorem countP_mem_comm (halive : alive.Nodup) (hslots : slots.Nodup) :
    slots.countP (fun i => i ∈ alive) = alive.countP fun i => i ∈ slots := by
  rw [List.countP_eq_length_filter, List.countP_eq_length_filter]
  have hperm : (slots.filter fun i => i ∈ alive).Perm (alive.filter fun i => i ∈ slots) := by
    apply (List.perm_ext_iff_of_nodup (hslots.filter _) (halive.filter _)).mpr
    intro i
    simp [and_comm]
  exact hperm.length_eq

/-- Of the members without a slot two are the owner and the newcomer. -/
theorem countP_not_mem_slots (halive : alive.Nodup) {owner newcomer : ι} (howner : owner ∈ alive)
    (hnewcomer : newcomer ∈ alive) (hne : newcomer ≠ owner) (howner' : owner ∉ slots)
    (hnewcomer' : newcomer ∉ slots) :
    alive.countP (fun i => i ∉ slots) = unlisted alive slots owner newcomer + 2 := by
  have hsplit := List.length_eq_countP_add_countP (fun i => decide (i = owner ∨ i = newcomer))
    (l := alive.filter fun i => i ∉ slots)
  rw [← List.countP_eq_length_filter, List.countP_filter, List.countP_filter] at hsplit
  have hpair : (alive.filter fun i => decide (i = owner ∨ i = newcomer) && decide (i ∉ slots)).Perm
      [owner, newcomer] := by
    apply (List.perm_ext_iff_of_nodup (halive.filter _) (by simp [hne.symm])).mpr
    intro i
    simp only [List.mem_filter, Bool.and_eq_true, decide_eq_true_eq, List.mem_cons,
      List.not_mem_nil, or_false]
    constructor
    · exact fun h => h.2.1
    · rintro (rfl | rfl)
      · exact ⟨howner, Or.inl rfl, howner'⟩
      · exact ⟨hnewcomer, Or.inr rfl, hnewcomer'⟩
  have htwo := hpair.length_eq
  rw [← List.countP_eq_length_filter] at htwo
  have hrest : alive.countP (fun i => decide ¬(decide (i = owner ∨ i = newcomer)) = true &&
      decide (i ∉ slots)) = unlisted alive slots owner newcomer := by
    apply List.countP_congr
    intro i _
    simp [and_comm]
  rw [hsplit, htwo, hrest]
  exact Nat.add_comm _ _

/-- **The slots are accounted for** when a newcomer has none yet. -/
theorem length_slots (halive : alive.Nodup) (hslots : slots.Nodup) {owner newcomer : ι}
    (howner : owner ∈ alive) (hnewcomer : newcomer ∈ alive) (hne : newcomer ≠ owner)
    (howner' : owner ∉ slots) (hnewcomer' : newcomer ∉ slots) :
    slots.length + unlisted alive slots owner newcomer + 2 =
      alive.length + departed alive slots := by
  have hboth := countP_mem_comm halive hslots
  have hslotted := List.length_eq_countP_add_countP (fun i => decide (i ∈ alive)) (l := slots)
  have hmembers := List.length_eq_countP_add_countP (fun i => decide (i ∈ slots)) (l := alive)
  have hfree := countP_not_mem_slots halive howner hnewcomer hne howner' hnewcomer'
  simp only [decide_eq_true_eq] at hslotted hmembers
  rw [departed]
  omega

end Slots

end LoadBalancing.Base
