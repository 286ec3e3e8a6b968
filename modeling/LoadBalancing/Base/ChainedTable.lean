/-
LoadBalancing.Base.ChainedTable — hash tables with chaining, over any
keys, values and hash function.

A table is an array of chains. Its type carries what makes it a table: a
key stands in the chain its hash names, and no chain has a key twice. So
whatever stands in some chain is what a search for its key finds
(`find?_of_mem_chain`), and a write is the update of a map
(`find?_write`).

No `sorry`, no `axiom`, no `native_decide`.
-/
import Mathlib.Algebra.GroupWithZero.Nat
import Mathlib.Data.List.FinRange
import Mathlib.Data.List.Nodup
import Mathlib.Logic.Function.Basic

namespace LoadBalancing.Base

variable {κ : Type u} {ν : Type v} [DecidableEq κ]

/-! ## Chains -/

/-- The value behind the first occurrence of a key in a chain. -/
def chainFind? (key : κ) : List (κ × ν) → Option ν
  | [] => none
  | node :: rest => if node.1 = key then some node.2 else chainFind? key rest

/-- Write the value behind the first occurrence of a key; a chain without
the key stays as it is. -/
def chainReplace (key : κ) (value : ν) : List (κ × ν) → List (κ × ν)
  | [] => []
  | node :: rest =>
    if node.1 = key then (node.1, value) :: rest else node :: chainReplace key value rest

theorem chainFind?_eq_none {key : κ} {chain : List (κ × ν)} :
    chainFind? key chain = none ↔ ∀ node ∈ chain, node.1 ≠ key := by
  induction chain with
  | nil => simp [chainFind?]
  | cons node rest ih =>
    by_cases hkey : node.1 = key
    · simp [chainFind?, hkey]
    · simp [chainFind?, hkey, ih]

/-- In a chain without repeated keys, finding is membership. -/
theorem chainFind?_eq_some {key : κ} {value : ν} {chain : List (κ × ν)}
    (hnodup : (chain.map Prod.fst).Nodup) :
    chainFind? key chain = some value ↔ (key, value) ∈ chain := by
  induction chain with
  | nil => simp [chainFind?]
  | cons node rest ih =>
    obtain ⟨k, v⟩ := node
    rw [List.map_cons, List.nodup_cons] at hnodup
    by_cases hkey : k = key
    · subst hkey
      have hfresh : ∀ w, (k, w) ∉ rest := by
        intro w hw
        exact hnodup.1 (List.mem_map.mpr ⟨(k, w), hw, rfl⟩)
      simp [chainFind?, hfresh, eq_comm]
    · have hne : key ≠ k := fun h => hkey h.symm
      simp [chainFind?, hkey, hne, ih hnodup.2]

/-- Replacing keeps the keys. -/
@[simp] theorem keys_chainReplace (key : κ) (value : ν) (chain : List (κ × ν)) :
    (chainReplace key value chain).map Prod.fst = chain.map Prod.fst := by
  induction chain with
  | nil => rfl
  | cons node rest ih =>
    by_cases hkey : node.1 = key
    · simp [chainReplace, hkey]
    · simp [chainReplace, hkey, ih]

theorem chainFind?_chainReplace {key : κ} {chain : List (κ × ν)}
    (hfound : chainFind? key chain ≠ none) (value : ν) (k : κ) :
    chainFind? k (chainReplace key value chain)
      = if k = key then some value else chainFind? k chain := by
  induction chain with
  | nil => exact absurd rfl hfound
  | cons node rest ih =>
    by_cases hkey : node.1 = key
    · by_cases hk : k = key
      · simp [chainReplace, chainFind?, hkey, hk]
      · have hne : key ≠ k := fun h => hk h.symm
        simp [chainReplace, chainFind?, hkey, hk, hne]
    · have hrest : chainFind? key rest ≠ none := by simpa [chainFind?, hkey] using hfound
      have hrec := ih hrest
      by_cases hk : k = key
      · subst hk
        simpa [chainReplace, chainFind?, hkey] using hrec
      · simp only [if_neg hk] at hrec ⊢
        simp [chainReplace, chainFind?, hkey, hrec]

/-- A search passes nodes with other keys. -/
theorem chainFind?_append {key : κ} {front : List (κ × ν)} (hfront : ∀ node ∈ front, node.1 ≠ key)
    (back : List (κ × ν)) : chainFind? key (front ++ back) = chainFind? key back := by
  induction front with
  | nil => rfl
  | cons node rest ih =>
    rw [List.forall_mem_cons] at hfront
    rw [List.cons_append, chainFind?, if_neg hfront.1, ih hfront.2]

/-- So does a write. -/
theorem chainReplace_append {key : κ} {front : List (κ × ν)}
    (hfront : ∀ node ∈ front, node.1 ≠ key) (value : ν) (back : List (κ × ν)) :
    chainReplace key value (front ++ back) = front ++ chainReplace key value back := by
  induction front with
  | nil => rfl
  | cons node rest ih =>
    rw [List.forall_mem_cons] at hfront
    rw [List.cons_append, chainReplace, if_neg hfront.1, ih hfront.2, List.cons_append]

/-! ## Tables -/

/-- An array of `n` chains under a hash function. -/
structure ChainedTable (κ : Type u) (ν : Type v) {n : Nat} (hash : κ → Fin n) where
  chains : Fin n → List (κ × ν)
  placed : ∀ b, ∀ node ∈ chains b, hash node.1 = b
  distinct : ∀ b, ((chains b).map Prod.fst).Nodup

namespace ChainedTable

variable {n : Nat} {hash : κ → Fin n}

/-- The table without entries. -/
def empty : ChainedTable κ ν hash :=
  ⟨fun _ => [], fun _ node h => by simp at h, fun _ => by simp⟩

/-- Search the chain the key belongs to. -/
def find? (table : ChainedTable κ ν hash) (key : κ) : Option ν :=
  chainFind? key (table.chains (hash key))

/-- Replace the chain of a key by one with the same keys and perhaps the
key itself. -/
private def setChain (table : ChainedTable κ ν hash) (key : κ) (chain : List (κ × ν))
    (hkeys : ∀ node ∈ chain, node.1 = key ∨ node.1 ∈ (table.chains (hash key)).map Prod.fst)
    (hnodup : (chain.map Prod.fst).Nodup) : ChainedTable κ ν hash where
  chains := Function.update table.chains (hash key) chain
  placed := by
    intro b node hnode
    by_cases hb : b = hash key
    · subst hb
      rw [Function.update_self] at hnode
      rcases hkeys node hnode with hkey | hmem
      · rw [hkey]
      · obtain ⟨old, hold, heq⟩ := List.mem_map.mp hmem
        rw [← heq]
        exact table.placed _ old hold
    · rw [Function.update_of_ne hb] at hnode
      exact table.placed b node hnode
  distinct := by
    intro b
    by_cases hb : b = hash key
    · subst hb
      rw [Function.update_self]
      exact hnodup
    · rw [Function.update_of_ne hb]
      exact table.distinct b

/-- Write the value of a key that is there. -/
def overwrite (table : ChainedTable κ ν hash) (key : κ) (value : ν) : ChainedTable κ ν hash :=
  table.setChain key (chainReplace key value (table.chains (hash key)))
    (fun node hnode => Or.inr (by
      rw [← keys_chainReplace key value]
      exact List.mem_map.mpr ⟨node, hnode, rfl⟩))
    (by rw [keys_chainReplace]; exact table.distinct _)

/-- Put a key that is not there in front of its chain. -/
def insertFront (table : ChainedTable κ ν hash) (key : κ) (value : ν)
    (hfresh : table.find? key = none) : ChainedTable κ ν hash :=
  table.setChain key ((key, value) :: table.chains (hash key))
    (fun node hnode => by
      rcases List.mem_cons.mp hnode with rfl | hnode
      · exact Or.inl rfl
      · exact Or.inr (List.mem_map.mpr ⟨node, hnode, rfl⟩))
    (by
      rw [List.map_cons, List.nodup_cons]
      refine ⟨fun hmem => ?_, table.distinct _⟩
      obtain ⟨node, hnode, hkey⟩ := List.mem_map.mp hmem
      exact chainFind?_eq_none.mp hfresh node hnode hkey)

theorem chains_overwrite (table : ChainedTable κ ν hash) (key : κ) (value : ν) :
    (table.overwrite key value).chains = Function.update table.chains (hash key)
      (chainReplace key value (table.chains (hash key))) := rfl

theorem chains_insertFront (table : ChainedTable κ ν hash) (key : κ) (value : ν)
    (hfresh : table.find? key = none) :
    (table.insertFront key value hfresh).chains = Function.update table.chains (hash key)
      ((key, value) :: table.chains (hash key)) := rfl

/-- Write a key, whether it is there or not. -/
def write (table : ChainedTable κ ν hash) (key : κ) (value : ν) : ChainedTable κ ν hash :=
  if h : table.find? key = none then table.insertFront key value h
  else table.overwrite key value

/-! ## A table is a map -/

@[simp] theorem find?_empty (key : κ) : (empty : ChainedTable κ ν hash).find? key = none := rfl

private theorem find?_setChain {table : ChainedTable κ ν hash} {key : κ} {chain : List (κ × ν)}
    {hkeys : ∀ node ∈ chain, node.1 = key ∨ node.1 ∈ (table.chains (hash key)).map Prod.fst}
    {hnodup : (chain.map Prod.fst).Nodup} (value : ν)
    (hchain : ∀ k, chainFind? k chain
      = if k = key then some value else chainFind? k (table.chains (hash key))) (k : κ) :
    (table.setChain key chain hkeys hnodup).find? k
      = if k = key then some value else table.find? k := by
  by_cases hb : hash k = hash key
  · have hsearch : (table.setChain key chain hkeys hnodup).find? k = chainFind? k chain := by
      simp only [find?, setChain, hb, Function.update_self]
    rw [hsearch, hchain, find?, hb]
  · have hk : k ≠ key := fun h => hb (by rw [h])
    simp only [find?, setChain, Function.update_of_ne hb, if_neg hk]

theorem find?_overwrite {table : ChainedTable κ ν hash} {key : κ}
    (hfound : table.find? key ≠ none) (value : ν) (k : κ) :
    (table.overwrite key value).find? k = if k = key then some value else table.find? k :=
  find?_setChain value (chainFind?_chainReplace hfound value) k

theorem find?_insertFront {table : ChainedTable κ ν hash} {key : κ}
    (hfresh : table.find? key = none) (value : ν) (k : κ) :
    (table.insertFront key value hfresh).find? k
      = if k = key then some value else table.find? k := by
  refine find?_setChain value (fun k' => ?_) k
  by_cases hk : k' = key
  · simp [chainFind?, hk]
  · have hne : key ≠ k' := fun h => hk h.symm
    simp [chainFind?, hk, hne]

/-- **A write is a map update.** -/
theorem find?_write (table : ChainedTable κ ν hash) (key : κ) (value : ν) (k : κ) :
    (table.write key value).find? k = if k = key then some value else table.find? k := by
  unfold write
  split
  · rename_i hfresh
    exact find?_insertFront hfresh value k
  · rename_i hfound
    exact find?_overwrite hfound value k

/-- A node of a chain is what a search for its key finds. -/
theorem find?_of_mem_chain {table : ChainedTable κ ν hash} {b : Fin n} {node : κ × ν}
    (h : node ∈ table.chains b) : table.find? node.1 = some node.2 := by
  have hb := table.placed b node h
  rw [find?, chainFind?_eq_some (table.distinct _), hb]
  exact h

/-! ## All keys -/

/-- The keys of all chains, chain by chain. -/
def keys (table : ChainedTable κ ν hash) : List κ :=
  (List.finRange n).flatMap fun b => (table.chains b).map Prod.fst

/-- The keys are those a search finds. -/
theorem mem_keys {table : ChainedTable κ ν hash} {key : κ} :
    key ∈ table.keys ↔ table.find? key ≠ none := by
  constructor
  · intro hmem
    obtain ⟨b, -, hb⟩ := List.mem_flatMap.mp hmem
    obtain ⟨node, hnode, rfl⟩ := List.mem_map.mp hb
    simp [find?_of_mem_chain hnode]
  · intro hfound
    obtain ⟨value, hvalue⟩ := Option.ne_none_iff_exists'.mp hfound
    rw [find?, chainFind?_eq_some (table.distinct _)] at hvalue
    exact List.mem_flatMap.mpr
      ⟨hash key, List.mem_finRange _, List.mem_map.mpr ⟨_, hvalue, rfl⟩⟩

omit [DecidableEq κ] in
/-- **No key occurs twice in a table.** Within a chain keys are distinct,
and two chains share none since the hash places each key. -/
theorem nodup_keys (table : ChainedTable κ ν hash) : table.keys.Nodup := by
  rw [keys, List.nodup_flatMap]
  refine ⟨fun b _ => table.distinct b, ?_⟩
  refine (List.nodup_finRange n).imp ?_
  intro b c hne key hb hc
  obtain ⟨node, hnode, rfl⟩ := List.mem_map.mp hb
  obtain ⟨node', hnode', heq⟩ := List.mem_map.mp hc
  have hplaced := table.placed b node hnode
  have hplaced' := table.placed c node' hnode'
  exact hne (by rw [← hplaced, ← hplaced', heq])

omit [DecidableEq κ] in
/-- Their number, chain by chain. -/
theorem length_keys (table : ChainedTable κ ν hash) :
    table.keys.length = ((List.finRange n).map fun b => (table.chains b).length).sum := by
  simp [keys, List.length_flatMap]

end ChainedTable

end LoadBalancing.Base
