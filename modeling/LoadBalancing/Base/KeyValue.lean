/-
LoadBalancing.Base.KeyValue — what a sequence of reads and writes of one
map has to answer.

After a sequence of operations the map holds under each key the value of
the latest `put` of it: `latest` is that map, and `answer` what an
operation is to be told behind such a sequence. `serve` walks a sequence
of calls in the order they are accepted and pairs each with its answer.
Calls are of any type that carries an operation, so that a caller's
identity can ride along.

No `sorry`, no `axiom`, no `native_decide`.
-/
import Mathlib.Data.List.Basic

namespace LoadBalancing.Base

variable {κ : Type u} {ν : Type v} {α : Type w} [DecidableEq κ]

/-- A read or a write of a map. -/
inductive Operation (κ : Type u) (ν : Type v) where
  | put (key : κ) (value : ν)
  | get (key : κ)
  deriving DecidableEq

/-- What an operation is told. -/
inductive Answer (ν : Type v) where
  | stored
  | found (value : ν)
  | missing
  deriving DecidableEq

namespace Operation

/-- The key an operation is about. -/
def key : Operation κ ν → κ
  | put key _ => key
  | get key => key

/-- The value an operation writes under a key. -/
def writes? (k : κ) : Operation κ ν → Option ν
  | put key value => if key = k then some value else none
  | get _ => none

end Operation

/-- The value of the latest `put` of a key. -/
def latest (k : κ) (operations : List (Operation κ ν)) : Option ν :=
  operations.reverse.findSome? (Operation.writes? k)

/-- What an operation is told behind the `earlier` ones. -/
def answer (earlier : List (Operation κ ν)) : Operation κ ν → Answer ν
  | .put _ _ => .stored
  | .get key =>
    match latest key earlier with
    | some value => .found value
    | none => .missing

/-- Calls in order, each with its answer. -/
def serve (operation : α → Operation κ ν) (earlier : List α) : List α → List (α × Answer ν)
  | [] => []
  | call :: rest =>
    (call, answer (earlier.map operation) (operation call)) ::
      serve operation (earlier ++ [call]) rest

/-! ## One operation more -/

@[simp] theorem latest_nil (k : κ) : latest k ([] : List (Operation κ ν)) = none := rfl

theorem latest_append (k : κ) (operations : List (Operation κ ν)) (operation : Operation κ ν) :
    latest k (operations ++ [operation]) = (operation.writes? k).or (latest k operations) := by
  rw [latest, List.reverse_append]
  cases hwrites : operation.writes? k with
  | none => simp [latest, hwrites]
  | some value => simp [hwrites]

/-- A `put` updates the map. -/
theorem latest_append_put (k key : κ) (value : ν) (operations : List (Operation κ ν)) :
    latest k (operations ++ [.put key value])
      = if k = key then some value else latest k operations := by
  rw [latest_append]
  by_cases hk : k = key
  · simp [Operation.writes?, hk]
  · have hne : key ≠ k := fun h => hk h.symm
    simp [Operation.writes?, hk, hne]

/-- A `get` leaves it alone. -/
theorem latest_append_get (k key : κ) (operations : List (Operation κ ν)) :
    latest k (operations ++ [.get key]) = latest k operations := by
  rw [latest_append]
  rfl

/-- What the map holds was put there. -/
theorem put_of_latest {k : κ} {value : ν} {operations : List (Operation κ ν)}
    (h : latest k operations = some value) : .put k value ∈ operations := by
  obtain ⟨operation, hmem, hwrites⟩ := List.exists_of_findSome?_eq_some h
  cases operation with
  | get key => cases hwrites
  | put key value' =>
    simp only [Operation.writes?] at hwrites
    split at hwrites
    · rename_i hkey
      cases hwrites
      rw [← hkey]
      exact List.mem_reverse.mp hmem
    · cases hwrites

/-- What was never put is not there. -/
theorem latest_eq_none {k : κ} {operations : List (Operation κ ν)} :
    latest k operations = none ↔ ∀ value, .put k value ∉ operations := by
  constructor
  · intro hnone value hmem
    rw [latest, List.findSome?_eq_none_iff] at hnone
    have hwrites := hnone _ (List.mem_reverse.mpr hmem)
    simp [Operation.writes?] at hwrites
  · intro hnever
    cases hlatest : latest k operations with
    | none => rfl
    | some value => exact absurd (put_of_latest hlatest) (hnever value)

/-! ## Calls in order -/

section Serve

variable {operation : α → Operation κ ν}

theorem serve_append (earlier calls more : List α) :
    serve operation earlier (calls ++ more)
      = serve operation earlier calls ++ serve operation (earlier ++ calls) more := by
  induction calls generalizing earlier with
  | nil => simp [serve]
  | cons call rest ih => simp [serve, ih]

@[simp] theorem map_fst_serve (earlier calls : List α) :
    (serve operation earlier calls).map Prod.fst = calls := by
  induction calls generalizing earlier with
  | nil => rfl
  | cons call rest ih => simp [serve, ih]

/-- **Every call is told what the calls before it make of the map.** -/
theorem answer_of_serve {calls : List α} {before after : List (α × Answer ν)} {call : α}
    {told : Answer ν} (h : serve operation [] calls = before ++ (call, told) :: after) :
    told = answer ((before.map Prod.fst).map operation) (operation call) := by
  have hcalls : calls = before.map Prod.fst ++ call :: after.map Prod.fst := by
    have hmap := congrArg (List.map Prod.fst) h
    simpa using hmap
  rw [hcalls, serve_append, List.nil_append] at h
  have hlen : (serve operation [] (before.map Prod.fst)).length = before.length := by
    have hmap : ((serve operation [] (before.map Prod.fst)).map Prod.fst).length
        = (before.map Prod.fst).length := by rw [map_fst_serve]
    rwa [List.length_map, List.length_map] at hmap
  obtain ⟨-, htail⟩ := List.append_inj h hlen
  simp only [serve, List.cons.injEq, Prod.mk.injEq] at htail
  exact htail.1.2.symm

end Serve

end LoadBalancing.Base
