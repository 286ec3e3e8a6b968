/-
LoadBalancing.Base.Transition — runs of a transition system whose
nondeterminism is carried by its labels.

A system is a partial function `step : σ → ℓ → Option σ`. A label says
which thread moves and how the environment answers it (a send outcome,
an arriving message), so that one step is a function and a concrete run
evaluates. `exec` runs a list of labels; a statement over every run of
a system is a statement over every list of labels.

`Along step P s ls` says that every step of the run from `s` meets `P`,
a condition on the state before the step and its label. The rules here
are the only inductions over runs a development needs: invariants, with
and without such a condition, a condition that is exact for good states,
invariants that speak about the labels so far, damage that a step outside
the condition does for good, a measure that bounds a run, two systems that
move in step, and runs that make progress to a goal.

No `sorry`, no `axiom`, no `native_decide`.
-/

namespace LoadBalancing.Base

variable {σ : Type u} {ℓ : Type v}

/-- The state a list of labels leads to, each label being enabled in
turn; `none` when one of them is not. -/
def exec (step : σ → ℓ → Option σ) : σ → List ℓ → Option σ
  | s, [] => some s
  | s, l :: ls => (step s l).bind fun s' => exec step s' ls

/-- Every step of the run from `s` by `ls` meets `P`. -/
def Along (step : σ → ℓ → Option σ) (P : σ → ℓ → Prop) : σ → List ℓ → Prop
  | _, [] => True
  | s, l :: ls =>
    P s l ∧ match step s l with
      | none => True
      | some s' => Along step P s' ls

instance decidableAlong (step : σ → ℓ → Option σ) (P : σ → ℓ → Prop)
    [∀ s l, Decidable (P s l)] : ∀ s ls, Decidable (Along step P s ls)
  | _, [] => isTrue trivial
  | s, l :: ls =>
    match h : step s l with
    | none => decidable_of_iff (P s l) (by simp [Along, h])
    | some s' =>
      have := decidableAlong step P s' ls
      decidable_of_iff (P s l ∧ Along step P s' ls) (by simp [Along, h])

section Runs

variable {step : σ → ℓ → Option σ} {P : σ → ℓ → Prop}

@[simp] theorem exec_nil (s : σ) : exec step s [] = some s := rfl

@[simp] theorem along_nil (s : σ) : Along step P s [] := trivial

theorem exec_cons_eq_some {s t : σ} {l : ℓ} {ls : List ℓ} :
    exec step s (l :: ls) = some t ↔ ∃ m, step s l = some m ∧ exec step m ls = some t :=
  Option.bind_eq_some_iff

theorem exec_append (s : σ) (xs ys : List ℓ) :
    exec step s (xs ++ ys) = (exec step s xs).bind fun t => exec step t ys := by
  induction xs generalizing s with
  | nil => rfl
  | cons x xs ih =>
    rw [List.cons_append, exec, exec]
    cases step s x with
    | none => rfl
    | some t => exact ih t

theorem along_cons {s m : σ} {l : ℓ} {ls : List ℓ} (h : step s l = some m) :
    Along step P s (l :: ls) ↔ P s l ∧ Along step P m ls := by
  simp [Along, h]

/-- A condition along a run in two parts. -/
theorem along_append {s m : σ} {xs ys : List ℓ} (h : exec step s xs = some m) :
    Along step P s (xs ++ ys) ↔ Along step P s xs ∧ Along step P m ys := by
  induction xs generalizing s with
  | nil =>
    cases h
    exact (true_and _).symm ▸ Iff.rfl
  | cons x xs ih =>
    obtain ⟨u, hu, hrest⟩ := exec_cons_eq_some.mp h
    rw [List.cons_append, along_cons hu, along_cons hu, ih hrest, and_assoc]

/-- A condition that every step meets holds along every run. -/
theorem along_of_forall (h : ∀ s l, P s l) (s : σ) (ls : List ℓ) : Along step P s ls := by
  induction ls generalizing s with
  | nil => trivial
  | cons l ls ih =>
    refine ⟨h s l, ?_⟩
    cases step s l with
    | none => trivial
    | some t => exact ih t

/-- On a run that ends, a condition may be replaced by one that it implies
on enabled steps. -/
theorem Along.imp_of_exec {Q : σ → ℓ → Prop}
    (himp : ∀ s l t, step s l = some t → P s l → Q s l) :
    ∀ {s t : σ} {ls : List ℓ}, exec step s ls = some t → Along step P s ls → Along step Q s ls := by
  intro s t ls
  induction ls generalizing s with
  | nil => exact fun _ _ => trivial
  | cons l ls ih =>
    intro h halong
    obtain ⟨m, hm, hrest⟩ := exec_cons_eq_some.mp h
    obtain ⟨hl, hls⟩ := (along_cons hm).mp halong
    exact (along_cons hm).mpr ⟨himp s l m hm hl, ih hrest hls⟩

/-- Two conditions that hold along a run hold together. -/
theorem Along.and {Q : σ → ℓ → Prop} {s : σ} {ls : List ℓ} (hP : Along step P s ls)
    (hQ : Along step Q s ls) : Along step (fun s l => P s l ∧ Q s l) s ls := by
  induction ls generalizing s with
  | nil => trivial
  | cons l ls ih =>
    refine ⟨⟨hP.1, hQ.1⟩, ?_⟩
    cases hs : step s l with
    | none => trivial
    | some m => exact ih ((along_cons hs).mp hP).2 ((along_cons hs).mp hQ).2

/-- **Invariant rule.** What every step preserves holds at the end of
every run. -/
theorem exec_invariant {I : σ → Prop}
    (hstep : ∀ s l t, I s → step s l = some t → I t) :
    ∀ {s t : σ} {ls : List ℓ}, I s → exec step s ls = some t → I t := by
  intro s t ls
  induction ls generalizing s with
  | nil =>
    intro hs h
    simp only [exec_nil, Option.some.injEq] at h
    exact h ▸ hs
  | cons l ls ih =>
    intro hs h
    obtain ⟨m, hm, hrest⟩ := exec_cons_eq_some.mp h
    exact ih (hstep s l m hs hm) hrest

/-- **Conditional invariant rule.** What every step meeting `P`
preserves holds at the end of every run whose steps all meet `P`. -/
theorem exec_invariant_along {I : σ → Prop}
    (hstep : ∀ s l t, I s → P s l → step s l = some t → I t) :
    ∀ {s t : σ} {ls : List ℓ}, I s → Along step P s ls → exec step s ls = some t → I t := by
  intro s t ls
  induction ls generalizing s with
  | nil =>
    intro hs _ h
    simp only [exec_nil, Option.some.injEq] at h
    exact h ▸ hs
  | cons l ls ih =>
    intro hs hP h
    obtain ⟨m, hm, hrest⟩ := exec_cons_eq_some.mp h
    obtain ⟨hl, hls⟩ := (along_cons hm).mp hP
    exact ih (hstep s l m hs hl hm) hls hrest

/-- **History rule.** An invariant of the state and the labels so far, by
steps that meet `P`. -/
theorem exec_history_along {I : List ℓ → σ → Prop}
    (hstep : ∀ done s l t, I done s → P s l → step s l = some t → I (done ++ [l]) t) :
    ∀ {s t : σ} {ls : List ℓ} (done : List ℓ), I done s → Along step P s ls →
      exec step s ls = some t → I (done ++ ls) t := by
  intro s t ls
  induction ls generalizing s with
  | nil =>
    intro done hs _ h
    simp only [exec_nil, Option.some.injEq] at h
    rw [List.append_nil]
    exact h ▸ hs
  | cons l ls ih =>
    intro done hs hP h
    obtain ⟨m, hm, hrest⟩ := exec_cons_eq_some.mp h
    obtain ⟨hl, hls⟩ := (along_cons hm).mp hP
    have hnext := ih (done ++ [l]) (hstep done s l m hs hl hm) hls hrest
    rwa [List.append_assoc] at hnext

/-- **Damage rule.** If a step outside `P` does a damage that no step
repairs, then a run has all its steps in `P` or ends damaged. -/
theorem along_or_damaged {I Damaged : σ → Prop}
    (hstep : ∀ s l t, I s → step s l = some t → I t)
    (hbreak : ∀ s l t, I s → step s l = some t → P s l ∨ Damaged t)
    (hkeep : ∀ s l t, I s → Damaged s → step s l = some t → Damaged t) :
    ∀ {s t : σ} {ls : List ℓ}, I s → exec step s ls = some t →
      Along step P s ls ∨ Damaged t := by
  intro s t ls
  induction ls generalizing s with
  | nil => intro _ _; exact Or.inl trivial
  | cons l ls ih =>
    intro hs h
    obtain ⟨m, hm, hrest⟩ := exec_cons_eq_some.mp h
    have hIm := hstep s l m hs hm
    rcases hbreak s l m hs hm with hl | hdamaged
    · rcases ih hIm hrest with hls | hdamaged
      · exact Or.inl ((along_cons hm).mpr ⟨hl, hls⟩)
      · exact Or.inr hdamaged
    · have hboth := exec_invariant (I := fun s => I s ∧ Damaged s)
        (fun s l t hs h => ⟨hstep s l t hs.1 h, hkeep s l t hs.1 hs.2 h⟩) ⟨hIm, hdamaged⟩ hrest
      exact Or.inr hboth.2

/-- **Exact condition rule.** Steps that meet `P` keep the invariant `I`,
which makes a state `Good`; a step that ends in a good state has met `P`.
Then the runs whose steps all meet `P` are the runs all whose states are
good. -/
theorem along_iff_good {I Good : σ → Prop} (hgood : ∀ s, I s → Good s)
    (hkeep : ∀ s l t, I s → P s l → step s l = some t → I t)
    (hbreak : ∀ s l t, I s → step s l = some t → Good t → P s l) :
    ∀ {s t : σ} {ls : List ℓ}, I s → exec step s ls = some t →
      (Along step P s ls ↔ Along step (fun s _ => Good s) s ls ∧ Good t) := by
  intro s t ls
  induction ls generalizing s with
  | nil =>
    intro hs h
    simp only [exec_nil, Option.some.injEq] at h
    subst h
    exact ⟨fun _ => ⟨trivial, hgood s hs⟩, fun _ => trivial⟩
  | cons l ls ih =>
    intro hs h
    obtain ⟨m, hm, hrest⟩ := exec_cons_eq_some.mp h
    rw [along_cons hm, along_cons hm]
    constructor
    · rintro ⟨hl, hls⟩
      obtain ⟨hgoods, hlast⟩ := (ih (hkeep s l m hs hl hm) hrest).mp hls
      exact ⟨⟨hgood s hs, hgoods⟩, hlast⟩
    · rintro ⟨⟨-, hgoods⟩, hlast⟩
      have hm' : Good m := by
        cases ls with
        | nil =>
          simp only [exec_nil, Option.some.injEq] at hrest
          exact hrest ▸ hlast
        | cons l' ls => exact hgoods.1
      have hl := hbreak s l m hs hm hm'
      exact ⟨hl, (ih (hkeep s l m hs hl hm) hrest).mpr ⟨hgoods, hlast⟩⟩

/-- **Replacement rule.** Two conditions that agree under an invariant, which
one of them keeps, hold along the same runs. -/
theorem along_congr {I : σ → Prop} {Q : σ → ℓ → Prop}
    (hkeep : ∀ s l t, I s → P s l → step s l = some t → I t)
    (hiff : ∀ s l t, I s → step s l = some t → (P s l ↔ Q s l)) :
    ∀ {s t : σ} {ls : List ℓ}, I s → exec step s ls = some t →
      (Along step P s ls ↔ Along step Q s ls) := by
  intro s t ls
  induction ls generalizing s with
  | nil => exact fun _ _ => Iff.rfl
  | cons l ls ih =>
    intro hs h
    obtain ⟨m, hm, hrest⟩ := exec_cons_eq_some.mp h
    rw [along_cons hm, along_cons hm, ← hiff s l m hs hm]
    exact and_congr_right fun hl => ih (hkeep s l m hs hl hm) hrest

/-- A condition on labels alone holds along a run when it holds of each
label. -/
theorem along_label_iff {Q : ℓ → Prop} {s t : σ} {ls : List ℓ} (h : exec step s ls = some t) :
    Along step (fun _ l => Q l) s ls ↔ ∀ l ∈ ls, Q l := by
  induction ls generalizing s with
  | nil => exact ⟨fun _ => nofun, fun _ => trivial⟩
  | cons l ls ih =>
    obtain ⟨m, hm, hrest⟩ := exec_cons_eq_some.mp h
    rw [along_cons hm, ih hrest, List.forall_mem_cons]

/-- **Measure rule.** A run whose steps all decrease a measure is no longer
than the measure. -/
theorem exec_length_le {μ : σ → Nat} {Q : ℓ → Prop}
    (hstep : ∀ s l t, Q l → step s l = some t → μ t < μ s) :
    ∀ {s t : σ} {ls : List ℓ}, (∀ l ∈ ls, Q l) → exec step s ls = some t →
      ls.length + μ t ≤ μ s := by
  intro s t ls
  induction ls generalizing s with
  | nil =>
    intro _ h
    simp only [exec_nil, Option.some.injEq] at h
    simp [h]
  | cons l ls ih =>
    intro hls h
    obtain ⟨m, hm, hrest⟩ := exec_cons_eq_some.mp h
    have hl := hstep s l m (hls l (List.mem_cons_self ..)) hm
    have hrun := ih (fun l' hl' => hls l' (List.mem_cons_of_mem _ hl')) hrest
    rw [List.length_cons]
    omega

/-- **Lockstep rule.** Two systems whose steps under `P` are both refused or
end in related states again end their runs in related states. -/
theorem exec_rel_along {τ : Type w} {step' : τ → ℓ → Option τ} {R : σ → τ → Prop}
    (hstep : ∀ s g l, R s g → P s l → Option.Rel R (step s l) (step' g l)) :
    ∀ {s : σ} {g : τ} {ls : List ℓ}, R s g → Along step P s ls →
      Option.Rel R (exec step s ls) (exec step' g ls) := by
  intro s g ls
  induction ls generalizing s g with
  | nil => intro hR _; exact .some hR
  | cons l ls ih =>
    intro hR hP
    have hl := hstep s g l hR hP.1
    rw [exec, exec]
    cases hs : step s l with
    | none =>
      cases hg : step' g l with
      | none => exact .none
      | some g' => rw [hs, hg] at hl; cases hl
    | some s' =>
      cases hg : step' g l with
      | none => rw [hs, hg] at hl; cases hl
      | some g' =>
        rw [hs, hg] at hl
        cases hl with
        | some hR' => exact ih hR' ((along_cons hs).mp hP).2

/-- Between such systems a condition that related states share holds along
both runs or none. -/
theorem along_iff_of_rel {τ : Type w} {step' : τ → ℓ → Option τ} {P' : τ → ℓ → Prop}
    {R : σ → τ → Prop} (hP : ∀ s g l, R s g → (P s l ↔ P' g l))
    (hstep : ∀ s g l, R s g → P s l → Option.Rel R (step s l) (step' g l)) :
    ∀ {s : σ} {g : τ} {ls : List ℓ}, R s g → (Along step P s ls ↔ Along step' P' g ls) := by
  intro s g ls
  induction ls generalizing s g with
  | nil => intro _; exact Iff.rfl
  | cons l ls ih =>
    intro hR
    simp only [Along, ← hP s g l hR]
    refine and_congr_right fun hl => ?_
    have hrel := hstep s g l hR hl
    cases hs : step s l with
    | none =>
      cases hg : step' g l with
      | none => exact Iff.rfl
      | some g' => rw [hs, hg] at hrel; cases hrel
    | some s' =>
      cases hg : step' g l with
      | none => rw [hs, hg] at hrel; cases hrel
      | some g' =>
        rw [hs, hg] at hrel
        cases hrel with
        | some hR' => exact ih hR'

end Runs

/-! ## Progress -/

/-- Steps that meet `P` lead from one state to another. -/
def Leads (step : σ → ℓ → Option σ) (P : σ → ℓ → Prop) (s t : σ) : Prop :=
  ∃ ls, exec step s ls = some t ∧ Along step P s ls

namespace Leads

variable {step : σ → ℓ → Option σ} {P : σ → ℓ → Prop} {s t u : σ}

theorem refl (s : σ) : Leads step P s s := ⟨[], rfl, trivial⟩

theorem one {l : ℓ} (h : step s l = some t) (hP : P s l) : Leads step P s t :=
  ⟨[l], exec_cons_eq_some.mpr ⟨t, h, rfl⟩, (along_cons h).mpr ⟨hP, trivial⟩⟩

theorem trans (h : Leads step P s t) (h' : Leads step P t u) : Leads step P s u := by
  obtain ⟨ls, hls, hP⟩ := h
  obtain ⟨ms, hms, hP'⟩ := h'
  refine ⟨ls ++ ms, ?_, (along_append hls).mpr ⟨hP, hP'⟩⟩
  rw [exec_append, hls, Option.bind_some, hms]

end Leads

end LoadBalancing.Base
