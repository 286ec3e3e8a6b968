/-
LoadBalancing.Base.SharedStreams — writers that put two-part frames on
shared byte streams.

A writer sends a frame as a first part and then, unless it is empty, a
second part; between the two its frame is open and other writers may
send. `Framed` says of every stream that it is the frames sent on it, cut
off at most where its one open frame stands. A second part always keeps
it; a first part keeps it when nobody else's frame is open on that
stream.

No `sorry`, no `axiom`, no `native_decide`.
-/
import Mathlib.Data.List.Basic
import Mathlib.Logic.Function.Basic

namespace LoadBalancing.Base

/-- A frame whose first part is sent: who sends it, where, and the second
part. -/
structure OpenFrame (ω ε β : Type) where
  writer : ω
  endpoint : ε
  rest : List β

/-- Streams of `β`s by endpoint `ε`, written by writers `ω` in frames of
messages `μ`: the open frames, the streams, and the messages whose first
part has been sent. -/
structure SharedStreams (ω ε μ β : Type) where
  openFrames : List (OpenFrame ω ε β)
  bytes : ε → List β
  sent : ε → List μ

namespace SharedStreams

variable {ω ε μ β : Type}

/-- Nothing sent yet. -/
def new : SharedStreams ω ε μ β := ⟨[], fun _ => [], fun _ => []⟩

/-- No frame is open on an endpoint. -/
def Idle (s : SharedStreams ω ε μ β) (e : ε) : Prop :=
  ∀ f ∈ s.openFrames, f.endpoint ≠ e

/-- No frame but one of `w` is open on an endpoint. -/
def IdleBut (s : SharedStreams ω ε μ β) (w : ω) (e : ε) : Prop :=
  ∀ f ∈ s.openFrames, f.writer ≠ w → f.endpoint ≠ e

/-- A writer has at most one open frame, and every stream is the frames
sent on it up to the rest of its one open frame. -/
structure Framed (first second : μ → List β) (s : SharedStreams ω ε μ β) : Prop where
  one_each : ∀ f ∈ s.openFrames, ∀ g ∈ s.openFrames, f.writer = g.writer → f = g
  bytes_eq : ∀ e,
    (s.Idle e ∧ s.bytes e = (s.sent e).flatMap fun m => first m ++ second m) ∨
      ∃ f ∈ s.openFrames, f.endpoint = e ∧ (∀ g ∈ s.openFrames, g.endpoint = e → g = f) ∧
        s.bytes e ++ f.rest = (s.sent e).flatMap fun m => first m ++ second m

variable [DecidableEq ω] [DecidableEq ε]

instance (s : SharedStreams ω ε μ β) (e : ε) : Decidable (s.Idle e) :=
  inferInstanceAs (Decidable (∀ f ∈ s.openFrames, f.endpoint ≠ e))

instance (s : SharedStreams ω ε μ β) (w : ω) (e : ε) : Decidable (s.IdleBut w e) :=
  inferInstanceAs (Decidable (∀ f ∈ s.openFrames, f.writer ≠ w → f.endpoint ≠ e))

/-- The open frame of a writer. -/
def frameOf (s : SharedStreams ω ε μ β) (w : ω) : Option (OpenFrame ω ε β) :=
  s.openFrames.find? fun f => f.writer = w

/-- Send the first part of a message; `none` when the writer's last frame
is still open. -/
def sendFirst (first second : μ → List β) (s : SharedStreams ω ε μ β) (w : ω) (e : ε) (m : μ) :
    Option (SharedStreams ω ε μ β) :=
  match s.frameOf w with
  | some _ => none
  | none => some
    { openFrames := if (second m).isEmpty then s.openFrames
        else s.openFrames ++ [⟨w, e, second m⟩]
      bytes := Function.update s.bytes e (s.bytes e ++ first m)
      sent := Function.update s.sent e (s.sent e ++ [m]) }

/-- Send the second part; `none` when the writer has no open frame. -/
def sendSecond (s : SharedStreams ω ε μ β) (w : ω) : Option (SharedStreams ω ε μ β) :=
  match s.frameOf w with
  | none => none
  | some f => some
    { openFrames := s.openFrames.filter fun g => g.writer ≠ w
      bytes := Function.update s.bytes f.endpoint (s.bytes f.endpoint ++ f.rest)
      sent := s.sent }

variable {first second : μ → List β} {s t : SharedStreams ω ε μ β} {w : ω} {e : ε} {m : μ}

omit [DecidableEq ω] [DecidableEq ε] in
theorem framed_new : (new : SharedStreams ω ε μ β).Framed first second :=
  ⟨fun _ h => by simp [new] at h, fun _ => Or.inl ⟨fun _ h => by simp [new] at h, rfl⟩⟩

omit [DecidableEq ω] [DecidableEq ε] in
/-- An idle stream is whole frames. -/
theorem Framed.of_idle (h : s.Framed first second) (hidle : s.Idle e) :
    s.bytes e = (s.sent e).flatMap fun m => first m ++ second m := by
  rcases h.bytes_eq e with ⟨-, hbytes⟩ | ⟨f, hf, he, -⟩
  · exact hbytes
  · exact absurd he (hidle f hf)

omit [DecidableEq ε] in
theorem frameOf_eq_none : s.frameOf w = none ↔ ∀ f ∈ s.openFrames, f.writer ≠ w := by
  simp [frameOf, List.find?_eq_none]

omit [DecidableEq ε] in
theorem frameOf_eq_some {f : OpenFrame ω ε β} (h : s.frameOf w = some f) :
    f ∈ s.openFrames ∧ f.writer = w :=
  ⟨List.mem_of_find?_eq_some h, by simpa using List.find?_some h⟩

/-- The first part counts as the message sent. -/
theorem sent_sendFirst (hsend : s.sendFirst first second w e m = some t) :
    t.sent = Function.update s.sent e (s.sent e ++ [m]) := by
  unfold sendFirst at hsend
  split at hsend
  · cases hsend
  · cases hsend
    rfl

/-- The second part is no message of its own. -/
theorem sent_sendSecond (hsend : s.sendSecond w = some t) : t.sent = s.sent := by
  unfold sendSecond at hsend
  split at hsend
  · cases hsend
  · cases hsend
    rfl

/-- **The first part** of a frame, sent while nobody else's frame is open
on its stream. -/
theorem Framed.sendFirst (h : s.Framed first second) (halone : s.IdleBut w e)
    (hsend : s.sendFirst first second w e m = some t) : t.Framed first second := by
  unfold SharedStreams.sendFirst at hsend
  split at hsend
  · cases hsend
  · rename_i hw
    have hwriter := frameOf_eq_none.mp hw
    have hidle : s.Idle e := fun f hf => halone f hf (hwriter f hf)
    have hbytes := h.of_idle hidle
    cases hsend
    cases hrest : (second m).isEmpty with
    | true =>
      have hnil := List.isEmpty_iff.mp hrest
      refine ⟨by simpa using h.one_each, fun e' => ?_⟩
      by_cases he : e' = e
      · subst he
        exact Or.inl ⟨by simpa [Idle] using hidle, by simp [hbytes, hnil]⟩
      · simpa [Idle, Function.update_of_ne he] using h.bytes_eq e'
    | false =>
      refine ⟨fun f hf g hg hfg => ?_, fun e' => ?_⟩
      · simp only [Bool.false_eq_true, if_false, List.mem_append, List.mem_singleton] at hf hg
        rcases hf with hf | rfl <;> rcases hg with hg | rfl
        · exact h.one_each f hf g hg hfg
        · exact absurd hfg (hwriter f hf)
        · exact absurd hfg.symm (hwriter g hg)
        · rfl
      · by_cases he : e' = e
        · subst he
          refine Or.inr ⟨⟨w, e', second m⟩, by simp, rfl, fun g hg hge => ?_, by simp [hbytes]⟩
          simp only [Bool.false_eq_true, if_false, List.mem_append, List.mem_singleton] at hg
          rcases hg with hg | rfl
          · exact absurd hge (hidle g hg)
          · rfl
        · rcases h.bytes_eq e' with ⟨hid, hb⟩ | ⟨f, hf, hfe, hone, hb⟩
          · refine Or.inl ⟨fun g hg => ?_, by simpa [he] using hb⟩
            simp only [Bool.false_eq_true, if_false, List.mem_append, List.mem_singleton] at hg
            rcases hg with hg | rfl
            · exact hid g hg
            · exact Ne.symm he
          · refine Or.inr ⟨f, by simp [hf], hfe, fun g hg hge => ?_, by simpa [he] using hb⟩
            simp only [Bool.false_eq_true, if_false, List.mem_append, List.mem_singleton] at hg
            rcases hg with hg | rfl
            · exact hone g hg hge
            · exact absurd hge (Ne.symm he)

/-- **The second part** completes the frame. -/
theorem Framed.sendSecond (h : s.Framed first second) (hsend : s.sendSecond w = some t) :
    t.Framed first second := by
  unfold SharedStreams.sendSecond at hsend
  split at hsend
  · cases hsend
  · rename_i f₀ hw
    obtain ⟨hf₀, hwriter⟩ := frameOf_eq_some hw
    cases hsend
    have hkeep : ∀ g ∈ s.openFrames, g.endpoint ≠ f₀.endpoint → g.writer ≠ w := by
      intro g hg hge hgw
      exact hge (congrArg OpenFrame.endpoint (h.one_each g hg f₀ hf₀ (hgw.trans hwriter.symm)))
    refine ⟨fun f hf g hg hfg => ?_, fun e => ?_⟩
    · exact h.one_each f (List.mem_filter.mp hf).1 g (List.mem_filter.mp hg).1 hfg
    · by_cases he : e = f₀.endpoint
      · subst he
        rcases h.bytes_eq f₀.endpoint with ⟨hid, -⟩ | ⟨f, hf, -, hone, hb⟩
        · exact absurd rfl (hid f₀ hf₀)
        · obtain rfl := hone f₀ hf₀ rfl
          refine Or.inl ⟨fun g hg hge => ?_, by simpa using hb⟩
          obtain ⟨hg, hgw⟩ := List.mem_filter.mp hg
          rw [hone g hg hge] at hgw
          simp [hwriter] at hgw
      · rcases h.bytes_eq e with ⟨hid, hb⟩ | ⟨f, hf, hfe, hone, hb⟩
        · exact Or.inl ⟨fun g hg => hid g (List.mem_filter.mp hg).1, by simpa [he] using hb⟩
        · have hfw := hkeep f hf (by rwa [hfe])
          exact Or.inr ⟨f, List.mem_filter.mpr ⟨hf, by simpa using hfw⟩, hfe,
            fun g hg => hone g (List.mem_filter.mp hg).1, by simpa [he] using hb⟩

end SharedStreams

/-- A stream of whole frames, in any order, begins as one of them does. -/
theorem take_flatMap_mem {μ β : Type} (frame : μ → List β) (k : Nat) {frames sent : List μ}
    (hperm : frames.Perm sent) (hne : sent ≠ []) (hlen : ∀ m ∈ sent, k ≤ (frame m).length) :
    (frames.flatMap frame).take k ∈ sent.map fun m => (frame m).take k := by
  cases frames with
  | nil => exact absurd hperm.nil_eq.symm hne
  | cons m ms =>
    have hm : m ∈ sent := hperm.subset (List.mem_cons_self ..)
    rw [List.flatMap_cons, List.take_append_of_le_length (hlen m hm)]
    exact List.mem_map_of_mem hm

end LoadBalancing.Base
