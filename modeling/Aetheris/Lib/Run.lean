import Mathlib.Data.List.Basic

/-!
# Runs of a transition relation whose steps report events

A step reports a list of events, and a run the events of all its steps in order. Four rules: an
invariant may look at the events so far, at the state alone, or promise something of every event,
alone or together with the events before it.
-/

section Run

variable {σ ε : Type} {step : σ → List ε → σ → Prop}

inductive Run (step : σ → List ε → σ → Prop) (s : σ) : List ε → σ → Prop where
  | nil : Run step s [] s
  | snoc {trace events : List ε} {s' s'' : σ} :
      Run step s trace s' → step s' events s'' → Run step s (trace ++ events) s''

namespace Run

variable {I : σ → Prop} {s s' : σ}

theorem trans {s'' : σ} {trace trace' : List ε} (h : Run step s trace s')
    (h' : Run step s' trace' s'') : Run step s (trace ++ trace') s'' := by
  induction h' with
  | nil => rwa [List.append_nil]
  | snoc _ hlast ih => rw [← List.append_assoc]; exact ih.snoc hlast

theorem cons {s'' : σ} {events trace : List ε} (h : step s events s')
    (h' : Run step s' trace s'') : Run step s (events ++ trace) s'' := by
  have hone : Run step s ([] ++ events) s' := .snoc .nil h
  exact hone.trans h'

theorem mono {step' : σ → List ε → σ → Prop} {trace : List ε} (h : Run step s trace s')
    (hstep : ∀ s events s', step s events s' → step' s events s') : Run step' s trace s' := by
  induction h with
  | nil => exact .nil
  | snoc _ hlast ih => exact ih.snoc (hstep _ _ _ hlast)

theorem history {I : List ε → σ → Prop} {trace : List ε} (h : Run step s trace s') (hnil : I [] s)
    (hstep : ∀ trace s events s', I trace s → step s events s' → I (trace ++ events) s') :
    I trace s' := by
  induction h with
  | nil => exact hnil
  | snoc _ hlast ih => exact hstep _ _ _ _ ih hlast

theorem invariant {trace : List ε} (h : Run step s trace s') (hs : I s)
    (hstep : ∀ s events s', I s → step s events s' → I s') : I s' :=
  h.history (I := fun _ s => I s) hs fun _ s events s' => hstep s events s'

theorem forall_events {P : ε → Prop} {trace : List ε} (h : Run step s trace s') (hs : I s)
    (hstep : ∀ s events s', I s → step s events s' → I s' ∧ ∀ e ∈ events, P e) :
    I s' ∧ ∀ e ∈ trace, P e := by
  refine h.history (I := fun trace s => I s ∧ ∀ e ∈ trace, P e) ⟨hs, by simp⟩ ?_
  rintro trace s events s' ⟨hi, hp⟩ hlast
  obtain ⟨hi', hp'⟩ := hstep s events s' hi hlast
  refine ⟨hi', fun e he => ?_⟩
  rcases List.mem_append.mp he with he | he
  · exact hp e he
  · exact hp' e he

theorem forall_before {I : List ε → σ → Prop} {P : List ε → ε → Prop} {trace : List ε}
    (h : Run step s trace s') (hnil : I [] s)
    (hstep : ∀ trace s events s', I trace s → step s events s' →
      I (trace ++ events) s' ∧
        ∀ before e after, events = before ++ e :: after → P (trace ++ before) e) :
    I trace s' ∧ ∀ before e after, trace = before ++ e :: after → P before e := by
  refine h.history (I := fun trace s => I trace s ∧
    ∀ before e after, trace = before ++ e :: after → P before e) ⟨hnil, ?_⟩ ?_
  · intro before e after heq
    cases before <;> cases heq
  · rintro trace s events s' ⟨hi, hp⟩ hlast
    obtain ⟨hi', hp'⟩ := hstep trace s events s' hi hlast
    refine ⟨hi', fun before e after heq => ?_⟩
    rcases List.append_eq_append_iff.mp heq with ⟨mid, rfl, hevents⟩ | ⟨mid, rfl, hmid⟩
    · exact hp' mid e after hevents
    · -- the event is one of the earlier ones, or the first of the new ones
      cases mid with
      | nil =>
        have hfirst := hp' [] e after hmid.symm
        rwa [List.append_nil, List.append_nil] at hfirst
      | cons e' mid =>
        obtain ⟨rfl, -⟩ := List.cons.inj hmid
        exact hp before e mid rfl

end Run

end Run
