import Aetheris.Lib.Run

/-!
# Scripted runs

A machine whose steps are actions: `fire` says what an action does and reports, `Admissible` when it
may be taken. A list of actions is a script; a script whose actions are admissible in turn is a run.
-/

section Script

variable {σ α ε : Type} (Admissible : σ → α → Prop) (fire : σ → α → σ × List ε)

/-- One action that may be taken. -/
def Fires (s : σ) (events : List ε) (s' : σ) : Prop :=
  ∃ a, Admissible s a ∧ fire s a = (s', events)

/-- Takes a list of actions. -/
def fires : σ → List α → σ × List ε
  | s, [] => (s, [])
  | s, a :: actions =>
    let (s, events) := fire s a
    let (final, rest) := fires s actions
    (final, events ++ rest)

/-- Every action may be taken when its turn comes, and its step is a good one. -/
def Allows (Good : σ → List ε → Prop) : σ → List α → Prop
  | _, [] => True
  | s, a :: actions =>
    Admissible s a ∧ Good s (fire s a).2 ∧ Allows Good (fire s a).1 actions

variable {Admissible fire}

instance decidableAllows {Good : σ → List ε → Prop} [∀ s a, Decidable (Admissible s a)]
    [∀ s events, Decidable (Good s events)] :
    ∀ (s : σ) (actions : List α), Decidable (Allows Admissible fire Good s actions)
  | _, [] => .isTrue trivial
  | s, a :: actions =>
    have : Decidable (Allows Admissible fire Good (fire s a).1 actions) :=
      decidableAllows (fire s a).1 actions
    inferInstanceAs (Decidable (_ ∧ _ ∧ _))

/-- A machine that moves the same way and reports in other words. -/
theorem fires_map {ε' : Type} {fire' : σ → α → σ × List ε'} (g : ε → ε')
    (h : ∀ s a, fire' s a = ((fire s a).1, (fire s a).2.map g)) (actions : List α) (s : σ) :
    fires fire' s actions = ((fires fire s actions).1, (fires fire s actions).2.map g) := by
  induction actions generalizing s with
  | nil => rfl
  | cons a actions ih => simp [fires, h, ih]

theorem allows_map {ε' : Type} {Admissible' : σ → α → Prop} {fire' : σ → α → σ × List ε'}
    (hfire : ∀ s a, (fire' s a).1 = (fire s a).1)
    (hadmissible : ∀ s a, Admissible s a → Admissible' s a) {actions : List α} {s : σ}
    (h : Allows Admissible fire (fun _ _ => True) s actions) :
    Allows Admissible' fire' (fun _ _ => True) s actions := by
  induction actions generalizing s with
  | nil => trivial
  | cons a actions ih => exact ⟨hadmissible s a h.1, trivial, hfire s a ▸ ih h.2.2⟩

theorem allows_append {Good : σ → List ε → Prop} (s : σ) (actions actions' : List α) :
    Allows Admissible fire Good s (actions ++ actions') ↔
      Allows Admissible fire Good s actions ∧
        Allows Admissible fire Good (fires fire s actions).1 actions' := by
  induction actions generalizing s with
  | nil => exact ⟨fun h => ⟨trivial, h⟩, fun h => h.2⟩
  | cons a actions ih =>
    show _ ∧ _ ∧ Allows Admissible fire Good _ (actions ++ actions') ↔ (_ ∧ _ ∧ _) ∧ _
    rw [ih, and_assoc, and_assoc]
    rfl

theorem allows_and {Admissible' : σ → α → Prop} {Good : σ → List ε → Prop} {actions : List α} :
    ∀ {s : σ}, Allows Admissible fire Good s actions → Allows Admissible' fire Good s actions →
      Allows (fun s a => Admissible s a ∧ Admissible' s a) fire Good s actions := by
  induction actions with
  | nil => exact fun _ _ => trivial
  | cons a actions ih =>
    rintro s ⟨hadmissible, hgood, hrest⟩ ⟨hadmissible', -, hrest'⟩
    exact ⟨⟨hadmissible, hadmissible'⟩, hgood, ih hrest hrest'⟩

theorem run_fires {Good : σ → List ε → Prop} {actions : List α} :
    ∀ {s : σ}, Allows Admissible fire Good s actions →
      Run (fun s events s' => Fires Admissible fire s events s' ∧ Good s events) s
        (fires fire s actions).2 (fires fire s actions).1 := by
  induction actions with
  | nil => exact fun _ => .nil
  | cons a actions ih =>
    rintro s ⟨hadmissible, hgood, hrest⟩
    exact .cons ⟨⟨a, hadmissible, rfl⟩, hgood⟩ (ih hrest)

end Script
