import Aetheris.Lib.Limiter

/-!
# Fixed windows

A window is opened by a check that finds none, ends `span` later and grants its first `limit` checks.
When it is over the next check opens another one, and so does a check after a sweep has dropped it.
The times alone say how the checks fall into windows (`cut`), and the windows say which checks are
granted (`answers_eq`). Windows are opened `span` apart, so no stretch of that length meets three of
them (`Spaced.within_le_two`), and none meets two if the key rests in between (`Rested.within_le`).
-/

structure Window where
  count : Nat
  reset : Nat

/-- `over` and `stale` say when a window that ends at `reset` is replaced and swept. -/
structure WindowRule where
  limit : Nat
  span : Nat
  past : Nat → Nat → Bool
  stale : Nat → Nat → Bool
  limit_pos : 0 < limit
  past_le : ∀ reset now, past reset now = true → reset ≤ now
  stale_le : ∀ reset now, stale reset now = true → reset ≤ now

namespace WindowRule

open Keeper

variable (ρ : WindowRule)

def keeper : Keeper Window where
  check o now :=
    match o.filter fun w => !ρ.past w.reset now with
    | none => (⟨1, now + ρ.span⟩, true)
    | some w => if w.count < ρ.limit then (⟨w.count + 1, w.reset⟩, true) else (w, false)
  stale w now := ρ.stale w.reset now

/-- The checks that still fall into the open window, which ends at `o`, and those of each later one. -/
def cut : Option Nat → List Probe → List Nat × List (List Nat)
  | _, [] => ([], [])
  | o, .check now :: ps =>
    match o.filter fun reset => !ρ.past reset now with
    | none => ([], (now :: (cut (some (now + ρ.span)) ps).1) :: (cut (some (now + ρ.span)) ps).2)
    | some reset => (now :: (cut (some reset) ps).1, (cut (some reset) ps).2)
  | o, .sweep now :: ps => cut (o.filter fun reset => !ρ.stale reset now) ps

/-- The first checks of a window are granted, `used` of them already. -/
def grant (used : Nat) (calls : List Nat) : List (Nat × Bool) :=
  (calls.take (ρ.limit - used)).map (·, true) ++ (calls.drop (ρ.limit - used)).map (·, false)

variable {ρ}

@[simp] theorem grant_nil (used : Nat) : ρ.grant used [] = [] := by
  simp [grant]

theorem grant_cons (used now : Nat) (calls : List Nat) :
    ρ.grant used (now :: calls) = (now, decide (used < ρ.limit)) :: ρ.grant (used + 1) calls := by
  unfold grant
  by_cases h : used < ρ.limit
  · obtain ⟨n, hn⟩ : ∃ n, ρ.limit - used = n + 1 := ⟨ρ.limit - (used + 1), by omega⟩
    have hn' : ρ.limit - (used + 1) = n := by omega
    simp [hn, hn', h]
  · have hn : ρ.limit - used = 0 := by omega
    have hn' : ρ.limit - (used + 1) = 0 := by omega
    simp [hn, hn', h]

theorem grant_exhausted {used : Nat} (h : ρ.limit ≤ used) (calls : List Nat) :
    ρ.grant (used + 1) calls = ρ.grant used calls := by
  unfold grant
  rw [Nat.sub_eq_zero_of_le h, Nat.sub_eq_zero_of_le (Nat.le_succ_of_le h)]

theorem check_over {o : Option Window} {now : Nat}
    (h : ∀ w ∈ o, ρ.past w.reset now = true) :
    ρ.keeper.check o now = (⟨1, now + ρ.span⟩, true) := by
  cases o with
  | none => rfl
  | some w => simp [keeper, Option.filter, h w rfl]

theorem check_live {w : Window} {now : Nat} (h : ρ.past w.reset now = false) :
    ρ.keeper.check (some w) now =
      if w.count < ρ.limit then (⟨w.count + 1, w.reset⟩, true) else (w, false) := by
  simp [keeper, Option.filter, h]

theorem check_count_le {o : Option Window} {now : Nat} (h : ∀ w ∈ o, w.count ≤ ρ.limit) :
    (ρ.keeper.check o now).1.count ≤ ρ.limit := by
  by_cases hover : ∀ w ∈ o, ρ.past w.reset now = true
  · rw [check_over hover]
    exact ρ.limit_pos
  · obtain ⟨w, rfl, hlive⟩ : ∃ w, o = some w ∧ ρ.past w.reset now = false := by simpa using hover
    rw [check_live hlive]
    split
    · assumption
    · exact h w rfl

theorem cut_over {o : Option Nat} {now : Nat} (h : ∀ reset ∈ o, ρ.past reset now = true)
    (ps : List Probe) : ρ.cut o (.check now :: ps) =
      ([], (now :: (ρ.cut (some (now + ρ.span)) ps).1) :: (ρ.cut (some (now + ρ.span)) ps).2) := by
  cases o with
  | none => rfl
  | some reset => simp [cut, Option.filter, h reset rfl]

theorem cut_live {reset now : Nat} (h : ρ.past reset now = false) (ps : List Probe) :
    ρ.cut (some reset) (.check now :: ps) =
      (now :: (ρ.cut (some reset) ps).1, (ρ.cut (some reset) ps).2) := by
  simp [cut, Option.filter, h]

theorem cut_none (ps : List Probe) : (ρ.cut none ps).1 = [] := by
  induction ps with
  | nil => rfl
  | cons p ps ih =>
    cases p with
    | check now => rfl
    | sweep now => exact ih

/-- Which checks are granted. -/
theorem answers_eq (ps : List Probe) : ∀ o : Option Window,
    (ρ.keeper.answers o ps).map (fun a => (a.now, a.granted)) =
      ρ.grant (o.elim 0 Window.count) (ρ.cut (o.map Window.reset) ps).1 ++
        (ρ.cut (o.map Window.reset) ps).2.flatMap (ρ.grant 0) := by
  induction ps with
  | nil => simp [answers, cut]
  | cons p ps ih =>
    intro o
    cases p with
    | sweep now =>
      cases o with
      | none => exact ih none
      | some w =>
        cases hstale : ρ.stale w.reset now with
        | true =>
          have hdrop : ρ.keeper.sweep (some w) now = none := by
            simp [Keeper.sweep, keeper, Option.filter, hstale]
          have hcut : ρ.cut (some w.reset) (.sweep now :: ps) = ρ.cut none ps := by
            simp [cut, Option.filter, hstale]
          rw [answers, hdrop, ih none, show (some w).map Window.reset = some w.reset from rfl, hcut,
            show (none : Option Window).map Window.reset = none from rfl, cut_none, grant_nil,
            grant_nil]
        | false =>
          have hkeep : ρ.keeper.sweep (some w) now = some w := by
            simp [Keeper.sweep, keeper, Option.filter, hstale]
          have hcut : ρ.cut (some w.reset) (.sweep now :: ps) = ρ.cut (some w.reset) ps := by
            simp [cut, Option.filter, hstale]
          rw [answers, hkeep, show (some w).map Window.reset = some w.reset from rfl, hcut]
          exact ih (some w)
    | check now =>
      rw [answers, List.map_cons]
      by_cases hover : ∀ w ∈ o, ρ.past w.reset now = true
      · -- a window is opened
        have hreset : ∀ reset ∈ o.map Window.reset, ρ.past reset now = true := by
          simpa using hover
        have hrest := ih (some ⟨1, now + ρ.span⟩)
        rw [check_over hover, cut_over hreset, hrest]
        simp [grant_cons, ρ.limit_pos]
      · -- the open one counts on
        obtain ⟨w, rfl, hlive⟩ : ∃ w, o = some w ∧ ρ.past w.reset now = false := by
          simpa using hover
        rw [check_live hlive, show (some w).map Window.reset = some w.reset from rfl, cut_live hlive]
        by_cases hcount : w.count < ρ.limit
        · rw [if_pos hcount, ih (some ⟨w.count + 1, w.reset⟩)]
          simp [grant_cons, hcount]
        · rw [if_neg hcount, ih (some w)]
          simp [grant_cons, hcount, grant_exhausted (Nat.le_of_not_lt hcount)]

/-- The same for a keeper whose entries are windows in another form. -/
theorem answers_of_view {E : Type} {κ : Keeper E} {f : E → Window}
    (hcheck : ∀ o now, ρ.keeper.check (o.map f) now = (f (κ.check o now).1, (κ.check o now).2))
    (hstale : ∀ e now, ρ.stale (f e).reset now = κ.stale e now) (ps : List Probe) :
    (κ.answers none ps).map (fun a => (a.now, a.granted)) =
      (ρ.cut none ps).2.flatMap (ρ.grant 0) := by
  have hview := answers_map f hcheck hstale ps none
  have hwindows := answers_eq (ρ := ρ) ps none
  rw [← Option.map_none (f := f), hview, List.map_map] at hwindows
  simpa [cut_none, Function.comp_def] using hwindows

/-! ## Spacing -/

/-- The windows follow each other, and no later check is within `span` of the opening of one. -/
def Spaced (ρ : WindowRule) : List (List Nat) → Prop
  | [] => True
  | w :: ws => (∀ t ∈ w, ∀ w' ∈ ws, ∀ t' ∈ w', t ≤ t') ∧
      (∀ t ∈ w.head?, ∀ w' ∈ ws, ∀ t' ∈ w', t + ρ.span ≤ t') ∧ w ≠ [] ∧ ρ.Spaced ws

theorem le_cut (ps : List Probe) : ∀ {t : Nat} {o : Option Nat}, Ordered Probe.now t ps →
    (∀ u ∈ (ρ.cut o ps).1, t ≤ u) ∧ ∀ w ∈ (ρ.cut o ps).2, ∀ u ∈ w, t ≤ u := by
  induction ps with
  | nil => exact fun _ => ⟨nofun, nofun⟩
  | cons p ps ih =>
    intro t o hordered
    have hrest := fun o => ih (o := o) (hordered.2.mono hordered.1)
    have hnow := hordered.1
    cases p with
    | sweep now => exact hrest _
    | check now =>
      rw [cut]
      split
      · obtain ⟨hopen, hlater⟩ := hrest (some (now + ρ.span))
        exact ⟨nofun, List.forall_mem_cons.mpr ⟨List.forall_mem_cons.mpr ⟨hnow, hopen⟩, hlater⟩⟩
      · next reset _ =>
        obtain ⟨hopen, hlater⟩ := hrest (some reset)
        exact ⟨List.forall_mem_cons.mpr ⟨hnow, hopen⟩, hlater⟩

/-- The next window opens when the last one is over or has been swept. -/
theorem reset_le_cut (ps : List Probe) : ∀ {t reset : Nat}, Ordered Probe.now t ps →
    ∀ w ∈ (ρ.cut (some reset) ps).2, ∀ u ∈ w, reset ≤ u := by
  induction ps with
  | nil => exact fun _ _ hw => (nomatch hw)
  | cons p ps ih =>
    intro t reset hordered
    cases p with
    | sweep now =>
      cases hstale : ρ.stale reset now with
      | true =>
        have hle := ρ.stale_le reset now hstale
        simpa [cut, Option.filter, hstale] using (le_cut (o := none) ps (hordered.2.mono hle)).2
      | false => simpa [cut, Option.filter, hstale] using ih hordered.2
    | check now =>
      cases hover : ρ.past reset now with
      | true =>
        have hle : reset ≤ now := ρ.past_le reset now hover
        have hrest := le_cut (ρ := ρ) (o := some (now + ρ.span)) ps (hordered.2.mono hle)
        rw [cut_over (by simpa using hover)]
        exact List.forall_mem_cons.mpr ⟨List.forall_mem_cons.mpr ⟨hle, hrest.1⟩, hrest.2⟩
      | false =>
        rw [cut_live hover]
        exact ih hordered.2

theorem cut_spaced (ps : List Probe) : ∀ {t : Nat} {o : Option Nat}, Ordered Probe.now t ps →
    (∀ u ∈ (ρ.cut o ps).1, ∀ w ∈ (ρ.cut o ps).2, ∀ u' ∈ w, u ≤ u') ∧
      ρ.Spaced (ρ.cut o ps).2 := by
  induction ps with
  | nil => exact fun _ => ⟨nofun, trivial⟩
  | cons p ps ih =>
    intro t o hordered
    cases p with
    | sweep now => exact ih hordered.2
    | check now =>
      have hle := fun o => (le_cut (ρ := ρ) (o := o) ps hordered.2).2
      rw [cut]
      split
      · obtain ⟨hopen, hlater⟩ := ih (o := some (now + ρ.span)) hordered.2
        refine ⟨nofun, List.forall_mem_cons.mpr ⟨hle _, hopen⟩, fun u hu => ?_, nofun, hlater⟩
        exact Option.some.inj hu ▸ reset_le_cut ps hordered.2
      · next reset _ =>
        obtain ⟨hopen, hlater⟩ := ih (o := some reset) hordered.2
        exact ⟨List.forall_mem_cons.mpr ⟨hle _, hopen⟩, hlater⟩

/-! ## Stretches of time -/

/-- The grants from `x` up to `x + span`. -/
def within (ρ : WindowRule) (x : Nat) (answers : List (Nat × Bool)) : Nat :=
  answers.countP fun a => a.2 && decide (x ≤ a.1 ∧ a.1 < x + ρ.span)

variable {x : Nat} {ws : List (List Nat)}

theorem within_grant_le (w : List Nat) : ρ.within x (ρ.grant 0 w) ≤ ρ.limit := by
  have hrefused : ρ.within x ((w.drop ρ.limit).map (·, false)) = 0 := by
    unfold within
    rw [List.countP_map]
    exact List.countP_eq_zero.mpr (by simp)
  have hgranted : ρ.within x ((w.take ρ.limit).map (·, true)) ≤ ρ.limit := by
    refine Nat.le_trans List.countP_le_length ?_
    rw [List.length_map]
    exact List.length_take_le ..
  unfold within at hrefused hgranted ⊢
  rw [grant, List.countP_append, Nat.sub_zero, hrefused]
  exact hgranted

theorem within_eq_zero {w : List Nat} (h : ∀ t ∈ w, ¬ (x ≤ t ∧ t < x + ρ.span)) :
    ρ.within x (ρ.grant 0 w) = 0 := by
  refine List.countP_eq_zero.mpr fun a ha => ?_
  have hmem : a.1 ∈ w := by
    rcases List.mem_append.mp ha with ha | ha
    · obtain ⟨t, ht, rfl⟩ := List.mem_map.mp ha
      exact List.mem_of_mem_take ht
    · obtain ⟨t, ht, rfl⟩ := List.mem_map.mp ha
      exact List.mem_of_mem_drop ht
  simp [h a.1 hmem]

theorem within_cons (w : List Nat) : ρ.within x ((w :: ws).flatMap (ρ.grant 0)) =
    ρ.within x (ρ.grant 0 w) + ρ.within x (ws.flatMap (ρ.grant 0)) := by
  unfold within
  rw [List.flatMap_cons, List.countP_append]

theorem within_flatMap_eq_zero (h : ∀ w ∈ ws, ∀ t ∈ w, ¬ (x ≤ t ∧ t < x + ρ.span)) :
    ρ.within x (ws.flatMap (ρ.grant 0)) = 0 := by
  induction ws with
  | nil => rfl
  | cons w ws ih =>
    obtain ⟨hw, hws⟩ := List.forall_mem_cons.mp h
    rw [within_cons, within_eq_zero hw, ih hws]

/-- Windows that are met after `x` only: the second one is too late. -/
theorem Spaced.within_le (h : ρ.Spaced ws)
    (hx : ∀ w ∈ ws, ∀ t ∈ w, x ≤ t) : ρ.within x (ws.flatMap (ρ.grant 0)) ≤ ρ.limit := by
  cases ws with
  | nil => exact Nat.zero_le _
  | cons w ws =>
    obtain ⟨-, hspan, hne, -⟩ := h
    obtain ⟨t, ht⟩ := Option.isSome_iff_exists.mp (List.isSome_head?.mpr hne)
    have hxt := hx w List.mem_cons_self t (List.mem_of_mem_head? ht)
    have hlate : ρ.within x (ws.flatMap (ρ.grant 0)) = 0 := within_flatMap_eq_zero
      fun w' hw' t' ht' hin => by
        have := hspan t ht w' hw' t' ht'
        omega
    rw [within_cons, hlate]
    exact within_grant_le w

theorem Spaced.within_le_two (h : ρ.Spaced ws) :
    ρ.within x (ws.flatMap (ρ.grant 0)) ≤ 2 * ρ.limit := by
  induction ws with
  | nil => exact Nat.zero_le _
  | cons w ws ih =>
    obtain ⟨hafter, -, -, hws⟩ := h
    have hfirst := within_grant_le (ρ := ρ) (x := x) w
    rw [within_cons]
    by_cases hmet : ∃ t ∈ w, x ≤ t
    · -- what follows is after `x`
      obtain ⟨t, ht, hxt⟩ := hmet
      have hrest := hws.within_le fun w' hw' t' ht' =>
        Nat.le_trans hxt (hafter t ht w' hw' t' ht')
      omega
    · have hnone := within_eq_zero (ρ := ρ) (x := x) (w := w) fun t ht hin =>
        hmet ⟨t, ht, hin.1⟩
      have hrest := ih hws
      omega

/-- Whatever opens a window comes `span` after every earlier check. -/
def Rested (ρ : WindowRule) (ws : List (List Nat)) : Prop :=
  ws.Pairwise fun w w' => ∀ t ∈ w, ∀ t' ∈ w', t + ρ.span ≤ t'

theorem Rested.within_le (h : ρ.Rested ws) : ρ.within x (ws.flatMap (ρ.grant 0)) ≤ ρ.limit := by
  induction ws with
  | nil => exact Nat.zero_le _
  | cons w ws ih =>
    obtain ⟨hafter, hws⟩ := List.pairwise_cons.mp h
    rw [within_cons]
    by_cases hmet : ∃ t ∈ w, x ≤ t
    · -- the next window is too late
      obtain ⟨t, ht, hxt⟩ := hmet
      rw [within_flatMap_eq_zero fun w' hw' t' ht' hin => by
        have := hafter w' hw' t ht t' ht'
        omega]
      exact within_grant_le w
    · rw [within_eq_zero fun t ht hin => hmet ⟨t, ht, hin.1⟩, Nat.zero_add]
      exact ih hws

end WindowRule
