import Aetheris.Lib.Lookup
import Mathlib.Data.Finset.Basic
import Mathlib.Logic.Relation

/-!
# Directories

Residents live in places, and some residents act for a client. A directory keeps next to these facts
an index of them that is maintained by hand: the members of each place and the home of each client,
the place where the client's agent lives. Places have names of their own, and the resident who bears
the name of a place is the place itself.

`Step` lists what can happen, each time with the upkeep of the index that goes with it. A resident
who founds a place lives in it but is not entered among its members (`Step.found`), so the index is
right about everybody except founders (`Agrees`).
-/

open Function Relation
open Function (ne_of_update_none of_update_none of_update_some)

/-- Residents `E`, places `W`, clients `C`. -/
@[ext]
structure Directory (E W C : Type) where
  place : E → Option W
  name : E → Option W
  agent : E → Option C
  members : W → Finset E
  homes : C → Option W

namespace Directory

variable {E W C : Type}

/-- The index of homes when `e` has gone. -/
def homesWithout [DecidableEq C] (d : Directory E W C) (e : E) : C → Option W :=
  match d.agent e with
  | some c => Function.update d.homes c none
  | none => d.homes

/-- Only the client of an agent that goes loses its home. -/
theorem homesWithout_eq_some [DecidableEq C] {d : Directory E W C} {e : E} {c : C} {w : W} :
    d.homesWithout e c = some w ↔ d.agent e ≠ some c ∧ d.homes c = some w := by
  unfold homesWithout
  cases hagent : d.agent e with
  | none => simp
  | some c' =>
    by_cases hc : c = c'
    · subst hc
      simp
    · simp [update_of_ne hc, Ne.symm hc]

section Steps

variable [DecidableEq E]

/-- `e` gets a name. -/
def call (d : Directory E W C) (e : E) (n : W) : Directory E W C :=
  { d with name := Function.update d.name e (some n) }

/-- `e` becomes the place `n` and lives there. -/
def found (d : Directory E W C) (e : E) (n : W) : Directory E W C :=
  { d with place := Function.update d.place e (some n) }

/-- `e` gets a name and a place, and is entered among the members of the place. -/
def settle [DecidableEq W] (d : Directory E W C) (e : E) (n w : W) : Directory E W C :=
  { d with
    place := Function.update d.place e (some w)
    name := Function.update d.name e (some n)
    members := Function.update d.members w (insert e (d.members w)) }

/-- `e` goes and is taken out of the index. -/
def leave [DecidableEq C] (d : Directory E W C) (e : E) : Directory E W C where
  place := Function.update d.place e none
  name := Function.update d.name e none
  agent := Function.update d.agent e none
  members w := (d.members w).erase e
  homes := d.homesWithout e

/-- Those in `gone` go; the index is left alone. -/
def vanish (d : Directory E W C) (gone : E → Bool) : Directory E W C :=
  { d with
    place := fun e => if gone e then none else d.place e
    agent := fun e => if gone e then none else d.agent e }

/-- `e`, who lives in `w`, begins to act for `c`. -/
def appoint [DecidableEq C] (d : Directory E W C) (e : E) (c : C) (w : W) :
    Directory E W C :=
  { d with
    agent := Function.update d.agent e (some c)
    homes := Function.update d.homes c (some w) }

/-- The index is emptied. -/
def clear (d : Directory E W C) : Directory E W C :=
  { d with members := fun _ => ∅, homes := fun _ => none }

variable [DecidableEq W] [DecidableEq C]

inductive Step (d : Directory E W C) : Directory E W C → Prop where
  | call (e : E) (n : W) (hplace : d.place e = none) : Step d (d.call e n)
  | found (e : E) (n : W) (hplace : d.place e = none) (hname : d.name e = some n) :
      Step d (d.found e n)
  | settle (e : E) (n w : W) (hplace : d.place e = none) (hne : n ≠ w) :
      Step d (d.settle e n w)
  | leave (e : E) : Step d (d.leave e)
  | vanish (gone : E → Bool) (hname : ∀ e, gone e = true → d.name e = none) :
      Step d (d.vanish gone)
  | appoint (e : E) (c : C) (w : W) (hplace : d.place e = some w) (hagent : d.agent e = none)
      (hfree : ∀ e', d.agent e' ≠ some c) : Step d (d.appoint e c w)
  | clear (hname : ∀ e, d.name e = none) : Step d d.clear

abbrev Steps : Directory E W C → Directory E W C → Prop := ReflTransGen Step

end Steps

/-- The index tells who lives where, founders apart, and where the agent of each client lives. -/
structure Agrees (d : Directory E W C) : Prop where
  members : ∀ w e, e ∈ d.members w ↔ d.place e = some w ∧ d.name e ≠ some w
  homes : ∀ c w, d.homes c = some w ↔ ∃ e, d.agent e = some c ∧ d.place e = some w
  unnamed : ∀ e, d.name e = none → d.place e = none
  unplaced : ∀ e, d.place e = none → d.agent e = none
  single : ∀ e e' c, d.agent e = some c → d.agent e' = some c → e = e'

namespace Agrees

variable {d d' : Directory E W C}

theorem not_member (h : Agrees d) {e : E} (hplace : d.place e = none) (w : W) :
    e ∉ d.members w := by
  intro hmem
  have hplaced := ((h.members w e).mp hmem).1
  rw [hplace] at hplaced
  cases hplaced

theorem ne_of_agent (h : Agrees d) {e e' : E} {c : C} (hplace : d.place e = none)
    (hagent : d.agent e' = some c) : e' ≠ e := by
  rintro rfl
  rw [h.unplaced e' hplace] at hagent
  cases hagent

/-- An agent lives where the index says its client is at home. -/
theorem home_of_agent (h : Agrees d) {e : E} {c : C} (hagent : d.agent e = some c) :
    d.homes c = d.place e := by
  cases hplace : d.place e with
  | none => exact absurd rfl (h.ne_of_agent hplace hagent)
  | some w => exact (h.homes c w).mpr ⟨e, hagent, hplace⟩

theorem isSome_homes (h : Agrees d) (c : C) :
    (d.homes c).isSome = true ↔ ∃ e, d.agent e = some c := by
  constructor
  · intro hsome
    obtain ⟨w, hw⟩ := Option.isSome_iff_exists.mp hsome
    obtain ⟨e, hagent, -⟩ := (h.homes c w).mp hw
    exact ⟨e, hagent⟩
  · rintro ⟨e, hagent⟩
    rw [h.home_of_agent hagent]
    cases hplace : d.place e with
    | none => exact absurd rfl (h.ne_of_agent hplace hagent)
    | some w => rfl

end Agrees

/-! ## What the steps keep -/

section Steps

variable [DecidableEq E] {d d' : Directory E W C}

namespace Agrees

theorem call (h : Agrees d) {e : E} (n : W) (hplace : d.place e = none) : Agrees (d.call e n) where
  members w e' := by
    show e' ∈ d.members w ↔ d.place e' = some w ∧ update d.name e (some n) e' ≠ some w
    rw [h.members w e']
    by_cases he : e' = e
    · subst he
      simp [hplace]
    · rw [update_of_ne he]
  homes := h.homes
  unnamed e' hname := by
    by_cases he : e' = e
    · rw [he]
      exact hplace
    · exact h.unnamed e' ((update_of_ne he _ _).symm.trans hname)
  unplaced := h.unplaced
  single := h.single

theorem found (h : Agrees d) {e : E} {n : W} (hplace : d.place e = none)
    (hname : d.name e = some n) : Agrees (d.found e n) where
  members w e' := by
    show e' ∈ d.members w ↔ update d.place e (some n) e' = some w ∧ d.name e' ≠ some w
    by_cases he : e' = e
    · -- the founder bears the name of the only place it could be a member of
      subst he
      simp [h.not_member hplace w, hname]
    · rw [update_of_ne he, h.members w e']
  homes c w := by
    rw [show (d.found e n).homes c = d.homes c from rfl, h.homes c w]
    refine exists_congr fun e' => and_congr_right fun hagent => ?_
    show d.place e' = some w ↔ update d.place e (some n) e' = some w
    rw [update_of_ne (h.ne_of_agent hplace hagent)]
  unnamed e' hnone := by
    have hne : e' ≠ e := by
      rintro rfl
      rw [show d.name e' = none from hnone] at hname
      cases hname
    exact (update_of_ne hne _ _).trans (h.unnamed e' hnone)
  unplaced e' hnone := by
    by_cases he : e' = e
    · rw [he]
      exact h.unplaced e hplace
    · exact h.unplaced e' ((update_of_ne he _ _).symm.trans hnone)
  single := h.single

theorem settle [DecidableEq W] (h : Agrees d) {e : E} {n w : W} (hplace : d.place e = none)
    (hne : n ≠ w) : Agrees (d.settle e n w) where
  members w' e' := by
    show e' ∈ update d.members w (insert e (d.members w)) w' ↔
      update d.place e (some w) e' = some w' ∧
        update d.name e (some n) e' ≠ some w'
    by_cases he : e' = e
    · subst he
      rw [update_self, update_self]
      by_cases hw : w' = w
      · subst hw
        simp [hne]
      · rw [update_of_ne hw]
        simp [h.not_member hplace w', Ne.symm hw]
    · rw [update_of_ne he, update_of_ne he, ← h.members w' e']
      by_cases hw : w' = w
      · subst hw
        simp [he]
      · rw [update_of_ne hw]
  homes c w' := by
    rw [show (d.settle e n w).homes c = d.homes c from rfl, h.homes c w']
    refine exists_congr fun e' => and_congr_right fun hagent => ?_
    show d.place e' = some w' ↔ update d.place e (some w) e' = some w'
    rw [update_of_ne (h.ne_of_agent hplace hagent)]
  unnamed e' hnone := by
    by_cases he : e' = e
    · subst he
      rw [show (d.settle e' n w).name e' = some n from update_self ..] at hnone
      cases hnone
    · have hnone' : d.name e' = none := (update_of_ne he _ _).symm.trans hnone
      exact (update_of_ne he _ _).trans (h.unnamed e' hnone')
  unplaced e' hnone := by
    by_cases he : e' = e
    · rw [he]
      exact h.unplaced e hplace
    · exact h.unplaced e' ((update_of_ne he _ _).symm.trans hnone)
  single := h.single

theorem leave [DecidableEq C] (h : Agrees d) (e : E) : Agrees (d.leave e) where
  members w e' := by
    show e' ∈ (d.members w).erase e ↔ update d.place e none e' = some w ∧
      update d.name e none e' ≠ some w
    by_cases he : e' = e
    · subst he
      simp
    · rw [update_of_ne he, update_of_ne he, ← h.members w e']
      simp [he]
  homes c w := by
    rw [show (d.leave e).homes c = d.homesWithout e c from rfl, homesWithout_eq_some, h.homes c w]
    constructor
    · rintro ⟨hother, e', hagent, hplace⟩
      have hne : e' ≠ e := by
        rintro rfl
        exact hother hagent
      exact ⟨e', (update_of_ne hne _ _).trans hagent,
        (update_of_ne hne _ _).trans hplace⟩
    · rintro ⟨e', hagent, hplace⟩
      have hne : e' ≠ e := ne_of_update_none hagent
      have hagent' : d.agent e' = some c := of_update_none hagent
      -- the agent that is left is the only one, so the one that goes was not the client's
      refine ⟨fun hgone => hne (h.single e' e c hagent' hgone), e', hagent', ?_⟩
      exact of_update_none hplace
  unnamed e' hnone := by
    by_cases he : e' = e
    · rw [he]
      exact update_self ..
    · have hnone' : d.name e' = none := (update_of_ne he _ _).symm.trans hnone
      exact (update_of_ne he _ _).trans (h.unnamed e' hnone')
  unplaced e' hnone := by
    by_cases he : e' = e
    · rw [he]
      exact update_self ..
    · have hnone' : d.place e' = none := (update_of_ne he _ _).symm.trans hnone
      exact (update_of_ne he _ _).trans (h.unplaced e' hnone')
  single e₁ e₂ c h₁ h₂ := h.single e₁ e₂ c (of_update_none h₁) (of_update_none h₂)

omit [DecidableEq E] in
/-- Nobody without a name is in the index. -/
theorem vanish_eq (h : Agrees d) {gone : E → Bool}
    (hname : ∀ e, gone e = true → d.name e = none) : d.vanish gone = d := by
  have hplace : (fun e => if gone e then none else d.place e) = d.place := by
    funext e
    split
    · next hgone => exact (h.unnamed e (hname e hgone)).symm
    · rfl
  have hagent : (fun e => if gone e then none else d.agent e) = d.agent := by
    funext e
    split
    · next hgone => exact (h.unplaced e (h.unnamed e (hname e hgone))).symm
    · rfl
  unfold Directory.vanish
  rw [hplace, hagent]

theorem appoint [DecidableEq C] (h : Agrees d) {e : E} {c : C} {w : W}
    (hplace : d.place e = some w) (hagent : d.agent e = none)
    (hfree : ∀ e', d.agent e' ≠ some c) : Agrees (d.appoint e c w) where
  members := h.members
  homes c' w' := by
    show update d.homes c (some w) c' = some w' ↔
      ∃ e', update d.agent e (some c) e' = some c' ∧ d.place e' = some w'
    by_cases hc : c' = c
    · subst hc
      rw [update_self]
      constructor
      · intro hw
        exact ⟨e, update_self .., hplace.trans hw⟩
      · rintro ⟨e', hagent', hplace'⟩
        rcases of_update_some hagent' with ⟨rfl, -⟩ | ⟨-, hold⟩
        · exact hplace.symm.trans hplace'
        · exact absurd hold (hfree e')
    · rw [update_of_ne hc, h.homes c' w']
      refine exists_congr fun e' => and_congr_left fun _ => ?_
      by_cases he : e' = e
      · subst he
        simp [hagent, Ne.symm hc]
      · rw [update_of_ne he]
  unnamed := h.unnamed
  unplaced e' hnone := by
    have hne : e' ≠ e := by
      rintro rfl
      rw [show d.place e' = none from hnone] at hplace
      cases hplace
    exact (update_of_ne hne _ _).trans (h.unplaced e' hnone)
  single e₁ e₂ c' h₁ h₂ := by
    rcases of_update_some h₁ with ⟨rfl, rfl⟩ | ⟨-, hold₁⟩ <;>
      rcases of_update_some h₂ with ⟨rfl, hc⟩ | ⟨-, hold₂⟩
    · rfl
    · exact absurd hold₂ (hfree e₂)
    · exact absurd (hc ▸ hold₁) (hfree e₁)
    · exact h.single e₁ e₂ c' hold₁ hold₂

omit [DecidableEq E] in
theorem clear (h : Agrees d) (hname : ∀ e, d.name e = none) : Agrees d.clear where
  members w e := by
    show e ∈ (∅ : Finset E) ↔ d.place e = some w ∧ d.name e ≠ some w
    simp [h.unnamed e (hname e)]
  homes c w := by
    show (none : Option W) = some w ↔ ∃ e, d.agent e = some c ∧ d.place e = some w
    simp [fun e => h.unnamed e (hname e)]
  unnamed := h.unnamed
  unplaced := h.unplaced
  single := h.single

variable [DecidableEq W] [DecidableEq C]

theorem step (h : Agrees d) (hstep : Step d d') : Agrees d' := by
  cases hstep with
  | call e n hplace => exact h.call n hplace
  | found e n hplace hname => exact h.found hplace hname
  | settle e n w hplace hne => exact h.settle hplace hne
  | leave e => exact h.leave e
  | vanish gone hname =>
    rw [h.vanish_eq hname]
    exact h
  | appoint e c w hplace hagent hfree => exact h.appoint hplace hagent hfree
  | clear hname => exact h.clear hname

theorem steps (h : Agrees d) (hsteps : Steps d d') : Agrees d' := by
  induction hsteps with
  | refl => exact h
  | tail _ hstep ih => exact ih.step hstep

end Agrees

end Steps

end Directory
