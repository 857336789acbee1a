import Aetheris.Lib.Script
import Mathlib.Data.Option.Basic
import Mathlib.Logic.Function.Basic

/-!
# Limiters

A limiter keeps an entry for each key. A check decides by the entry of its key and the time, and
stores a new one; a sweep drops the entries that are stale. What the checks of one key are answered
depends on these checks and the sweeps only (`answers_key`), and not even on the sweeps as long as
they drop entries that the next check would have replaced anyway (`Harmless.answers`).
-/

/-- Nothing is earlier than `t` or than what comes before it. -/
def Ordered {α : Type} (now : α → Nat) : Nat → List α → Prop
  | _, [] => True
  | t, a :: as => t ≤ now a ∧ Ordered now (now a) as

instance decidableOrdered {α : Type} (now : α → Nat) :
    ∀ (t : Nat) (as : List α), Decidable (Ordered now t as)
  | _, [] => .isTrue trivial
  | _, a :: as =>
    have : Decidable (Ordered now (now a) as) := decidableOrdered now (now a) as
    inferInstanceAs (Decidable (_ ∧ _))

namespace Ordered

variable {α β : Type} {now : α → Nat} {t t' : Nat} {as : List α}

theorem mono (h : Ordered now t as) (ht : t' ≤ t) : Ordered now t' as := by
  cases as with
  | nil => trivial
  | cons a as => exact ⟨Nat.le_trans ht h.1, h.2⟩

theorem filterMap {f : α → Option β} {now' : β → Nat} (hf : ∀ a, ∀ b ∈ f a, now' b = now a)
    (h : Ordered now t as) : Ordered now' t (as.filterMap f) := by
  induction as generalizing t with
  | nil => trivial
  | cons a as ih =>
    rw [List.filterMap_cons]
    split
    · exact (ih h.2).mono h.1
    · next b hb =>
      have hnow := hf a b hb
      exact ⟨hnow ▸ h.1, hnow ▸ ih h.2⟩

end Ordered

/-- What a limiter does with one entry. -/
structure Keeper (E : Type) where
  check : Option E → Nat → E × Bool
  stale : E → Nat → Bool

namespace Keeper

/-- A call as one key sees it. -/
inductive Probe where
  | check (now : Nat)
  | sweep (now : Nat)

def Probe.now : Probe → Nat
  | .check now | .sweep now => now

def Probe.isCheck : Probe → Bool
  | .check _ => true
  | .sweep _ => false

/-- An answer, with the entry that is stored with it. -/
structure Answer (E : Type) where
  now : Nat
  granted : Bool
  entry : E

section Entry

variable {E E' : Type} (κ : Keeper E)

def sweep (o : Option E) (now : Nat) : Option E := o.filter fun e => !κ.stale e now

def answers : Option E → List Probe → List (Answer E)
  | _, [] => []
  | o, .check now :: ps =>
    ⟨now, (κ.check o now).2, (κ.check o now).1⟩ :: answers (some (κ.check o now).1) ps
  | o, .sweep now :: ps => answers (κ.sweep o now) ps

/-- From `t` on, a check treats the entry as if there were none. -/
def Spent (e : E) (t : Nat) : Prop := ∀ now, t ≤ now → κ.check (some e) now = κ.check none now

/-- Whatever is swept is spent. -/
def Harmless : Option E → List Probe → Prop
  | _, [] => True
  | o, .check now :: ps => Harmless (some (κ.check o now).1) ps
  | o, .sweep now :: ps => (∀ e ∈ o, κ.stale e now = true → κ.Spent e now) ∧
      Harmless (κ.sweep o now) ps

/-- An entry with sweeps and the one without: the same, or the second is spent. -/
def Stands (t : Nat) (o o' : Option E) : Prop :=
  o = o' ∨ o = none ∧ ∃ e, o' = some e ∧ κ.Spent e t

variable {κ} {o o' : Option E} {t now : Nat} {ps : List Probe}

theorem Stands.mono (h : κ.Stands t o o') (hle : t ≤ now) : κ.Stands now o o' :=
  h.imp_right fun ⟨ho, e, he, hspent⟩ =>
    ⟨ho, e, he, fun now' hnow' => hspent now' (Nat.le_trans hle hnow')⟩

theorem Stands.check (h : κ.Stands t o o') (hle : t ≤ now) :
    κ.check o now = κ.check o' now := by
  rcases h with rfl | ⟨rfl, e, rfl, hspent⟩
  · rfl
  · exact (hspent now hle).symm

theorem Stands.sweep (h : κ.Stands t o o') (hle : t ≤ now)
    (hspent : ∀ e ∈ o, κ.stale e now = true → κ.Spent e now) :
    κ.Stands now (κ.sweep o now) o' := by
  rcases h with rfl | ⟨rfl, e, rfl, he⟩
  · cases o with
    | none => exact Or.inl rfl
    | some e =>
      cases hstale : κ.stale e now with
      | true => exact Or.inr ⟨by simp [Keeper.sweep, hstale], e, rfl, hspent e rfl hstale⟩
      | false => exact Or.inl (by simp [Keeper.sweep, hstale])
  · exact Stands.mono (Or.inr ⟨rfl, e, rfl, he⟩) hle

theorem Harmless.answers_of_stands (h : κ.Harmless o ps) (hordered : Ordered Probe.now t ps)
    (hstands : κ.Stands t o o') : κ.answers o ps = κ.answers o' (ps.filter Probe.isCheck) := by
  induction ps generalizing t o o' with
  | nil => rfl
  | cons p ps ih =>
    cases p with
    | check now =>
      have hcheck : κ.check o now = κ.check o' now := hstands.check hordered.1
      rw [List.filter_cons_of_pos rfl, answers, answers, hcheck,
        ih (hcheck ▸ h) hordered.2 (Or.inl rfl)]
    | sweep now =>
      rw [List.filter_cons_of_neg (by simp [Probe.isCheck])]
      exact ih h.2 hordered.2 (hstands.sweep hordered.1 h.1)

/-- Harmless sweeps change no answer and no entry. -/
theorem Harmless.answers (h : κ.Harmless o ps) (hordered : Ordered Probe.now t ps) :
    κ.answers o ps = κ.answers o (ps.filter Probe.isCheck) :=
  h.answers_of_stands hordered (Or.inl rfl)

/-- A keeper that sees entries through `f` answers as the other does. -/
theorem answers_map {κ' : Keeper E'} (f : E → E')
    (hcheck : ∀ o now, κ'.check (o.map f) now = (f (κ.check o now).1, (κ.check o now).2))
    (hstale : ∀ e now, κ'.stale (f e) now = κ.stale e now) (ps : List Probe) (o : Option E) :
    κ'.answers (o.map f) ps = (κ.answers o ps).map fun a => ⟨a.now, a.granted, f a.entry⟩ := by
  induction ps generalizing o with
  | nil => rfl
  | cons p ps ih =>
    cases p with
    | check now =>
      rw [answers, hcheck, answers, List.map_cons, ← ih]
      rfl
    | sweep now =>
      have hsweep : κ'.sweep (o.map f) now = (κ.sweep o now).map f := by
        cases o with
        | none => rfl
        | some e =>
          cases hs : κ.stale e now <;> simp [Keeper.sweep, Option.filter, hstale, hs]
      rw [answers, answers, hsweep, ih]

end Entry

/-! ## Tables -/

inductive Call (K : Type) where
  | check (key : K) (now : Nat)
  | sweep (now : Nat)

namespace Call

variable {K : Type}

def now : Call K → Nat
  | .check _ now | .sweep now => now

def isCheck : Call K → Bool
  | .check _ _ => true
  | .sweep _ => false

def probe [DecidableEq K] (key : K) : Call K → Option Probe
  | .check key' now => if key' = key then some (.check now) else none
  | .sweep now => some (.sweep now)

end Call

section Table

variable {K E : Type} [DecidableEq K] (κ : K → Keeper E)

def fire (s : K → Option E) : Call K → (K → Option E) × List (K × Answer E)
  | .check key now =>
    let out := (κ key).check (s key) now
    (Function.update s key (some out.1), [(key, ⟨now, out.2, out.1⟩)])
  | .sweep now => (fun key => (κ key).sweep (s key) now, [])

def ofKey (key : K) (a : K × Answer E) : Option (Answer E) :=
  if a.1 = key then some a.2 else none

/-- The checks of other keys do not matter. -/
theorem answers_key (key : K) (calls : List (Call K)) (s : K → Option E) :
    (fires (fire κ) s calls).2.filterMap (ofKey key) =
      (κ key).answers (s key) (calls.filterMap (Call.probe key)) := by
  induction calls generalizing s with
  | nil => rfl
  | cons call calls ih =>
    cases call with
    | check key' now =>
      by_cases hkey : key' = key
      · subst hkey
        simp [fires, fire, ofKey, Call.probe, answers, ih]
      · simp [fires, fire, ofKey, Call.probe, hkey, ih, Function.update_of_ne (Ne.symm hkey)]
    | sweep now => simp [fires, fire, Call.probe, answers, ih]

theorem ordered_probes {t : Nat} {calls : List (Call K)} (h : Ordered Call.now t calls) (key : K) :
    Ordered Probe.now t (calls.filterMap (Call.probe key)) := by
  refine h.filterMap fun call p hp => ?_
  cases call with
  | check key' now =>
    obtain ⟨-, rfl⟩ : key' = key ∧ Probe.check now = p := by simpa [Call.probe] using hp
    rfl
  | sweep now => exact Option.some.inj hp ▸ rfl

theorem probes_filter (key : K) (calls : List (Call K)) :
    (calls.filter Call.isCheck).filterMap (Call.probe key) =
      (calls.filterMap (Call.probe key)).filter Probe.isCheck := by
  induction calls with
  | nil => rfl
  | cons call calls ih =>
    cases call with
    | check key' now =>
      rw [List.filter_cons_of_pos rfl]
      by_cases hkey : key' = key
      · simp [Call.probe, hkey, List.filter_cons, Probe.isCheck, ih]
      · simp [Call.probe, hkey, ih]
    | sweep now => simp [Call.isCheck, Call.probe, Probe.isCheck, ih]

variable {κ}

/-- What every check stores and every sweep leaves holds of the whole table. -/
theorem fires_entries {I : K → E → Prop}
    (hcheck : ∀ key o now, (∀ e ∈ o, I key e) → I key ((κ key).check o now).1)
    (calls : List (Call K)) (s : K → Option E) (hs : ∀ key, ∀ e ∈ s key, I key e) :
    ∀ key, ∀ e ∈ (fires (fire κ) s calls).1 key, I key e := by
  induction calls generalizing s with
  | nil => exact hs
  | cons call calls ih =>
    refine ih _ fun key e he => ?_
    cases call with
    | check key' now =>
      have hstored : Function.update s key' (some ((κ key').check (s key') now).1) key = some e := he
      by_cases hkey : key = key'
      · subst hkey
        rw [Function.update_self] at hstored
        exact Option.some.inj hstored ▸ hcheck key _ now (hs key)
      · rw [Function.update_of_ne hkey] at hstored
        exact hs key e hstored
    | sweep now => exact hs key e (Option.mem_filter_iff.mp he).1

/-- Sweeps that come upon no entry too early are harmless for each key. -/
theorem harmless_of_allows (key : K) {calls : List (Call K)} {s : K → Option E}
    (h : Allows (fun s call => ∀ now, call = .sweep now → ∀ e ∈ s key,
      (κ key).stale e now = true → (κ key).Spent e now) (fire κ) (fun _ _ => True) s calls) :
    (κ key).Harmless (s key) (calls.filterMap (Call.probe key)) := by
  induction calls generalizing s with
  | nil => trivial
  | cons call calls ih =>
    have hrest := ih h.2.2
    cases call with
    | check key' now =>
      by_cases hkey : key' = key
      · subst hkey
        simpa [Call.probe, Harmless, fire] using hrest
      · simpa [Call.probe, hkey, fire, Function.update_of_ne (Ne.symm hkey)] using hrest
    | sweep now => exact ⟨h.1 now rfl, hrest⟩

end Table

end Keeper
