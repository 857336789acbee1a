import Aetheris.Lib.Window
import Aetheris.Server.Auth.RateLimit

/-!
# Windows of the auth rate limiter

Any sequence of checks and cleanups, one after another. The entry of a key is a window of an hour
that grants as many checks as the limit of its kind allows. A check replaces it once `reset_at` has
passed, a cleanup drops it at `reset_at` already: an instant at which the two disagree.
-/

namespace Aetheris.Auth.InMemoryRateLimiter

open Keeper

abbrev Key := RateLimitType × String

/-- What a check returns. -/
structure Verdict where
  key : Key
  now : Instant
  result : Except Status Unit

/-- One call of `check_limit` or `cleanup`. -/
def step (limiter : InMemoryRateLimiter) : Call Key → InMemoryRateLimiter × List Verdict
  | .check key now =>
    let (limiter, result) := limiter.checkLimit key.1 key.2 now
    (limiter, [⟨key, now, result⟩])
  | .sweep now => (limiter.cleanup now, [])

/-- What the checks of `key` return, with the times they are made at. -/
def results (calls : List (Call Key)) (key : Key) : List (Instant × Except Status Unit) :=
  (fires step new calls).2.filterMap fun v => if v.key = key then some (v.now, v.result) else none

/-! ## One entry -/

def keeper (type : RateLimitType) : Keeper RateLimitEntry where
  check o now :=
    let entry := o.getD ⟨0, now + window⟩
    let entry := if now > entry.resetAt then ⟨0, now + window⟩ else entry
    if entry.count ≥ type.limit then (entry, false)
    else ({ entry with count := entry.count + 1 }, true)
  stale entry now := !decide (entry.resetAt > now)

def answer (key : Key) (granted : Bool) : Except Status Unit :=
  if granted then .ok () else .error (.resourceExhausted
    s!"Rate limit exceeded for {key.1.name}: {key.2}. Try again later.")

theorem isOk_answer (key : Key) (granted : Bool) : (answer key granted).isOk = granted := by
  cases granted <;> rfl

theorem step_eq (limiter : InMemoryRateLimiter) (call : Call Key) :
    step limiter call = ((fire (fun key => keeper key.1) limiter call).1,
      (fire (fun key => keeper key.1) limiter call).2.map
        fun a => ⟨a.1, a.2.now, answer a.1 a.2.granted⟩) := by
  cases call with
  | check key now =>
    simp only [step, checkLimit, fire, keeper, List.map_cons, List.map_nil]
    split
    all_goals
      split
      all_goals rfl
  | sweep now =>
    have hsweep : limiter.cleanup now = fun key => (keeper key.1).sweep (limiter key) now := by
      funext key
      simp [cleanup, Keeper.sweep, keeper]
    simp [step, fire, hsweep]

theorem results_eq (calls : List (Call Key)) (key : Key) :
    results calls key = ((keeper key.1).answers none (calls.filterMap (Call.probe key))).map
      fun a => (a.now, answer key a.granted) := by
  rw [← answers_key (fun key => keeper key.1) key calls (fun _ => none), results,
    fires_map _ step_eq, List.filterMap_map, List.map_filterMap]
  refine List.filterMap_congr fun a _ => ?_
  by_cases hkey : a.1 = key
  · simp [ofKey, hkey]
  · simp [ofKey, hkey]

/-- From the moment `reset_at` has passed. -/
theorem spent_of_lt {type : RateLimitType} {entry : RateLimitEntry} {t : Instant}
    (h : entry.resetAt < t) : (keeper type).Spent entry t := by
  intro now hnow
  have hover : now > entry.resetAt := Nat.lt_of_lt_of_le h hnow
  have hfresh : ¬ now > now + window := Nat.not_lt.mpr (Nat.le_add_right ..)
  simp only [keeper, Option.getD_some, Option.getD_none, if_pos hover, if_neg hfresh]

/-! ## Windows -/

def rule (type : RateLimitType) : WindowRule where
  limit := type.limit.toNat
  span := window
  past reset now := decide (now > reset)
  stale reset now := !decide (reset > now)
  limit_pos := by cases type <;> decide
  past_le reset now h := Nat.le_of_lt (of_decide_eq_true h)
  stale_le reset now h := by simpa using h

def view (entry : RateLimitEntry) : Window := ⟨entry.count.toNat, entry.resetAt⟩

/-- The counter does not wrap: the limits are small. -/
theorem toNat_succ {type : RateLimitType} {count : UInt32} (h : count < type.limit) :
    (count + 1).toNat = count.toNat + 1 := by
  have hlimit : type.limit.toNat ≤ 30 := by cases type <;> decide
  have hcount : count.toNat < type.limit.toNat := h
  rw [UInt32.toNat_add]
  exact Nat.mod_eq_of_lt (by simp; omega)

theorem check_view (type : RateLimitType) (o : Option RateLimitEntry) (now : Instant) :
    (rule type).keeper.check (o.map view) now =
      (view ((keeper type).check o now).1, ((keeper type).check o now).2) := by
  have hpos : ¬ (0 : UInt32) ≥ type.limit := by cases type <;> decide
  by_cases hover : ∀ entry ∈ o, now > entry.resetAt
  · have hfresh : (keeper type).check o now = (⟨1, now + window⟩, true) := by
      cases o with
      | none => simp [keeper, hpos]
      | some entry => simp [keeper, hover entry rfl, hpos]
    rw [WindowRule.check_over (by simpa [rule, view] using hover), hfresh]
    rfl
  · obtain ⟨entry, rfl, hlive⟩ : ∃ entry, o = some entry ∧ ¬ now > entry.resetAt := by
      simpa using hover
    rw [Option.map_some, WindowRule.check_live (by simpa [rule, view] using hlive)]
    by_cases hcount : entry.count < type.limit
    · have hcount' : (view entry).count < (rule type).limit := hcount
      rw [if_pos hcount']
      simp [keeper, hlive, UInt32.not_le.mpr hcount, view, toNat_succ hcount]
    · have hcount' : ¬ (view entry).count < (rule type).limit := hcount
      rw [if_neg hcount']
      simp [keeper, hlive, UInt32.not_lt.mp hcount]

/-- A check counts up to the limit and no further. -/
theorem check_count_le {type : RateLimitType} {o : Option RateLimitEntry}
    (ho : ∀ entry ∈ o, entry.count ≤ type.limit) (now : Instant) :
    ((keeper type).check o now).1.count ≤ type.limit := by
  have hviews : ∀ w ∈ o.map view, w.count ≤ (rule type).limit := fun w hw => by
    obtain ⟨entry, hentry, rfl⟩ := Option.mem_map.mp hw
    exact ho entry hentry
  have hcount : ((rule type).keeper.check (o.map view) now).1.count ≤ (rule type).limit :=
    WindowRule.check_count_le hviews
  rw [check_view] at hcount
  exact hcount

/-- Every window of a key grants its first checks and no others, so that two windows bound what is
granted in any hour. The checks of other keys play no part. -/
theorem limit_bounds (calls : List (Call Key)) (hordered : Ordered Call.now 0 calls)
    (type : RateLimitType) (identity : String) :
    let key := (type, identity)
    let answers := (results calls key).map fun r => (r.1, r.2.isOk)
    let windows := ((rule type).cut none (calls.filterMap (Call.probe key))).2
    answers = (windows.flatMap fun w =>
        (w.take type.limit.toNat).map (·, true) ++ (w.drop type.limit.toNat).map (·, false)) ∧
      (∀ x, answers.countP (fun a => a.2 && decide (x ≤ a.1 ∧ a.1 < x + window)) ≤
        2 * type.limit.toNat) ∧
      (∀ entry, (fires step new calls).1 key = some entry → entry.count ≤ type.limit) ∧
      ∀ calls', calls'.filterMap (Call.probe key) = calls.filterMap (Call.probe key) →
        results calls' key = results calls key := by
  intro key answers windows
  have hanswers : answers = windows.flatMap ((rule type).grant 0) := by
    have hview := WindowRule.answers_of_view (check_view type) (fun _ _ => rfl)
      (calls.filterMap (Call.probe key))
    simp only [answers, results_eq, List.map_map, ← hview, windows, key]
    simp [Function.comp_def, isOk_answer]
  refine ⟨hanswers, fun x => ?_, ?_, fun calls' hcalls' => ?_⟩
  · rw [hanswers]
    have hspaced := (WindowRule.cut_spaced (ρ := rule type) (o := none) _
      (ordered_probes hordered key)).2
    exact hspaced.within_le_two (x := x)
  · have hstored := fires_entries (κ := fun key : Key => keeper key.1)
      (I := fun key entry => entry.count ≤ key.1.limit)
      (fun key o now ho => check_count_le ho now) calls new
      fun _ _ h => absurd h.symm (Option.some_ne_none _)
    rw [fires_map _ step_eq]
    exact hstored key
  · rw [results_eq, results_eq, hcalls']

/-- Five attempts at once, and one an hour later, together with a cleanup. -/
def hourly : List (Call Key) :=
  List.replicate 5 (.check (.email, "alice") 0) ++ [.sweep window, .check (.email, "alice") window]

theorem limit_bounds_hourly : Ordered Call.now 0 hourly ∧
    ∀ x, ((results hourly (.email, "alice")).map fun r => (r.1, r.2.isOk)).countP
      (fun a => a.2 && decide (x ≤ a.1 ∧ a.1 < x + window)) ≤ 2 * 5 :=
  ⟨by decide, (limit_bounds hourly (by decide) .email "alice").2.1⟩

/-! ## Cleanups -/

/-- No cleanup comes at the very instant at which an entry ends. -/
def OffTheHour (limiter : InMemoryRateLimiter) (call : Call Key) : Prop :=
  ∀ now, call = .sweep now → ∀ key entry, limiter key = some entry → entry.resetAt ≠ now

theorem cleanup_unobservable (calls : List (Call Key)) (hordered : Ordered Call.now 0 calls)
    (hclear : Allows OffTheHour step (fun _ _ => True) new calls) (key : Key) :
    results calls key = results (calls.filter Call.isCheck) key := by
  have hfire : ∀ limiter call, (fire (fun key : Key => keeper key.1) limiter call).1 =
      (step limiter call).1 := fun limiter call => by rw [step_eq]
  have hspent : Allows (fun limiter call => ∀ now, call = .sweep now → ∀ entry ∈ limiter key,
      (keeper key.1).stale entry now = true → (keeper key.1).Spent entry now)
      (fire fun key : Key => keeper key.1) (fun _ _ => True) new calls := by
    refine allows_map hfire (fun limiter call hoff now hcall entry hentry hstale => ?_) hclear
    have hle : entry.resetAt ≤ now := by simpa [keeper] using hstale
    exact spent_of_lt (Nat.lt_of_le_of_ne hle (hoff now hcall key entry hentry))
  have hharmless : (keeper key.1).Harmless none (calls.filterMap (Call.probe key)) :=
    harmless_of_allows (κ := fun key : Key => keeper key.1) (s := new) key hspent
  rw [results_eq, results_eq, probes_filter, hharmless.answers (ordered_probes hordered key)]

/-- A cleanup a second after the entry has ended. -/
def late : List (Call Key) :=
  [.check (.ip, "10.0.0.1") 0, .sweep (window + 1000000000),
    .check (.ip, "10.0.0.1") (window + 1000000000)]

theorem cleanup_unobservable_late : Ordered Call.now 0 late ∧
    results late (.ip, "10.0.0.1") = results (late.filter Call.isCheck) (.ip, "10.0.0.1") := by
  have hclear : Allows OffTheHour step (fun _ _ => True) new late := by
    refine ⟨nofun, trivial, fun now hnow key entry hentry => ?_, trivial, nofun, trivial, trivial⟩
    obtain rfl : window + 1000000000 = now := Call.sweep.inj hnow
    by_cases hkey : key = (.ip, "10.0.0.1")
    · have hentry : some (⟨1, window⟩ : RateLimitEntry) = some entry := by
        rw [← hentry, hkey]
        rfl
      rw [← Option.some.inj hentry]
      decide
    · exact nomatch (Function.update_of_ne hkey _ new).symm.trans hentry
  exact ⟨by decide, cleanup_unobservable late (by decide) hclear _⟩

/-- At the instant of `reset_at` the sixth attempt is refused, unless a cleanup comes first. -/
theorem cleanup_at_reset : Ordered Call.now 0 hourly ∧
    ((results hourly (.email, "alice")).map fun r => r.2.isOk) =
      [true, true, true, true, true, true] ∧
    ((results (hourly.filter Call.isCheck) (.email, "alice")).map fun r => r.2.isOk) =
      [true, true, true, true, true, false] := by
  decide +kernel

end Aetheris.Auth.InMemoryRateLimiter
