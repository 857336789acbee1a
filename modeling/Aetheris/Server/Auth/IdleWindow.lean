import Aetheris.Server.Auth.Activity

/-!
# The idle window of a session in use

A check that passes is meant to slide the idle window of its session. With a tick it does so only
when the tick and the byte sum of the identifier add up to a multiple of sixty. A session whose
checks all miss those ticks runs out an hour after it was minted, however often it is used; one whose
refreshing checks are never more than an hour behind passes every check.
-/

namespace Aetheris.Auth

/-- One check of a session by the tick loop, with its answer. -/
structure Check where
  tick : UInt64
  now : DateTime
  ok : Bool
deriving DecidableEq

/-- The checks of a session in sequence. Between two of them the service does other work, which
neither refreshes nor revokes the session. -/
inductive Checks (jti : String) : AuthServiceImpl → List Check → Prop where
  | nil (svc : AuthServiceImpl) : Checks jti svc []
  | check (svc : AuthServiceImpl) (tick : UInt64) (now : DateTime) {checks : List Check}
      (h : Checks jti (svc.isSessionAuthorizedWithTick jti (some tick) now).1 checks) :
      Checks jti svc
        (⟨tick, now, (svc.isSessionAuthorizedWithTick jti (some tick) now).2⟩ :: checks)
  | other {svc svc' : AuthServiceImpl} {checks : List Check}
      (hactivity : svc'.sessionActivity jti = svc.sessionActivity jti)
      (h : Checks jti svc' checks) : Checks jti svc checks

def checkEach (jti : String) : AuthServiceImpl → List (UInt64 × DateTime) → List Check
  | _, [] => []
  | svc, (tick, now) :: calls =>
    let (svc, ok) := svc.isSessionAuthorizedWithTick jti (some tick) now
    ⟨tick, now, ok⟩ :: checkEach jti svc calls

theorem checks_checkEach (jti : String) (calls : List (UInt64 × DateTime))
    (svc : AuthServiceImpl) : Checks jti svc (checkEach jti svc calls) := by
  induction calls generalizing svc with
  | nil => exact .nil svc
  | cons call calls ih => exact .check svc call.1 call.2 (ih _)

/-- A check on one of these ticks updates the activity of its session. -/
def refreshes (jti : String) (tick : UInt64) : Bool :=
  (tick + AuthServiceImpl.jitter jti) % 60 = 0

theorem seconds_within {a b : Int} (h : a ≤ b + 3600000000000) :
    a / 1000000000 - b / 1000000000 ≤ 3600 := by omega

theorem DateTime.timestamp_within {now t : DateTime} (h : now ≤ t + hours 1) :
    now.timestamp - t.timestamp ≤ 3600 := seconds_within h

namespace AuthServiceImpl

variable {svc : AuthServiceImpl} {jti : String} {tick : UInt64} {now : DateTime} {activity : Int}

theorem readActivity_needsUpdate {needsUpdate : Bool} {nowTs : Int}
    (h : svc.readActivity jti (some tick) now = .live needsUpdate nowTs) :
    needsUpdate = refreshes jti tick := by
  unfold readActivity at h
  split at h
  · split at h
    · cases h
    · exact (SessionCheck.live.inj h).1.symm
  · cases h

/-- A check within the window passes, and slides the window on a refreshing tick. -/
theorem isSessionAuthorizedWithTick_live (hactivity : svc.sessionActivity jti = some activity)
    (hnow : now.timestamp - activity ≤ 3600) :
    (svc.isSessionAuthorizedWithTick jti (some tick) now).2 = true ∧
      (svc.isSessionAuthorizedWithTick jti (some tick) now).1.sessionActivity jti =
        some (if refreshes jti tick then now.timestamp else activity) := by
  have hread : svc.readActivity jti (some tick) now =
      .live (refreshes jti tick) now.timestamp := by
    unfold readActivity refreshes
    rw [hactivity]
    exact if_neg (Int.not_lt.mpr hnow)
  unfold isSessionAuthorizedWithTick
  rw [hread]
  cases refreshes jti tick with
  | true =>
    refine ⟨rfl, ?_⟩
    unfold touch
    rw [hactivity]
    exact Function.update_self ..
  | false => exact ⟨rfl, hactivity⟩

theorem mintSessionToken_ok {env : AuthEnv} {r : Reading} {playerId : String}
    {new : Option String} {svc' : AuthServiceImpl} {token : String × UInt64}
    (h : svc.mintSessionToken env r playerId new = (svc', .ok token)) :
    svc'.sessionActivity (new.getD r.ulid) = some r.now.timestamp := by
  unfold mintSessionToken at h
  dsimp only at h
  split at h
  · rw [← (Prod.mk.inj h).1]
    exact Function.update_self ..
  · cases (Prod.mk.inj h).2

end AuthServiceImpl

/-- Every check is at most an hour after one of the given times or after an earlier check that
refreshed the session. -/
def Refreshed (jti : String) (times : List DateTime) (checks : List Check) : Prop :=
  ∀ before check after, checks = before ++ check :: after →
    ∃ t ∈ times ++ (before.filter fun b => refreshes jti b.tick).map (·.now),
      check.now ≤ t + .hours 1

variable {checks : List Check} {jti : String}

theorem Refreshed.tail {times : List DateTime} {check : Check}
    (h : Refreshed jti times (check :: checks)) :
    Refreshed jti (if refreshes jti check.tick then check.now :: times else times) checks := by
  intro before check' after heq
  obtain ⟨t, ht, hle⟩ := h (check :: before) check' after (by rw [heq]; rfl)
  refine ⟨t, ?_, hle⟩
  cases hrefreshes : refreshes jti check.tick with
  | true => simpa [hrefreshes, or_left_comm, or_assoc] using ht
  | false => simpa [hrefreshes] using ht

/-- The window is held open by the last refreshing check. -/
theorem Checks.pass {svc : AuthServiceImpl} (h : Checks jti svc checks) :
    ∀ {times : List DateTime} {activity : Int}, svc.sessionActivity jti = some activity →
      (∀ t ∈ times, t.timestamp ≤ activity) → (∀ t ∈ times, ∀ check ∈ checks, t ≤ check.now) →
      (checks.map (·.now)).Pairwise (· ≤ ·) → Refreshed jti times checks →
      ∀ check ∈ checks, check.ok = true := by
  induction h with
  | nil svc => exact fun _ _ _ _ _ => nofun
  | other hactivity _ ih =>
    intro times activity hsvc
    exact ih (hactivity.trans hsvc)
  | @check svc tick now checks _ ih =>
    intro times activity hsvc htimes hlater hclock hrefreshed
    obtain ⟨t, ht, hle⟩ := hrefreshed [] _ checks rfl
    have ht : t ∈ times := by simpa using ht
    have hnow : now.timestamp - activity ≤ 3600 := by
      have hwithin : now.timestamp - t.timestamp ≤ 3600 := DateTime.timestamp_within hle
      have hactivity := htimes t ht
      omega
    obtain ⟨hok, hafter⟩ := AuthServiceImpl.isSessionAuthorizedWithTick_live hsvc hnow
    obtain ⟨hfirst, hclock⟩ := List.pairwise_cons.mp hclock
    have hrest := ih hafter ?_ ?_ hclock hrefreshed.tail
    · intro check hcheck
      rcases List.mem_cons.mp hcheck with rfl | hmem
      · exact hok
      · exact hrest check hmem
    · -- the new activity is the latest of the times
      intro t' ht'
      cases hrefreshes : refreshes jti tick with
      | true =>
        rw [hrefreshes] at ht'
        rcases List.mem_cons.mp ht' with rfl | hold
        · exact Int.le_refl _
        · exact DateTime.timestamp_mono (hlater t' hold _ List.mem_cons_self)
      | false =>
        rw [hrefreshes] at ht'
        exact htimes t' ht'
    · intro t' ht' check hcheck
      have hnext : now ≤ check.now := hfirst _ (List.mem_map_of_mem hcheck)
      cases hrefreshes : refreshes jti tick with
      | true =>
        rw [hrefreshes] at ht'
        rcases List.mem_cons.mp ht' with rfl | hold
        · exact hnext
        · exact hlater t' hold _ (List.mem_cons_of_mem _ hcheck)
      | false =>
        rw [hrefreshes] at ht'
        exact hlater t' ht' _ (List.mem_cons_of_mem _ hcheck)

/-- A session that is refreshed in time passes every check. -/
theorem refreshed_session_passes (env : AuthEnv) (r : Reading) (svc : AuthServiceImpl)
    (playerId : String) (new : Option String) {svc' : AuthServiceImpl} {token : String × UInt64}
    (hmint : svc.mintSessionToken env r playerId new = (svc', .ok token)) {checks : List Check}
    (hchecks : Checks (new.getD r.ulid) svc' checks)
    (hclock : (r.now :: checks.map (·.now)).Pairwise (· ≤ ·))
    (hrefreshed : Refreshed (new.getD r.ulid) [r.now] checks) :
    ∀ check ∈ checks, check.ok = true := by
  obtain ⟨hfirst, hclock⟩ := List.pairwise_cons.mp hclock
  refine hchecks.pass (AuthServiceImpl.mintSessionToken_ok hmint) ?_ ?_ hclock hrefreshed
  · rintro t ht
    exact Int.le_of_eq (congrArg _ (List.mem_singleton.mp ht))
  · rintro t ht check hcheck
    rw [List.mem_singleton.mp ht]
    exact hfirst _ (List.mem_map_of_mem hcheck)

/-- A service with one session, minted in second 3. -/
def oneSession : AuthServiceImpl :=
  ((AuthServiceImpl.new false).mintSessionToken plainEnv (plainReading 3) "player" none).1

/-- The first of these checks is on a refreshing tick of the session. -/
def spacedChecks : List Check := [⟨57, .ofSeconds 3000, true⟩, ⟨120, .ofSeconds 6000, true⟩]

theorem checks_spacedChecks : Checks (plainUlid 3) oneSession spacedChecks := by
  have heq : checkEach (plainUlid 3) oneSession [(57, .ofSeconds 3000), (120, .ofSeconds 6000)] =
      spacedChecks := by decide +kernel
  exact heq ▸ checks_checkEach _ _ _

theorem refreshed_spacedChecks : Refreshed (plainUlid 3) [.ofSeconds 3] spacedChecks := by
  intro before check after h
  match before, h with
  | [], h =>
    obtain ⟨rfl, -⟩ := List.cons.inj h
    exact ⟨.ofSeconds 3, by simp, by decide⟩
  | [first], h =>
    obtain ⟨hfirst, h⟩ := List.cons.inj h
    obtain ⟨rfl, -⟩ := List.cons.inj h
    obtain rfl := hfirst
    have hrefreshes : refreshes (plainUlid 3) 57 = true := by decide +kernel
    exact ⟨.ofSeconds 3000, by simp [hrefreshes], by decide⟩
  | _ :: _ :: before, h => exact absurd (congrArg List.length h) (by simp [spacedChecks])

theorem refreshed_session_passes_spaced :
    Refreshed (plainUlid 3) [.ofSeconds 3] spacedChecks ∧
      ∀ check ∈ spacedChecks, check.ok = true := by
  have hmint : ∃ token, (AuthServiceImpl.new false).mintSessionToken plainEnv (plainReading 3)
      "player" none = (oneSession, .ok token) := ⟨_, rfl⟩
  obtain ⟨token, hmint⟩ := hmint
  exact ⟨refreshed_spacedChecks, refreshed_session_passes plainEnv (plainReading 3) (.new false)
    "player" none hmint checks_spacedChecks (by decide) refreshed_spacedChecks⟩

/-- The same session, used every fifty minutes on ticks that do not refresh it, runs out. -/
theorem active_session_times_out :
    ∃ calls : List (UInt64 × DateTime),
      (calls.map (·.1)).Pairwise (· < ·) ∧
      ((plainReading 3).now :: calls.map (·.2)).IsChain (fun t t' => t ≤ t' ∧ t' ≤ t + .hours 1) ∧
      (checkEach (plainUlid 3) oneSession calls).map (·.ok) = [true, false] := by
  exact ⟨[(60, .ofSeconds 3000), (120, .ofSeconds 6000)], by decide, by decide, by decide +kernel⟩

end Aetheris.Auth
