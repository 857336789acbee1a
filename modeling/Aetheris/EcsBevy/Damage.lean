import Aetheris.EcsBevy.Ledger

/-!
# What a volley of beams does to a target

`process_beams` works through the beams one by one, and each hit drains the priority pool before the
integrity. `Pools.struck k` is the sum of `k` hits in one formula; one more hit on it is
`struck (k + 1)` (`Pools.hit_struck`), whatever breaks on the way. `beamLog` lists the beams that hit,
each with its target at its turn.
-/

namespace Aetheris

open Ecs

/-! ## The pools of one target -/

/-- What a beam can damage on an entity. -/
structure Pools where
  priority : Option PriorityPool
  integrity : Option IntegrityPool
  resource : Option ResourceIntegrity

namespace Pools

/-- The priority left; zero without a pool. -/
def shield (s : Pools) : Nat := (s.priority.map fun p => p.current.toNat).getD 0

/-- The integrity left: that of the pool or, without one, of the resource. -/
def hull (s : Pools) : Option Nat :=
  match s.integrity with
  | some i => some i.current.toNat
  | none => s.resource.map fun r => r.integrity.toNat

/-- The pools after `k` hits of 25, in closed form. -/
def struck (k : Nat) (s : Pools) : Pools where
  priority := s.priority.map fun p =>
    { p with current := UInt16.ofNat (p.current.toNat - 25 * k) }
  integrity := s.integrity.map fun i =>
    { i with current := UInt16.ofNat (i.current.toNat - (25 * k - s.shield)) }
  resource := match s.integrity with
    | some _ => s.resource
    | none => s.resource.map fun r =>
      { r with integrity := UInt16.ofNat (r.integrity.toNat - (25 * k - s.shield)) }

/-- What the priority pool lets through. -/
def damageHull (remaining : UInt16) (s : Pools) : Pools × Bool :=
  if 0 < remaining then
    match s.integrity, s.resource with
    | some i, _ =>
      let left := drain remaining i.current
      ({ s with integrity := some { i with current := left } }, left = 0)
    | none, some r =>
      let left := drain remaining r.integrity
      ({ s with resource := some { r with integrity := left } }, left = 0)
    | none, none => (s, false)
  else (s, false)

/-- One hit, as `apply_beam_hit` computes it. -/
def hit (s : Pools) : Pools × Bool :=
  damageHull ((s.priority.map fun p => (drainPriority 25 p).2).getD 25)
    { s with priority := s.priority.map fun p => (drainPriority 25 p).1 }

end Pools

/-! ## Machine arithmetic -/

theorem toNat_ofNat_sub (v : UInt16) (d : Nat) :
    (UInt16.ofNat (v.toNat - d)).toNat = v.toNat - d := by
  have hlt := v.toNat_lt
  rw [UInt16.toNat_ofNat']
  exact Nat.mod_eq_of_lt (by omega)

theorem ofNat_sub_eq_zero (v : UInt16) (d : Nat) :
    UInt16.ofNat (v.toNat - d) = 0 ↔ v.toNat - d = 0 := by
  rw [← UInt16.toNat_inj, toNat_ofNat_sub]
  rfl

theorem drain_eq (remaining value : UInt16) :
    drain remaining value = UInt16.ofNat (value.toNat - remaining.toNat) := by
  have hdrain : (drain remaining value).toNat = value.toNat - remaining.toNat :=
    UInt16.toNat_satSub value remaining
  rw [← UInt16.toNat_inj, hdrain, toNat_ofNat_sub]

theorem drainPriority_fst (remaining : UInt16) (p : PriorityPool) :
    (drainPriority remaining p).1 =
      { p with current := UInt16.ofNat (p.current.toNat - remaining.toNat) } := by
  rw [← drain_eq]
  unfold drainPriority drain
  split <;> rfl

theorem drainPriority_snd (remaining : UInt16) (p : PriorityPool) :
    (drainPriority remaining p).2.toNat = remaining.toNat - p.current.toNat := by
  unfold drainPriority
  split
  · next h =>
    have hle := UInt16.le_iff_toNat_le.mp h
    show 0 = _
    omega
  · next h =>
    have hle : p.current ≤ remaining := UInt16.le_of_lt (UInt16.not_le.mp h)
    exact UInt16.toNat_sub_of_le _ _ hle

/-! ## One hit more -/

namespace Pools

variable (s : Pools) (k : Nat)

theorem hull_struck : (s.struck k).hull = s.hull.map (· - (25 * k - s.shield)) := by
  cases hi : s.integrity with
  | some i => simp only [hull, struck, hi, Option.map_some, toNat_ofNat_sub]
  | none =>
    cases hr : s.resource with
    | some r => simp only [hull, struck, hi, hr, Option.map_some, Option.map_none, toNat_ofNat_sub]
    | none => simp only [hull, struck, hi, hr, Option.map_none]

/-- The damage that one more hit lets through. -/
theorem remaining_struck :
    (((s.struck k).priority.map fun p => (drainPriority 25 p).2).getD 25).toNat =
      25 - (s.shield - 25 * k) := by
  cases hp : s.priority with
  | none => simp [shield, struck, hp]
  | some p =>
    simp only [struck, hp, Option.map_some, Option.getD_some, drainPriority_snd, toNat_ofNat_sub,
      shield]
    rfl

theorem priority_struck :
    ((s.struck k).priority.map fun p => (drainPriority 25 p).1) = (s.struck (k + 1)).priority := by
  cases hp : s.priority with
  | none => simp [struck, hp]
  | some p =>
    simp only [struck, hp, Option.map_some, drainPriority_fst, toNat_ofNat_sub]
    rw [show (25 : UInt16).toNat = 25 from rfl, Nat.sub_sub, Nat.mul_succ]

/-- A hit after `k` hits is the `k + 1`st, and it reports the target if it gets past the priority and
leaves no integrity. -/
theorem hit_struck : (s.struck k).hit =
    (s.struck (k + 1),
      decide (s.shield < 25 * (k + 1) ∧ (s.struck (k + 1)).hull = some 0)) := by
  have hremaining := s.remaining_struck k
  unfold hit
  rw [priority_struck]
  generalize ((s.struck k).priority.map fun p => (drainPriority 25 p).2).getD 25 = remaining
    at hremaining ⊢
  unfold damageHull
  by_cases hthrough : s.shield < 25 * (k + 1)
  · have hpos : 0 < remaining := by
      rw [UInt16.lt_iff_toNat_lt, hremaining]
      show 0 < _
      omega
    -- what got through before, and what gets through now
    have hsum : ∀ v : UInt16, drain remaining (UInt16.ofNat (v.toNat - (25 * k - s.shield))) =
        UInt16.ofNat (v.toNat - (25 * (k + 1) - s.shield)) := by
      intro v
      rw [drain_eq, toNat_ofNat_sub, hremaining]
      congr 1
      omega
    rw [if_pos hpos, hull_struck]
    cases hi : s.integrity with
    | some i => simp [struck, hull, hi, hsum, hthrough, ofNat_sub_eq_zero]
    | none =>
      cases hr : s.resource with
      | some r => simp [struck, hull, hi, hr, hsum, hthrough, ofNat_sub_eq_zero]
      | none => simp [struck, hull, hi, hr]
  · have hzero : ¬ 0 < remaining := by
      rw [UInt16.lt_iff_toNat_lt, hremaining]
      show ¬ 0 < _
      omega
    -- the priority takes it all
    have hnone : 25 * (k + 1) - s.shield = 0 ∧ 25 * k - s.shield = 0 := by omega
    rw [if_neg hzero]
    simp [struck, hthrough, hnone]

/-- `k` hits are reported once one of them gets past the priority and none leaves any integrity. -/
def Broken (s : Pools) : Prop := 1 ≤ k ∧ s.shield < 25 * k ∧ (s.struck k).hull = some 0

variable {s k} in
theorem Broken.succ (h : s.Broken k) : s.Broken (k + 1) := by
  obtain ⟨-, hthrough, hempty⟩ := h
  refine ⟨Nat.le_add_left .., by omega, ?_⟩
  rw [hull_struck] at hempty ⊢
  obtain ⟨v, hv, hzero⟩ := Option.map_eq_some_iff.mp hempty
  rw [hv, Option.map_some]
  congr 1
  omega

theorem struck_zero : s.struck 0 = s := by
  obtain ⟨priority, integrity, resource⟩ := s
  cases priority <;> cases integrity <;> cases resource <;> simp [struck]

end Pools

/-! ## One beam -/

variable {F : Type}

def World.pools (w : World F) (t : Entity) : Pools :=
  ⟨w.get t .priorityPool, w.get t .integrityPool, w.get t .resourceIntegrity⟩

/-- The second half of a hit: what the priority pool lets through. -/
def damageHull (w : World F) (t : Entity) (remaining : UInt16) : World F × Bool :=
  if 0 < remaining then
    match w.get t .integrityPool, w.get t .resourceIntegrity with
    | some i, _ =>
      let left := drain remaining (IntegrityPool.current i)
      (w.modify t .integrityPool fun i : IntegrityPool => { i with current := left }, left = 0)
    | none, some r =>
      let left := drain remaining (ResourceIntegrity.integrity r)
      (w.modify t .resourceIntegrity fun r : ResourceIntegrity => { r with integrity := left },
        left = 0)
    | none, none => (w, false)
  else (w, false)

variable (w : World F)

/-- Without a priority pool, draining it changes nothing. -/
theorem applyBeamHit_eq (t : Entity) :
    applyBeamHit w t = damageHull (w.modify t .priorityPool fun p => (drainPriority 25 p).1) t
      (((w.get t .priorityPool).map fun p => (drainPriority 25 p).2).getD 25) := by
  unfold applyBeamHit damageHull
  cases hp : w.get t .priorityPool with
  | none =>
    rw [World.modify_of_none w _ hp]
    rfl
  | some p => rfl

theorem pools_modify_priority (t : Entity) (f : PriorityPool → PriorityPool) :
    (w.modify t .priorityPool f).pools t =
      { w.pools t with priority := (w.get t .priorityPool).map f } := by
  unfold World.pools
  rw [World.get_modify_self, World.get_modify_of_ne _ _ (Or.inr (by decide)),
    World.get_modify_of_ne _ _ (Or.inr (by decide))]

theorem pools_modify_integrity (t : Entity) (f : IntegrityPool → IntegrityPool) :
    (w.modify t .integrityPool f).pools t =
      { w.pools t with integrity := (w.get t .integrityPool).map f } := by
  unfold World.pools
  rw [World.get_modify_self, World.get_modify_of_ne _ _ (Or.inr (by decide)),
    World.get_modify_of_ne _ _ (Or.inr (by decide))]

theorem pools_modify_resource (t : Entity) (f : ResourceIntegrity → ResourceIntegrity) :
    (w.modify t .resourceIntegrity f).pools t =
      { w.pools t with resource := (w.get t .resourceIntegrity).map f } := by
  unfold World.pools
  rw [World.get_modify_self, World.get_modify_of_ne _ _ (Or.inr (by decide)),
    World.get_modify_of_ne _ _ (Or.inr (by decide))]

theorem pools_damageHull (t : Entity) (remaining : UInt16) :
    ((damageHull w t remaining).1.pools t, (damageHull w t remaining).2) =
      (w.pools t).damageHull remaining := by
  unfold damageHull Pools.damageHull
  split
  · cases hi : w.get t .integrityPool with
    | some i =>
      dsimp only
      rw [pools_modify_integrity, World.pools, hi]
      rfl
    | none =>
      cases hr : w.get t .resourceIntegrity with
      | some r =>
        dsimp only
        rw [pools_modify_resource, World.pools, hi, hr]
        rfl
      | none => rw [World.pools, hi, hr]
  · rfl

/-- A hit on the world is a hit on the pools of its target. -/
theorem pools_applyBeamHit (t : Entity) :
    ((applyBeamHit w t).1.pools t, (applyBeamHit w t).2) = (w.pools t).hit := by
  rw [applyBeamHit_eq, pools_damageHull, pools_modify_priority]
  rfl

variable {acc : BeamAcc F} {b : BeamData F} {bimap : BiMap NetworkId Entity} {e t : Entity}

theorem pools_modify_of_ne (he : e ≠ t) {k : Comp}
    (f : CompVal F k → CompVal F k) : (w.modify t k f).pools e = w.pools e := by
  unfold World.pools
  rw [World.get_modify_of_ne _ _ (Or.inl he), World.get_modify_of_ne _ _ (Or.inl he),
    World.get_modify_of_ne _ _ (Or.inl he)]

theorem pools_applyBeamHit_of_ne (he : e ≠ t) : (applyBeamHit w t).1.pools e = w.pools e := by
  have hpriority : (w.modify t .priorityPool fun p => (drainPriority 25 p).1).pools e = w.pools e :=
    pools_modify_of_ne w he _
  rw [applyBeamHit_eq, ← hpriority]
  unfold damageHull
  split
  · split
    · exact pools_modify_of_ne _ he _
    · exact pools_modify_of_ne _ he _
    · rfl
  · rfl

/-- The lifetime of a beam is none of its pools. -/
theorem pools_modify_marker (b e : Entity) (f : BeamMarker F → BeamMarker F) :
    (w.modify b .beamMarker f).pools e = w.pools e := by
  unfold World.pools
  rw [World.get_modify_of_ne _ _ (Or.inr (by decide)),
    World.get_modify_of_ne _ _ (Or.inr (by decide)), World.get_modify_of_ne _ _ (Or.inr (by decide))]

variable [F32 F]

/-- The target of a beam at its turn: none if it is spent or out of range. -/
def beamTarget (bimap : BiMap NetworkId Entity) (w : World F) (b : BeamData F) : Option Entity :=
  if b.marker.lifetimeTicks = 0
      ∨ F32.powi2 b.marker.maxRange
        < F32.powi2 (b.x - b.marker.spawnPos.1) + F32.powi2 (b.y - b.marker.spawnPos.2) then none
  else
    let w := w.modify b.entity .beamMarker fun m : BeamMarker F =>
      { m with lifetimeTicks := m.lifetimeTicks.satSub 1 }
    (w.query [.transform]).find? (beamHits w bimap b)

theorem beamTarget_spec {w : World F} (h : beamTarget bimap w b = some t) :
    t ≠ b.entity ∧ bimap.getByRight t ≠ some b.marker.owner := by
  unfold beamTarget at h
  split at h
  · cases h
  · have hhits := List.find?_some h
    unfold beamHits at hhits
    split at hhits
    · simp only [Bool.and_eq_true, decide_eq_true_eq] at hhits
      exact ⟨hhits.1.1.1, hhits.1.2⟩
    · cases hhits

theorem processBeam_of_miss (h : beamTarget bimap acc.world b = none) :
    (∀ e, (processBeam bimap acc b).world.pools e = acc.world.pools e) ∧
      (processBeam bimap acc b).terminations = acc.terminations := by
  unfold beamTarget at h
  unfold processBeam
  split
  · exact ⟨fun _ => rfl, rfl⟩
  · next hflies =>
    rw [if_neg hflies] at h
    dsimp only at h ⊢
    rw [h]
    exact ⟨fun e => pools_modify_marker _ _ e _, rfl⟩

theorem processBeam_of_hit (h : beamTarget bimap acc.world b = some t) :
    (processBeam bimap acc b).world.pools t = (acc.world.pools t).hit.1 ∧
      (∀ e, e ≠ t → (processBeam bimap acc b).world.pools e = acc.world.pools e) ∧
      (processBeam bimap acc b).terminations =
        if (acc.world.pools t).hit.2 then acc.terminations ++ [t] else acc.terminations := by
  unfold beamTarget at h
  unfold processBeam
  split
  · next hspent =>
    rw [if_pos hspent] at h
    cases h
  · next hflies =>
    rw [if_neg hflies] at h
    dsimp only at h ⊢
    rw [h]
    have hmarker := pools_modify_marker acc.world b.entity t fun m : BeamMarker F =>
      { m with lifetimeTicks := m.lifetimeTicks.satSub 1 }
    rw [← hmarker, ← pools_applyBeamHit]
    refine ⟨rfl, fun e he => ?_, rfl⟩
    exact (pools_applyBeamHit_of_ne _ he).trans (pools_modify_marker _ _ e _)

/-! ## The volley -/

/-- The beams that hit, each with its target. -/
def beamLog (bimap : BiMap NetworkId Entity) :
    BeamAcc F → List (BeamData F) → List (BeamData F × Entity)
  | _, [] => []
  | acc, b :: bs =>
    ((beamTarget bimap acc.world b).map (b, ·)).toList ++ beamLog bimap (processBeam bimap acc b) bs

/-- The hits of `process_beams`. -/
def World.beamStrikes (w : World F) (bimap : BiMap NetworkId Entity) : List (BeamData F × Entity) :=
  beamLog bimap ⟨w, [], [], []⟩ (beamData w)

theorem beamLog_sublist (bimap : BiMap NetworkId Entity) (bs : List (BeamData F))
    (acc : BeamAcc F) : ((beamLog bimap acc bs).map Prod.fst).Sublist bs := by
  induction bs generalizing acc with
  | nil => exact .refl _
  | cons b bs ih =>
    unfold beamLog
    cases beamTarget bimap acc.world b with
    | none => exact (ih _).cons b
    | some t => exact (ih _).cons_cons b

theorem beamLog_spec (bimap : BiMap NetworkId Entity) (bs : List (BeamData F)) (acc : BeamAcc F) :
    ∀ strike ∈ beamLog bimap acc bs, strike.2 ≠ strike.1.entity ∧
      bimap.getByRight strike.2 ≠ some strike.1.marker.owner := by
  induction bs generalizing acc with
  | nil => exact nofun
  | cons b bs ih =>
    intro strike hstrike
    rcases List.mem_append.mp hstrike with hnow | hlater
    · obtain ⟨t, ht, rfl⟩ := Option.map_eq_some_iff.mp (Option.mem_toList.mp hnow)
      exact beamTarget_spec ht
    · exact ih _ strike hlater

/-- After `hits t` hits on each entity `t`, the pools are in closed form and the broken ones are
reported. -/
structure Struck (w : World F) (hits : Entity → Nat) (acc : BeamAcc F) : Prop where
  pools : ∀ t, acc.world.pools t = (w.pools t).struck (hits t)
  terminations : ∀ t, t ∈ acc.terminations ↔ (w.pools t).Broken (hits t)

omit [F32 F] in
theorem struck_init : Struck w (fun _ => 0) ⟨w, [], [], []⟩ where
  pools t := (w.pools t).struck_zero.symm
  terminations t := ⟨nofun, fun h => absurd h.1 (by decide)⟩

theorem Struck.step {w : World F} {hits : Entity → Nat} (h : Struck w hits acc)
    (bimap : BiMap NetworkId Entity) (b : BeamData F) :
    Struck w (fun t => hits t + (beamTarget bimap acc.world b).toList.count t)
      (processBeam bimap acc b) := by
  cases htarget : beamTarget bimap acc.world b with
  | none =>
    obtain ⟨hpools, hterminations⟩ := processBeam_of_miss htarget
    exact ⟨fun t => (hpools t).trans (h.pools t), fun t => hterminations ▸ h.terminations t⟩
  | some t₀ =>
    obtain ⟨hpools, hothers, hterminations⟩ := processBeam_of_hit htarget
    rw [h.pools t₀, Pools.hit_struck] at hpools hterminations
    have hself : hits t₀ + (some t₀).toList.count t₀ = hits t₀ + 1 := by simp
    have hother : ∀ t, t ≠ t₀ → hits t + (some t₀).toList.count t = hits t := by
      intro t ht
      simp [Ne.symm ht]
    constructor
    · intro t
      by_cases ht : t = t₀
      · subst ht
        rw [hself, hpools]
      · rw [hother t ht, hothers t ht, h.pools t]
    · intro t
      by_cases ht : t = t₀
      · subst ht
        rw [hself, hterminations]
        split
        · next hbroken =>
          have hbroken := of_decide_eq_true hbroken
          exact ⟨fun _ => ⟨Nat.le_add_left .., hbroken⟩, fun _ => by simp⟩
        · next hwhole =>
          -- a target broken before would break again
          have hwhole := of_decide_eq_false (Bool.eq_false_iff.mpr hwhole)
          rw [h.terminations t]
          exact ⟨Pools.Broken.succ, fun hbroken => absurd hbroken.2 hwhole⟩
      · rw [hother t ht, ← h.terminations t, hterminations]
        split
        · simp [ht]
        · rfl

theorem Struck.run {w : World F} (bimap : BiMap NetworkId Entity) (bs : List (BeamData F)) :
    ∀ {hits : Entity → Nat} {acc : BeamAcc F}, Struck w hits acc →
      Struck w (fun t => hits t + ((beamLog bimap acc bs).map Prod.snd).count t)
        (bs.foldl (processBeam bimap) acc) := by
  induction bs with
  | nil => exact fun h => h
  | cons b bs ih =>
    intro hits acc h
    have hcount : ∀ t, ((beamLog bimap acc (b :: bs)).map Prod.snd).count t =
        (beamTarget bimap acc.world b).toList.count t +
          ((beamLog bimap (processBeam bimap acc b) bs).map Prod.snd).count t := by
      intro t
      rw [beamLog, List.map_append, List.count_append]
      cases beamTarget bimap acc.world b <;> rfl
    simp only [hcount, ← Nat.add_assoc]
    exact ih (h.step bimap b)

/-- Every beam strikes at most one target, neither itself nor its owner. A target struck by `k` beams
ends with its pools in closed form, and is terminated if and only if the damage got past its priority
and left no integrity. -/
theorem beam_damage_closed_form (w : World F) (bimap : BiMap NetworkId Entity) :
    ((w.beamStrikes bimap).map Prod.fst).Sublist (beamData w) ∧
      ((w.beamStrikes bimap).map fun strike => strike.1.entity).Nodup ∧
      (∀ strike ∈ w.beamStrikes bimap, strike.2 ≠ strike.1.entity ∧
        bimap.getByRight strike.2 ≠ some strike.1.marker.owner) ∧
      ∀ (t : Entity) (k : Nat), ((w.beamStrikes bimap).map Prod.snd).count t = k →
        (processBeams w bimap).1.pools t = (w.pools t).struck k ∧
          (t ∈ (processBeams w bimap).2.2 ↔ 1 ≤ k ∧ (w.pools t).shield < 25 * k ∧
            ((processBeams w bimap).1.pools t).hull = some 0) := by
  have hsublist : ((w.beamStrikes bimap).map Prod.fst).Sublist (beamData w) :=
    beamLog_sublist bimap (beamData w) _
  have hnodup : ((beamData w).map BeamData.entity).Nodup := by
    refine nodup_map_filterMap (fun e b hb => ?_) (w.nodup_query _)
    dsimp only at hb
    split at hb
    · cases hb
      rfl
    · cases hb
  refine ⟨hsublist, ?_, beamLog_spec bimap (beamData w) _, fun t k hk => ?_⟩
  · have hentities := hnodup.sublist (hsublist.map BeamData.entity)
    rwa [List.map_map] at hentities
  · obtain ⟨hpools, hterminations⟩ := (struck_init w).run bimap (beamData w)
    have hcount : 0 + ((w.beamStrikes bimap).map Prod.snd).count t = k := (Nat.zero_add _).trans hk
    -- the reliable events that follow touch no pool
    have hfinal : (processBeams w bimap).1.pools t = (w.pools t).struck k := hcount ▸ hpools t
    refine ⟨hfinal, ?_⟩
    rw [hfinal]
    exact hcount ▸ hterminations t

end Aetheris
