import Aetheris.EcsBevy.Capacity

/-!
# What the collection takes from the drops

The claims of one collection are read from one world. A drop is claimed at most once and never for
more than it holds, so applying the claims takes from each claimed drop exactly the claimed amount
and leaves the other drops alone.
-/

namespace Aetheris

open Ecs

variable {F : Type}

/-! ## One claim -/

variable {acc : World F × List Entity} {c : Claim} {claims : List Claim} {d : Entity}
  {drop : DataDropComponent}
variable (bimap : BiMap NetworkId Entity)

theorem applyClaim_drop_other (acc : World F × List Entity) (h : d ≠ c.drop) :
    (applyClaim bimap acc c).1.get d .dataDropComponent = acc.1.get d .dataDropComponent := by
  unfold applyClaim
  split
  · dsimp only
    rw [(announceCollection_edited bimap _ c).edits.get d _ (by simp)]
    have hstore : (storePayload acc.1 c).get d .dataDropComponent =
        acc.1.get d .dataDropComponent := World.get_modify_of_ne _ _ (Or.inr (by decide))
    unfold takeFromDrop
    split
    · split
      · exact (World.get_modify_of_ne _ _ (Or.inl h)).trans hstore
      · exact (World.get_modify_of_ne _ _ (Or.inl h)).trans hstore
    · exact hstore
  · rfl

theorem takeFromDrop_of_get {w : World F}
    (h : w.get c.drop .dataDropComponent = some drop) (hle : c.amount ≤ drop.amount) :
    (takeFromDrop w c).1.get c.drop .dataDropComponent = some ⟨drop.amount - c.amount⟩ ∧
      (takeFromDrop w c).2 = decide (drop.amount ≤ c.amount) := by
  unfold takeFromDrop
  simp only [h]
  by_cases hall : drop.amount ≤ c.amount
  · rw [if_pos hall, decide_eq_true hall, World.get_modify_self, h]
    obtain heq : drop.amount = c.amount := UInt16.le_antisymm hall hle
    rw [heq, UInt16.sub_self]
    exact ⟨rfl, rfl⟩
  · rw [if_neg hall, decide_eq_false hall, World.get_modify_self, h]
    exact ⟨rfl, rfl⟩

theorem applyClaim_drop_self
    (h : acc.1.get c.drop .dataDropComponent = some drop) (hle : c.amount ≤ drop.amount) :
    (applyClaim bimap acc c).1.get c.drop .dataDropComponent =
        some ⟨drop.amount - c.amount⟩ ∧
      (applyClaim bimap acc c).2 =
        if 0 < c.amount ∧ drop.amount ≤ c.amount then acc.2 ++ [c.drop] else acc.2 := by
  unfold applyClaim
  split
  · next hpos =>
    have hstore : (storePayload acc.1 c).get c.drop .dataDropComponent = some drop :=
      (World.get_modify_of_ne _ _ (Or.inr (by decide))).trans h
    obtain ⟨hget, hflag⟩ := takeFromDrop_of_get hstore hle
    dsimp only
    rw [(announceCollection_edited bimap _ c).edits.get _ _ (by simp), hflag]
    refine ⟨hget, ?_⟩
    simp [hpos]
  · next hzero =>
    have hamount : c.amount = 0 := UInt16.le_zero_iff.mp (UInt16.not_lt.mp hzero)
    rw [if_neg fun hpos => hzero hpos.1, hamount, UInt16.sub_zero]
    exact ⟨h, rfl⟩

/-! ## All claims -/

/-- Each claim is for a drop of its own, and for no more than the drop holds. -/
structure ClaimsOwn (claims : List Claim) (w : World F) : Prop where
  nodup : (claims.map Claim.drop).Nodup
  holds : ∀ c ∈ claims, ∃ drop : DataDropComponent,
    w.get c.drop .dataDropComponent = some drop ∧ c.amount ≤ drop.amount

theorem ClaimsOwn.tail (h : ClaimsOwn (c :: claims) acc.1) :
    ClaimsOwn claims (applyClaim bimap acc c).1 := by
  obtain ⟨hfirst, hnodup⟩ := List.nodup_cons.mp h.nodup
  refine ⟨hnodup, fun c' hc' => ?_⟩
  have hne : c'.drop ≠ c.drop := fun heq => hfirst (heq ▸ List.mem_map_of_mem hc')
  rw [applyClaim_drop_other bimap acc hne]
  exact h.holds c' (List.mem_cons_of_mem c hc')

theorem foldl_applyClaim_drop_other (claims : List Claim)
    (acc : World F × List Entity) (h : ∀ c ∈ claims, d ≠ c.drop) :
    (claims.foldl (applyClaim bimap) acc).1.get d .dataDropComponent =
      acc.1.get d .dataDropComponent := by
  induction claims generalizing acc with
  | nil => rfl
  | cons c claims ih =>
    rw [List.foldl_cons, ih _ fun c' hc' => h c' (List.mem_cons_of_mem c hc')]
    exact applyClaim_drop_other bimap acc (h c List.mem_cons_self)

theorem foldl_applyClaim_drop (h : ClaimsOwn claims acc.1) (hc : c ∈ claims)
    (hdrop : acc.1.get c.drop .dataDropComponent = some drop) :
    (claims.foldl (applyClaim bimap) acc).1.get c.drop .dataDropComponent =
      some ⟨drop.amount - c.amount⟩ := by
  induction claims generalizing acc with
  | nil => cases hc
  | cons c' claims ih =>
    obtain ⟨hfirst, -⟩ := List.nodup_cons.mp h.nodup
    rw [List.foldl_cons]
    rcases List.mem_cons.mp hc with rfl | hc
    · -- the rest of the claims are for other drops
      obtain ⟨drop', hdrop', hle⟩ := h.holds c List.mem_cons_self
      obtain rfl := Option.some.inj (hdrop.symm.trans hdrop')
      have hothers : ∀ c'' ∈ claims, c.drop ≠ c''.drop := fun c'' hc'' heq =>
        hfirst (heq ▸ List.mem_map_of_mem hc'')
      rw [foldl_applyClaim_drop_other bimap claims _ hothers]
      exact (applyClaim_drop_self bimap hdrop hle).1
    · have hne : c.drop ≠ c'.drop := fun heq => hfirst (heq ▸ List.mem_map_of_mem hc)
      exact ih (h.tail bimap) hc ((applyClaim_drop_other bimap acc hne).trans hdrop)

/-- Emptied are the drops that were claimed as a whole. -/
theorem mem_foldl_applyClaim (h : ClaimsOwn claims acc.1) (d : Entity) :
    d ∈ (claims.foldl (applyClaim bimap) acc).2 ↔ d ∈ acc.2 ∨ ∃ c ∈ claims, c.drop = d ∧
      0 < c.amount ∧ acc.1.get d .dataDropComponent = some ⟨c.amount⟩ := by
  induction claims generalizing acc with
  | nil => simp
  | cons c claims ih =>
    obtain ⟨hfirst, -⟩ := List.nodup_cons.mp h.nodup
    obtain ⟨drop, hdrop, hle⟩ := h.holds c List.mem_cons_self
    obtain ⟨-, hlist⟩ := applyClaim_drop_self bimap hdrop hle
    rw [List.foldl_cons, ih (h.tail bimap), hlist]
    have hrest : (∃ c' ∈ claims, c'.drop = d ∧ 0 < c'.amount ∧
        (applyClaim bimap acc c).1.get d .dataDropComponent = some ⟨c'.amount⟩) ↔
        ∃ c' ∈ claims, c'.drop = d ∧ 0 < c'.amount ∧
          acc.1.get d .dataDropComponent = some ⟨c'.amount⟩ := by
      refine exists_congr fun c' => and_congr_right fun hc' => and_congr_right fun hd => ?_
      have hne : d ≠ c.drop := fun heq => hfirst (heq ▸ hd ▸ List.mem_map_of_mem hc')
      rw [applyClaim_drop_other bimap acc hne]
    have hthis : (c.drop = d ∧ 0 < c.amount ∧ acc.1.get d .dataDropComponent = some ⟨c.amount⟩) ↔
        c.drop = d ∧ 0 < c.amount ∧ drop.amount ≤ c.amount := by
      refine and_congr_right fun hd => and_congr_right fun _ => ?_
      rw [← hd, hdrop]
      constructor
      · intro heq
        rw [Option.some.inj heq]
        exact UInt16.le_refl _
      · intro hall
        rw [← UInt16.le_antisymm hall hle]
    rw [hrest]
    simp only [List.mem_cons, exists_eq_or_imp, hthis]
    split
    · next hcond =>
      rw [List.mem_append, List.mem_singleton, or_assoc]
      exact or_congr_right (or_congr_left ⟨fun hd => ⟨hd.symm, hcond⟩, fun hd => hd.1.symm⟩)
    · next hcond =>
      exact or_congr_right ⟨Or.inr, fun hor => hor.resolve_left fun hd => hcond hd.2⟩

/-- What was found for different elements is told apart by the element it was found for. -/
theorem nodup_map_filterMap {α β : Type} {f : α → Option β} {g : β → α}
    (h : ∀ a b, f a = some b → g b = a) {l : List α} (hl : l.Nodup) :
    ((l.filterMap f).map g).Nodup := by
  refine hl.sublist ?_
  rw [List.map_filterMap]
  have hself : ∀ a ∈ l, (f a).map g = Option.guard (fun a => (f a).isSome) a := by
    intro a _
    cases hfa : f a with
    | none => simp [Option.guard, hfa]
    | some b => simp [Option.guard, hfa, h a b hfa]
  rw [List.filterMap_congr hself, List.filterMap_eq_filter]
  exact List.filter_sublist

variable [F32 F]

theorem collectClaims_own (w : World F) : ClaimsOwn (collectClaims w) w where
  nodup := nodup_map_filterMap (fun _ _ hof => (claimOf_spec hof).1) (w.nodup_query _)
  holds c hc := by
    obtain ⟨d, -, hof⟩ := List.mem_filterMap.mp hc
    obtain ⟨rfl, drop, store, hdrop, -, hamount⟩ := claimOf_spec hof
    refine ⟨drop, hdrop, ?_⟩
    rw [hamount]
    exact Std.min_le_left

end Aetheris
