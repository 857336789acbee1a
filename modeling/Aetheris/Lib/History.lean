import Aetheris.Lib.Ecs
import Aetheris.Lib.Run

/-!
# What was written to a storage, and when

A log lists the operations performed on a storage, in order. The change ticks of the cells are a
summary of the log: from a moment right after the tick has advanced, the cells with a later stamp
are exactly those the log touches (`changed_iff_touched`).
-/

namespace Ecs

variable {C : Type} {V : C → Type}

/-- An operation, as a log records it. -/
inductive Write (V : C → Type) where
  | spawn (e : Entity) (b : Bundle V)
  | insert (e : Entity) (b : Bundle V)
  | modify (e : Entity) (k : C)
  | despawn (e : Entity)
  | advance

/-- The operation inserts component `k` of `e` or accesses it mutably. -/
def Write.Touches (e : Entity) (k : C) : Write V → Prop
  | .spawn e' b | .insert e' b => e = e' ∧ (b k).isSome = true
  | .modify e' k' => e = e' ∧ k = k'
  | .despawn _ | .advance => False

namespace Storage

theorem exists_changedAt {s : Storage V} {e : Entity} {k : C} {v : V k} (h : s.get e k = some v) :
    ∃ t, s.changedAt e k = some t := by
  unfold get at h
  unfold changedAt
  obtain ⟨c, hc, hk⟩ := Option.bind_eq_some_iff.mp h
  obtain ⟨cell, hcell, -⟩ := Option.map_eq_some_iff.mp hk
  exact ⟨cell.changed, by rw [hc, Option.bind_some, hcell, Option.map_some]⟩

theorem changedAt_of_not_alive {s : Storage V} {e : Entity} (h : s.alive e = false) (k : C) :
    s.changedAt e k = none := by
  have hnone : s.cells? e = none := by simpa [alive] using h
  simp [changedAt, hnone]

/-! ## Change ticks after each operation -/

variable (s : Storage V)

theorem changedAt_spawn [Fintype C] (b : Bundle V) (e : Entity) (k : C) :
    (s.spawn b).changedAt e k =
      if e = s.spawned then (b k).map fun _ => s.tick else s.changedAt e k := by
  unfold changedAt
  rw [cells?_spawn]
  split
  · cases hb : b k <;> simp [stamp, hb]
  · rfl

theorem changedAt_despawn (e e' : Entity) (k : C) :
    (s.despawn e).changedAt e' k = if e' = e then none else s.changedAt e' k := by
  unfold changedAt
  rw [cells?_despawn]
  split <;> rfl

theorem changedAt_modify_self [DecidableEq C] (e : Entity) (k : C)
    (f : V k → V k) : (s.modify e k f).changedAt e k = (s.changedAt e k).map fun _ => s.tick := by
  unfold changedAt
  rw [cells?_modify, if_pos rfl]
  cases s.cells? e with
  | none => rfl
  | some c => cases hk : c k <;> simp [hk]

theorem changedAt_modify_of_ne [DecidableEq C] {e e' : Entity} {k k' : C}
    (f : V k → V k) (h : ¬ (e' = e ∧ k' = k)) :
    (s.modify e k f).changedAt e' k' = s.changedAt e' k' := by
  unfold changedAt
  rw [cells?_modify]
  split
  · next he =>
    have hk : k' ≠ k := fun hk => h ⟨he, hk⟩
    subst he
    cases s.cells? e' <;> simp [Function.update_of_ne hk]
  · rfl

theorem changedAt_insert [Fintype C] (e e' : Entity) (b : Bundle V) (k : C) :
    (s.insert e b).changedAt e' k =
      if e' = e ∧ s.alive e = true ∧ (b k).isSome = true then some s.tick
      else s.changedAt e' k := by
  unfold changedAt alive
  rw [cells?_insert]
  by_cases he : e' = e
  · subst he
    cases s.cells? e' with
    | none => simp
    | some c => cases hb : b k <;> simp [merge, hb]
  · simp [he]

/-! ## Logs -/

section Performs

variable [Fintype C] [DecidableEq C]

/-- One operation with its entry in the log. What has no effect is not an operation: an insertion
needs a live entity, and mutable access needs the component. -/
inductive Performs : Storage V → List (Write V) → Storage V → Prop where
  | spawn (s : Storage V) (b : Bundle V) : Performs s [.spawn s.spawned b] (s.spawn b)
  | insert (s : Storage V) (e : Entity) (b : Bundle V) (h : s.alive e = true) :
      Performs s [.insert e b] (s.insert e b)
  | modify (s : Storage V) (e : Entity) (k : C) (f : V k → V k) (h : s.has e k = true) :
      Performs s [.modify e k] (s.modify e k f)
  | despawn (s : Storage V) (e : Entity) : Performs s [.despawn e] (s.despawn e)
  | advance (s : Storage V) : Performs s [.advance] s.advance

/-- No stamp is ahead of the change tick. -/
def Dated (s : Storage V) : Prop := ∀ e k t, s.changedAt e k = some t → t ≤ s.tick

variable {e : Entity} {k : C} {log : List (Write V)} {s s' : Storage V} {t : Nat}

/-- What an operation does to the stamps: a touched cell gets the current tick, any other cell that
is there afterwards keeps its stamp. -/
theorem Performs.changedAt (h : Performs s log s') (ht : s'.changedAt e k = some t) :
    ((∃ w ∈ log, w.Touches e k) ∧ t = s.tick) ∨
      ((∀ w ∈ log, ¬ w.Touches e k) ∧ s.changedAt e k = some t) := by
  cases h with
  | spawn b =>
    rw [changedAt_spawn] at ht
    split at ht
    · next he =>
      obtain ⟨v, hv, rfl⟩ := Option.map_eq_some_iff.mp ht
      exact .inl (by simp [Write.Touches, he, hv])
    · next he => exact .inr (by simp [Write.Touches, he, ht])
  | insert e' b halive =>
    rw [changedAt_insert] at ht
    split at ht
    · next htouch => exact .inl (by simp_all [Write.Touches])
    · next htouch => exact .inr (by simp_all [Write.Touches])
  | modify e' k' f hhas =>
    by_cases htouch : e = e' ∧ k = k'
    · obtain ⟨rfl, rfl⟩ := htouch
      rw [changedAt_modify_self] at ht
      obtain ⟨_, -, rfl⟩ := Option.map_eq_some_iff.mp ht
      exact .inl (by simp [Write.Touches])
    · rw [changedAt_modify_of_ne s f htouch] at ht
      exact .inr ⟨by simpa [Write.Touches] using htouch, ht⟩
  | despawn e' =>
    rw [changedAt_despawn] at ht
    split at ht
    · cases ht
    · exact .inr (by simp [Write.Touches, ht])
  | advance => exact .inr ⟨by simp [Write.Touches], ht⟩

theorem Performs.tick_le (h : Performs s log s') : s.tick ≤ s'.tick := by
  cases h with
  | insert e b _ =>
    unfold Storage.insert
    split
    · exact Nat.le_refl _
    · dsimp only
      split <;> exact Nat.le_refl _
  | advance => exact Nat.le_succ _
  | _ => exact Nat.le_refl _

theorem Dated.performs (hs : s.Dated) (h : Performs s log s') : s'.Dated := by
  intro e k t ht
  rcases h.changedAt ht with ⟨-, rfl⟩ | ⟨-, hold⟩
  · exact h.tick_le
  · exact Nat.le_trans (hs e k t hold) h.tick_le

theorem Dated.run (hs : s.Dated) (h : Run Performs s log s') : s'.Dated :=
  h.invariant hs fun _ _ _ hdated hstep => hdated.performs hstep

/-- Once the tick has advanced, the cells with a later stamp are those touched since. -/
theorem changed_iff_touched (hs : s.Dated) (h : Run Performs s.advance log s')
    (ht : s'.changedAt e k = some t) : s.tick < t ↔ ∃ w ∈ log, w.Touches e k := by
  have hinv := h.history
    (I := fun log s' => s.tick < s'.tick ∧
      ∀ e k t, s'.changedAt e k = some t → (s.tick < t ↔ ∃ w ∈ log, w.Touches e k))
    ⟨Nat.lt_succ_self _, fun e k t ht => ?_⟩ ?_
  · exact hinv.2 e k t ht
  · -- nothing is touched yet, and nothing is newer than the old tick
    have hle : t ≤ s.tick := hs e k t ht
    simp only [List.not_mem_nil, false_and, exists_false, iff_false]
    omega
  · rintro log s₁ events s₂ ⟨htick, hcells⟩ hstep
    refine ⟨Nat.lt_of_lt_of_le htick hstep.tick_le, fun e k t ht => ?_⟩
    simp only [List.mem_append, or_and_right, exists_or]
    rcases hstep.changedAt ht with ⟨htouch, rfl⟩ | ⟨hkept, hold⟩
    · exact ⟨fun _ => .inr htouch, fun _ => htick⟩
    · rw [hcells e k t hold]
      refine ⟨.inl, fun h => h.resolve_right ?_⟩
      rintro ⟨w, hw, htouch⟩
      exact hkept w hw htouch

/-- A component that is there afterwards was touched or has its old value. -/
theorem Performs.get (h : Performs s log s') {v : V k} (hv : s'.get e k = some v) :
    (∃ w ∈ log, w.Touches e k) ∨ s.get e k = some v := by
  cases h with
  | spawn b =>
    rw [get_spawn] at hv
    split at hv
    · next he => exact .inl (by simp [Write.Touches, he, hv])
    · exact .inr hv
  | insert e' b halive =>
    by_cases hkept : e ≠ e' ∨ b k = none
    · exact .inr ((get_insert_of_ne s b hkept).symm.trans hv)
    · refine .inl ⟨_, List.mem_singleton_self _, ?_⟩
      rw [not_or, not_not] at hkept
      exact ⟨hkept.1, Option.isSome_iff_ne_none.mpr hkept.2⟩
  | modify e' k' f hhas =>
    by_cases htouch : e = e' ∧ k = k'
    · exact .inl ⟨_, List.mem_singleton_self _, htouch⟩
    · rw [get_modify_of_ne s f (Decidable.not_and_iff_or_not.mp htouch)] at hv
      exact .inr hv
  | despawn e' =>
    rw [get_despawn] at hv
    split at hv
    · cases hv
    · exact .inr hv
  | advance => exact .inr hv

theorem get_of_untouched (h : Run Performs s log s') {v : V k} (hv : s'.get e k = some v)
    (hno : ∀ w ∈ log, ¬ w.Touches e k) : s.get e k = some v := by
  have hinv := h.history
    (I := fun log s' => s'.get e k = some v →
      (∃ w ∈ log, w.Touches e k) ∨ s.get e k = some v) .inr ?_
  · refine (hinv hv).resolve_left ?_
    rintro ⟨w, hw, htouch⟩
    exact hno w hw htouch
  · intro log s₁ events s₂ hold hstep hv
    simp only [List.mem_append, or_and_right, exists_or]
    rcases hstep.get hv with htouch | hv
    · exact .inl (.inr htouch)
    · exact (hold hv).imp_left .inl

/-- Handles are never given out twice. -/
theorem Performs.next_le (h : Performs s log s') : s.next ≤ s'.next := by
  cases h with
  | spawn b => exact Nat.le_succ _
  | insert e b _ => rw [next_insert]
  | _ => exact Nat.le_refl _

theorem next_le_of_run (h : Run Performs s log s') : s.next ≤ s'.next :=
  h.invariant (I := fun s' => s.next ≤ s'.next) (Nat.le_refl _)
    fun _ _ _ hle hstep => Nat.le_trans hle hstep.next_le

/-- However the storage got from `s` to `s'`, component `k` of `e` was written on the way. -/
def WrittenBetween (s s' : Storage V) (e : Entity) (k : C) : Prop :=
  ∀ log, Run Performs s log s' → ∃ w ∈ log, w.Touches e k

/-- All the accounts of what happened since the tick advanced agree with the stamps. -/
theorem changed_iff_written (hs : s.Dated) (h : Run Performs s.advance log s')
    (ht : s'.changedAt e k = some t) : s.tick < t ↔ WrittenBetween s.advance s' e k :=
  ⟨fun hlt _ h' => (changed_iff_touched hs h' ht).mp hlt,
    fun hwritten => (changed_iff_touched hs h ht).mpr (hwritten log h)⟩

/-! ## Operations without effect -/

omit [DecidableEq C] in
theorem insert_of_not_alive (b : Bundle V) (h : s.alive e = false) : s.insert e b = s := by
  have hrow : s.row? e = none := by simpa [alive, cells?] using h
  unfold insert
  split
  · rfl
  · next r hr =>
    rw [hrow] at hr
    cases hr

omit [Fintype C] in
theorem modify_of_not_has (f : V k → V k) (h : s.has e k = false) : s.modify e k f = s := by
  -- a row of `e` has no cell to rewrite
  have hrow : ∀ r ∈ allRows s.tables, (if r.entity = e then
      { r with cells := Function.update r.cells k ((r.cells k).map fun x => ⟨f x.val, s.tick⟩) }
      else r) = r := by
    intro r hr
    split
    · next he =>
      have hget : s.get e k = (r.cells k).map (·.val) := by
        simp [get, cells?, (row?_eq_some_iff s e r).mpr ⟨hr, he⟩]
      have hnone : r.cells k = none := by simpa [has, hget] using h
      rw [hnone, Option.map_none, ← hnone, Function.update_eq_self]
    · rfl
  have htables : (s.modify e k f).tables = s.tables := by
    refine (List.map_congr_left fun t ht => ?_).trans (List.map_id' _)
    have hrows : t.rows.map _ = t.rows := (List.map_congr_left fun r hr =>
      hrow r (List.mem_flatMap.mpr ⟨t, ht, hr⟩)).trans (List.map_id' _)
    rw [hrows]
  unfold modify writeRow at htables ⊢
  obtain ⟨tables, next, tick, nodup, fresh⟩ := s
  simp only at htables ⊢
  congr

end Performs

end Storage

end Ecs
