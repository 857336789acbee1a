import Mathlib.Data.List.Perm.Basic
import Mathlib.Data.Fintype.Pi
import Mathlib.Logic.Function.Basic

/-!
# Archetype storage of an entity-component world

A general store of entities carrying typed components, over an arbitrary finite family
`V : C → Type` of component types. Rows live in *tables*, one table per set of component
kinds carried (an archetype):

* spawning pushes a row at the end of its table;
* despawning is a `swapRemove` — the last row of the table moves into the hole;
* inserting a component the entity did not carry moves its row to another table;
* a query visits the tables in order, and the rows of each table in order.

Each cell remembers the change tick at which it was last written.

Nothing outside this module looks at tables. The four lemmas `cells?_spawn`, `cells?_insert`,
`cells?_modify`, `cells?_despawn` say what each operation does to the cells of every entity,
and the `get_*`, `alive_*` lemmas are read off them.
-/

namespace Ecs

open Function

/-- An entity handle. Handles are never reused (the generation part of a real handle). -/
structure Entity where
  id : Nat
deriving DecidableEq, Repr

/-- A component value with the change tick of its last write. -/
structure Stamped (α : Type) where
  val : α
  changed : Nat

/-- Removes index `i` by moving the last element into its place. -/
def swapRemove {α : Type} (l : List α) (i : Nat) : List α :=
  match l.getLast? with
  | none => l
  | some last => (l.set i last).dropLast

theorem swapRemove_perm {α : Type} (l : List α) (i : Nat) (hi : i < l.length) :
    (l[i] :: swapRemove l i).Perm l := by
  obtain ⟨front, last, rfl⟩ : ∃ front last, l = front ++ [last] :=
    ⟨l.dropLast, l.getLast (List.ne_nil_of_length_pos (by omega)),
      (List.dropLast_append_getLast _).symm⟩
  simp only [swapRemove, List.getLast?_append, List.getLast?_singleton, Option.some_or]
  by_cases hlast : i = front.length
  · subst hlast
    simpa using (List.perm_append_singleton last front).symm
  · have hlt : i < front.length := by
      simp only [List.length_append, List.length_singleton] at hi
      omega
    rw [List.set_append_left _ _ hlt, List.dropLast_concat, List.getElem_append_left hlt]
    -- `front.set i last` is `last` with the `i`-th element taken out of `front`
    have hset : (front[i] :: front.set i last).Perm (front[i] :: last :: front.eraseIdx i) :=
      (List.set_perm_cons_eraseIdx hlt last).cons _
    have hback : (last :: front[i] :: front.eraseIdx i).Perm (last :: front) :=
      (List.getElem_cons_eraseIdx_perm hlt).cons _
    exact (hset.trans ((List.Perm.swap _ _ _).trans hback)).trans
      (List.perm_append_singleton last front).symm

variable {C : Type} {V : C → Type}

/-- The cells of one entity. -/
abbrev Cells (V : C → Type) := (k : C) → Option (Stamped (V k))

/-- Component values handed to `spawn` and `insert`. -/
abbrev Bundle (V : C → Type) := (k : C) → Option (V k)

/-- The bundle of a tuple of components; a later entry replaces an earlier one. -/
def bundle [DecidableEq C] (l : List (Σ k, V k)) : Bundle V :=
  l.foldl (fun b c => Function.update b c.1 (some c.2)) (fun _ => none)

section Bundle

variable [DecidableEq C]

theorem bundle_append_singleton (l : List (Σ k, V k)) (c : Σ k, V k) :
    bundle (l ++ [c]) = update (bundle l) c.1 (some c.2) := by
  simp [bundle]

theorem bundle_eq_none {l : List (Σ k, V k)} {k : C} (h : ∀ c ∈ l, c.1 ≠ k) :
    bundle l k = none := by
  induction l using List.reverseRecOn with
  | nil => rfl
  | append_singleton l c ih =>
    rw [bundle_append_singleton, update_of_ne (h c (by simp)).symm]
    exact ih fun c' hc' => h c' (List.mem_append_left _ hc')

@[simp] theorem bundle_singleton_self (k : C) (v : V k) : bundle [⟨k, v⟩] k = some v := by
  simp [bundle]

/-- The first entry counts when no later one has its kind. -/
theorem bundle_cons_self {l : List (Σ k, V k)} {k : C} {v : V k} (h : ∀ c ∈ l, c.1 ≠ k) :
    bundle (⟨k, v⟩ :: l) k = some v := by
  induction l using List.reverseRecOn with
  | nil => simp
  | append_singleton l c ih =>
    rw [← List.cons_append, bundle_append_singleton, update_of_ne (h c (by simp)).symm]
    exact ih fun c' hc' => h c' (List.mem_append_left _ hc')

end Bundle

structure Row (V : C → Type) where
  entity : Entity
  cells : Cells V

/-- The component kinds a row carries: its archetype. -/
def Row.sig (r : Row V) : C → Bool := fun k => (r.cells k).isSome

structure Table (V : C → Type) where
  sig : C → Bool
  rows : List (Row V)

/-! ## Tables -/

/-- All rows, in the order a query visits them. -/
def allRows (ts : List (Table V)) : List (Row V) := ts.flatMap (·.rows)

section Tables

variable [Fintype C]

/-- Appends a row to the table of its archetype, creating the table if there is none. -/
def pushRow (r : Row V) : List (Table V) → List (Table V)
  | [] => [⟨r.sig, [r]⟩]
  | t :: ts =>
    if t.sig = r.sig then { t with rows := t.rows ++ [r] } :: ts else t :: pushRow r ts

theorem allRows_pushRow (r : Row V) (ts : List (Table V)) :
    (allRows (pushRow r ts)).Perm (r :: allRows ts) := by
  induction ts with
  | nil => simp [pushRow, allRows]
  | cons t ts ih =>
    unfold pushRow
    split
    · simp only [allRows, List.flatMap_cons, List.append_assoc, List.singleton_append]
      exact List.perm_middle
    · have hstep : (t.rows ++ allRows (pushRow r ts)).Perm (t.rows ++ (r :: allRows ts)) :=
        ih.append_left t.rows
      simpa [allRows] using hstep.trans List.perm_middle

end Tables

/-- Removes the row of `e` from one table. -/
def Table.remove (e : Entity) (t : Table V) : Table V :=
  match t.rows.findIdx? (·.entity = e) with
  | none => t
  | some i => { t with rows := swapRemove t.rows i }

theorem Table.rows_remove_perm (e : Entity) (t : Table V)
    (hnodup : (t.rows.map (·.entity)).Nodup) :
    (t.remove e).rows.Perm (t.rows.filter (·.entity ≠ e)) := by
  unfold Table.remove
  split
  · next hnone =>
    have hall : ∀ r ∈ t.rows, r.entity ≠ e := by
      simpa [List.findIdx?_eq_none_iff] using hnone
    rw [List.filter_eq_self.mpr (by simpa using hall)]
  · next i hsome =>
    obtain ⟨hi, hei, -⟩ := List.findIdx?_eq_some_iff_getElem.mp hsome
    have heq : t.rows[i].entity = e := by simpa using hei
    have hperm := swapRemove_perm t.rows i hi
    have hnodup' : ((t.rows[i] :: swapRemove t.rows i).map (·.entity)).Nodup :=
      (hperm.map _).nodup_iff.mpr hnodup
    -- the removed row is the only one of `e`, so the rest passes the filter unchanged
    have hrest : ∀ r ∈ swapRemove t.rows i, r.entity ≠ e := by
      intro r hr hre
      rw [List.map_cons, List.nodup_cons, heq] at hnodup'
      exact hnodup'.1 (hre ▸ List.mem_map_of_mem hr)
    have hfilter := hperm.filter (fun r : Row V => decide (r.entity ≠ e))
    rw [List.filter_cons_of_neg (by simp [heq]),
      List.filter_eq_self.mpr (by simpa using hrest)] at hfilter
    exact hfilter

/-- Applies `g` to every row, in place. -/
def mapRows (g : Row V → Row V) (ts : List (Table V)) : List (Table V) :=
  ts.map fun t => { t with rows := t.rows.map g }

theorem allRows_mapRows (g : Row V → Row V) (ts : List (Table V)) :
    allRows (mapRows g ts) = (allRows ts).map g := by
  simp [allRows, mapRows, List.flatMap_map, List.map_flatMap]

theorem mapRows_congr {g g' : Row V → Row V} {ts : List (Table V)}
    (h : ∀ r ∈ allRows ts, g r = g' r) : mapRows g ts = mapRows g' ts := by
  unfold mapRows
  refine List.map_congr_left fun t ht => ?_
  rw [List.map_congr_left fun r hr => h r (List.mem_flatMap.mpr ⟨t, ht, hr⟩)]

theorem mapRows_eq_self {g : Row V → Row V} {ts : List (Table V)}
    (h : ∀ r ∈ allRows ts, g r = r) : mapRows g ts = ts := by
  refine (mapRows_congr h).trans ?_
  unfold mapRows
  simp only [List.map_id']

theorem allRows_remove_perm (e : Entity) (ts : List (Table V))
    (hnodup : ((allRows ts).map (·.entity)).Nodup) :
    (allRows (ts.map (Table.remove e))).Perm ((allRows ts).filter (·.entity ≠ e)) := by
  simp only [allRows, List.flatMap_map, List.filter_flatMap]
  apply List.Perm.flatMap_left
  intro t ht
  refine t.rows_remove_perm e (hnodup.sublist (List.Sublist.map _ ?_))
  exact List.sublist_flatten_of_mem (List.mem_map_of_mem ht)

/-! ## Storage -/

/-- The rows of a world. At most one row per entity, and every handle ever used lies below
`next`. -/
structure Storage (V : C → Type) where
  tables : List (Table V)
  next : Nat
  tick : Nat
  nodup : ((allRows tables).map (·.entity)).Nodup
  fresh : ∀ r ∈ allRows tables, r.entity.id < next

namespace Storage

/-- An empty world; change ticks start at `1`. -/
def empty : Storage V where
  tables := []
  next := 0
  tick := 1
  nodup := by simp [allRows]
  fresh := by simp [allRows]

def rows (s : Storage V) : List (Row V) := allRows s.tables

/-- All live entities, in the order a query visits them. -/
def entities (s : Storage V) : List Entity := s.rows.map (·.entity)

def row? (s : Storage V) (e : Entity) : Option (Row V) := s.rows.find? (·.entity = e)

def cells? (s : Storage V) (e : Entity) : Option (Cells V) := (s.row? e).map (·.cells)

def alive (s : Storage V) (e : Entity) : Bool := (s.cells? e).isSome

def get (s : Storage V) (e : Entity) (k : C) : Option (V k) :=
  (s.cells? e).bind fun c => (c k).map (·.val)

/-- The change tick of a component. -/
def changedAt (s : Storage V) (e : Entity) (k : C) : Option Nat :=
  (s.cells? e).bind fun c => (c k).map (·.changed)

def has (s : Storage V) (e : Entity) (k : C) : Bool := (s.get e k).isSome

theorem row?_eq_some_iff (s : Storage V) (e : Entity) (r : Row V) :
    s.row? e = some r ↔ r ∈ s.rows ∧ r.entity = e := by
  constructor
  · intro h
    exact ⟨List.mem_of_find?_eq_some h, by simpa using List.find?_some h⟩
  · rintro ⟨hmem, rfl⟩
    -- two rows of one entity would contradict `nodup`
    cases hfind : s.row? r.entity with
    | none =>
      have := List.find?_eq_none.mp hfind r hmem
      simp at this
    | some r' =>
      have hr' : r' ∈ s.rows := List.mem_of_find?_eq_some hfind
      have heq : r'.entity = r.entity := by simpa using List.find?_some hfind
      rw [List.inj_on_of_nodup_map s.nodup hr' hmem heq]

theorem mem_entities (s : Storage V) (e : Entity) : e ∈ s.entities ↔ s.alive e = true := by
  simp only [entities, List.mem_map, alive, cells?, Option.isSome_map, Option.isSome_iff_exists,
    row?_eq_some_iff]

theorem lt_next_of_alive {s : Storage V} {e : Entity} (h : s.alive e = true) :
    e.id < s.next := by
  obtain ⟨r, hr, rfl⟩ := List.mem_map.mp ((s.mem_entities e).mpr h)
  exact s.fresh r hr

theorem alive_of_get {s : Storage V} {e : Entity} {k : C} {v : V k} (h : s.get e k = some v) :
    s.alive e = true := by
  unfold get at h
  unfold alive
  cases hc : s.cells? e with
  | none => simp [hc] at h
  | some c => rfl

theorem get_of_not_alive {s : Storage V} {e : Entity} (h : s.alive e = false) (k : C) :
    s.get e k = none := by
  have hnone : s.cells? e = none := by simpa [alive] using h
  simp [get, hnone]

/-! ### Spawning -/

/-- `b` stamped with the current change tick. -/
def stamp (s : Storage V) (b : Bundle V) : Cells V := fun k => (b k).map (⟨·, s.tick⟩)

/-- The handle `spawn` gives to the new entity. -/
def spawned (s : Storage V) : Entity := ⟨s.next⟩

theorem not_alive_spawned (s : Storage V) : s.alive s.spawned = false := by
  by_contra h
  have := lt_next_of_alive (Bool.eq_true_of_not_eq_false h)
  simp [spawned] at this

section

variable [Fintype C]

def spawn (s : Storage V) (b : Bundle V) : Storage V where
  tables := pushRow ⟨⟨s.next⟩, s.stamp b⟩ s.tables
  next := s.next + 1
  tick := s.tick
  nodup := by
    rw [((allRows_pushRow _ _).map _).nodup_iff, List.map_cons, List.nodup_cons]
    refine ⟨fun hmem => ?_, s.nodup⟩
    obtain ⟨r, hr, hre⟩ := List.mem_map.mp hmem
    have := s.fresh r hr
    simp [hre] at this
  fresh := by
    intro r hr
    rcases List.mem_cons.mp ((allRows_pushRow _ _).mem_iff.mp hr) with rfl | hr
    · exact Nat.lt_succ_self _
    · exact Nat.lt_succ_of_lt (s.fresh r hr)

theorem rows_spawn (s : Storage V) (b : Bundle V) :
    (s.spawn b).rows.Perm (⟨s.spawned, s.stamp b⟩ :: s.rows) :=
  allRows_pushRow _ _

theorem cells?_spawn (s : Storage V) (b : Bundle V) (e : Entity) :
    (s.spawn b).cells? e = if e = s.spawned then some (s.stamp b) else s.cells? e := by
  unfold cells?
  split
  · next he =>
    have hrow : (s.spawn b).row? e = some ⟨s.spawned, s.stamp b⟩ :=
      (row?_eq_some_iff _ _ _).mpr
        ⟨(rows_spawn s b).mem_iff.mpr List.mem_cons_self, he.symm⟩
    simp [hrow]
  · next he =>
    congr 1
    ext r
    simp only [row?_eq_some_iff, (rows_spawn s b).mem_iff, List.mem_cons]
    constructor
    · rintro ⟨rfl | hmem, hre⟩
      · exact absurd hre.symm he
      · exact ⟨hmem, hre⟩
    · rintro ⟨hmem, hre⟩
      exact ⟨Or.inr hmem, hre⟩

theorem get_spawn (s : Storage V) (b : Bundle V) (e : Entity) (k : C) :
    (s.spawn b).get e k = if e = s.spawned then b k else s.get e k := by
  unfold get
  rw [cells?_spawn]
  split
  · cases hb : b k <;> simp [stamp, hb]
  · rfl

theorem alive_spawn (s : Storage V) (b : Bundle V) (e : Entity) :
    (s.spawn b).alive e = (decide (e = s.spawned) || s.alive e) := by
  unfold alive
  rw [cells?_spawn]
  split <;> simp_all

end

/-! ### Removing -/

def despawn (s : Storage V) (e : Entity) : Storage V where
  tables := s.tables.map (Table.remove e)
  next := s.next
  tick := s.tick
  nodup := by
    rw [((allRows_remove_perm e s.tables s.nodup).map _).nodup_iff]
    exact s.nodup.sublist (List.filter_sublist.map _)
  fresh := by
    intro r hr
    have := (allRows_remove_perm e s.tables s.nodup).mem_iff.mp hr
    exact s.fresh r (List.mem_of_mem_filter this)

variable (s : Storage V)

theorem rows_despawn (e : Entity) : (s.despawn e).rows.Perm (s.rows.filter (·.entity ≠ e)) :=
  allRows_remove_perm e s.tables s.nodup

theorem cells?_despawn (e e' : Entity) :
    (s.despawn e).cells? e' = if e' = e then none else s.cells? e' := by
  unfold cells?
  split
  · next he =>
    rw [Option.map_eq_none_iff, Option.eq_none_iff_forall_not_mem]
    intro r hr
    obtain ⟨hmem, hre⟩ := (row?_eq_some_iff _ _ _).mp hr
    have := List.of_mem_filter ((rows_despawn s e).mem_iff.mp hmem)
    exact absurd (hre.trans he) (by simpa using this)
  · next he =>
    congr 1
    ext r
    simp only [row?_eq_some_iff, (rows_despawn s e).mem_iff, List.mem_filter, decide_eq_true_eq]
    constructor
    · rintro ⟨⟨hmem, -⟩, hre⟩
      exact ⟨hmem, hre⟩
    · rintro ⟨hmem, hre⟩
      exact ⟨⟨hmem, fun h => he (hre.symm.trans h)⟩, hre⟩

theorem get_despawn (e e' : Entity) (k : C) :
    (s.despawn e).get e' k = if e' = e then none else s.get e' k := by
  unfold get
  rw [cells?_despawn]
  split <;> rfl

theorem alive_despawn (e e' : Entity) :
    (s.despawn e).alive e' = (decide (e' ≠ e) && s.alive e') := by
  unfold alive
  rw [cells?_despawn]
  split <;> simp_all

/-! ### Writing in place -/

/-- Rewrites the cells of `e`, keeping its row where it is. -/
def writeRow (s : Storage V) (e : Entity) (g : Cells V → Cells V) : Storage V where
  tables := mapRows (fun r => if r.entity = e then { r with cells := g r.cells } else r) s.tables
  next := s.next
  tick := s.tick
  nodup := by
    have hmap : ((allRows s.tables).map
        (fun r => if r.entity = e then { r with cells := g r.cells } else r)).map (·.entity)
        = (allRows s.tables).map (·.entity) := by
      rw [List.map_map]
      apply List.map_congr_left
      intro r _
      simp only [Function.comp_apply]
      split <;> rfl
    rw [allRows_mapRows, hmap]
    exact s.nodup
  fresh := by
    intro r hr
    rw [allRows_mapRows] at hr
    obtain ⟨r', hr', rfl⟩ := List.mem_map.mp hr
    have := s.fresh r' hr'
    split <;> exact this

theorem rows_writeRow (e : Entity) (g : Cells V → Cells V) : (s.writeRow e g).rows =
      s.rows.map fun r => if r.entity = e then { r with cells := g r.cells } else r :=
  allRows_mapRows _ _

theorem cells?_writeRow (e e' : Entity) (g : Cells V → Cells V) :
    (s.writeRow e g).cells? e' = if e' = e then (s.cells? e).map g else s.cells? e' := by
  have hfind : (s.writeRow e g).row? e' =
      (s.row? e').map fun r => if r.entity = e then { r with cells := g r.cells } else r := by
    unfold row?
    rw [rows_writeRow, List.find?_map]
    congr 2
    funext r
    simp only [comp_apply]
    split <;> rfl
  unfold cells?
  rw [hfind, Option.map_map]
  cases hrow : s.row? e' with
  | none =>
    split
    · next he => subst he; simp [hrow]
    · rfl
  | some r =>
    have hre : r.entity = e' := ((row?_eq_some_iff _ _ _).mp hrow).2
    by_cases he : e' = e
    · subst he; simp [hrow, hre]
    · simp [he, hre]

section

variable [DecidableEq C]

/-- Mutable access to one component: `f` is applied and the cell is stamped. -/
def modify (s : Storage V) (e : Entity) (k : C) (f : V k → V k) : Storage V :=
  s.writeRow e fun c => Function.update c k ((c k).map fun x => ⟨f x.val, s.tick⟩)

variable (s : Storage V)

theorem cells?_modify (e e' : Entity) (k : C) (f : V k → V k) : (s.modify e k f).cells? e' =
      if e' = e then
        (s.cells? e).map fun c => update c k ((c k).map fun x => ⟨f x.val, s.tick⟩)
      else s.cells? e' :=
  cells?_writeRow _ _ _ _

@[simp] theorem alive_modify (s : Storage V) (e e' : Entity) (k : C) (f : V k → V k) :
    (s.modify e k f).alive e' = s.alive e' := by
  unfold alive
  rw [cells?_modify]
  split
  · next he => subst he; simp
  · rfl

theorem get_modify_of_ne {e e' : Entity} {k k' : C} (f : V k → V k)
    (h : e' ≠ e ∨ k' ≠ k) : (s.modify e k f).get e' k' = s.get e' k' := by
  unfold get
  rw [cells?_modify]
  split
  · next he =>
    have hk : k' ≠ k := h.resolve_left (fun hne => hne he)
    subst he
    cases s.cells? e' <;> simp [update_of_ne hk]
  · rfl

theorem get_modify_self (e : Entity) (k : C) (f : V k → V k) :
    (s.modify e k f).get e k = (s.get e k).map f := by
  unfold get
  rw [cells?_modify, if_pos rfl]
  cases s.cells? e with
  | none => rfl
  | some c => cases hk : c k <;> simp [hk]

/-- Only the value that is there matters to a write. -/
theorem modify_congr {e : Entity} {k : C} {v : V k} {f g : V k → V k}
    (hv : s.get e k = some v) (h : f v = g v) : s.modify e k f = s.modify e k g := by
  have hrow : ∀ r ∈ s.rows, r.entity = e → ∀ x, r.cells k = some x → f x.val = g x.val := by
    intro r hr he x hx
    have hfind : s.row? e = some r := (row?_eq_some_iff s e r).mpr ⟨hr, he⟩
    simp only [get, cells?, hfind, Option.map_some, Option.bind_some, hx, Option.some.injEq] at hv
    rw [hv]
    exact h
  have htables : (s.modify e k f).tables = (s.modify e k g).tables := by
    refine mapRows_congr fun r hr => ?_
    split
    · next he =>
      have hcell : (r.cells k).map (fun x => (⟨f x.val, s.tick⟩ : Stamped (V k))) =
          (r.cells k).map fun x => ⟨g x.val, s.tick⟩ := by
        refine Option.map_congr fun x hx => ?_
        rw [hrow r hr he x hx]
      dsimp only
      rw [hcell]
    · rfl
  unfold modify writeRow at htables ⊢
  congr 1

theorem modify_of_none {e : Entity} {k : C} (f : V k → V k)
    (h : s.get e k = none) : s.modify e k f = s := by
  have htables : (s.modify e k f).tables = s.tables := by
    refine mapRows_eq_self fun r hr => ?_
    split
    · next he =>
      have hfind : s.row? e = some r := (row?_eq_some_iff s e r).mpr ⟨hr, he⟩
      have hcell : r.cells k = none := by
        simpa only [get, cells?, hfind, Option.map_some, Option.bind_some, Option.map_eq_none_iff]
          using h
      simp only [hcell, Option.map_none]
      rw [← hcell, update_eq_self]
    · rfl
  unfold modify writeRow at htables ⊢
  congr 1

theorem has_modify (e e' : Entity) (k k' : C) (f : V k → V k) :
    (s.modify e k f).has e' k' = s.has e' k' := by
  unfold has
  by_cases h : e' = e ∧ k' = k
  · obtain ⟨rfl, rfl⟩ := h
    rw [get_modify_self, Option.isSome_map]
  · rw [get_modify_of_ne]
    tauto

end

/-! ### Inserting components -/

/-- `b` over the old cells, stamped with the current change tick. -/
def merge (s : Storage V) (b : Bundle V) (c : Cells V) : Cells V := fun k =>
  match b k with
  | some v => some ⟨v, s.tick⟩
  | none => c k

section

variable [Fintype C]

/-- Puts the row of `e` with new cells at the end of the table of its new archetype. -/
def moveRow (s : Storage V) (r : Row V) (hr : r.entity.id < s.next) : Storage V where
  tables := pushRow r (s.despawn r.entity).tables
  next := s.next
  tick := s.tick
  nodup := by
    rw [((allRows_pushRow _ _).map _).nodup_iff, List.map_cons, List.nodup_cons]
    refine ⟨fun hmem => ?_, (s.despawn r.entity).nodup⟩
    obtain ⟨r', hr', hre⟩ := List.mem_map.mp hmem
    have := List.of_mem_filter ((rows_despawn s r.entity).mem_iff.mp hr')
    simp [hre] at this
  fresh := by
    intro r' hr'
    rcases List.mem_cons.mp ((allRows_pushRow _ _).mem_iff.mp hr') with rfl | hr'
    · exact hr
    · exact (s.despawn r.entity).fresh r' hr'

theorem cells?_moveRow (s : Storage V) (r : Row V) (hr : r.entity.id < s.next) (e' : Entity) :
    (s.moveRow r hr).cells? e' = if e' = r.entity then some r.cells else s.cells? e' := by
  have hrows : (s.moveRow r hr).rows.Perm (r :: (s.despawn r.entity).rows) := allRows_pushRow _ _
  unfold cells?
  split
  · next he =>
    have hrow : (s.moveRow r hr).row? e' = some r :=
      (row?_eq_some_iff _ _ _).mpr ⟨hrows.mem_iff.mpr List.mem_cons_self, he.symm⟩
    simp [hrow]
  · next he =>
    congr 1
    ext r'
    simp only [row?_eq_some_iff, hrows.mem_iff, List.mem_cons, (rows_despawn s r.entity).mem_iff,
      List.mem_filter, decide_eq_true_eq]
    constructor
    · rintro ⟨rfl | ⟨hmem, -⟩, hre⟩
      · exact absurd hre.symm he
      · exact ⟨hmem, hre⟩
    · rintro ⟨hmem, hre⟩
      exact ⟨Or.inr ⟨hmem, fun h => he (hre.symm.trans h)⟩, hre⟩

/-- Inserts the components of `b` into `e`, overwriting those it already carries. The row stays
where it is unless the archetype changes. -/
def insert (s : Storage V) (e : Entity) (b : Bundle V) : Storage V :=
  match h : s.row? e with
  | none => s
  | some r =>
    let r' : Row V := { r with cells := s.merge b r.cells }
    if r'.sig = r.sig then s.writeRow e (s.merge b)
    else s.moveRow r' (s.fresh r ((row?_eq_some_iff s e r).mp h).1)

theorem cells?_insert (s : Storage V) (e e' : Entity) (b : Bundle V) :
    (s.insert e b).cells? e' = if e' = e then (s.cells? e).map (s.merge b) else s.cells? e' := by
  unfold insert
  split
  · next h =>
    split
    · next he => subst he; simp [cells?, h]
    · rfl
  · next r h =>
    have hre : r.entity = e := ((row?_eq_some_iff s e r).mp h).2
    dsimp only
    split
    · rw [cells?_writeRow]
    · rw [cells?_moveRow]
      subst hre
      split
      · simp [cells?, h]
      · rfl

@[simp] theorem next_insert (s : Storage V) (e : Entity) (b : Bundle V) :
    (s.insert e b).next = s.next := by
  unfold insert
  split
  · rfl
  · dsimp only; split <;> rfl

@[simp] theorem alive_insert (s : Storage V) (e e' : Entity) (b : Bundle V) :
    (s.insert e b).alive e' = s.alive e' := by
  unfold alive
  rw [cells?_insert]
  split
  · next he => subst he; simp
  · rfl

theorem get_insert (s : Storage V) (e e' : Entity) (b : Bundle V) (k : C) :
    (s.insert e b).get e' k =
      if e' = e ∧ s.alive e = true then (b k).or (s.get e k) else s.get e' k := by
  unfold get alive
  rw [cells?_insert]
  by_cases he : e' = e
  · subst he
    cases s.cells? e' with
    | none => simp
    | some c => cases hb : b k <;> simp [merge, hb]
  · simp [he]

theorem get_insert_of_ne (s : Storage V) {e e' : Entity} (b : Bundle V) {k : C}
    (h : e' ≠ e ∨ b k = none) : (s.insert e b).get e' k = s.get e' k := by
  rw [get_insert]
  split
  · next he =>
    obtain ⟨rfl, -⟩ := he
    rw [h.resolve_left (fun hne => hne rfl), Option.none_or]
  · rfl

end

/-! ### The change tick -/

/-- Advances the change tick by one. -/
def advance (s : Storage V) : Storage V := { s with tick := s.tick + 1 }

end Storage

end Ecs
