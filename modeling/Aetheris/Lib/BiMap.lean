import Mathlib.Data.List.Nodup

/-!
# A bidirectional map

`BiMap α β` is a finite one-to-one relation: each left value is paired with at most one right
value and the other way round. Inserting a pair first drops every pair that shares one of its two
ends, so the invariant can never be broken.
-/

/-- A finite one-to-one relation, as a list of pairs in no particular order. -/
structure BiMap (α β : Type) where
  pairs : List (α × β)
  nodupLeft : (pairs.map Prod.fst).Nodup
  nodupRight : (pairs.map Prod.snd).Nodup

namespace BiMap

open Function

variable {α β : Type}

def empty : BiMap α β := ⟨[], List.nodup_nil, List.nodup_nil⟩

/-- `Rel m a b`: the pair `(a, b)` is in the map. -/
def Rel (m : BiMap α β) (a : α) (b : β) : Prop := (a, b) ∈ m.pairs

theorem Rel.left_unique {m : BiMap α β} {a a' : α} {b : β} (h : m.Rel a b) (h' : m.Rel a' b) :
    a = a' :=
  congrArg Prod.fst (List.inj_on_of_nodup_map m.nodupRight h h' rfl)

theorem Rel.right_unique {m : BiMap α β} {a : α} {b b' : β} (h : m.Rel a b) (h' : m.Rel a b') :
    b = b' :=
  congrArg Prod.snd (List.inj_on_of_nodup_map m.nodupLeft h h' rfl)

/-- Different left ends have different right ends. -/
theorem Rel.right_ne {m : BiMap α β} {a a' : α} {b b' : β} (h : m.Rel a b) (h' : m.Rel a' b')
    (hne : a ≠ a') : b ≠ b' := by
  intro hb
  subst hb
  exact hne (h.left_unique h')

/-- Keeps the pairs that satisfy `p`. -/
def filter (m : BiMap α β) (p : α × β → Bool) : BiMap α β where
  pairs := m.pairs.filter p
  nodupLeft := m.nodupLeft.sublist (List.filter_sublist.map _)
  nodupRight := m.nodupRight.sublist (List.filter_sublist.map _)

theorem rel_filter {m : BiMap α β} {p : α × β → Bool} {a : α} {b : β} :
    (m.filter p).Rel a b ↔ m.Rel a b ∧ p (a, b) = true := by
  simp [Rel, filter]

theorem not_rel_empty (a : α) (b : β) : ¬ (empty : BiMap α β).Rel a b := by simp [Rel, empty]

section Left

variable [DecidableEq α]

def getByLeft (m : BiMap α β) (a : α) : Option β := (m.pairs.find? (·.1 = a)).map Prod.snd

theorem getByLeft_eq_some {m : BiMap α β} {a : α} {b : β} :
    m.getByLeft a = some b ↔ m.Rel a b := by
  unfold getByLeft
  constructor
  · intro h
    obtain ⟨⟨a', b'⟩, hfind, rfl⟩ := Option.map_eq_some_iff.mp h
    have ha : a' = a := by simpa using List.find?_some hfind
    exact ha ▸ List.mem_of_find?_eq_some hfind
  · intro h
    cases hfind : m.pairs.find? (·.1 = a) with
    | none => exact absurd (List.find?_eq_none.mp hfind (a, b) h) (by simp)
    | some ab =>
      obtain ⟨a', b'⟩ := ab
      have ha : a' = a := by simpa using List.find?_some hfind
      subst ha
      have hrel : m.Rel a' b' := List.mem_of_find?_eq_some hfind
      simp [hrel.right_unique h]

theorem getByLeft_eq_none {m : BiMap α β} {a : α} :
    m.getByLeft a = none ↔ ∀ b, ¬ m.Rel a b := by
  rw [Option.eq_none_iff_forall_not_mem]
  simp only [Option.mem_def, getByLeft_eq_some]

/-- Removes the pair whose left end is `a`. -/
def removeByLeft (m : BiMap α β) (a : α) : BiMap α β := m.filter (·.1 ≠ a)

theorem rel_removeByLeft {m : BiMap α β} {a a' : α} {b : β} :
    (m.removeByLeft a).Rel a' b ↔ m.Rel a' b ∧ a' ≠ a := by
  simp [removeByLeft, rel_filter]

end Left

section Right

variable [DecidableEq β]

def getByRight (m : BiMap α β) (b : β) : Option α := (m.pairs.find? (·.2 = b)).map Prod.fst

theorem getByRight_eq_some {m : BiMap α β} {a : α} {b : β} :
    m.getByRight b = some a ↔ m.Rel a b := by
  unfold getByRight
  constructor
  · intro h
    obtain ⟨⟨a', b'⟩, hfind, rfl⟩ := Option.map_eq_some_iff.mp h
    have hb : b' = b := by simpa using List.find?_some hfind
    exact hb ▸ List.mem_of_find?_eq_some hfind
  · intro h
    cases hfind : m.pairs.find? (·.2 = b) with
    | none => exact absurd (List.find?_eq_none.mp hfind (a, b) h) (by simp)
    | some ab =>
      obtain ⟨a', b'⟩ := ab
      have hb : b' = b := by simpa using List.find?_some hfind
      subst hb
      have hrel : m.Rel a' b' := List.mem_of_find?_eq_some hfind
      simp [hrel.left_unique h]

theorem getByRight_eq_none {m : BiMap α β} {b : β} :
    m.getByRight b = none ↔ ∀ a, ¬ m.Rel a b := by
  rw [Option.eq_none_iff_forall_not_mem]
  simp only [Option.mem_def, getByRight_eq_some]

end Right

section Insert

variable [DecidableEq α] [DecidableEq β]

/-- Inserts a pair, dropping the pairs that share an end with it. -/
def insert (m : BiMap α β) (a : α) (b : β) : BiMap α β where
  pairs := (a, b) :: (m.filter fun p => p.1 ≠ a ∧ p.2 ≠ b).pairs
  nodupLeft := by
    rw [List.map_cons, List.nodup_cons]
    refine ⟨?_, (m.filter _).nodupLeft⟩
    intro hmem
    obtain ⟨p, hp, hpa⟩ := List.mem_map.mp hmem
    have := List.of_mem_filter hp
    simp [hpa] at this
  nodupRight := by
    rw [List.map_cons, List.nodup_cons]
    refine ⟨?_, (m.filter _).nodupRight⟩
    intro hmem
    obtain ⟨p, hp, hpb⟩ := List.mem_map.mp hmem
    have := List.of_mem_filter hp
    simp [hpb] at this

theorem rel_insert {m : BiMap α β} {a a' : α} {b b' : β} :
    (m.insert a b).Rel a' b' ↔ (a' = a ∧ b' = b) ∨ (m.Rel a' b' ∧ a' ≠ a ∧ b' ≠ b) := by
  simp [insert, Rel, filter]

/-- Inserting a pair with two new ends only adds that pair. -/
theorem rel_insert_fresh {m : BiMap α β} {a a' : α} {b b' : β}
    (ha : ∀ b, ¬ m.Rel a b) (hb : ∀ a, ¬ m.Rel a b) :
    (m.insert a b).Rel a' b' ↔ (a' = a ∧ b' = b) ∨ m.Rel a' b' := by
  rw [rel_insert]
  constructor
  · rintro (h | ⟨h, -⟩)
    · exact Or.inl h
    · exact Or.inr h
  · rintro (h | h)
    · exact Or.inl h
    · refine Or.inr ⟨h, ?_, ?_⟩
      · rintro rfl; exact ha _ h
      · rintro rfl; exact hb _ h

/-- Lookups after a new left end was inserted. -/
theorem getByRight_insert {m : BiMap α β} {a : α} (b : β) (ha : ∀ b, ¬ m.Rel a b) :
    (m.insert a b).getByRight = update m.getByRight b (some a) := by
  funext b'
  by_cases hb : b' = b
  · subst hb
    rw [update_self]
    exact getByRight_eq_some.mpr (rel_insert.mpr (Or.inl ⟨rfl, rfl⟩))
  · rw [update_of_ne hb]
    ext a'
    rw [getByRight_eq_some, getByRight_eq_some, rel_insert]
    constructor
    · rintro (⟨-, heq⟩ | ⟨hrel, -, -⟩)
      · exact absurd heq hb
      · exact hrel
    · intro hrel
      refine Or.inr ⟨hrel, ?_, hb⟩
      rintro rfl
      exact ha b' hrel

theorem getByRight_removeByLeft {m : BiMap α β} {a : α} {b : β} (h : m.Rel a b) :
    (m.removeByLeft a).getByRight = update m.getByRight b none := by
  funext b'
  by_cases hb : b' = b
  · subst hb
    rw [update_self, getByRight_eq_none]
    intro a' hrel
    obtain ⟨hrel, hne⟩ := rel_removeByLeft.mp hrel
    exact hne (hrel.left_unique h)
  · rw [update_of_ne hb]
    ext a'
    rw [getByRight_eq_some, getByRight_eq_some, rel_removeByLeft]
    refine ⟨And.left, fun hrel => ⟨hrel, ?_⟩⟩
    rintro rfl
    exact hb (hrel.right_unique h)

end Insert

end BiMap
