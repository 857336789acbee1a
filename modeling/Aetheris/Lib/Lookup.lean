import Mathlib.Data.List.AList
import Mathlib.Logic.Function.Basic

/-!
# Lookups after an update

What is found in a partial map once it was changed in one place: for functions into `Option`, and
for association lists after `replace` and `erase`.
-/

namespace Function

variable {α β : Type} [DecidableEq α] {f : α → Option β} {a a' : α} {b : β}

theorem ne_of_update_none (h : update f a none a' = some b) : a' ≠ a := by
  rintro rfl
  rw [update_self] at h
  cases h

theorem of_update_none (h : update f a none a' = some b) : f a' = some b := by
  rwa [update_of_ne (ne_of_update_none h)] at h

/-- What is found is the new value, or was there before. -/
theorem of_update_some {b' : β} (h : update f a (some b) a' = some b') :
    (a' = a ∧ b' = b) ∨ (a' ≠ a ∧ f a' = some b') := by
  by_cases ha : a' = a
  · subst ha
    rw [update_self] at h
    exact Or.inl ⟨rfl, (Option.some.inj h).symm⟩
  · rw [update_of_ne ha] at h
    exact Or.inr ⟨ha, h⟩

/-- A property of all values survives an update with a value that has it. -/
theorem forall_update {P : β → Prop} (h : ∀ a b, f a = some b → P b) (hb : P b) :
    ∀ a' b', update f a (some b) a' = some b' → P b' := by
  intro a' b' h'
  rcases of_update_some h' with ⟨-, rfl⟩ | ⟨-, hold⟩
  · exact hb
  · exact h a' b' hold

theorem ne_none_of_update {x : Option β} (h : update f a x a' ≠ none) : a' = a ∨ f a' ≠ none := by
  by_cases ha : a' = a
  · exact Or.inl ha
  · rw [update_of_ne ha] at h
    exact Or.inr h

end Function

namespace AList

variable {α : Type} {β : α → Type} [DecidableEq α]

theorem dlookup_kreplace_of_ne (a a' : α) (b : β a) (l : List (Sigma β)) (hne : a' ≠ a) :
    List.dlookup a' (List.kreplace a b l) = List.dlookup a' l := by
  induction l with
  | nil => rfl
  | cons s l ih =>
    unfold List.kreplace at ih ⊢
    by_cases h : a = s.1
    · rw [List.lookmap_cons_some _ _ (dif_pos h)]
      obtain ⟨x, v⟩ := s
      subst h
      rw [List.dlookup_cons_ne _ _ hne, List.dlookup_cons_ne _ _ hne]
    · rw [List.lookmap_cons_none _ _ (dif_neg h)]
      obtain ⟨x, v⟩ := s
      by_cases hx : a' = x
      · subst hx
        rw [List.dlookup_cons_eq, List.dlookup_cons_eq]
      · rw [List.dlookup_cons_ne _ _ hx, List.dlookup_cons_ne _ _ hx, ih]

theorem lookup_replace_of_ne {a a' : α} (b : β a) (s : AList β) (hne : a' ≠ a) :
    (s.replace a b).lookup a' = s.lookup a' := dlookup_kreplace_of_ne a a' b s.entries hne

theorem lookup_replace_self {a : α} (b : β a) {s : AList β} (h : a ∈ s) :
    (s.replace a b).lookup a = some b := by
  have hmem : a ∈ s.entries.keys := h
  show List.dlookup a (List.kreplace a b s.entries) = some b
  generalize s.entries = l at hmem
  induction l with
  | nil => cases hmem
  | cons s l ih =>
    unfold List.kreplace at ih ⊢
    by_cases h : a = s.1
    · rw [List.lookmap_cons_some _ _ (dif_pos h), List.dlookup_cons_eq]
    · rw [List.lookmap_cons_none _ _ (dif_neg h)]
      obtain ⟨x, v⟩ := s
      rw [List.dlookup_cons_ne _ _ h]
      exact ih ((List.mem_cons.mp hmem).resolve_left h)

theorem lookup_erase_of_eq_none {a : α} {s : AList β} (h : s.lookup a = none) (a' : α) :
    (s.erase a').lookup a = none := by
  by_cases ha : a = a'
  · subst ha
    exact lookup_erase _ _
  · rw [lookup_erase_ne ha, h]

theorem erase_of_lookup_eq_none {a : α} {s : AList β} (h : s.lookup a = none) : s.erase a = s :=
  AList.ext (List.kerase_of_notMem_keys (lookup_eq_none.mp h))

/-- The entries that `p` accepts. -/
def retain (p : Sigma β → Bool) (s : AList β) : AList β :=
  ⟨s.entries.filter p, s.nodupKeys.sublist List.filter_sublist⟩

theorem lookup_retain (p : Sigma β → Bool) (s : AList β) (a : α) :
    (s.retain p).lookup a = (s.lookup a).filter fun b => p ⟨a, b⟩ := by
  ext b
  show b ∈ (s.retain p).lookup a ↔ b ∈ (s.lookup a).filter _
  rw [Option.mem_filter_iff, mem_lookup_iff, mem_lookup_iff]
  exact List.mem_filter

end AList
