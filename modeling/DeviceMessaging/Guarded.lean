import Mathlib.Logic.Basic

/-- Guards that are held by slots: each guard that is held has one holder. -/
structure Guarded {ι κ : Type} (held : κ → Prop) (inside : ι → κ → Prop) : Prop where
  holder : ∀ k, held k ↔ ∃ j, inside j k
  single : ∀ i j k, inside i k → inside j k → i = j

namespace Guarded

variable {ι κ : Type} {held held' : κ → Prop} {inside inside' : ι → κ → Prop}

/-- What one slot can do: nothing to its guards, take one that is free, or give one back. -/
inductive Step (held held' was now : κ → Prop) : Prop
  | keep (hheld : ∀ k, held' k ↔ held k) (hin : ∀ k, now k ↔ was k)
  | take (k : κ) (hfree : ¬ held k) (hheld : ∀ l, held' l ↔ held l ∨ l = k)
    (hin : ∀ l, now l ↔ was l ∨ l = k)
  | give (k : κ) (hwas : was k) (hheld : ∀ l, held' l ↔ held l ∧ l ≠ k)
    (hin : ∀ l, now l ↔ was l ∧ l ≠ k)

theorem idle (hfree : ∀ k, ¬ held k) (hout : ∀ j k, ¬ inside j k) : Guarded held inside where
  holder k := ⟨fun h => absurd h (hfree k), fun ⟨j, hj⟩ => absurd hj (hout j k)⟩
  single i _ k hi := absurd hi (hout i k)

theorem congr (hg : Guarded held inside) (hheld : ∀ k, held' k ↔ held k)
    (hin : ∀ j k, inside' j k ↔ inside j k) : Guarded held' inside' where
  holder k := by
    rw [hheld k, hg.holder k]
    exact exists_congr fun j => (hin j k).symm
  single i j k hi hj := hg.single i j k ((hin i k).mp hi) ((hin j k).mp hj)

/-- A step of one slot, while the others stand still. -/
theorem turn (hg : Guarded held inside) {i : ι} (hothers : ∀ j, j ≠ i → ∀ k, inside' j k ↔ inside j k)
    (hs : Step held held' (inside i) (inside' i)) : Guarded held' inside' := by
  cases hs with
  | keep hheld hin =>
    refine hg.congr hheld fun j k => ?_
    by_cases hij : j = i
    · subst hij
      exact hin k
    · exact hothers j hij k
  | take k hfree hheld hin =>
    -- nobody was inside the guard that is taken
    have hnone : ∀ j, ¬ inside j k := fun j hj => hfree ((hg.holder k).mpr ⟨j, hj⟩)
    have hold : ∀ j l, inside' j l → inside j l ∨ (j = i ∧ l = k) := by
      intro j l hj
      by_cases hij : j = i
      · subst hij
        exact ((hin l).mp hj).imp_right fun he => ⟨rfl, he⟩
      · exact .inl ((hothers j hij l).mp hj)
    have hnew : ∀ j l, inside j l → inside' j l := by
      intro j l hj
      by_cases hij : j = i
      · subst hij
        exact (hin l).mpr (.inl hj)
      · exact (hothers j hij l).mpr hj
    constructor
    · intro l
      rw [hheld l, hg.holder l]
      constructor
      · rintro (⟨j, hj⟩ | rfl)
        · exact ⟨j, hnew j l hj⟩
        · exact ⟨i, (hin l).mpr (.inr rfl)⟩
      · rintro ⟨j, hj⟩
        exact (hold j l hj).imp (fun h => ⟨j, h⟩) fun h => h.2
    · intro a b l ha hb
      rcases hold a l ha with ha | ⟨rfl, rfl⟩
      · rcases hold b l hb with hb | ⟨rfl, rfl⟩
        · exact hg.single a b l ha hb
        · exact absurd ha (hnone a)
      · rcases hold b l hb with hb | ⟨rfl, -⟩
        · exact absurd hb (hnone b)
        · rfl
  | give k hwas hheld hin =>
    have hsame : ∀ j l, inside' j l ↔ inside j l ∧ l ≠ k := by
      intro j l
      by_cases hij : j = i
      · subst hij
        exact hin l
      · rw [hothers j hij l]
        refine (and_iff_left_of_imp fun hj he => ?_).symm
        subst he
        exact hij (hg.single j i l hj hwas)
    constructor
    · intro l
      rw [hheld l, hg.holder l]
      constructor
      · rintro ⟨⟨j, hj⟩, hne⟩
        exact ⟨j, (hsame j l).mpr ⟨hj, hne⟩⟩
      · rintro ⟨j, hj⟩
        obtain ⟨hj, hne⟩ := (hsame j l).mp hj
        exact ⟨⟨j, hj⟩, hne⟩
    · intro a b l ha hb
      exact hg.single a b l ((hsame a l).mp ha).1 ((hsame b l).mp hb).1

end Guarded
