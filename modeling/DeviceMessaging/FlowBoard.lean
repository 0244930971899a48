import Mathlib.Data.Set.Insert
import Mathlib.Logic.Function.Basic
import Mathlib.Logic.Relation
import Mathlib.Order.Basic

/-- Items at places, and the items there ever were. -/
structure Board (ι σ : Type) where
  place : ι → Option σ
  known : Set ι
  known_of_place : ∀ x, place x ≠ none → x ∈ known

namespace Board

variable {ι σ : Type}

def empty : Board ι σ where
  place _ := none
  known := ∅
  known_of_place _ h := absurd rfl h

/-- One item enters, moves along an edge or leaves; the others stay where they are. -/
inductive Step [DecidableEq ι] (entry : σ → Prop) (edge : σ → σ → Prop) (b b' : Board ι σ) : Prop
  | enter {x : ι} {s : σ} (hx : x ∉ b.known) (hs : entry s)
    (hplace : b'.place = Function.update b.place x (some s)) (hknown : b.known ⊆ b'.known) :
    Step entry edge b b'
  | move {x : ι} {s s' : σ} (hx : b.place x = some s) (he : edge s s')
    (hplace : b'.place = Function.update b.place x (some s')) (hknown : b.known ⊆ b'.known) :
    Step entry edge b b'
  | leave {x : ι} (hplace : b'.place = Function.update b.place x none)
    (hknown : b.known ⊆ b'.known) : Step entry edge b b'
  | stay (hplace : b'.place = b.place) (hknown : b.known ⊆ b'.known) :
    Step entry edge b b'

variable [DecidableEq ι] {entry : σ → Prop} {edge : σ → σ → Prop} {b b' : Board ι σ} {x : ι}
  {s s' : σ}

abbrev Run (entry : σ → Prop) (edge : σ → σ → Prop) : Board ι σ → Board ι σ → Prop :=
  Relation.ReflTransGen (Step entry edge)

theorem Step.known (h : Step entry edge b b') : b.known ⊆ b'.known := by
  cases h with
  | enter _ _ _ hknown => exact hknown
  | move _ _ _ hknown => exact hknown
  | leave _ hknown => exact hknown
  | stay _ hknown => exact hknown

/-- An item that was there before was at the same place, or one edge away. -/
theorem Step.back (h : Step entry edge b b') (hx : x ∈ b.known) (hs : b'.place x = some s') :
    ∃ s, b.place x = some s ∧ (s = s' ∨ edge s s') := by
  cases h with
  | @enter y _ hy _ hplace =>
    have hne : x ≠ y := fun e => hy (e ▸ hx)
    rw [hplace, Function.update_of_ne hne] at hs
    exact ⟨s', hs, .inl rfl⟩
  | @move y s t hy he hplace =>
    by_cases hxy : x = y
    · subst hxy
      rw [hplace, Function.update_self] at hs
      cases hs
      exact ⟨s, hy, .inr he⟩
    · rw [hplace, Function.update_of_ne hxy] at hs
      exact ⟨s', hs, .inl rfl⟩
  | @leave y hplace =>
    by_cases hxy : x = y
    · subst hxy
      rw [hplace, Function.update_self] at hs
      cases hs
    · rw [hplace, Function.update_of_ne hxy] at hs
      exact ⟨s', hs, .inl rfl⟩
  | stay hplace =>
    rw [hplace] at hs
    exact ⟨s', hs, .inl rfl⟩

theorem Run.known (h : Run entry edge b b') : b.known ⊆ b'.known := by
  induction h with
  | refl => exact subset_refl _
  | tail _ hstep ih => exact ih.trans hstep.known

/-- An item that is there now and was known then has come from where it was then along
the edges. -/
theorem Run.path (h : Run entry edge b b') (hx : x ∈ b.known) (hs : b'.place x = some s') :
    ∃ s, b.place x = some s ∧ Relation.ReflTransGen edge s s' := by
  induction h generalizing s' with
  | refl => exact ⟨s', hs, .refl⟩
  | tail hrun hstep ih =>
    obtain ⟨t, ht, hlast⟩ := hstep.back (Run.known hrun hx) hs
    obtain ⟨s, hplace, hpath⟩ := ih ht
    rcases hlast with rfl | hedge
    · exact ⟨s, hplace, hpath⟩
    · exact ⟨s, hplace, hpath.tail hedge⟩

/-- Where the edges climb, an item that is there now was there then, no higher up. -/
theorem Run.climbs {α : Type} [Preorder α] {rank : σ → α}
    (hrank : ∀ s s', edge s s' → rank s < rank s') (h : Run entry edge b b') (hx : x ∈ b.known)
    (hs : b'.place x = some s') : ∃ s, b.place x = some s ∧ (s = s' ∨ rank s < rank s') := by
  obtain ⟨s, hplace, hpath⟩ := h.path hx hs
  refine ⟨s, hplace, ?_⟩
  clear hs hplace
  induction hpath with
  | refl => exact .inl rfl
  | tail _ hedge ih =>
    have hlast := hrank _ _ hedge
    rcases ih with rfl | hlt
    · exact .inr hlast
    · exact .inr (hlt.trans hlast)

/-- What has left does not come back. -/
theorem Run.gone (h : Run entry edge b b') (hx : x ∈ b.known) (hnone : b.place x = none) :
    b'.place x = none := by
  by_contra hne
  obtain ⟨s', hs⟩ := Option.ne_none_iff_exists'.mp hne
  obtain ⟨s, hplace, -⟩ := h.path hx hs
  rw [hnone] at hplace
  cases hplace

/-- What was on no board came in at an entry. -/
theorem Run.entered (h : Run entry edge b b') (hx : x ∉ b.known) (hs : b'.place x = some s') :
    ∃ s, entry s ∧ Relation.ReflTransGen edge s s' := by
  induction h generalizing s' with
  | refl => exact absurd (b.known_of_place x (by rw [hs]; exact nofun)) hx
  | @tail c d hrun hstep ih =>
    by_cases hc : x ∈ c.known
    · obtain ⟨t, ht, hlast⟩ := hstep.back hc hs
      obtain ⟨s, hentry, hpath⟩ := ih ht
      rcases hlast with rfl | hedge
      · exact ⟨s, hentry, hpath⟩
      · exact ⟨s, hentry, hpath.tail hedge⟩
    · -- it was not there before the last step, which was its entry
      have hnone : c.place x = none := by
        by_contra hne
        exact hc (c.known_of_place x hne)
      have hother : ∀ {y : ι} {o : Option σ}, d.place = Function.update c.place y o →
          x = y ∧ o = some s' := by
        intro y o hplace
        by_cases hxy : x = y
        · subst hxy
          rw [hplace, Function.update_self] at hs
          exact ⟨rfl, hs⟩
        · rw [hplace, Function.update_of_ne hxy, hnone] at hs
          cases hs
      cases hstep with
      | enter _ hentry hplace =>
        obtain ⟨rfl, he⟩ := hother hplace
        cases he
        exact ⟨s', hentry, .refl⟩
      | move hy _ hplace =>
        obtain ⟨rfl, -⟩ := hother hplace
        rw [hnone] at hy
        cases hy
      | leave hplace => cases (hother hplace).2
      | stay hplace =>
        rw [hplace, hnone] at hs
        cases hs

end Board
