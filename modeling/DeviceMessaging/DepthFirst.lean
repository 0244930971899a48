import Mathlib.Data.List.Nodup
import Mathlib.Logic.Relation

namespace DepthFirst

/-- What a walk has entered, and what it has left again, the last one first. -/
structure Walk (α : Type) where
  seen : List α
  done : List α

variable {α : Type} {next : α → List α} {w v u : Walk α}

def visit [DecidableEq α] (next : α → List α) (fuel : Nat) (a : α) (w : Walk α) :
    Option (Walk α) :=
  match fuel with
  | 0 => none
  | fuel + 1 =>
    if a ∈ w.seen then some w
    else
      ((next a).foldlM (fun w b => visit next fuel b w) { w with seen := a :: w.seen }).map
        fun w => { w with done := a :: w.done }

def visitAll [DecidableEq α] (next : α → List α) (fuel : Nat) (as : List α) (w : Walk α) :
    Option (Walk α) :=
  as.foldlM (fun w b => visit next fuel b w) w

abbrev Reaches (next : α → List α) : α → α → Prop :=
  Relation.ReflTransGen fun a b => b ∈ next a

/-- The walk from `as` has gone through `fresh` and nothing else. -/
structure Explored (next : α → List α) (as fresh : List α) (w w' : Walk α) : Prop where
  done : w'.done = fresh ++ w.done
  seen : ∀ x, x ∈ w'.seen ↔ x ∈ fresh ∨ x ∈ w.seen
  roots : ∀ a ∈ as, a ∈ w'.seen
  reached : ∀ x ∈ fresh, ∃ a ∈ as, Reaches next a x
  new : ∀ x ∈ fresh, x ∉ w.seen
  nodup : fresh.Nodup
  closed : ∀ x ∈ fresh, ∀ y ∈ next x, y ∈ w'.seen

theorem Explored.nil : Explored next [] [] w w := by
  constructor <;> simp

theorem Explored.skip {a : α} (ha : a ∈ w.seen) : Explored next [a] [] w w := by
  constructor <;> simp [ha]

theorem Explored.cons {a : α} {as f g : List α} (hf : Explored next [a] f w v)
    (hg : Explored next as g v u) : Explored next (a :: as) (g ++ f) w u where
  done := by rw [hg.done, hf.done, List.append_assoc]
  seen x := by rw [hg.seen, hf.seen, List.mem_append, or_assoc]
  roots b hb := by
    rcases List.mem_cons.mp hb with rfl | hb
    · exact (hg.seen b).mpr (.inr (hf.roots b (List.mem_singleton_self b)))
    · exact hg.roots b hb
  reached x hx := by
    rcases List.mem_append.mp hx with hx | hx
    · obtain ⟨b, hb, hr⟩ := hg.reached x hx
      exact ⟨b, List.mem_cons_of_mem a hb, hr⟩
    · obtain ⟨b, hb, hr⟩ := hf.reached x hx
      exact ⟨b, List.mem_cons.mpr (.inl (List.mem_singleton.mp hb)), hr⟩
  new x hx := by
    rcases List.mem_append.mp hx with hx | hx
    · have hn := hg.new x hx
      rw [hf.seen, not_or] at hn
      exact hn.2
    · exact hf.new x hx
  nodup := by
    refine List.nodup_append.mpr ⟨hg.nodup, hf.nodup, ?_⟩
    rintro x hx y hy rfl
    exact hg.new x hx ((hf.seen x).mpr (.inl hy))
  closed x hx y hy := by
    rcases List.mem_append.mp hx with hx | hx
    · exact hg.closed x hx y hy
    · exact (hg.seen y).mpr (.inr (hf.closed x hx y hy))

/-- Around the walk of its successors a node is entered and left. -/
theorem Explored.node {a : α} {fresh : List α} (ha : a ∉ w.seen)
    (h : Explored next (next a) fresh { w with seen := a :: w.seen } u) :
    Explored next [a] (a :: fresh) w { u with done := a :: u.done } where
  done := congrArg (a :: ·) h.done
  seen x := by
    rw [h.seen, List.mem_cons, List.mem_cons]
    tauto
  roots b hb := by
    rw [List.mem_singleton.mp hb]
    exact (h.seen a).mpr (.inr (List.mem_cons_self))
  reached x hx := by
    refine ⟨a, List.mem_singleton_self a, ?_⟩
    rcases List.mem_cons.mp hx with rfl | hx
    · exact .refl
    · obtain ⟨b, hb, hr⟩ := h.reached x hx
      exact .head hb hr
  new x hx := by
    rcases List.mem_cons.mp hx with rfl | hx
    · exact ha
    · exact fun hs => h.new x hx (List.mem_cons_of_mem a hs)
  nodup := List.nodup_cons.mpr ⟨fun hm => h.new a hm List.mem_cons_self, h.nodup⟩
  closed x hx y hy := by
    rcases List.mem_cons.mp hx with rfl | hx
    · exact h.roots y hy
    · exact h.closed x hx y hy

section Fuel

variable [DecidableEq α] {nodes : List α}

/-- How many nodes there are still to enter. -/
def unseen (nodes : List α) (w : Walk α) : Nat :=
  nodes.countP fun a => decide (a ∉ w.seen)

theorem unseen_enter {a : α} (ha : a ∈ nodes) (hw : a ∉ w.seen) :
    unseen nodes { w with seen := a :: w.seen } < unseen nodes w := by
  have hle : ∀ nodes : List α, nodes.countP (fun x => decide (x ∉ a :: w.seen)) ≤
      nodes.countP fun x => decide (x ∉ w.seen) := by
    refine fun nodes => List.countP_mono_left fun x _ hx => ?_
    simp only [decide_eq_true_eq, List.mem_cons, not_or] at hx ⊢
    exact hx.2
  obtain ⟨before, after, rfl⟩ := List.append_of_mem ha
  have hbefore := hle before
  have hafter := hle after
  have hold : decide (a ∉ a :: w.seen) = false := by simp
  have hnew : decide (a ∉ w.seen) = true := decide_eq_true hw
  simp only [unseen, List.countP_append, List.countP_cons, hold, hnew]
  simp only [Bool.false_eq_true, if_false, if_true]
  omega

theorem Explored.unseen_le {as fresh : List α} (h : Explored next as fresh w u) :
    unseen nodes u ≤ unseen nodes w := by
  refine List.countP_mono_left fun x _ hx => ?_
  simp only [decide_eq_true_eq, h.seen, not_or] at hx ⊢
  exact hx.2

/-- A walk with more fuel than nodes to enter goes through. -/
theorem visit_explored (hnodes : ∀ a ∈ nodes, ∀ b ∈ next a, b ∈ nodes) (fuel : Nat) :
    ∀ a ∈ nodes, ∀ w : Walk α, unseen nodes w < fuel →
      ∃ fresh u, visit next fuel a w = some u ∧ Explored next [a] fresh w u := by
  induction fuel with
  | zero => exact fun a _ w h => absurd h (Nat.not_lt_zero _)
  | succ fuel ih =>
    -- the successors one after the other, with the fuel that is left
    have hall : ∀ (as : List α), (∀ a ∈ as, a ∈ nodes) → ∀ w : Walk α, unseen nodes w < fuel →
        ∃ fresh u, visitAll next fuel as w = some u ∧ Explored next as fresh w u := by
      intro as
      induction as with
      | nil => exact fun _ w _ => ⟨[], w, rfl, .nil⟩
      | cons a as iha =>
        intro has w hw
        obtain ⟨f, v, hv, hf⟩ := ih a (has a List.mem_cons_self) w hw
        have hle : unseen nodes v ≤ unseen nodes w := hf.unseen_le
        obtain ⟨g, u, hu, hg⟩ := iha (fun b hb => has b (List.mem_cons_of_mem a hb)) v (by omega)
        refine ⟨g ++ f, u, ?_, hf.cons hg⟩
        unfold visitAll at hu ⊢
        rw [List.foldlM_cons, hv]
        exact hu
    intro a ha w hw
    unfold visit
    split
    next hmem => exact ⟨[], w, rfl, .skip hmem⟩
    next hmem =>
      have hlt := unseen_enter ha hmem
      obtain ⟨fresh, u, hu, he⟩ := hall (next a) (hnodes a ha) { w with seen := a :: w.seen } (by omega)
      unfold visitAll at hu
      exact ⟨a :: fresh, _, by rw [hu]; rfl, he.node hmem⟩

/-- A walk that starts with nothing entered leaves just what can be reached, once each. -/
theorem visit_reaches (hnodes : ∀ a ∈ nodes, ∀ b ∈ next a, b ∈ nodes) {a : α} (ha : a ∈ nodes)
    {fuel : Nat} (hlt : nodes.length < fuel) :
    ∃ u, visit next fuel a ⟨[], []⟩ = some u ∧ u.done.Nodup ∧
      ∀ x, x ∈ u.done ↔ Reaches next a x := by
  have hfuel : unseen nodes (⟨[], []⟩ : Walk α) < fuel :=
    Nat.lt_of_le_of_lt List.countP_le_length hlt
  obtain ⟨fresh, u, hu, he⟩ := visit_explored hnodes _ a ha _ hfuel
  have hdone : u.done = fresh := by rw [he.done, List.append_nil]
  have hseen : ∀ x, x ∈ u.seen ↔ x ∈ fresh := by
    intro x
    rw [he.seen]
    simp
  refine ⟨u, hu, hdone ▸ he.nodup, fun x => ?_⟩
  rw [hdone]
  constructor
  · intro hx
    obtain ⟨b, hb, hr⟩ := he.reached x hx
    rwa [List.mem_singleton.mp hb] at hr
  · intro hr
    induction hr with
    | refl => exact (hseen a).mp (he.roots a (List.mem_singleton_self a))
    | tail _ hb ih => exact (hseen _).mp (he.closed _ ih _ hb)

end Fuel

end DepthFirst
