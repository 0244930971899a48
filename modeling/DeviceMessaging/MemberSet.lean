import Mathlib.Data.List.Dedup
import Mathlib.Data.List.Perm.Subperm

/-- A finite set kept as a list without repetitions, so that its members can be
listed and counted. -/
structure MemberSet (α : Type) where
  members : List α
  nodup : members.Nodup

namespace MemberSet

variable {α : Type}

def empty : MemberSet α :=
  ⟨[], .nil⟩

instance : Membership α (MemberSet α) where
  mem s x := x ∈ s.members

@[simp] theorem not_mem_empty {x : α} : x ∉ (empty : MemberSet α) :=
  List.not_mem_nil

def card (s : MemberSet α) : Nat :=
  s.members.length

theorem card_le {s t : MemberSet α} (h : ∀ x, x ∈ s → x ∈ t) : s.card ≤ t.card :=
  (List.subperm_of_subset s.nodup h).length_le

/-- One member more makes at most one more. -/
theorem card_le_insert {s t : MemberSet α} {y : α} (h : ∀ x, x ∈ s → x = y ∨ x ∈ t) :
    s.card ≤ t.card + 1 := by
  have hsub : s.members ⊆ y :: t.members := fun x hx => List.mem_cons.mpr (h x hx)
  exact (List.subperm_of_subset s.nodup hsub).length_le

variable [DecidableEq α]

instance (x : α) (s : MemberSet α) : Decidable (x ∈ s) :=
  inferInstanceAs (Decidable (x ∈ s.members))

def insert (s : MemberSet α) (x : α) : MemberSet α :=
  ⟨s.members.insert x, s.nodup.insert⟩

@[simp] theorem mem_insert {s : MemberSet α} {x y : α} : y ∈ s.insert x ↔ y = x ∨ y ∈ s :=
  List.mem_insert_iff

def remove (s : MemberSet α) (x : α) : MemberSet α :=
  ⟨s.members.filter (· ≠ x), s.nodup.filter _⟩

@[simp] theorem mem_remove {s : MemberSet α} {x y : α} : y ∈ s.remove x ↔ y ∈ s ∧ y ≠ x := by
  change y ∈ s.members.filter (· ≠ x) ↔ y ∈ s.members ∧ y ≠ x
  simp

end MemberSet
