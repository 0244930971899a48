import Mathlib.Data.List.Sort
import Mathlib.Data.Prod.Lex

/-- Members with a score each, kept in the order of score and, among equal
scores, of member. -/
structure SortedSet (σ α : Type) [LinearOrder σ] [LinearOrder α] where
  entries : List (σ × α)
  sorted : entries.Pairwise fun a b => toLex a ≤ toLex b
  nodup : (entries.map Prod.snd).Nodup

namespace SortedSet

variable {σ α : Type} [LinearOrder σ] [LinearOrder α]

instance : Membership α (SortedSet σ α) where
  mem s x := x ∈ s.entries.map Prod.snd

instance (x : α) (s : SortedSet σ α) : Decidable (x ∈ s) :=
  inferInstanceAs (Decidable (x ∈ s.entries.map Prod.snd))

theorem mem_iff {s : SortedSet σ α} {x : α} : x ∈ s ↔ ∃ k, (k, x) ∈ s.entries := by
  change x ∈ s.entries.map Prod.snd ↔ _
  simp

theorem sorted_nil : ([] : List (σ × α)).Pairwise fun a b => toLex a ≤ toLex b := .nil

omit [LinearOrder σ] [LinearOrder α] in
theorem nodup_nil : (([] : List (σ × α)).map Prod.snd).Nodup := .nil

def empty : SortedSet σ α :=
  ⟨[], sorted_nil, nodup_nil⟩

@[simp] theorem not_mem_empty {x : α} : x ∉ (empty : SortedSet σ α) :=
  List.not_mem_nil

def isEmpty (s : SortedSet σ α) : Bool :=
  s.entries.isEmpty

def score (s : SortedSet σ α) (x : α) : Option σ :=
  (s.entries.find? fun e => e.2 = x).map Prod.fst

theorem score_unique {s : SortedSet σ α} {x : α} {k l : σ}
    (hk : (k, x) ∈ s.entries) (hl : (l, x) ∈ s.entries) : k = l :=
  congrArg Prod.fst (List.inj_on_of_nodup_map s.nodup hk hl rfl)

theorem score_eq_some {s : SortedSet σ α} {x : α} {k : σ} :
    s.score x = some k ↔ (k, x) ∈ s.entries := by
  unfold score
  constructor
  · intro h
    obtain ⟨⟨l, y⟩, hf, rfl⟩ := Option.map_eq_some_iff.mp h
    have hy := List.find?_some hf
    simp only [decide_eq_true_eq] at hy
    exact hy ▸ List.mem_of_find?_eq_some hf
  · intro h
    cases hf : s.entries.find? fun e => e.2 = x with
    | none => simpa using List.find?_eq_none.mp hf _ h
    | some e =>
      obtain ⟨l, y⟩ := e
      have hy := List.find?_some hf
      simp only [decide_eq_true_eq] at hy
      have hl := List.mem_of_find?_eq_some hf
      rw [hy] at hl
      simp [score_unique hl h]

theorem score_eq_none {s : SortedSet σ α} {x : α} : s.score x = none ↔ x ∉ s := by
  rw [mem_iff, not_exists, Option.eq_none_iff_forall_ne_some]
  exact forall_congr' fun k => not_congr score_eq_some

/-- Take a member out. -/
def remove (s : SortedSet σ α) (x : α) : SortedSet σ α where
  entries := s.entries.filter fun e => e.2 ≠ x
  sorted := s.sorted.filter _
  nodup := s.nodup.sublist (List.filter_sublist.map _)

@[simp] theorem mem_remove_entries {s : SortedSet σ α} {x : α} {e : σ × α} :
    e ∈ (s.remove x).entries ↔ e ∈ s.entries ∧ e.2 ≠ x := by
  simp [remove]

@[simp] theorem mem_remove {s : SortedSet σ α} {x y : α} :
    y ∈ s.remove x ↔ y ∈ s ∧ y ≠ x := by
  simp [mem_iff]

/-- Put a member in with a score, its old score forgotten. -/
def insert (s : SortedSet σ α) (x : α) (k : σ) : SortedSet σ α where
  entries := (s.remove x).entries.orderedInsert (fun a b => toLex a ≤ toLex b) (k, x)
  sorted := by
    have : IsTrans (σ × α) fun a b => toLex a ≤ toLex b := ⟨fun _ _ _ => le_trans⟩
    have : Std.Total fun a b : σ × α => toLex a ≤ toLex b := ⟨fun _ _ => le_total _ _⟩
    exact (s.remove x).sorted.orderedInsert _ _
  nodup := by
    have hp := (List.perm_orderedInsert (fun a b => toLex a ≤ toLex b) (k, x)
      (s.remove x).entries).map Prod.snd
    refine hp.nodup_iff.mpr (List.nodup_cons.mpr ⟨?_, (s.remove x).nodup⟩)
    simp

@[simp] theorem mem_insert_entries {s : SortedSet σ α} {x : α} {k : σ} {e : σ × α} :
    e ∈ (s.insert x k).entries ↔ e = (k, x) ∨ e ∈ s.entries ∧ e.2 ≠ x := by
  simp [insert, List.mem_orderedInsert]

@[simp] theorem mem_insert {s : SortedSet σ α} {x y : α} {k : σ} :
    y ∈ s.insert x k ↔ y = x ∨ y ∈ s := by
  by_cases h : y = x <;> simp [mem_iff, h]

/-- Write a member's score only when the member is there. -/
def rescore (s : SortedSet σ α) (x : α) (k : σ) : SortedSet σ α :=
  if x ∈ s then s.insert x k else s

@[simp] theorem mem_rescore {s : SortedSet σ α} {x y : α} {k : σ} :
    y ∈ s.rescore x k ↔ y ∈ s := by
  unfold rescore
  split
  next h =>
    rw [mem_insert]
    exact ⟨fun hy => hy.elim (fun hy => hy ▸ h) id, .inr⟩
  next => rfl

/-- The first member, taken out. -/
def popMin (s : SortedSet σ α) : Option (α × SortedSet σ α) :=
  match s with
  | ⟨[], _, _⟩ => none
  | ⟨e :: es, hs, hn⟩ => some (e.2, ⟨es, hs.of_cons, hn.of_cons⟩)

theorem popMin_entries {s t : SortedSet σ α} {x : α} (h : s.popMin = some (x, t)) :
    (∃ k, s.entries = (k, x) :: t.entries) ∧ x ∉ t := by
  obtain ⟨es, hs, hn⟩ := s
  cases es with
  | nil => simp [popMin] at h
  | cons e es =>
    simp only [popMin, Option.some.injEq, Prod.mk.injEq] at h
    obtain ⟨rfl, rfl⟩ := h
    exact ⟨⟨e.1, rfl⟩, (List.nodup_cons.mp hn).1⟩

/-- No member scores below the first one. -/
theorem popMin_least {s t : SortedSet σ α} {x : α} (h : s.popMin = some (x, t)) :
    ∃ k, (k, x) ∈ s.entries ∧ ∀ l y, (l, y) ∈ s.entries → k ≤ l := by
  obtain ⟨⟨k, hk⟩, -⟩ := popMin_entries h
  refine ⟨k, hk ▸ List.mem_cons_self, fun l y hy => ?_⟩
  rw [hk] at hy
  rcases List.mem_cons.mp hy with e | hy
  · cases e
    exact le_refl k
  · have hs := s.sorted
    rw [hk] at hs
    rcases Prod.Lex.toLex_le_toLex.mp (List.rel_of_pairwise_cons hs hy) with hlt | ⟨he, -⟩
    · exact hlt.le
    · exact he.le

theorem mem_popMin {s t : SortedSet σ α} {x y : α} (h : s.popMin = some (x, t)) :
    y ∈ s ↔ y = x ∨ y ∈ t := by
  obtain ⟨⟨k, hk⟩, -⟩ := popMin_entries h
  rw [mem_iff, hk, mem_iff]
  by_cases hy : y = x <;> simp [hy]

theorem mem_popMin_rest {s t : SortedSet σ α} {x y : α} (h : s.popMin = some (x, t)) :
    y ∈ t ↔ y ∈ s ∧ y ≠ x := by
  have hx := (popMin_entries h).2
  rw [mem_popMin h]
  constructor
  · intro hy
    exact ⟨.inr hy, fun e => hx (e ▸ hy)⟩
  · rintro ⟨rfl | hy, hne⟩
    · exact absurd rfl hne
    · exact hy

/-- The first `limit` members whose score is at most `cutoff`. -/
def due (s : SortedSet σ α) (cutoff : σ) (limit : Nat) : List α :=
  ((s.entries.filter fun e => e.1 ≤ cutoff).take limit).map Prod.snd

theorem mem_due {s : SortedSet σ α} {cutoff : σ} {limit : Nat} {x : α}
    (h : x ∈ s.due cutoff limit) : ∃ k, (k, x) ∈ s.entries ∧ k ≤ cutoff := by
  obtain ⟨⟨k, y⟩, he, rfl⟩ := List.mem_map.mp h
  have hf := List.mem_filter.mp (List.mem_of_mem_take he)
  exact ⟨k, hf.1, by simpa using hf.2⟩

theorem due_nodup (s : SortedSet σ α) (cutoff : σ) (limit : Nat) :
    (s.due cutoff limit).Nodup :=
  s.nodup.sublist (((List.take_sublist _ _).trans List.filter_sublist).map _)

end SortedSet
