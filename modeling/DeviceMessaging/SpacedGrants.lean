import Mathlib.Data.List.Nodup
import Mathlib.Data.List.Perm.Subperm
import Mathlib.Tactic.Choose

namespace Spacing

/-- What a ledger says of one queue under a spacing lock: passes that were granted the
lock, and items that passes picked. -/
inductive Entry (π ι : Type)
  | granted (pass : π) (atMs : Nat)
  | picked (pass : π) (atMs : Nat) (item : ι)
  deriving DecidableEq

variable {π ι : Type} {m t t' u D : Nat} {p p' : π} {i : ι}

namespace Entry

def atMs (e : Entry π ι) : Nat :=
  match e with
  | granted _ t => t
  | picked _ t _ => t

def pass (e : Entry π ι) : π :=
  match e with
  | granted p _ => p
  | picked p _ _ => p

def isPick (e : Entry π ι) : Bool :=
  match e with
  | granted _ _ => false
  | picked _ _ _ => true

end Entry

/-- The entries that are grants, and those that are picks. -/
def grants (l : List (Entry π ι)) : List (Entry π ι) :=
  l.filter fun e => !e.isPick

def picks (l : List (Entry π ι)) : List (Entry π ι) :=
  l.filter Entry.isPick

/-- A ledger in the order of time, whose grants are `m` apart and whose every pick is
of a pass that was granted the lock before, and that picks once. -/
structure Kept (m : Nat) (l : List (Entry π ι)) : Prop where
  ordered : l.Pairwise fun e e' => e.atMs ≤ e'.atMs
  apart : (grants l).Pairwise fun e e' => e.atMs + m ≤ e'.atMs
  owned : ∀ (n : Nat) p t i, l[n]? = some (Entry.picked p t i) →
    ∃ k < n, ∃ t', l[k]? = some (Entry.granted p t')
  once : ((picks l).map Entry.pass).Nodup

theorem kept_nil : Kept m ([] : List (Entry π ι)) where
  ordered := .nil
  apart := .nil
  owned n p t i h := by cases h
  once := .nil

variable {l : List (Entry π ι)}

theorem mem_grants {e : Entry π ι} : e ∈ grants l ↔ e ∈ l ∧ e.isPick = false := by
  unfold grants
  rw [List.mem_filter, Bool.not_eq_true']

theorem grants_append (l l' : List (Entry π ι)) : grants (l ++ l') = grants l ++ grants l' :=
  List.filter_append ..

theorem picks_append (l l' : List (Entry π ι)) : picks (l ++ l') = picks l ++ picks l' :=
  List.filter_append ..

theorem ordered_append {e : Entry π ι} (hl : l.Pairwise fun e e' => e.atMs ≤ e'.atMs)
    (hnow : ∀ e' ∈ l, e'.atMs ≤ e.atMs) : (l ++ [e]).Pairwise fun e e' => e.atMs ≤ e'.atMs := by
  rw [List.pairwise_append]
  refine ⟨hl, List.pairwise_singleton _ _, fun e' he' e'' he'' => ?_⟩
  rw [List.eq_of_mem_singleton he'']
  exact hnow e' he'

theorem getElem?_append_one {e e' : Entry π ι} {n : Nat} (h : (l ++ [e])[n]? = some e') :
    l[n]? = some e' ∨ (n = l.length ∧ e' = e) := by
  rcases Nat.lt_or_ge n l.length with hn | hn
  · rw [List.getElem?_append_left hn] at h
    exact .inl h
  · rw [List.getElem?_append_right hn] at h
    have hlt := (List.getElem?_eq_some_iff.mp h).1
    have he := List.eq_of_mem_singleton (List.mem_of_getElem? h)
    rw [List.length_singleton] at hlt
    exact .inr ⟨by omega, he⟩

/-- The index of an entry stays when the ledger grows. -/
theorem getElem?_grow {e e' : Entry π ι} {n : Nat} (h : l[n]? = some e') :
    (l ++ [e])[n]? = some e' := by
  rw [List.getElem?_append_left (List.getElem?_eq_some_iff.mp h).1]
  exact h

theorem Kept.owned_append {e : Entry π ι} (hl : Kept m l)
    (he : ∀ p t i, e = .picked p t i → ∃ t', Entry.granted p t' ∈ l) (n : Nat) (p : π) (t : Nat) (i : ι)
    (h : (l ++ [e])[n]? = some (Entry.picked p t i)) :
    ∃ k < n, ∃ t', (l ++ [e])[k]? = some (Entry.granted p t') := by
  rcases getElem?_append_one h with hn | ⟨rfl, heq⟩
  · obtain ⟨k, hk, t', ht'⟩ := hl.owned n p t i hn
    exact ⟨k, hk, t', getElem?_grow ht'⟩
  · obtain ⟨t', ht'⟩ := he p t i heq.symm
    obtain ⟨k, hk⟩ := List.mem_iff_getElem?.mp ht'
    exact ⟨k, (List.getElem?_eq_some_iff.mp hk).1, t', getElem?_grow hk⟩

/-- A grant may be added `m` after those before it. -/
theorem Kept.grant (hl : Kept m l) (hnow : ∀ e ∈ l, e.atMs ≤ t)
    (hfree : ∀ p' t', Entry.granted p' t' ∈ l → t' + m ≤ t) (p : π) :
    Kept m (l ++ [.granted p t]) where
  ordered := ordered_append hl.ordered hnow
  apart := by
    rw [grants_append]
    change (grants l ++ [Entry.granted p t]).Pairwise _
    rw [List.pairwise_append]
    refine ⟨hl.apart, List.pairwise_singleton _ _, fun e he e' he' => ?_⟩
    rw [List.eq_of_mem_singleton he']
    obtain ⟨hmem, hgrant⟩ := mem_grants.mp he
    cases e with
    | granted p' t' => exact hfree p' t' hmem
    | picked p' t' i => cases hgrant
  owned := hl.owned_append fun _ _ _ he => nomatch he
  once := by
    rw [picks_append]
    change ((picks l ++ []).map Entry.pass).Nodup
    rw [List.append_nil]
    exact hl.once

/-- A pick may be added for a pass that was granted the lock and has picked nothing yet. -/
theorem Kept.pick (hl : Kept m l) (hnow : ∀ e ∈ l, e.atMs ≤ t) (hgrant : Entry.granted p t' ∈ l)
    (hfirst : ∀ e ∈ picks l, e.pass ≠ p) (i : ι) : Kept m (l ++ [.picked p t i]) where
  ordered := ordered_append hl.ordered hnow
  apart := by
    rw [grants_append]
    change (grants l ++ []).Pairwise _
    rw [List.append_nil]
    exact hl.apart
  owned := by
    refine hl.owned_append fun p' t'' i' he => ?_
    cases he
    exact ⟨t', hgrant⟩
  once := by
    rw [picks_append]
    change ((picks l ++ [Entry.picked p t i]).map Entry.pass).Nodup
    rw [List.map_append, List.nodup_append]
    refine ⟨hl.once, List.nodup_singleton _, fun q hq q' hq' => ?_⟩
    obtain ⟨e, he, rfl⟩ := List.mem_map.mp hq
    rw [List.eq_of_mem_singleton hq']
    exact hfirst e he

/-- Times at least `m` apart, none of them past `u`, leave room for no more. -/
theorem apart_length {ts : List Nat} (hts : (t :: ts).Pairwise fun s s' => s + m ≤ s')
    (hu : ∀ s ∈ t :: ts, s ≤ u) : t + ts.length * m ≤ u := by
  induction ts generalizing t with
  | nil =>
    have ht := hu t List.mem_cons_self
    simpa using ht
  | cons s ts ih =>
    obtain ⟨hfirst, hrest⟩ := List.pairwise_cons.mp hts
    have hgap := hfirst s List.mem_cons_self
    have hroom := ih hrest fun s' hs' => hu s' (List.mem_cons_of_mem _ hs')
    rw [List.length_cons, Nat.succ_mul]
    omega

theorem apart_le {ts : List Nat} (hts : ts.Pairwise fun s s' => s + m ≤ s') (hm : 0 < m)
    (hfirst : ts.head? = some t) : (ts.filter (· ≤ t + D)).length ≤ D / m + 1 := by
  obtain ⟨ts, rfl⟩ : ∃ rest, ts = t :: rest := by
    cases ts with
    | nil => cases hfirst
    | cons s rest =>
      cases hfirst
      exact ⟨rest, rfl⟩
  have hin : (t :: ts).filter (· ≤ t + D) = t :: ts.filter (· ≤ t + D) := by
    rw [List.filter_cons, if_pos (by simp)]
  have hsub : (t :: ts.filter (· ≤ t + D)).Pairwise fun s s' => s + m ≤ s' := by
    rw [← hin]
    exact hts.filter _
  have hroom := apart_length (u := t + D) hsub fun s hs => by
    rw [← hin] at hs
    exact of_decide_eq_true (List.mem_filter.mp hs).2
  rw [hin, List.length_cons]
  have hdiv : (ts.filter (· ≤ t + D)).length ≤ D / m := by
    rw [Nat.le_div_iff_mul_le hm]
    omega
  omega

theorem Kept.grants_apart (hl : Kept m l) {k k' : Nat} (hlt : k < k')
    (hk : l[k]? = some (Entry.granted p t)) (hk' : l[k']? = some (Entry.granted p' t')) : t + m ≤ t' := by
  obtain ⟨hbound, he⟩ := List.getElem?_eq_some_iff.mp hk
  obtain ⟨hbound', he'⟩ := List.getElem?_eq_some_iff.mp hk'
  have hapart := List.pairwise_iff_getElem.mp (List.pairwise_filter.mp hl.apart) k k' hbound hbound'
    hlt
  rw [he, he'] at hapart
  exact hapart rfl rfl

theorem Kept.pick_unique (hl : Kept m l) {n n' : Nat} {i' : ι}
    (hn : l[n]? = some (Entry.picked p t i)) (hn' : l[n']? = some (Entry.picked p t' i')) : n = n' := by
  obtain ⟨hbound, he⟩ := List.getElem?_eq_some_iff.mp hn
  obtain ⟨hbound', he'⟩ := List.getElem?_eq_some_iff.mp hn'
  have honce := List.pairwise_iff_getElem.mp
    (List.pairwise_filter.mp (List.pairwise_map.mp hl.once))
  rcases Nat.lt_trichotomy n n' with hlt | heq | hlt
  · have hne := honce n n' hbound hbound' hlt
    rw [he, he'] at hne
    exact absurd rfl (hne rfl rfl)
  · exact heq
  · have hne := honce n' n hbound' hbound hlt
    rw [he, he'] at hne
    exact absurd rfl (hne rfl rfl)

/-- Every pick has a grant of its own, that its pass was given before. -/
theorem Kept.own_grants (hl : Kept m l) : ∃ grantOf : Nat → Nat,
    (∀ (n : Nat) p t i, l[n]? = some (Entry.picked p t i) →
      grantOf n < n ∧ ∃ t', l[grantOf n]? = some (Entry.granted p t')) ∧
    ∀ (n n' : Nat) p p' t t' i i', l[n]? = some (Entry.picked p t i) → l[n']? = some (Entry.picked p' t' i') →
      grantOf n = grantOf n' → n = n' := by
  have hchoice : ∀ n : Nat, ∃ k : Nat, ∀ p t i, l[n]? = some (Entry.picked p t i) →
      k < n ∧ ∃ t', l[k]? = some (Entry.granted p t') := by
    intro n
    by_cases hpick : ∃ p t i, l[n]? = some (Entry.picked p t i)
    · obtain ⟨p, t, i, hn⟩ := hpick
      obtain ⟨k, hk, hgrant⟩ := hl.owned n p t i hn
      refine ⟨k, fun p' t' i' hn' => ?_⟩
      rw [hn] at hn'
      cases hn'
      exact ⟨hk, hgrant⟩
    · exact ⟨0, fun p t i hn => absurd ⟨p, t, i, hn⟩ hpick⟩
  choose grantOf hgrant using hchoice
  refine ⟨grantOf, hgrant, fun n n' p p' t t' i i' hn hn' he => ?_⟩
  obtain ⟨-, s, hs⟩ := hgrant n p t i hn
  obtain ⟨-, s', hs'⟩ := hgrant n' p' t' i' hn'
  rw [he, hs'] at hs
  cases hs
  exact hl.pick_unique hn hn'

/-- Within `D` ms of the first grant there are at most `D / m + 1` picks. -/
theorem Kept.picks_within (hl : Kept m l) (hm : 0 < m)
    (hfirst : ((grants l).map Entry.atMs).head? = some t) (D : Nat) :
    ((picks l).filter (·.atMs ≤ t + D)).length ≤ D / m + 1 := by
  have hin : ((grants l).filter (·.atMs ≤ t + D)).length ≤ D / m + 1 := by
    have hle := apart_le (D := D) (List.pairwise_map.mpr hl.apart) hm hfirst
    rwa [List.filter_map, List.length_map] at hle
  have hnodup : (((picks l).filter (·.atMs ≤ t + D)).map Entry.pass).Nodup :=
    hl.once.sublist (List.filter_sublist.map _)
  have hsub : ((picks l).filter (·.atMs ≤ t + D)).map Entry.pass ⊆
      ((grants l).filter (·.atMs ≤ t + D)).map Entry.pass := by
    intro q hq
    obtain ⟨e, he, rfl⟩ := List.mem_map.mp hq
    obtain ⟨hpick, hsoon⟩ := List.mem_filter.mp he
    obtain ⟨hmem, hispick⟩ := List.mem_filter.mp hpick
    obtain ⟨n, hn⟩ := List.mem_iff_getElem?.mp hmem
    cases e with
    | granted p s => cases hispick
    | picked p s i =>
      obtain ⟨k, hlt, s', hk⟩ := hl.owned n p s i hn
      obtain ⟨hbound, heq⟩ := List.getElem?_eq_some_iff.mp hn
      obtain ⟨hbound', heq'⟩ := List.getElem?_eq_some_iff.mp hk
      have hle := List.pairwise_iff_getElem.mp hl.ordered k n hbound' hbound hlt
      rw [heq, heq'] at hle
      have hgrant : Entry.granted p s' ∈ grants l := mem_grants.mpr ⟨List.mem_of_getElem? hk, rfl⟩
      have htime : s' ≤ t + D := Nat.le_trans hle (of_decide_eq_true hsoon)
      exact List.mem_map.mpr ⟨_, List.mem_filter.mpr ⟨hgrant, decide_eq_true htime⟩, rfl⟩
  have hcount := (List.subperm_of_subset hnodup hsub).length_le
  rw [List.length_map, List.length_map] at hcount
  exact Nat.le_trans hcount hin

end Spacing
