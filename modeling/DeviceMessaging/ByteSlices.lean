import Mathlib.Data.List.Basic
import Mathlib.Data.Nat.Notation

namespace ByteSlices

variable {α : Type}

/-- The elements from position `i` up to `j`, as many of them as there are. -/
def slice (xs : List α) (i j : Nat) : List α :=
  (xs.take j).drop i

theorem slice_getElem? (xs : List α) (i j k : Nat) :
    (slice xs i j)[k]? = if i + k < j then xs[i + k]? else none := by
  unfold slice
  rw [List.getElem?_drop, List.getElem?_take]

theorem length_slice (xs : List α) (i j : Nat) : (slice xs i j).length = min j xs.length - i := by
  unfold slice
  rw [List.length_drop, List.length_take]

/-- A slice is determined by the elements at its positions. -/
theorem slice_congr {xs ys : List α} {i j : Nat}
    (h : ∀ k, i ≤ k → k < j → xs[k]? = ys[k]?) : slice xs i j = slice ys i j := by
  apply List.ext_getElem?
  intro k
  rw [slice_getElem?, slice_getElem?]
  split
  next hk => exact h (i + k) (Nat.le_add_right i k) hk
  next => rfl

theorem getElem?_of_slice {xs ys : List α} {i j k : Nat} (h : slice xs i j = slice ys i j)
    (hi : i ≤ k) (hj : k < j) : xs[k]? = ys[k]? := by
  have hk := congrArg (fun zs => zs[k - i]?) h
  simp only [slice_getElem?] at hk
  rw [if_pos (by omega), if_pos (by omega), Nat.add_sub_cancel' hi] at hk
  exact hk

theorem slice_append_left {xs ys : List α} {i j : Nat} (hj : j ≤ xs.length) :
    slice (xs ++ ys) i j = slice xs i j := by
  unfold slice
  rw [List.take_append_of_le_length hj]

/-- A slice that ends with the element behind a list is the list's slice and the element. -/
theorem slice_snoc {xs ys : List α} {a : α} {i : Nat} (hi : i ≤ xs.length) :
    slice (xs ++ a :: ys) i (xs.length + 1) = xs.drop i ++ [a] := by
  unfold slice
  rw [← List.singleton_append, ← List.append_assoc]
  have hlen : xs.length + 1 = (xs ++ [a]).length := by rw [List.length_append, List.length_singleton]
  rw [hlen, List.take_left, List.drop_append_of_le_length hi]

theorem slice_append_drop (xs : List α) {i j : Nat} (hij : i ≤ j) :
    slice xs i j ++ xs.drop j = xs.drop i := by
  have htake : xs.take i = (xs.take j).take i := by rw [List.take_take, Nat.min_eq_left hij]
  have hall : xs.take i ++ (slice xs i j ++ xs.drop j) = xs.take i ++ xs.drop i := by
    unfold slice
    rw [htake, ← List.append_assoc, List.take_append_drop, List.take_append_drop, ← htake,
      List.take_append_drop]
  exact List.append_cancel_left hall

end ByteSlices
