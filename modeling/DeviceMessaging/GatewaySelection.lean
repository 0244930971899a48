import Mathlib.Data.List.Perm.Basic
import DeviceMessaging.ChirpstackIncoming

namespace DeviceMessaging

open JsonText

namespace Chirpstack

section Conversions

def isNull (value : JsValue) : Bool :=
  match value with
  | .null => true
  | _ => false

/-- A member of a value that is not `null`. -/
def field (value : JsValue) (name : String) : Option JsValue :=
  match value with
  | .obj members => member members name
  | _ => none

/-- `Number(value)` does not throw. -/
def converts (value : Option JsValue) : Bool :=
  match toNumber value with
  | .ok _ => true
  | .error _ => false

/-- What it is, where it is a number. -/
def numeric (value : Option JsValue) : Option ℚ :=
  match toNumber value with
  | .ok x => x
  | .error _ => none

theorem strictEquals_eq {x y : Option JsValue} (h : strictEquals x y = true) : x = y := by
  unfold strictEquals at h
  split at h
  next => rfl
  next => rfl
  next b c => rw [of_decide_eq_true h]
  next m n => rw [of_decide_eq_true h]
  next s t => rw [of_decide_eq_true h]
  next => cases h

theorem strictEquals_comm (x y : Option JsValue) : strictEquals x y = strictEquals y x := by
  rw [Bool.eq_iff_iff]
  constructor
  · intro h
    obtain rfl := strictEquals_eq h
    exact h
  · intro h
    obtain rfl := strictEquals_eq h
    exact h

end Conversions

section Comparisons

def snr (x : JsValue) : Option JsValue :=
  field x "snr"

def rssi (x : JsValue) : Option JsValue :=
  field x "rssi"

/-- `signalSortFn` does not throw on them. -/
def Compared (x y : JsValue) : Prop :=
  isNull x = false ∧ isNull y = false ∧
    if strictEquals (snr x) (snr y) then converts (rssi x) = true ∧ converts (rssi y) = true
    else converts (snr x) = true ∧ converts (snr y) = true

theorem Compared.symm {x y : JsValue} (h : Compared x y) : Compared y x := by
  obtain ⟨hx, hy, h⟩ := h
  refine ⟨hy, hx, ?_⟩
  rw [strictEquals_comm]
  split at h
  next he =>
    rw [if_pos he]
    exact h.symm
  next he =>
    rw [if_neg he]
    exact h.symm

/-- The first has no higher SNR than the second, as far as both are numbers. -/
def NotAbove (x y : JsValue) : Prop :=
  ∀ m n, numeric (snr x) = some m → numeric (snr y) = some n → m ≤ n

/-- What a comparison says of the SNR of its elements. -/
structure Ordered (x y : JsValue) (q : ℚ) : Prop where
  second : 0 < q → NotAbove x y
  first : ¬ 0 < q → NotAbove y x
  strict : 0 < q → strictEquals (snr x) (snr y) = false →
    ∃ m n, numeric (snr x) = some m ∧ numeric (snr y) = some n ∧ m < n

end Comparisons

section Sorting

end Sorting

section Selection

/-- Observations that a gateway can be selected from. -/
def Selectable (items : List JsValue) : Prop :=
  (∀ x ∈ items, isNull x = false) ∧ items.Pairwise Compared

/-- A relay node can be told from `rxInfo`: an array that it can be selected from, or nothing
with a length. -/
def Readable (rxInfo : Option JsValue) : Prop :=
  match rxInfo with
  | some (.arr items) => Selectable items
  | some (.obj members) => isTruthy (member members "length") = false
  | _ => True

end Selection

end Chirpstack

end DeviceMessaging
