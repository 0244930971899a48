import DeviceMessaging.ObjectHeap

namespace DeviceMessaging

open ObjectHeap DepthFirst

variable {π : Type} {h : Heap π} {seen : List Nat}

/-- The heap, and the `WeakSet` of the objects that the calls have met. -/
structure Freezing (π : Type) where
  heap : Heap π
  seen : List Nat

/-- `deepFreeze(value, seen)`, which returns `value`. Every call of a call costs fuel. -/
def deepFreeze (fuel : Nat) (value : Value π) (m : Freezing π) : Option (Freezing π) :=
  match fuel with
  | 0 => none
  | fuel + 1 =>
    match value with
    | .primitive _ => some m
    | .object place =>
      if place ∈ m.seen then some m
      else
        ((m.heap.ownKeys place).foldlM (fun (m : Freezing π) key =>
          match m.heap.nested place key with
          | some b => deepFreeze fuel (.object b) m
          | none => some m) { m with seen := place :: m.seen }).map
            fun (m : Freezing π) => { m with heap := m.heap.freeze place }

/-- The heap once the places are frozen. -/
def frozenAt (h : Heap π) (places : List Nat) : Heap π :=
  places.foldr (fun place h => h.freeze place) h

@[simp] theorem read_freeze (b a : Nat) (key : PropertyKey) :
    (h.freeze b).read a key = h.read a key := by
  simp only [Heap.read, Heap.freeze, List.getElem?_modify]
  split
  · cases h[a]? with
    | none => rfl
    | some o => simp [Function.comp_def, Property.frozen]
  · simp

@[simp] theorem ownKeys_freeze (b a : Nat) : (h.freeze b).ownKeys a = h.ownKeys a := by
  simp only [Heap.ownKeys, Heap.freeze, List.getElem?_modify]
  split
  · cases h[a]? <;> simp
  · simp

section FrozenAt

variable (places : List Nat)

@[simp] theorem read_frozenAt (a : Nat) (key : PropertyKey) :
    (frozenAt h places).read a key = h.read a key := by
  induction places with
  | nil => rfl
  | cons b places ih => exact (read_freeze b a key).trans ih

@[simp] theorem ownKeys_frozenAt (a : Nat) : (frozenAt h places).ownKeys a = h.ownKeys a := by
  induction places with
  | nil => rfl
  | cons b places ih => exact (ownKeys_freeze b a).trans ih

theorem frozenAt_of_notMem {a : Nat} (ha : a ∉ places) : (frozenAt h places)[a]? = h[a]? := by
  induction places with
  | nil => rfl
  | cons b places ih =>
    obtain ⟨hne, ha⟩ := List.ne_and_not_mem_of_not_mem_cons ha
    rw [← ih ha]
    simp [frozenAt, Heap.freeze, Ne.symm hne]

theorem length_frozenAt : (frozenAt h places).length = h.length := by
  induction places with
  | nil => rfl
  | cons b places ih => exact (List.length_modify ..).trans ih

theorem frozenAt_isFrozen {a : Nat} (ha : a ∈ places) (hlt : a < h.length) :
    ∃ o, (frozenAt h places)[a]? = some o ∧ o.IsFrozen := by
  induction places with
  | nil => cases ha
  | cons b places ih =>
    have hcons : (frozenAt h (b :: places))[a]? =
        (fun o => if b = a then Obj.freeze o else o) <$> (frozenAt h places)[a]? :=
      List.getElem?_modify ..
    by_cases hb : b = a
    · rw [← length_frozenAt places] at hlt
      refine ⟨(frozenAt h places)[a].freeze, ?_, Obj.freeze_isFrozen⟩
      rw [hcons, List.getElem?_eq_getElem hlt]
      simp [hb]
    · obtain ⟨o, ho, hf⟩ := ih ((List.mem_cons.mp ha).resolve_left (Ne.symm hb))
      exact ⟨o, by rw [hcons, ho]; simp [hb], hf⟩

end FrozenAt

/-- Freezing changes no value, so the calls are a walk through the heap as it was at first. -/
theorem deepFreeze_visit (fuel : Nat) : ∀ (a : Nat) (w : Walk Nat),
    deepFreeze fuel (.object a) ⟨frozenAt h w.done, w.seen⟩ =
      (visit h.children fuel a w).map fun w => ⟨frozenAt h w.done, w.seen⟩ := by
  induction fuel with
  | zero => exact fun a w => rfl
  | succ fuel ih =>
    intro a w
    have hkeys : ∀ (keys : List PropertyKey) (w : Walk Nat),
        keys.foldlM (fun m key =>
          match m.heap.nested a key with
          | some b => deepFreeze fuel (.object b) m
          | none => some m) (⟨frozenAt h w.done, w.seen⟩ : Freezing π) =
        ((keys.filterMap (h.nested a)).foldlM (fun w b => visit h.children fuel b w) w).map
          fun w => ⟨frozenAt h w.done, w.seen⟩ := by
      intro keys
      induction keys with
      | nil => exact fun w => rfl
      | cons key keys ihk =>
        intro w
        have hnested : (frozenAt h w.done).nested a key = h.nested a key := by
          simp only [Heap.nested, read_frozenAt]
        rw [List.foldlM_cons, List.filterMap_cons, hnested]
        cases hb : h.nested a key with
        | none => exact ihk w
        | some b =>
          dsimp only
          rw [ih b w, List.foldlM_cons]
          cases visit h.children fuel b w with
          | none => rfl
          | some u => exact ihk u
    simp only [deepFreeze, visit]
    by_cases ha : a ∈ w.seen
    · rw [if_pos ha, if_pos ha]
      rfl
    · rw [if_neg ha, if_neg ha, ownKeys_frozenAt, hkeys _ { w with seen := a :: w.seen },
        Option.map_map, Option.map_map]
      rfl

/-- Every object that the value holds is frozen, no other one is touched, and whatever is
written afterwards, the value reads as it did before. -/
theorem deepFreeze_immutable {value : Value π} (hclosed : h.Closed)
    (hvalue : ∀ a, value = .object a → a < h.length) {fuel : Nat} (hfuel : h.length < fuel) :
    ∃ m, deepFreeze fuel value ⟨h, []⟩ = some m ∧
      (∀ a, h.Holds value a → ∃ o, m.heap[a]? = some o ∧ o.IsFrozen) ∧
      (∀ a, ¬ h.Holds value a → m.heap[a]? = h[a]?) ∧
      ∀ (ws : List (Write π)) (path : List PropertyKey),
        (ws.foldl Heap.write m.heap).readPath value path = h.readPath value path := by
  cases value with
  | primitive p =>
    refine ⟨⟨h, []⟩, ?_, ?_, fun _ _ => rfl, ?_⟩
    · obtain ⟨n, rfl⟩ := Nat.exists_eq_add_one_of_ne_zero (by omega : fuel ≠ 0)
      rfl
    · rintro a ⟨b, hb, -⟩
      cases hb
    · intro ws path
      cases path <;> rfl
  | object root =>
    have hnodes : ∀ a ∈ List.range h.length, ∀ b ∈ h.children a, b ∈ List.range h.length :=
      fun a ha b hb => List.mem_range.mpr (hclosed a (List.mem_range.mp ha) b hb)
    have hroot := hvalue root rfl
    have hlength : (List.range h.length).length < fuel := by rwa [List.length_range]
    obtain ⟨u, hu, -, hdone⟩ := visit_reaches hnodes (List.mem_range.mpr hroot) hlength
    have hrun : deepFreeze fuel (.object root) ⟨h, []⟩ = some ⟨frozenAt h u.done, u.seen⟩ := by
      have hv := deepFreeze_visit (h := h) fuel root ⟨[], []⟩
      rwa [hu] at hv
    have hholds : ∀ a, h.Holds (.object root) a ↔ a ∈ u.done := by
      intro a
      rw [hdone]
      exact ⟨fun ⟨b, hb, hr⟩ => by cases hb; exact hr, fun hr => ⟨root, rfl, hr⟩⟩
    have hlt : ∀ a ∈ u.done, a < h.length := by
      intro a ha
      have hr := (hdone a).mp ha
      induction hr with
      | refl => exact hroot
      | tail hr hb ih => exact hclosed _ (ih ((hdone _).mpr hr)) _ hb
    have hfrozen : ∀ a, h.Holds (.object root) a →
        ∃ o, (frozenAt h u.done)[a]? = some o ∧ o.IsFrozen := by
      intro a ha
      have hmem := (hholds a).mp ha
      exact frozenAt_isFrozen u.done hmem (hlt a hmem)
    refine ⟨_, hrun, hfrozen, fun a ha => frozenAt_of_notMem u.done fun hm => ha ((hholds a).mpr hm),
      fun ws path => Heap.readPath_congr ?_ path⟩
    intro a ha key
    obtain ⟨o, ho, hf⟩ := hfrozen a ha
    obtain ⟨o', ho', -, hs⟩ := Heap.writes_frozen ho hf ws
    exact (Heap.read_same ho ho' hs key).trans (read_frozenAt u.done a key)

/-- Two objects that hold each other, and one that nobody holds. -/
def sampleHeap : Heap Nat :=
  [⟨[(.text "delivery".toList, ⟨.object 1, true, true, true⟩)], true⟩,
   ⟨[(.text "maxRetries".toList, ⟨.primitive 11, true, true, true⟩),
     (.symbol 0, ⟨.object 0, true, false, true⟩)], true⟩,
   ⟨[], true⟩]

theorem sampleHeap_immutable : ∃ m, deepFreeze 4 (.object 0) ⟨sampleHeap, []⟩ = some m ∧
    ∀ (ws : List (Write Nat)) (path : List PropertyKey),
      (ws.foldl Heap.write m.heap).readPath (.object 0) path =
        sampleHeap.readPath (.object 0) path := by
  have hclosed : sampleHeap.Closed := by
    unfold Heap.Closed
    decide
  have hvalue : ∀ a, (Value.object 0 : Value Nat) = .object a → a < sampleHeap.length := by
    intro a ha
    cases ha
    decide
  have hfuel : sampleHeap.length < 4 := by decide
  obtain ⟨m, hm, -, -, hread⟩ := deepFreeze_immutable hclosed hvalue hfuel
  exact ⟨m, hm, hread⟩

end DeviceMessaging
