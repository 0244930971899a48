import DeviceMessaging.DepthFirst

namespace ObjectHeap

inductive PropertyKey
  | text (name : List Char)
  | symbol (id : Nat)
  deriving DecidableEq

/-- A value. What `typeof` calls an object, and is not `null`, is a place of the heap. -/
inductive Value (π : Type)
  | primitive (p : π)
  | object (place : Nat)

structure Property (π : Type) where
  value : Value π
  writable : Bool
  enumerable : Bool
  configurable : Bool

/-- An object with data properties, in the order of `Reflect.ownKeys`. -/
structure Obj (π : Type) where
  properties : List (PropertyKey × Property π)
  extensible : Bool

abbrev Heap (π : Type) := List (Obj π)

variable {π : Type} {o : Obj π} {h : Heap π} {key : PropertyKey} {place : Nat} {v : Value π}

def Property.frozen (p : Property π) : Property π :=
  { p with writable := false, configurable := false }

namespace Obj

def get (o : Obj π) (key : PropertyKey) : Option (Property π) :=
  (o.properties.find? fun e => e.1 = key).map Prod.snd

def ownKeys (o : Obj π) : List PropertyKey :=
  o.properties.map Prod.fst

def put (o : Obj π) (key : PropertyKey) (p : Property π) : Obj π :=
  { o with properties := o.properties.map fun e => if e.1 = key then (key, p) else e }

/-- `Object.defineProperty`. What it refuses leaves the object as it is. -/
def defineProperty (o : Obj π) (key : PropertyKey) (p : Property π) : Obj π :=
  match o.get key with
  | none => if o.extensible then { o with properties := o.properties ++ [(key, p)] } else o
  | some q =>
    if q.configurable ∨ (q.writable ∧ ¬ p.configurable ∧ p.enumerable = q.enumerable) then
      o.put key p
    else o

/-- `object[key] = value`. -/
def assign (o : Obj π) (key : PropertyKey) (v : Value π) : Obj π :=
  match o.get key with
  | none => o.defineProperty key ⟨v, true, true, true⟩
  | some q => if q.writable then o.defineProperty key { q with value := v } else o

/-- `delete object[key]`. -/
def deleteProperty (o : Obj π) (key : PropertyKey) : Obj π :=
  match o.get key with
  | none => o
  | some q =>
    if q.configurable then { o with properties := o.properties.filter fun e => e.1 ≠ key } else o

def preventExtensions (o : Obj π) : Obj π := { o with extensible := false }

/-- `Object.freeze`. -/
def freeze (o : Obj π) : Obj π where
  properties := o.properties.map fun e => (e.1, e.2.frozen)
  extensible := false

/-- `Object.isFrozen`. -/
structure IsFrozen (o : Obj π) : Prop where
  extensible : o.extensible = false
  fixed : ∀ key p, o.get key = some p → p.writable = false ∧ p.configurable = false

@[simp] theorem get_freeze : o.freeze.get key = (o.get key).map Property.frozen := by
  unfold get freeze
  rw [List.find?_map, Option.map_map, Option.map_map]
  rfl

@[simp] theorem ownKeys_freeze : o.freeze.ownKeys = o.ownKeys := by
  simp [ownKeys, freeze, Function.comp_def]

theorem freeze_isFrozen : o.freeze.IsFrozen where
  extensible := rfl
  fixed key p hp := by
    rw [get_freeze] at hp
    obtain ⟨q, -, rfl⟩ := Option.map_eq_some_iff.mp hp
    exact ⟨rfl, rfl⟩

theorem IsFrozen.defineProperty_eq (ho : o.IsFrozen) (p : Property π) :
    o.defineProperty key p = o := by
  unfold defineProperty
  split
  next => simp [ho.extensible]
  next q hq => simp [(ho.fixed key q hq).1, (ho.fixed key q hq).2]

theorem IsFrozen.assign_eq (ho : o.IsFrozen) : o.assign key v = o := by
  unfold assign
  split
  next => exact ho.defineProperty_eq _
  next q hq => simp [(ho.fixed key q hq).1]

theorem IsFrozen.deleteProperty_eq (ho : o.IsFrozen) : o.deleteProperty key = o := by
  unfold deleteProperty
  split
  next => rfl
  next q hq => simp [(ho.fixed key q hq).2]

/-- The same own properties, one by one. -/
structure Same (o o' : Obj π) : Prop where
  get : ∀ key, o'.get key = o.get key
  ownKeys : o'.ownKeys = o.ownKeys

theorem Same.refl : Same o o := ⟨fun _ => rfl, rfl⟩

theorem Same.trans {o' o'' : Obj π} (h : Same o o') (h' : Same o' o'') : Same o o'' :=
  ⟨fun key => (h'.get key).trans (h.get key), h'.ownKeys.trans h.ownKeys⟩

theorem IsFrozen.preventExtensions_same (_ : o.IsFrozen) : Same o o.preventExtensions :=
  ⟨fun _ => rfl, rfl⟩

theorem IsFrozen.freeze_same (ho : o.IsFrozen) : Same o o.freeze := by
  refine ⟨fun key => ?_, ownKeys_freeze⟩
  rw [get_freeze]
  cases hp : o.get key with
  | none => rfl
  | some p =>
    obtain ⟨hw, hc⟩ := ho.fixed key p hp
    cases p
    cases hw
    cases hc
    rfl

theorem IsFrozen.same {o' : Obj π} (ho : o.IsFrozen) (hsame : Same o o')
    (hext : o'.extensible = false) : o'.IsFrozen :=
  ⟨hext, fun key p hp => ho.fixed key p ((hsame.get key).symm.trans hp)⟩

end Obj

/-- What any code can do to the objects there are. -/
inductive Write (π : Type)
  | create (o : Obj π)
  | assign (place : Nat) (key : PropertyKey) (v : Value π)
  | define (place : Nat) (key : PropertyKey) (p : Property π)
  | delete (place : Nat) (key : PropertyKey)
  | preventExtensions (place : Nat)
  | freeze (place : Nat)

namespace Heap

def read (h : Heap π) (place : Nat) (key : PropertyKey) : Option (Value π) :=
  h[place]?.bind fun o => (o.get key).map (·.value)

def ownKeys (h : Heap π) (place : Nat) : List PropertyKey :=
  (h[place]?.map Obj.ownKeys).getD []

def freeze (h : Heap π) (place : Nat) : Heap π := h.modify place Obj.freeze

def write (h : Heap π) : Write π → Heap π
  | .create o => h ++ [o]
  | .assign place key v => h.modify place (·.assign key v)
  | .define place key p => h.modify place (·.defineProperty key p)
  | .delete place key => h.modify place (·.deleteProperty key)
  | .preventExtensions place => h.modify place Obj.preventExtensions
  | .freeze place => h.freeze place

/-- `value[key₁][key₂]…`, as long as each is an own property of an object. -/
def readPath (h : Heap π) (v : Value π) : List PropertyKey → Option (Value π)
  | [] => some v
  | key :: path =>
    match v with
    | .primitive _ => none
    | .object place => (h.read place key).bind fun v => h.readPath v path

/-- The object that a property holds. -/
def nested (h : Heap π) (place : Nat) (key : PropertyKey) : Option Nat :=
  match h.read place key with
  | some (.object b) => some b
  | _ => none

def children (h : Heap π) (place : Nat) : List Nat :=
  (h.ownKeys place).filterMap (h.nested place)

/-- Every object that is held is there. -/
def Closed (h : Heap π) : Prop := ∀ a < h.length, ∀ b ∈ h.children a, b < h.length

/-- No write changes a frozen object. -/
theorem write_frozen (ho : h[place]? = some o) (hf : o.IsFrozen) (w : Write π) :
    ∃ o', (h.write w)[place]? = some o' ∧ o'.IsFrozen ∧ Obj.Same o o' := by
  have modified : ∀ (i : Nat) (f : Obj π → Obj π), Obj.Same o (f o) → (f o).extensible = false →
      ∃ o', (List.modify h i f)[place]? = some o' ∧ o'.IsFrozen ∧ Obj.Same o o' := by
    intro i f hsame hext
    by_cases hi : i = place
    · exact ⟨f o, by simp [ho, hi], hf.same hsame hext, hsame⟩
    · exact ⟨o, by simp [ho, hi], hf, .refl⟩
  cases w with
  | create new =>
    obtain ⟨hlt, -⟩ := List.getElem?_eq_some_iff.mp ho
    exact ⟨o, (List.getElem?_append_left hlt).trans ho, hf, .refl⟩
  | assign i key v =>
    have heq : o.assign key v = o := hf.assign_eq
    exact modified i _ (heq.symm ▸ .refl) (heq.symm ▸ hf.extensible)
  | define i key p =>
    have heq : o.defineProperty key p = o := hf.defineProperty_eq p
    exact modified i _ (heq.symm ▸ .refl) (heq.symm ▸ hf.extensible)
  | delete i key =>
    have heq : o.deleteProperty key = o := hf.deleteProperty_eq
    exact modified i _ (heq.symm ▸ .refl) (heq.symm ▸ hf.extensible)
  | preventExtensions i => exact modified i _ hf.preventExtensions_same rfl
  | freeze i => exact modified i _ hf.freeze_same rfl

theorem writes_frozen (ho : h[place]? = some o) (hf : o.IsFrozen) (ws : List (Write π)) :
    ∃ o', (ws.foldl write h)[place]? = some o' ∧ o'.IsFrozen ∧ Obj.Same o o' := by
  induction ws generalizing h o with
  | nil => exact ⟨o, ho, hf, .refl⟩
  | cons w ws ih =>
    obtain ⟨o', ho', hf', hsame⟩ := write_frozen ho hf w
    obtain ⟨o'', ho'', hf'', hsame'⟩ := ih ho' hf'
    exact ⟨o'', ho'', hf'', hsame.trans hsame'⟩

section Reading

variable {h' : Heap π}

theorem mem_ownKeys {p : Property π} (hp : o.get key = some p) : key ∈ o.ownKeys := by
  obtain ⟨e, he, -⟩ := Option.map_eq_some_iff.mp hp
  have hkey := List.find?_some he
  exact List.mem_map.mpr ⟨e, List.mem_of_find?_eq_some he, of_decide_eq_true hkey⟩

theorem child_of_read {b : Nat} (hr : h.read place key = some (.object b)) :
    b ∈ h.children place := by
  refine List.mem_filterMap.mpr ⟨key, ?_, by simp [nested, hr]⟩
  obtain ⟨o, ho, hp⟩ := Option.bind_eq_some_iff.mp hr
  obtain ⟨p, hp, -⟩ := Option.map_eq_some_iff.mp hp
  simp only [ownKeys, ho, Option.map_some, Option.getD_some]
  exact mem_ownKeys hp

/-- The objects that can be come to from a value. -/
def Holds (h : Heap π) (v : Value π) (a : Nat) : Prop :=
  ∃ b, v = .object b ∧ DepthFirst.Reaches h.children b a

theorem readPath_congr (hsame : ∀ a, h.Holds v a → ∀ key, h'.read a key = h.read a key)
    (path : List PropertyKey) : h'.readPath v path = h.readPath v path := by
  induction path generalizing v with
  | nil => rfl
  | cons key path ih =>
    cases v with
    | primitive p => rfl
    | object b =>
      simp only [readPath]
      rw [hsame b ⟨b, rfl, .refl⟩ key]
      cases hr : h.read b key with
      | none => rfl
      | some v =>
        refine ih fun a ha => hsame a ?_
        obtain ⟨c, rfl, hca⟩ := ha
        exact ⟨b, rfl, .head (child_of_read hr) hca⟩

theorem read_same {o' : Obj π} (ho : h[place]? = some o) (ho' : h'[place]? = some o')
    (hs : Obj.Same o o') (key : PropertyKey) : h'.read place key = h.read place key := by
  simp [read, ho, ho', hs.get key]

end Reading

end Heap

end ObjectHeap
