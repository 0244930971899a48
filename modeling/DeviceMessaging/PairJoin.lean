import Mathlib.Data.List.Induction
import Mathlib.Logic.Function.Basic

namespace PairJoin

variable {κ α β : Type} [DecidableEq κ]

inductive Half (α β : Type)
  | left (a : α)
  | right (b : β)

def Half.isLeft : Half α β → Bool
  | .left _ => true
  | .right _ => false

/-- Two halves make a pair if one is left and the other right. -/
def Half.meet : Half α β → Half α β → Option (α × β)
  | .left a, .right b => some (a, b)
  | .right b, .left a => some (a, b)
  | _, _ => none

/-- A half that waits for the other one, and since when. -/
structure Waiting (α β : Type) where
  half : Half α β
  since : Nat

abbrev Table (κ α β : Type) := κ → Option (Waiting α β)

inductive Event (κ α β : Type)
  | arrive (key : κ) (half : Half α β)
  | sweep

/-- Events with the clock readings they happen at. -/
abbrev History (κ α β : Type) := List (Nat × Event κ α β)

def meeting (table : Table κ α β) (key : κ) (half : Half α β) : Option (α × β) :=
  (table key).bind fun w => w.half.meet half

def arrive (table : Table κ α β) (now : Nat) (key : κ) (half : Half α β) : Table κ α β :=
  Function.update table key (if (meeting table key half).isSome then none else some ⟨half, now⟩)

def sweep (ttl : Nat) (table : Table κ α β) (now : Nat) : Table κ α β :=
  fun key => (table key).filter fun w => now - w.since ≤ ttl

def step (ttl : Nat) (table : Table κ α β) (e : Nat × Event κ α β) : Table κ α β :=
  match e.2 with
  | .arrive key half => arrive table e.1 key half
  | .sweep => sweep ttl table e.1

def table (ttl : Nat) (history : History κ α β) : Table κ α β :=
  history.foldl (step ttl) fun _ => none

/-- The pair the `i`th event makes, under the key it arrives with. -/
def returned (ttl : Nat) (history : History κ α β) (i : Nat) : Option (κ × α × β) :=
  match history[i]? with
  | some (_, .arrive key half) =>
    (meeting (table ttl (history.take i)) key half).map fun p => (key, p)
  | _ => none

/-- No arrival under this key. -/
def Quiet (key : κ) (history : History κ α β) : Prop :=
  ∀ e ∈ history, ∀ half, e.2 ≠ .arrive key half

/-- Under one key at most one left and one right half arrive. -/
def Solo (history : History κ α β) : Prop :=
  history.Pairwise fun e e' => ∀ key x y, e.2 = .arrive key x → e'.2 = .arrive key y →
    x.isLeft ≠ y.isLeft

/-- A half of this kind arrives under the key. -/
def Arrives (history : History κ α β) (key : κ) (isLeft : Bool) : Prop :=
  ∃ now half, half.isLeft = isLeft ∧ (now, Event.arrive key half) ∈ history

variable {ttl : Nat}

theorem meet_eq_none {x y : Half α β} : x.meet y = none ↔ x.isLeft = y.isLeft := by
  cases x <;> cases y <;> simp [Half.meet, Half.isLeft]

theorem meet_some {x y : Half α β} {a : α} {b : β} (h : x.meet y = some (a, b)) :
    (x = .left a ∧ y = .right b) ∨ (x = .right b ∧ y = .left a) := by
  cases x <;> cases y <;> cases h
  · exact Or.inl ⟨rfl, rfl⟩
  · exact Or.inr ⟨rfl, rfl⟩

theorem table_snoc (history : History κ α β) (e : Nat × Event κ α β) :
    table ttl (history ++ [e]) = step ttl (table ttl history) e := by
  unfold table
  rw [List.foldl_append, List.foldl_cons, List.foldl_nil]

theorem step_other {t : Table κ α β} {e : Nat × Event κ α β} {key : κ} {w : Waiting α β}
    (he : ∀ half, e.2 ≠ .arrive key half) (h : step ttl t e key = some w) : t key = some w := by
  obtain ⟨now, _ | _⟩ := e
  case arrive k half =>
    have hk : key ≠ k := fun hk => he half (by rw [hk])
    simp only [step, arrive, Function.update_of_ne hk] at h
    exact h
  case sweep =>
    simp only [step, sweep, Option.filter_eq_some_iff] at h
    exact h.1

theorem step_own {t : Table κ α β} {now : Nat} {key : κ} {half : Half α β} {w : Waiting α β}
    (h : step ttl t (now, .arrive key half) key = some w) : w = ⟨half, now⟩ := by
  simp only [step, arrive, Function.update_self] at h
  split at h
  · cases h
  · exact (Option.some.inj h).symm

/-- What waits under a key arrived last under it. -/
theorem table_source {history : History κ α β} {key : κ} {w : Waiting α β}
    (h : table ttl history key = some w) :
    ∃ before later, history = before ++ (w.since, .arrive key w.half) :: later ∧
      Quiet key later := by
  induction history using List.reverseRecOn with
  | nil => cases h
  | append_singleton history e ih =>
    rw [table_snoc] at h
    by_cases he : ∃ half, e.2 = .arrive key half
    · obtain ⟨half, he⟩ := he
      obtain ⟨now, event⟩ := e
      cases he
      cases step_own h
      exact ⟨history, [], rfl, fun _ hm => absurd hm List.not_mem_nil⟩
    · have hother := not_exists.mp he
      obtain ⟨before, later, hshape, hquiet⟩ := ih (step_other hother h)
      refine ⟨before, later ++ [e], by rw [hshape, List.append_assoc, List.cons_append], ?_⟩
      intro e' hm
      rcases List.mem_append.mp hm with hm | hm
      · exact hquiet e' hm
      · cases List.mem_singleton.mp hm
        exact hother

/-- A pair is made of the half that arrives and the last one that arrived before it. -/
theorem meeting_source {history : History κ α β} {key : κ} {half : Half α β} {p : α × β}
    (h : meeting (table ttl history) key half = some p) :
    ∃ before now other later, history = before ++ (now, .arrive key other) :: later ∧
      Quiet key later ∧ other.meet half = some p := by
  obtain ⟨w, hw, hp⟩ := Option.bind_eq_some_iff.mp h
  obtain ⟨before, later, hshape, hquiet⟩ := table_source hw
  exact ⟨before, w.since, w.half, later, hshape, hquiet, hp⟩

/-- A half waits as long as nothing else arrives under its key and no sweep comes too late
for it. -/
theorem table_kept {before later : History κ α β} {now : Nat} {key : κ} {half : Half α β}
    (hmeet : meeting (table ttl before) key half = none) (hquiet : Quiet key later)
    (hsweep : ∀ e ∈ later, e.2 = .sweep → e.1 ≤ now + ttl) :
    table ttl (before ++ (now, .arrive key half) :: later) key = some ⟨half, now⟩ := by
  induction later using List.reverseRecOn with
  | nil =>
    rw [table_snoc]
    simp only [step, arrive, Function.update_self, hmeet, Option.isSome_none,
      Bool.false_eq_true, if_false]
  | append_singleton later e ih =>
    have hkept := ih (fun e' hm => hquiet e' (List.mem_append_left _ hm))
      fun e' hm => hsweep e' (List.mem_append_left _ hm)
    have hlast := hquiet e (List.mem_append_right _ List.mem_cons_self)
    have htime := hsweep e (List.mem_append_right _ List.mem_cons_self)
    rw [← List.cons_append, ← List.append_assoc, table_snoc]
    obtain ⟨t, _ | _⟩ := e
    case arrive k x =>
      have hk : key ≠ k := fun hk => hlast x (by rw [hk])
      simp only [step, arrive, Function.update_of_ne hk]
      exact hkept
    case sweep =>
      have hle : t ≤ now + ttl := htime rfl
      simp only [step, sweep, hkept, Option.filter_some, decide_eq_true_eq]
      exact if_pos (by omega)

theorem table_quiet {history : History κ α β} {key : κ} (h : Quiet key history) :
    table ttl history key = none := by
  cases hw : table ttl history key with
  | none => rfl
  | some w =>
    obtain ⟨before, later, hshape, -⟩ := table_source hw
    exact absurd rfl (h _ (by rw [hshape]; exact List.mem_append_right _ List.mem_cons_self) _)

theorem returned_eq {history : History κ α β} {i : Nat} {key : κ} {p : α × β}
    (h : returned ttl history i = some (key, p)) :
    ∃ now half, history[i]? = some (now, .arrive key half) ∧
      meeting (table ttl (history.take i)) key half = some p := by
  unfold returned at h
  split at h
  next now k half he =>
    obtain ⟨q, hq, hk⟩ := Option.map_eq_some_iff.mp h
    cases hk
    exact ⟨now, half, he, hq⟩
  next => cases h

omit [DecidableEq κ] in
theorem take_shape {history : History κ α β} {i : Nat} {e : Nat × Event κ α β}
    (h : history[i]? = some e) : history = history.take i ++ e :: history.drop (i + 1) := by
  obtain ⟨hi, rfl⟩ := List.getElem?_eq_some_iff.mp h
  rw [List.getElem_cons_drop, List.take_append_drop]

omit [DecidableEq κ] in
/-- In a history with one half of each kind under a key, what comes before a half of a key and
after the other one is quiet. -/
theorem Solo.quiet {history before between later : History κ α β} {now now' : Nat} {key : κ}
    {x y : Half α β} (hsolo : Solo history)
    (hshape : history =
      before ++ (now, .arrive key x) :: (between ++ (now', .arrive key y) :: later)) :
    x.isLeft ≠ y.isLeft ∧ Quiet key before ∧ Quiet key between := by
  unfold Solo at hsolo
  rw [hshape, List.pairwise_append, List.pairwise_cons, List.pairwise_append] at hsolo
  obtain ⟨-, ⟨hx, -, -, hb⟩, hcross⟩ := hsolo
  have hxy := hx _ (List.mem_append_right _ List.mem_cons_self) key x y rfl rfl
  refine ⟨hxy, fun e he z hz => ?_, fun e he z hz => ?_⟩
  · have hzx := hcross e he _ List.mem_cons_self key z x hz rfl
    have hzy := hcross e he _ (List.mem_cons_of_mem _ (List.mem_append_right _ List.mem_cons_self))
      key z y hz rfl
    revert hxy hzx hzy
    cases x.isLeft <;> cases y.isLeft <;> cases z.isLeft <;> simp
  · have hxz := hx e (List.mem_append_left _ he) key x z rfl hz
    have hzy := hb e he _ List.mem_cons_self key z y hz rfl
    revert hxy hxz hzy
    cases x.isLeft <;> cases y.isLeft <;> cases z.isLeft <;> simp

theorem table_quiet_later {history later : History κ α β} {key : κ}
    (h : table ttl history key = none) (hquiet : Quiet key later) :
    table ttl (history ++ later) key = none := by
  induction later using List.reverseRecOn with
  | nil => rwa [List.append_nil]
  | append_singleton later e ih =>
    have hnone := ih fun e' hm => hquiet e' (List.mem_append_left _ hm)
    rw [← List.append_assoc, table_snoc]
    cases hw : step ttl (table ttl (history ++ later)) e key with
    | none => rfl
    | some w =>
      have hlast := hquiet e (List.mem_append_right _ List.mem_cons_self)
      rw [step_other hlast hw] at hnone
      cases hnone

/-- The first half to arrive under a key makes no pair. -/
theorem meeting_quiet {history : History κ α β} {key : κ} (h : Quiet key history)
    (half : Half α β) : meeting (table ttl history) key half = none := by
  unfold meeting
  rw [table_quiet h, Option.bind_none]

theorem not_quiet_of_meeting {history : History κ α β} {key : κ} {half : Half α β} {p : α × β}
    (h : meeting (table ttl history) key half = some p) : ¬ Quiet key history := by
  intro hquiet
  rw [meeting_quiet hquiet] at h
  cases h

/-- Under a key a pair is returned at most once. -/
theorem returned_once {history : History κ α β} (hsolo : Solo history) {i j : Nat} {key : κ}
    {p q : α × β} (hi : returned ttl history i = some (key, p))
    (hj : returned ttl history j = some (key, q)) : i = j := by
  have hlt : ∀ {i j : Nat} {p q : α × β}, returned ttl history i = some (key, p) →
      returned ttl history j = some (key, q) → ¬ i < j := by
    intro i j p q hi hj hij
    obtain ⟨now, x, hx, hpair⟩ := returned_eq hi
    obtain ⟨now', y, hy, hpair'⟩ := returned_eq hj
    obtain ⟨before, then_, z, later, hshape, hlater, -⟩ := meeting_source hpair'
    have hwhole := take_shape hy
    rw [hshape, List.append_assoc, List.cons_append] at hwhole
    obtain ⟨-, hbefore, -⟩ := hsolo.quiet hwhole
    have htake : (history.take j)[i]? = some (now, .arrive key x) := by
      rw [List.getElem?_take_of_lt hij, hx]
    have hsplit := take_shape htake
    rw [List.take_take, Nat.min_eq_left (Nat.le_of_lt hij), hshape] at hsplit
    rcases List.append_eq_append_iff.mp hsplit with ⟨rest, hi', hrest⟩ | ⟨rest, hb, -⟩
    · cases rest with
      | nil =>
        rw [List.append_nil] at hi'
        exact not_quiet_of_meeting hpair (hi' ▸ hbefore)
      | cons e rest =>
        refine hlater (now, .arrive key x) ?_ x rfl
        rw [(List.cons.inj hrest).2]
        exact List.mem_append_right _ List.mem_cons_self
    · refine not_quiet_of_meeting hpair fun e he => hbefore e ?_
      rw [hb]
      exact List.mem_append_left _ he
  exact Nat.le_antisymm (Nat.not_lt.mp (hlt hj hi)) (Nat.not_lt.mp (hlt hi hj))

/-- A returned pair is made of two halves that arrived under its key, the later one now. -/
theorem returned_halves {history : History κ α β} {i : Nat} {key : κ} {a : α} {b : β}
    (h : returned ttl history i = some (key, a, b)) :
    ∃ j j' now now', history[j]? = some (now, .arrive key (.left a)) ∧
      history[j']? = some (now', .arrive key (.right b)) ∧ i = max j j' := by
  obtain ⟨now, x, hx, hpair⟩ := returned_eq h
  obtain ⟨before, now', y, later, hshape, -, hmeet⟩ := meeting_source hpair
  have hfirst : (history.take i)[before.length]? = some (now', .arrive key y) := by
    rw [hshape, List.getElem?_append_right (Nat.le_refl _), Nat.sub_self, List.getElem?_cons_zero]
  have hlt : before.length < i := by
    by_contra hle
    rw [List.getElem?_take, if_neg hle] at hfirst
    cases hfirst
  rw [List.getElem?_take_of_lt hlt] at hfirst
  rcases meet_some hmeet with ⟨rfl, rfl⟩ | ⟨rfl, rfl⟩
  · exact ⟨before.length, i, now', now, hfirst, hx, (Nat.max_eq_right (Nat.le_of_lt hlt)).symm⟩
  · exact ⟨i, before.length, now, now', hx, hfirst, (Nat.max_eq_left (Nat.le_of_lt hlt)).symm⟩

/-- Two halves that arrive within the time to live make their pair when the second arrives,
wherever the sweeps fall. -/
theorem returned_second {history : History κ α β} (hsolo : Solo history)
    (hclock : history.Pairwise fun e e' => e.1 ≤ e'.1) {i j : Nat} {now now' : Nat} {key : κ}
    {x y : Half α β} (hi : history[i]? = some (now, .arrive key x))
    (hj : history[j]? = some (now', .arrive key y)) (hij : i < j) (httl : now' ≤ now + ttl) :
    returned ttl history i = none ∧
      ∃ p, x.meet y = some p ∧ returned ttl history j = some (key, p) := by
  have hwhole := take_shape hj
  have htake : (history.take j)[i]? = some (now, .arrive key x) := by
    rw [List.getElem?_take_of_lt hij, hi]
  have hsplit := take_shape htake
  rw [List.take_take, Nat.min_eq_left (Nat.le_of_lt hij)] at hsplit
  have hshape := hwhole
  rw [hsplit, List.append_assoc, List.cons_append] at hshape
  obtain ⟨hxy, hbefore, hbetween⟩ := hsolo.quiet hshape
  have hfirst : meeting (table ttl (history.take i)) key x = none := meeting_quiet hbefore x
  have hkept : table ttl (history.take j) key = some ⟨x, now⟩ := by
    rw [hsplit]
    refine table_kept hfirst hbetween fun e he _ => ?_
    have hle : e.1 ≤ now' := by
      rw [hshape, List.pairwise_append, List.pairwise_cons, List.pairwise_append] at hclock
      exact hclock.2.1.2.2.2 e he _ List.mem_cons_self
    omega
  refine ⟨?_, ?_⟩
  · unfold returned
    rw [hi]
    exact Option.map_eq_none_iff.mpr hfirst
  · obtain ⟨p, hp⟩ := Option.ne_none_iff_exists'.mp fun h => hxy (meet_eq_none.mp h)
    refine ⟨p, hp, ?_⟩
    unfold returned
    rw [hj]
    simp only [meeting, hkept, Option.bind_some, hp, Option.map_some]

/-- A half whose other half has arrived does not wait. -/
theorem table_paired {history : History κ α β} (hsolo : Solo history)
    (hsweep : ∀ e ∈ history, e.2 ≠ .sweep) {key : κ} {w : Waiting α β}
    (hw : table ttl history key = some w) : ¬ Arrives history key (!w.half.isLeft) := by
  rintro ⟨now, y, hy, hmem⟩
  obtain ⟨before, later, hshape, hlater⟩ := table_source hw
  rw [hshape] at hmem
  rcases List.mem_append.mp hmem with hmem | hmem
  · obtain ⟨first, between, rfl⟩ := List.append_of_mem hmem
    rw [List.append_assoc, List.cons_append] at hshape
    obtain ⟨hkind, hfirst, hbetween⟩ := hsolo.quiet hshape
    have hkept : table ttl (first ++ (now, .arrive key y) :: between) key = some ⟨y, now⟩ := by
      refine table_kept (meeting_quiet hfirst y) hbetween fun e he hs => absurd hs (hsweep e ?_)
      rw [hshape]
      exact List.mem_append_right _ (List.mem_cons_of_mem _ (List.mem_append_left _ he))
    obtain ⟨p, hp⟩ := Option.ne_none_iff_exists'.mp fun h => hkind (meet_eq_none.mp h)
    have hnone : table ttl ((first ++ (now, .arrive key y) :: between) ++
        [(w.since, .arrive key w.half)]) key = none := by
      rw [table_snoc]
      simp only [step, arrive, Function.update_self, meeting, hkept, Option.bind_some, hp,
        Option.isSome_some, if_true]
    have hend := table_quiet_later hnone hlater
    rw [List.append_assoc, List.append_assoc, List.singleton_append, List.cons_append, ← hshape,
      hw] at hend
    cases hend
  · rcases List.mem_cons.mp hmem with he | hmem
    · cases he
      revert hy
      cases w.half.isLeft <;> exact nofun
    · exact hlater _ hmem y rfl

/-- A half waits if the other one does not arrive. -/
theorem table_alone {history : History κ α β} (hsolo : Solo history)
    (hsweep : ∀ e ∈ history, e.2 ≠ .sweep) {key : κ} {kind : Bool}
    (harrives : Arrives history key kind) (halone : ¬ Arrives history key (!kind)) :
    (table ttl history key).isSome := by
  obtain ⟨now, x, rfl, hmem⟩ := harrives
  obtain ⟨before, later, rfl⟩ := List.append_of_mem hmem
  have hother : ∀ e ∈ before ++ (now, .arrive key x) :: later, ∀ z, e.2 = .arrive key z →
      z.isLeft = x.isLeft := by
    rintro ⟨t, _⟩ he z rfl
    by_contra hz
    refine halone ⟨t, z, ?_, he⟩
    revert hz
    cases z.isLeft <;> cases x.isLeft <;> simp
  unfold Solo at hsolo
  rw [List.pairwise_append, List.pairwise_cons] at hsolo
  obtain ⟨-, ⟨hafter, -⟩, hcross⟩ := hsolo
  have hbefore : Quiet key before := fun e he z hz =>
    hcross e he _ List.mem_cons_self key z x hz rfl (hother e (List.mem_append_left _ he) z hz)
  have hlater : Quiet key later := fun e he z hz =>
    hafter e he key x z rfl hz
      (hother e (List.mem_append_right _ (List.mem_cons_of_mem _ he)) z hz).symm
  rw [table_kept (meeting_quiet hbefore x) hlater fun e he hs => absurd hs
    (hsweep e (List.mem_append_right _ (List.mem_cons_of_mem _ he)))]
  rfl

/-- Without sweeps what waits are the keys that one half arrived under. -/
theorem table_isSome_iff {history : History κ α β} (hsolo : Solo history)
    (hsweep : ∀ e ∈ history, e.2 ≠ .sweep) (key : κ) :
    (table ttl history key).isSome ↔
      (Arrives history key true ↔ ¬ Arrives history key false) := by
  constructor
  · intro h
    obtain ⟨w, hw⟩ := Option.isSome_iff_exists.mp h
    have halone := table_paired hsolo hsweep hw
    have hown : Arrives history key w.half.isLeft := by
      obtain ⟨before, later, hshape, -⟩ := table_source hw
      refine ⟨w.since, w.half, rfl, ?_⟩
      rw [hshape]
      exact List.mem_append_right _ List.mem_cons_self
    revert halone hown
    cases w.half.isLeft
    · exact fun halone hown => ⟨fun h => absurd h halone, fun h => absurd hown h⟩
    · exact fun halone hown => ⟨fun _ => halone, fun _ => hown⟩
  · intro h
    by_cases hleft : Arrives history key true
    · exact table_alone hsolo hsweep hleft (h.mp hleft)
    · have hright : Arrives history key false := by
        by_contra hright
        exact hleft (h.mpr hright)
      exact table_alone hsolo hsweep hright hleft

end PairJoin
