import DeviceMessaging.EffectRecord

namespace Effect

variable {Cmd : Type} {Reply : Cmd → Type} {ε α β T : Type}

/-- What is left of a part of a program that has been begun, with its tag. -/
abbrev Part (Cmd : Type) (Reply : Cmd → Type) (ε β T : Type) : Type :=
  Option (T × Prog Cmd Reply ε β)

/-- No part is under way. -/
def Part.Idle (g : Part Cmd Reply ε β T) : Prop :=
  ∀ e ∈ g, e.2.pending = none

/-- How parts go on: each command is told to the tag of the part that issues it, and between
parts a reply may begin the next one. -/
structure Parting (Cmd : Type) (Reply : Cmd → Type) (ε β T : Type) where
  tell : T → Cmd → T
  begins : (c : Cmd) → Reply c → Part Cmd Reply ε β T

variable (P : Parting Cmd Reply ε β T)

inductive Parting.Next :
    Part Cmd Reply ε β T → (c : Cmd) → Reply c → Part Cmd Reply ε β T → Prop
  | turn {t : T} {c : Cmd} {k : Reply c → Prog Cmd Reply ε β} {r : Reply c} :
      Next (some (t, .step c k)) c r (some (P.tell t c, k r))
  | between {g : Part Cmd Reply ε β T} {c : Cmd} {r : Reply c} (hg : g.Idle) :
      Next g c r ((P.begins c r).or g)

/-- While a part is under way, the program issues its commands. -/
def Parting.follows : Monitor Cmd Reply (Part Cmd Reply ε β T) where
  allows g c := ∀ t b k, g = some (t, .step b k) → b = c
  next := P.Next

variable {P} {g : Part Cmd Reply ε β T}

theorem Part.Idle.ne_step (hg : g.Idle) {t : T} {c : Cmd} {k : Reply c → Prog Cmd Reply ε β} :
    g ≠ some (t, .step c k) := by
  rintro rfl
  cases hg _ rfl

theorem Part.idle_none : Part.Idle (none : Part Cmd Reply ε β T) := by
  intro e he
  cases he

namespace Prog

/-- A part runs to its end. -/
theorem part_follows (q : Prog Cmd Reply ε β) (t : T) :
    q.wp P.follows (fun _ => Part.Idle) (fun _ => Part.Idle) (some (t, q)) := by
  induction q generalizing t with
  | pure b =>
    intro e he
    cases he
    rfl
  | fail e' =>
    intro e he
    cases he
    rfl
  | step c k ih =>
    refine ⟨fun t' b k' he => ?_, fun r g' hg => ?_⟩
    · cases he
      rfl
    · cases hg with
      | turn => exact ih r _
      | between hidle => exact absurd rfl hidle.ne_step

/-- A command after which no part begins keeps to the time between parts. -/
theorem idle_command {c : Cmd} (hc : ∀ r, P.begins c r = none) :
    (command c : Prog Cmd Reply ε (Reply c)).Keeps P.follows Part.Idle := by
  intro g hg
  refine ⟨fun t b k he => absurd he hg.ne_step, fun r g' hn => ?_⟩
  cases hn with
  | turn => exact absurd rfl hg.ne_step
  | between _ =>
    rw [hc r, Option.none_or]
    exact hg

end Prog

namespace System

variable {H W O D : Type} (S : System Cmd Reply ε H W O D) (P)

/-- The part in a slot after the slot's turn. -/
def partTurn (o : O) (w : W) (c : Cmd) (g : Part Cmd Reply ε β T) : Part Cmd Reply ε β T :=
  match g with
  | some (t, .step b k) =>
    match S.respond o b w with
    | some (r, _) => some (P.tell t b, k r)
    | none => g
  | g =>
    match S.respond o c w with
    | some (r, _) => (P.begins c r).or g
    | none => g

/-- Note the parts that the threads are in; a handler may start with one. -/
def noteParts (opens : H → Part Cmd Reply ε β T) (x : Config Cmd Reply ε H W)
    (a : Choice H O D) (parts : Nat → Part Cmd Reply ε β T) : Nat → Part Cmd Reply ε β T :=
  match a with
  | .start h => Function.update parts x.threads.length (opens h)
  | .turn i o =>
    match x.waiting i with
    | some (_, c) => Function.update parts i (S.partTurn P o x.world c (parts i))
    | none => parts
  | .disturb _ => parts
  | .crash => fun _ => none

variable {S P} {opens : H → Part Cmd Reply ε β T} {x y : Config Cmd Reply ε H W}
  {parts : Nat → Part Cmd Reply ε β T} {a : Choice H O D} {init : Config Cmd Reply ε H W}
  {ok : Config Cmd Reply ε H W → (Nat → Part Cmd Reply ε β T) → Choice H O D → Prop}

theorem partTurn_next {o : O} {w w' : W} {c : Cmd} {r : Reply c}
    (hc : P.follows.allows g c) (hr : S.respond o c w = some (r, w')) :
    P.Next g c r (S.partTurn P o w c g) := by
  unfold partTurn
  split
  next t b k =>
    obtain rfl := hc t b k rfl
    rw [hr]
    exact .turn
  next hne =>
    rw [hr]
    refine .between fun e he => ?_
    obtain ⟨t, q⟩ := e
    cases q with
    | step b k => exact absurd he (hne t b k)
    | _ => rfl

/-- The program of a slot follows the part that is noted of it. -/
def InPart (P : Parting Cmd Reply ε β T) (parts : Nat → Part Cmd Reply ε β T) (i : Nat)
    (t : H × Prog Cmd Reply ε Unit) : Prop :=
  t.2.wp P.follows (fun _ => Part.Idle) (fun _ => Part.Idle) (parts i)

/-- In every run the programs follow the parts that are noted of them. -/
theorem Recorded.inPart (h0 : init.threads = [])
    (hopens : ∀ h, (S.program h).wp P.follows (fun _ => Part.Idle) (fun _ => Part.Idle) (opens h))
    {parts₀ : Nat → Part Cmd Reply ε β T}
    (hx : S.Recorded ok (S.noteParts P opens) init parts₀ x parts) :
    ∀ (i : Nat) t, x.threads[i]? = some t → InPart P parts i t := by
  refine hx.invariant (I := fun x parts => ∀ (i : Nat) t, x.threads[i]? = some t →
    InPart P parts i t) (fun i t ht => ?_) ?_
  · rw [h0] at ht
    cases ht
  · intro x y a parts hI _ hy
    refine slots_next (P := fun i t => x.threads[i]? = some t ∧ InPart P parts i t)
      (fun i t ht => ⟨ht, hI i t ht⟩) hy ?_ ?_ ?_
    · rintro h w rfl -
      unfold InPart
      simp only [noteParts, Function.update_self]
      exact hopens h
    · rintro j t ht hne hcrash ⟨-, hj⟩
      have hparts : S.noteParts P opens x a parts j = parts j := by
        cases a with
        | start h =>
          exact Function.update_of_ne (Nat.ne_of_lt (List.getElem?_eq_some_iff.mp ht).1) _ _
        | turn i o =>
          have hij : j ≠ i := fun e => hne o (e ▸ rfl)
          obtain ⟨h, c, k, r, w, ht', -⟩ := waiting_turn hy
          have hwait : x.waiting i = some (h, c) := by simp [Config.waiting, ht', Prog.pending]
          simp only [noteParts, hwait]
          exact Function.update_of_ne hij _ _
        | disturb d => rfl
        | crash => exact absurd rfl hcrash
      unfold InPart at hj ⊢
      rwa [hparts]
    · rintro i o h c k r w rfl ht hr ⟨-, hi⟩
      have hwait : x.waiting i = some (h, c) := by simp [Config.waiting, ht, Prog.pending]
      unfold InPart
      simp only [noteParts, hwait, Function.update_self]
      exact hi.2 r _ (partTurn_next hi.1 hr)

/-- Where the part in a slot comes from: it was there before; a handler started with it, or a
reply began it; or it is what its command has left of it. -/
theorem noteParts_cases {j : Nat} {e : T × Prog Cmd Reply ε β}
    (hin : ∀ (i : Nat) t, x.threads[i]? = some t → InPart P parts i t) (hy : S.next a x = some y)
    (he : S.noteParts P opens x a parts j = some e) :
    parts j = some e ∨ (∃ h, opens h = some e) ∨ (∃ c r, P.begins c r = some e) ∨
      ∃ o t c k r w, a = .turn j o ∧ parts j = some (t, .step c k) ∧
        S.respond o c x.world = some (r, w) ∧ e = (P.tell t c, k r) := by
  cases a with
  | start h =>
    simp only [noteParts] at he
    by_cases hj : j = x.threads.length
    · rw [hj, Function.update_self] at he
      exact .inr (.inl ⟨h, he⟩)
    · rw [Function.update_of_ne hj] at he
      exact .inl he
  | turn i o =>
    obtain ⟨h, c, k, r, w, ht, hr, -⟩ := waiting_turn hy
    have hwait : x.waiting i = some (h, c) := by simp [Config.waiting, ht, Prog.pending]
    simp only [noteParts, hwait] at he
    by_cases hj : j = i
    · subst hj
      rw [Function.update_self] at he
      have hnext := partTurn_next (hin j _ ht).1 hr
      rw [he] at hnext
      generalize hg : parts j = g at hnext
      generalize hg' : some e = g' at hnext
      cases hnext with
      | turn =>
        cases hg'
        exact .inr (.inr (.inr ⟨o, _, _, _, _, _, rfl, rfl, hr, rfl⟩))
      | between =>
        cases hbegins : P.begins c r with
        | none => exact .inl Option.none_or.symm
        | some e' =>
          rw [hbegins, Option.some_or] at hg'
          cases hg'
          exact .inr (.inr (.inl ⟨c, r, hbegins⟩))
    · rw [Function.update_of_ne hj] at he
      exact .inl he
  | disturb d => exact .inl he
  | crash => cases he

end System

end Effect
