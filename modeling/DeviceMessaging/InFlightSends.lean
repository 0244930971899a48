import DeviceMessaging.Commands
import Mathlib.Data.List.AList

namespace DeviceMessaging

namespace InFlightSends

section Registry

/-- The registry's map: which promise an id is held under. A promise is named by
its place among the calls of `track`. -/
abbrev Sends := AList fun _ : MessageId => Nat

def track (sends : Sends) (messageId : MessageId) (tracked : Nat) : Sends :=
  sends.insert messageId tracked

/-- The `finally` handler of a tracked send. -/
def settle (sends : Sends) (messageId : MessageId) (tracked : Nat) : Sends :=
  if sends.lookup messageId = some tracked then sends.erase messageId else sends

def has (sends : Sends) (messageId : MessageId) : Bool :=
  (sends.lookup messageId).isSome

def size (sends : Sends) : Nat :=
  sends.keys.length

def values (sends : Sends) : List Nat :=
  sends.entries.map Sigma.snd

inductive Drain where
  /-- Awaiting the sends it saw, or its timer. -/
  | waiting (deadline : ℚ) (pending : List Nat)
  | returned (outstanding : Nat)
  deriving DecidableEq

/-- `while (sends.size > 0)`, up to its `await` or its end. -/
def drainLoop (deadline now : ℚ) (sends : Sends) : Drain :=
  if 0 < size sends ∧ 0 < deadline - now then .waiting deadline (values sends)
  else .returned (size sends)

variable {sends : Sends} {id x : MessageId} {t : Nat}

theorem lookup_track :
    (track sends id t).lookup x = if x = id then some t else sends.lookup x := by
  unfold track
  split
  next h => rw [h, AList.lookup_insert]
  next h => exact AList.lookup_insert_ne h

theorem lookup_settle (u : Nat) : (settle sends id t).lookup x = some u ↔
    sends.lookup x = some u ∧ ¬(x = id ∧ u = t) := by
  unfold settle
  split
  next held =>
    by_cases same : x = id
    · rw [same, AList.lookup_erase, held]
      simp [eq_comm]
    · rw [AList.lookup_erase_ne same]
      simp [same]
  next held =>
    constructor
    · intro h
      refine ⟨h, ?_⟩
      rintro ⟨rfl, rfl⟩
      exact held h
    · exact fun h => h.1

theorem size_eq_zero (h : size sends = 0) (id : MessageId) : has sends id = false := by
  have empty : sends.keys = [] := List.length_eq_zero_iff.mp h
  have absent : id ∉ sends := by
    rw [AList.mem_keys, empty]
    exact List.not_mem_nil
  unfold has
  rw [AList.lookup_eq_none.mpr absent]
  rfl

theorem drainLoop_returned {deadline now : ℚ} {n : Nat}
    (h : drainLoop deadline now sends = .returned n) : size sends = n := by
  unfold drainLoop at h
  split at h
  · cases h
  · cases h
    rfl

end Registry

section Runs

structure State where
  sends : Sends
  /-- The id of every `track` so far. -/
  ids : List MessageId
  /-- The tracked sends that have not settled. -/
  outstanding : List Nat
  drains : List Drain
  deriving DecidableEq

def initial : State := ⟨∅, [], [], []⟩

inductive Event where
  | track (messageId : MessageId)
  /-- A tracked send settles and its `finally` handler runs. -/
  | settle (send : Nat) (fulfilled : Bool)
  | drain (budgetMs start now : ℚ)
  /-- A drain goes on after its `Promise.race`. -/
  | resume (drain : Nat) (now : ℚ) (expired : Bool)
  deriving DecidableEq

def tracking (s : State) (m : MessageId) : State where
  sends := track s.sends m s.ids.length
  ids := s.ids ++ [m]
  outstanding := s.outstanding ++ [s.ids.length]
  drains := s.drains

def settling (s : State) (id : MessageId) (t : Nat) : State where
  sends := settle s.sends id t
  ids := s.ids
  outstanding := s.outstanding.filter (· ≠ t)
  drains := s.drains

def step (s : State) (e : Event) : Option State :=
  match e with
  | .track messageId => some (tracking s messageId)
  | .settle send _ =>
    match s.ids[send]? with
    | some messageId =>
      if send ∈ s.outstanding then some (settling s messageId send) else none
    | none => none
  | .drain budgetMs start now => some
    { s with drains := s.drains ++ [drainLoop (start + budgetMs) now s.sends] }
  | .resume k now expired =>
    match s.drains[k]? with
    | some (.waiting deadline pending) =>
      if expired = true ∨ ∀ t ∈ pending, t ∉ s.outstanding then
        some { s with drains := s.drains.set k (drainLoop deadline now s.sends) }
      else none
    | _ => none

def Outstanding (s : State) (id : MessageId) (t : Nat) : Prop :=
  s.ids[t]? = some id ∧ t ∈ s.outstanding

/-- `has` is true exactly of the ids with a send that has not settled. -/
def Truthful (s : State) : Prop :=
  ∀ id, has s.sends id = true ↔ ∃ t, Outstanding s id t

/-- A drain that returns 0 leaves no send outstanding. -/
def Honest (s s' : State) : Prop :=
  ∀ k : Nat, s'.drains[k]? = some (Drain.returned 0) → s.drains[k]? ≠ some (Drain.returned 0) →
    s'.outstanding = []

def TellsTruth (s : State) : List Event → Prop
  | [] => True
  | e :: rest => ∀ s' ∈ step s e, Truthful s' ∧ Honest s s' ∧ TellsTruth s' rest

def Latest (s : State) (id : MessageId) (t : Nat) : Prop :=
  s.ids[t]? = some id ∧ ∀ u, t < u → s.ids[u]? ≠ some id

/-- The last send tracked for its id, with an earlier one still outstanding. -/
def Overtakes (s : State) (t : Nat) : Prop :=
  ∃ id, Latest s id t ∧ ∃ u, u < t ∧ Outstanding s id u

/-- No send settles as the last one tracked for its id while an earlier one is
outstanding. -/
def NeverOvertakes (s : State) : List Event → Prop
  | [] => True
  | e :: rest => ∀ s' ∈ step s e,
    (∀ t fulfilled, e = .settle t fulfilled → ¬Overtakes s t) ∧ NeverOvertakes s' rest

end Runs

section Invariant

variable {s s' : State} {e : Event} {id : MessageId} {t : Nat}

structure Sound (s : State) : Prop where
  known : ∀ t ∈ s.outstanding, t < s.ids.length
  /-- An id is held under the last send tracked for it, until that one settles. -/
  held : ∀ id t, s.sends.lookup id = some t ↔ Latest s id t ∧ t ∈ s.outstanding

theorem initial_sound : Sound initial := by
  constructor
  · intro t ht
    cases ht
  · intro id t
    constructor
    · intro h
      cases h
    · intro h
      cases h.2

theorem Sound.has_iff (h : Sound s) :
    has s.sends id = true ↔ ∃ t, Latest s id t ∧ t ∈ s.outstanding := by
  unfold has
  rw [Option.isSome_iff_exists]
  exact exists_congr fun t => h.held id t

/-- Only the promise an id is held under is awaited for it. -/
theorem Sound.truthful_iff (h : Sound s) : Truthful s ↔
    ∀ id t, Outstanding s id t → ∃ u, Latest s id u ∧ u ∈ s.outstanding := by
  constructor
  · intro truthful id t ht
    exact h.has_iff.mp ((truthful id).mpr ⟨t, ht⟩)
  · intro awaited id
    rw [h.has_iff]
    constructor
    · rintro ⟨u, latest, hu⟩
      exact ⟨u, latest.1, hu⟩
    · rintro ⟨t, ht⟩
      exact awaited id t ht

theorem getElem?_track {ids : List MessageId} {m : MessageId} :
    (ids ++ [m])[t]? = some id ↔ ids[t]? = some id ∨ (t = ids.length ∧ id = m) := by
  rcases Nat.lt_trichotomy t ids.length with lt | rfl | gt
  · rw [List.getElem?_append_left lt]
    have : t ≠ ids.length := by omega
    simp [this]
  · simp [eq_comm]
  · have out : ids.length ≤ t := by omega
    have beyond : (ids ++ [m]).length ≤ t := by
      rw [List.length_append, List.length_singleton]
      omega
    rw [List.getElem?_eq_none beyond, List.getElem?_eq_none out]
    have : t ≠ ids.length := by omega
    simp [this]

theorem lt_of_getElem? {ids : List MessageId} (h : ids[t]? = some id) : t < ids.length :=
  (List.getElem?_eq_some_iff.mp h).1

section Track

variable {m : MessageId}

theorem outstanding_tracking :
    Outstanding (tracking s m) id t ↔ Outstanding s id t ∨ (t = s.ids.length ∧ id = m) := by
  unfold Outstanding tracking
  rw [getElem?_track, List.mem_append, List.mem_singleton]
  constructor
  · rintro ⟨hid | new, ht⟩
    · have lt := lt_of_getElem? hid
      exact .inl ⟨hid, ht.resolve_right (by omega)⟩
    · exact .inr new
  · rintro (⟨hid, ht⟩ | new)
    · exact ⟨.inl hid, .inl ht⟩
    · exact ⟨.inr new, .inr new.1⟩

theorem latest_tracking : Latest (tracking s m) id t ↔
    if id = m then t = s.ids.length else Latest s id t := by
  unfold Latest tracking
  simp only [ne_eq, getElem?_track]
  split
  next same =>
    subst same
    constructor
    · rintro ⟨hid | new, last⟩
      · have lt := lt_of_getElem? hid
        exact absurd (.inr ⟨rfl, rfl⟩) (last s.ids.length lt)
      · exact new.1
    · rintro rfl
      refine ⟨.inr ⟨rfl, rfl⟩, fun u hu => ?_⟩
      rintro (hid | new)
      · have lt := lt_of_getElem? hid
        omega
      · omega
  next other => simp [other]

theorem Sound.tracking (h : Sound s) : Sound (tracking s m) := by
  constructor
  · intro t ht
    rcases List.mem_append.mp ht with ht | ht
    · have lt := h.known t ht
      simp only [InFlightSends.tracking, List.length_append, List.length_singleton]
      omega
    · rw [List.mem_singleton.mp ht]
      simp [InFlightSends.tracking]
  · intro id t
    rw [latest_tracking]
    simp only [InFlightSends.tracking, lookup_track, List.mem_append, List.mem_singleton]
    split
    · constructor
      · intro same
        cases same
        exact ⟨rfl, .inr rfl⟩
      · rintro ⟨rfl, -⟩
        rfl
    · rw [h.held]
      constructor
      · rintro ⟨latest, ht⟩
        exact ⟨latest, .inl ht⟩
      · rintro ⟨latest, ht⟩
        have lt := lt_of_getElem? latest.1
        exact ⟨latest, ht.resolve_right (by omega)⟩

theorem Sound.truthful_tracking (h : Sound s) (truthful : Truthful s) :
    Truthful (InFlightSends.tracking s m) := by
  have awaited := h.truthful_iff.mp truthful
  refine h.tracking.truthful_iff.mpr fun id t ht => ?_
  simp only [latest_tracking]
  by_cases same : id = m
  · refine ⟨s.ids.length, ?_, ?_⟩
    · rw [if_pos same]
    · exact List.mem_append_right _ (List.mem_singleton_self _)
  · have old := (outstanding_tracking.mp ht).resolve_right fun new => same new.2
    obtain ⟨u, latest, hu⟩ := awaited id t old
    refine ⟨u, ?_, ?_⟩
    · rw [if_neg same]
      exact latest
    · exact List.mem_append_left _ hu

end Track

section Settle

theorem mem_settling {u : Nat} :
    u ∈ (settling s id t).outstanding ↔ u ∈ s.outstanding ∧ u ≠ t := by
  simp [settling]

theorem Sound.settling (h : Sound s) (ht : Outstanding s id t) : Sound (settling s id t) := by
  constructor
  · intro u hu
    exact h.known u (mem_settling.mp hu).1
  · intro x u
    rw [mem_settling]
    have lookup : (InFlightSends.settling s id t).sends = settle s.sends id t := rfl
    rw [lookup, lookup_settle, h.held]
    constructor
    · rintro ⟨⟨latest, hu⟩, other⟩
      refine ⟨latest, hu, ?_⟩
      rintro rfl
      have same := latest.1.symm.trans ht.1
      cases same
      exact other ⟨rfl, rfl⟩
    · rintro ⟨latest, hu, other⟩
      exact ⟨⟨latest, hu⟩, fun same => other same.2⟩

theorem Latest.settling {u : Nat} {x : MessageId} :
    Latest (settling s id t) x u ↔ Latest s x u := Iff.rfl

/-- An earlier send is lost from the map just when a later one of its id settles. -/
theorem Sound.truthful_settling (h : Sound s) (ht : Outstanding s id t) (truthful : Truthful s) :
    Truthful (InFlightSends.settling s id t) ↔ ¬Overtakes s t := by
  rw [(h.settling ht).truthful_iff]
  constructor
  · rintro awaited ⟨x, latest, u, lt, hu⟩
    obtain ⟨v, last, hv⟩ := awaited x u ⟨hu.1, mem_settling.mpr ⟨hu.2, by omega⟩⟩
    have last : Latest s x v := last
    obtain ⟨hv, other⟩ := mem_settling.mp hv
    rcases Nat.lt_trichotomy t v with before | same | past
    · exact latest.2 v before last.1
    · exact other same.symm
    · exact last.2 t past latest.1
  · intro calm x u hu
    obtain ⟨hid, member⟩ := hu
    obtain ⟨hu, other⟩ := mem_settling.mp member
    have hid : s.ids[u]? = some x := hid
    obtain ⟨v, latest, hv⟩ := h.truthful_iff.mp truthful x u ⟨hid, hu⟩
    refine ⟨v, latest, mem_settling.mpr ⟨hv, ?_⟩⟩
    rintro rfl
    have notAfter : ¬v < u := fun lt => latest.2 u lt hid
    have before : u < v := by omega
    exact calm ⟨x, latest, u, before, hid, hu⟩

end Settle

section Steps

/-- The drains of `s'` are those of `s`, but for one that has looked at the map. -/
def Looked (s s' : State) : Prop :=
  ∃ deadline now, ∀ k : Nat, s'.drains[k]? = s.drains[k]? ∨
    s'.drains[k]? = some (drainLoop deadline now s.sends)

theorem step_cases (h : step s e = some s') :
    (∃ m, e = .track m ∧ s' = tracking s m) ∨
    (∃ t fulfilled id, e = .settle t fulfilled ∧ Outstanding s id t ∧ s' = settling s id t) ∨
    ((∀ t fulfilled, e ≠ .settle t fulfilled) ∧ s' = { s with drains := s'.drains } ∧
      Looked s s') := by
  cases e with
  | track m => exact .inl ⟨m, rfl, (Option.some.inj h).symm⟩
  | settle t fulfilled =>
    unfold step at h
    dsimp only at h
    split at h
    next id hid =>
      split at h
      next ht =>
        cases h
        exact .inr (.inl ⟨t, fulfilled, id, rfl, ⟨hid, ht⟩, rfl⟩)
      next => cases h
    next => cases h
  | drain budgetMs start now =>
    cases h
    refine .inr (.inr ⟨nofun, rfl, start + budgetMs, now, fun k => ?_⟩)
    dsimp only
    rcases Nat.lt_trichotomy k s.drains.length with lt | rfl | gt
    · exact .inl (List.getElem?_append_left lt)
    · exact .inr (by simp)
    · left
      rw [List.getElem?_append_right (by omega), List.getElem?_eq_none (by simp; omega),
        List.getElem?_eq_none (by omega)]
  | resume k now expired =>
    unfold step at h
    dsimp only at h
    split at h
    next deadline pending hk =>
      split at h
      next =>
        cases h
        refine .inr (.inr ⟨nofun, rfl, deadline, now, fun j => ?_⟩)
        dsimp only
        by_cases same : k = j
        · subst same
          exact .inr (List.getElem?_set_self (List.getElem?_eq_some_iff.mp hk).1)
        · exact .inl (List.getElem?_set_ne same)
      next => cases h
    next => cases h

theorem Sound.step (h : Sound s) (hs : step s e = some s') : Sound s' := by
  rcases step_cases hs with ⟨m, -, rfl⟩ | ⟨t, fulfilled, id, -, ht, rfl⟩ | ⟨-, heq, -⟩
  · exact h.tracking
  · exact h.settling ht
  · rw [heq]
    exact ⟨h.known, h.held⟩

/-- One step keeps the map truthful unless a send overtakes an earlier one. -/
theorem Sound.truthful_step (h : Sound s) (truthful : Truthful s)
    (hs : InFlightSends.step s e = some s') :
    Truthful s' ↔ ∀ t fulfilled, e = .settle t fulfilled → ¬Overtakes s t := by
  rcases step_cases hs with ⟨m, rfl, rfl⟩ | ⟨t, fulfilled, id, rfl, ht, rfl⟩ | ⟨other, heq, -⟩
  · constructor
    · intro _ t fulfilled same
      cases same
    · exact fun _ => h.truthful_tracking truthful
  · rw [h.truthful_settling ht truthful]
    constructor
    · rintro calm u f same
      cases same
      exact calm
    · exact fun calm => calm t fulfilled rfl
  · constructor
    · intro _ t fulfilled same
      exact absurd same (other t fulfilled)
    · intro _
      rw [heq]
      exact truthful

/-- A drain returns 0 from a map without entries. -/
theorem Sound.quiet (h : Sound s) (truthful : Truthful s) (empty : size s.sends = 0) :
    s.outstanding = [] := by
  apply List.eq_nil_iff_forall_not_mem.mpr
  intro t ht
  have lt := h.known t ht
  have held := (truthful s.ids[t]).mpr ⟨t, List.getElem?_eq_getElem lt, ht⟩
  rw [size_eq_zero empty] at held
  cases held

theorem Sound.honest_step (sound : Sound s') (truthful : Truthful s')
    (hs : InFlightSends.step s e = some s') : Honest s s' := by
  intro k returned fresh
  rcases step_cases hs with ⟨m, -, rfl⟩ | ⟨t, fulfilled, id, -, -, rfl⟩ |
    ⟨-, heq, deadline, now, looked⟩
  · exact absurd returned fresh
  · exact absurd returned fresh
  · rcases looked k with same | looked
    · exact absurd (same.symm.trans returned) fresh
    · have empty := drainLoop_returned (Option.some.inj (looked.symm.trans returned))
      apply sound.quiet truthful
      rw [heq]
      exact empty

theorem initial_truthful : Truthful initial := by
  intro id
  constructor
  · intro h
    cases h
  · rintro ⟨t, -, ht⟩
    cases ht

theorem Sound.tells_iff (h : Sound s) (truthful : Truthful s) (events : List Event) :
    TellsTruth s events ↔ NeverOvertakes s events := by
  induction events generalizing s with
  | nil => exact Iff.rfl
  | cons e rest ih =>
    constructor
    · intro tells s' hs
      obtain ⟨truthful', -, tells⟩ := tells s' hs
      have calm := (h.truthful_step truthful hs).mp truthful'
      exact ⟨calm, (ih (h.step hs) truthful').mp tells⟩
    · intro never s' hs
      obtain ⟨calm, never⟩ := never s' hs
      have truthful' := (h.truthful_step truthful hs).mpr calm
      have sound' := h.step hs
      exact ⟨truthful', sound'.honest_step truthful' hs, (ih sound' truthful').mpr never⟩

/-- Every state a run of tracks, settlements and drains reaches is truthful,
and every drain honest, just when no send overtakes an earlier one of its id. -/
theorem tellsTruth_iff (events : List Event) :
    TellsTruth initial events ↔ NeverOvertakes initial events :=
  initial_sound.tells_iff initial_truthful events

end Steps

end Invariant

section Overtaken

/-- One id is sent twice, and the second send returns first. -/
def resent : List Event :=
  [.track "message", .track "message", .settle 1 true, .drain 1000 0 0]

/-- The first send is outstanding, under no id, and a drain does not wait for it. -/
theorem resent_untold : ¬TellsTruth initial resent ∧
    ∃ s, resent.foldlM step initial = some s ∧ has s.sends "message" = false ∧
      s.outstanding = [0] ∧ s.drains = [.returned 0] := by
  constructor
  · intro tells
    obtain ⟨-, -, tells⟩ := tells _ rfl
    obtain ⟨-, -, tells⟩ := tells _ rfl
    obtain ⟨truthful, -, -⟩ := tells _ rfl
    have held := (truthful "message").mpr ⟨0, rfl, List.mem_cons_self⟩
    cases held
  · exact ⟨_, rfl, rfl, rfl, rfl⟩

end Overtaken

section Engine

/-- The engine's record of held ids is the registry's map. -/
def Mirrors (w : World) (sends : Sends) : Prop :=
  ∀ id, w.inFlightSends id = sends.lookup id

variable {w : World} {sends : Sends}

theorem Mirrors.track (h : Mirrors w sends) (pluginId : PluginId) (message : DeviceMessage) :
    Mirrors (w.track pluginId message) (InFlightSends.track sends message.id w.nextToken) := by
  intro id
  rw [lookup_track, ← h id]
  exact Function.update_apply w.inFlightSends message.id (some w.nextToken) id

theorem Mirrors.settle (h : Mirrors w sends) (id : MessageId) (token : Nat) :
    Mirrors (w.settle id token) (InFlightSends.settle sends id token) := by
  intro x
  unfold World.settle InFlightSends.settle
  rw [← h id]
  split
  · by_cases same : x = id
    · subst same
      rw [AList.lookup_erase]
      exact Function.update_self x none w.inFlightSends
    · rw [AList.lookup_erase_ne same, ← h x]
      exact Function.update_of_ne same none w.inFlightSends
  · exact h x

theorem Mirrors.has (h : Mirrors w sends) (o : Oracle) (id : MessageId) :
    respond o (.hasInFlightSend id) w = some (InFlightSends.has sends id, w) := by
  unfold respond InFlightSends.has
  dsimp only
  rw [h id]

end Engine

end InFlightSends

end DeviceMessaging
