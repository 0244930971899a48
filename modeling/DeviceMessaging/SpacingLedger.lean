import DeviceMessaging.SpacingAdmission

namespace DeviceMessaging

open Effect Spacing

/-- The locks and the clock of a keyspace. -/
def Redis.timed (r : Redis) : (QueueKey → Option Nat) × Nat :=
  (r.locks, r.clock)

@[simp] theorem timed_setIndex (r : Redis) (x : Option String) (id : MessageId) :
    (setIndex r x id).timed = r.timed := by
  cases x <;> rfl

@[simp] theorem timed_sremIfEmpty (r : Redis) (q : QueueKey) :
    (sremIfEmpty r q).timed = r.timed := by
  unfold sremIfEmpty
  split <;> rfl

@[simp] theorem timed_claimConcurrencySlot (r : Redis) (k : Option AdmissionNode) (id : MessageId) :
    (claimConcurrencySlot r k id).timed = r.timed := by
  cases k <;> rfl

@[simp] theorem timed_delStaleIndex (r : Redis) (x : Option String) :
    (delStaleIndex r x).timed = r.timed := by
  cases x <;> rfl

@[simp] theorem timed_releaseConcurrencySlot (r : Redis) (k : Option AdmissionNode) (id : MessageId) :
    (releaseConcurrencySlot r k id).timed = r.timed := by
  cases k <;> rfl

theorem timed_zremAll (qs : List QueueKey) (id : MessageId) (r : Redis) :
    (zremAll r qs id).timed = r.timed := by
  induction qs generalizing r with
  | nil => rfl
  | cons q qs ih => exact ih _

theorem timed_validateAndClean (k : AdmissionNode) (ids : List MessageId) (r : Redis) :
    (validateAndClean k ids r).timed = r.timed := by
  induction ids generalizing r with
  | nil => rfl
  | cons id ids ih => exact ih _

/-- Only locking touches a lock, and no command the clock. -/
theorem exec_timed {c : RedisCmd} (hc : ∀ q ms, c ≠ .lockQueueForTimeMs q ms) (s : Store)
    (i : MessageId) : (s.exec c i).2.redis.timed = s.redis.timed := by
  change (c.run i s.redis).2.timed = s.redis.timed
  cases c with
  | lockQueueForTimeMs q ms => exact absurd rfl (hc q ms)
  | enqueueDeviceMessage dto q =>
    change (enqueueMulti i dto q s.redis).timed = _
    unfold enqueueMulti
    split <;> rfl
  | moveMessageBetweenQueues a =>
    change (moveMessageBetweenQueues a s.redis).2.timed = _
    rcases move_cases a s.redis with ⟨-, he⟩ | ⟨-, -, he⟩ | ⟨-, -, he⟩ | ⟨-, h, k, -, -, he⟩ <;>
      rw [he]
    · rfl
    · rfl
    · exact timed_setIndex _ _ _
  | fetchNextMessageInQueueAndMove a =>
    change (fetchNextMessageInQueueAndMove a s.redis).2.timed = _
    rcases fetch_cases a s.redis with he | he | ⟨m, rest, -, ⟨-, he⟩ | ⟨-, he⟩ | ⟨h, t, -, -, he⟩⟩ <;>
      rw [he]
    · rfl
    · exact timed_sremIfEmpty _ _
    · exact timed_sremIfEmpty _ _
    · exact (timed_claimConcurrencySlot _ _ _).trans (timed_sremIfEmpty _ _)
  | enterRetry a =>
    change (enterRetryMulti a s.redis).2.timed = _
    unfold enterRetryMulti
    cases a.dueAt <;> exact (timed_releaseConcurrencySlot _ _ _).trans (timed_delStaleIndex _ _)
  | zaddXx q score id => cases score <;> rfl
  | messageFullCleanup m qs =>
    change (messageFullCleanup m qs s.redis).timed = _
    unfold messageFullCleanup delCorrelationIndex sremSlot
    rw [timed_delStaleIndex]
    split <;> split <;> exact timed_zremAll _ _ _
  | sremRateLimit k ids => exact timed_validateAndClean k ids _
  | _ => rfl
/-- A pass of a process: how often the process was restarted before it, and its slot. -/
structure PassId where
  restarts : Nat
  slot : Nat
  deriving DecidableEq

/-- What a run did to one ready queue. -/
structure AdmissionLedger where
  restarts : Nat := 0
  entries : List (Entry PassId MessageId) := []

/-- What an executed command does to a ready queue: it locks it, or picks a message. -/
def admissionEntries (queueKey : QueueKey) (pass : PassId) (c : RedisCmd) (r : Redis) :
    List (Entry PassId MessageId) :=
  match c with
  | .lockQueueForTimeMs q ms =>
    if q = queueKey ∧ (lockQueueForTimeMs q ms r).1 = true then [.granted pass r.clock] else []
  | .fetchNextMessageInQueueAndMove a =>
    if a.sourceQueue = queueKey then
      match (fetchNextMessageInQueueAndMove a r).1 with
      | .ok (some (id, _)) => [.picked pass r.clock id]
      | _ => []
    else []
  | _ => []

/-- The ledger of a ready queue. A command whose reply is lost was executed. -/
def noteAdmission (queueKey : QueueKey) (x : Process) (a : Choice Handler Oracle Disturbance)
    (ledger : AdmissionLedger) : AdmissionLedger :=
  match a with
  | .turn i o =>
    match x.waiting i with
    | some (_, .redis c) =>
      if o.fault = some .refused then ledger
      else
        { ledger with
          entries := ledger.entries ++
            admissionEntries queueKey ⟨ledger.restarts, i⟩ c x.world.store.redis }
    | _ => ledger
  | .crash => { ledger with restarts := ledger.restarts + 1 }
  | _ => ledger

/-- The runs of the process with the ledger of a ready queue. -/
abbrev Ledgered (svc : Service) (weather : Weather) (queueKey : QueueKey) : Process →
    AdmissionLedger → Prop :=
  (engine svc weather).Recorded (fun _ _ _ => True) (noteAdmission queueKey) Process.initial {}

/-- What the ledger says of a pass in some phase. -/
def PassPhase.Holds (phase : PassPhase) (entries : List (Entry PassId MessageId)) (pass : PassId) :
    Prop :=
  match phase with
  | .outside => ∀ e ∈ entries, e.pass ≠ pass
  | .admitted => (∃ t, Entry.granted pass t ∈ entries) ∧ ∀ e ∈ picks entries, e.pass ≠ pass
  | .passed => True

theorem PassPhase.Holds.append {phase : PassPhase} {entries l : List (Entry PassId MessageId)}
    {pass : PassId} (h : phase.Holds entries pass) (hl : ∀ e ∈ l, e.pass ≠ pass) :
    phase.Holds (entries ++ l) pass := by
  cases phase with
  | outside =>
    intro e he
    rcases List.mem_append.mp he with he | he
    · exact h e he
    · exact hl e he
  | admitted =>
    obtain ⟨⟨t, ht⟩, hpicks⟩ := h
    refine ⟨⟨t, List.mem_append_left _ ht⟩, fun e he => ?_⟩
    rw [picks_append] at he
    rcases List.mem_append.mp he with he | he
    · exact hpicks e he
    · exact hl e (List.mem_filter.mp he).1
  | passed => trivial

theorem mem_admissionEntries {queueKey : QueueKey} {pass : PassId} {c : RedisCmd} {r : Redis}
    {e : Entry PassId MessageId} (he : e ∈ admissionEntries queueKey pass c r) :
    e.pass = pass ∧ e.atMs = r.clock := by
  unfold admissionEntries at he
  split at he
  next q ms =>
    split at he
    next =>
      rw [List.eq_of_mem_singleton he]
      exact ⟨rfl, rfl⟩
    next => cases he
  next a =>
    split at he
    next =>
      split at he
      next =>
        rw [List.eq_of_mem_singleton he]
        exact ⟨rfl, rfl⟩
      next => cases he
    next => cases he
  next => cases he

variable {svc : Service} {weather : Weather} {queueKey : QueueKey} {minIntervalMs : Nat}
  {x y : Process} {ledger : AdmissionLedger}

/-- A pass whose program keeps to the lock and whose phase the ledger bears out. -/
def Tracked (queueKey : QueueKey) (minIntervalMs : Nat) (entries : List (Entry PassId MessageId))
    (pass : PassId) (t : Handler × Engine Unit) : Prop :=
  ∃ phase : PassPhase, t.2.wp (spaced queueKey minIntervalMs) (fun _ _ => True) (fun _ _ => True) phase ∧
    phase.Holds entries pass

/-- What a choice adds to the ledger: the entries of the command it executes, if any. -/
theorem noteAdmission_cases (queueKey : QueueKey) (ledger : AdmissionLedger)
    {a : Choice Handler Oracle Disturbance} (hy : (engine svc weather).next a x = some y) :
    (noteAdmission queueKey x a ledger).entries = ledger.entries ∧
      (y.world.store = x.world.store ∨ ∃ d, y.world.store = x.world.store.disturb d) ∨
    ∃ i o h c, a = .turn i o ∧ x.waiting i = some (h, .redis c) ∧
      y.world.store = (x.world.store.exec c o.id).2 ∧
      noteAdmission queueKey x a ledger =
        { ledger with
          entries := ledger.entries ++
            admissionEntries queueKey ⟨ledger.restarts, i⟩ c x.world.store.redis } := by
  have hidle : (∀ i o, a ≠ .turn i o) → y.world.store = x.world.store ∨
      ∃ d, y.world.store = x.world.store.disturb d := by
    intro hne
    rcases store_next hy with hs | ⟨i, o, h, c, e, -⟩ | ⟨d, -, hs⟩
    · exact .inl hs
    · exact absurd e (hne i o)
    · exact .inr ⟨d, hs⟩
  cases a with
  | turn i o =>
    obtain ⟨h, c, k, r, w, ht, hr, rfl, -⟩ := System.waiting_turn hy
    have hw : x.waiting i = some (h, c) := Config.waiting_of_get ht
    simp only [engine] at hr
    split at hr
    next =>
      cases c with
      | redis c =>
        unfold noteAdmission
        simp only [hw]
        obtain ⟨-, ⟨ho, -, hs⟩ | ⟨ho, -, hs⟩ | ⟨ho, -, hs⟩⟩ := execRedis_cases hr
        · exact .inr ⟨i, o, h, c, rfl, hw, hs, if_neg (by simp [ho])⟩
        · exact .inl ⟨by rw [if_pos ho], .inl hs⟩
        · exact .inr ⟨i, o, h, c, rfl, hw, hs, if_neg (by simp [ho])⟩
      | _ =>
        refine .inl ⟨by simp only [noteAdmission, hw], ?_⟩
        rcases respond_store hr with hs | ⟨c', e, -⟩
        · exact .inl hs
        · cases e
    next => cases hr
  | start h => exact .inl ⟨rfl, hidle fun i o he => by cases he⟩
  | disturb d => exact .inl ⟨rfl, hidle fun i o he => by cases he⟩
  | crash => exact .inl ⟨rfl, hidle fun i o he => by cases he⟩

/-- A disturbance leaves the locks alone and does not turn the clock back. -/
theorem disturb_timed (s : Store) (d : Disturbance) :
    (s.disturb d).redis.locks = s.redis.locks ∧ s.redis.clock ≤ (s.disturb d).redis.clock := by
  cases d with
  | elapse ms => exact ⟨rfl, Nat.le_add_right _ _⟩
  | _ => exact ⟨rfl, Nat.le_refl _⟩

/-- What is known of a ledger and of the lock, at some clock reading. -/
structure LockKept (queueKey : QueueKey) (minIntervalMs : Nat) (r : Redis)
    (entries : List (Entry PassId MessageId)) : Prop where
  kept : Kept minIntervalMs entries
  past : ∀ e ∈ entries, e.atMs ≤ r.clock
  locked : ∀ pass t, Entry.granted pass t ∈ entries →
    ∃ expiry, r.locks queueKey = some expiry ∧ t + minIntervalMs ≤ expiry

theorem LockKept.later {r r' : Redis} {entries : List (Entry PassId MessageId)}
    (h : LockKept queueKey minIntervalMs r entries) (hlocks : r'.locks queueKey = r.locks queueKey)
    (hclock : r.clock ≤ r'.clock) : LockKept queueKey minIntervalMs r' entries where
  kept := h.kept
  past e he := Nat.le_trans (h.past e he) hclock
  locked pass t ht := by
    rw [hlocks]
    exact h.locked pass t ht

/-- The lock is granted once the interval has passed since the last grant. -/
theorem LockKept.lock {r : Redis} {entries : List (Entry PassId MessageId)}
    (h : LockKept queueKey minIntervalMs r entries) (pass : PassId) :
    LockKept queueKey minIntervalMs (lockQueueForTimeMs queueKey minIntervalMs r).2
      (entries ++ admissionEntries queueKey pass (.lockQueueForTimeMs queueKey minIntervalMs) r) := by
  unfold admissionEntries lockQueueForTimeMs
  by_cases hheld : ∃ e ∈ r.locks queueKey, r.clock < e
  · simp only [if_pos hheld, Bool.false_eq_true, and_false, if_false, List.append_nil]
    exact h
  · simp only [if_neg hheld, and_self, if_true]
    have hfree : ∀ p t, Entry.granted p t ∈ entries → t + minIntervalMs ≤ r.clock := by
      intro p t ht
      obtain ⟨expiry, he, hle⟩ := h.locked p t ht
      have hpast : ¬ r.clock < expiry := fun hlt => hheld ⟨expiry, he, hlt⟩
      omega
    refine ⟨h.kept.grant h.past hfree pass, fun e he => ?_, fun p t ht => ?_⟩
    · rcases List.mem_append.mp he with he | he
      · exact h.past e he
      · rw [List.eq_of_mem_singleton he]
        exact Nat.le_refl _
    · refine ⟨r.clock + minIntervalMs, Function.update_self .., ?_⟩
      rcases List.mem_append.mp ht with ht | ht
      · have hle := hfree p t ht
        omega
      · cases List.eq_of_mem_singleton ht
        exact Nat.le_refl _

/-- An admitted pass picks at most one message. -/
theorem LockKept.fetch {r : Redis} {entries : List (Entry PassId MessageId)} {a : FetchArgs}
    {pass : PassId} (h : LockKept queueKey minIntervalMs r entries)
    (hadmitted : a.sourceQueue = queueKey → PassPhase.admitted.Holds entries pass) :
    LockKept queueKey minIntervalMs r
      (entries ++ admissionEntries queueKey pass (.fetchNextMessageInQueueAndMove a) r) := by
  simp only [admissionEntries]
  split
  next hq =>
    obtain ⟨⟨t, ht⟩, hfirst⟩ := hadmitted hq
    split
    next id hash hr =>
      refine ⟨h.kept.pick h.past ht hfirst id, fun e he => ?_, fun p t' ht' => ?_⟩
      · rcases List.mem_append.mp he with he | he
        · exact h.past e he
        · rw [List.eq_of_mem_singleton he]
          exact Nat.le_refl _
      · rcases List.mem_append.mp ht' with ht' | ht'
        · exact h.locked p t' ht'
        · cases List.eq_of_mem_singleton ht'
    next => rwa [List.append_nil]
  next => rwa [List.append_nil]

/-- What an executed command makes of the ledger and the lock, if it is allowed in the
phase its pass is in. -/
theorem LockKept.exec {s : Store} {entries : List (Entry PassId MessageId)} {c : RedisCmd}
    {pass : PassId} {phase : PassPhase} (i : MessageId)
    (h : LockKept queueKey minIntervalMs s.redis entries)
    (hc : (spaced queueKey minIntervalMs).allows phase (.redis c))
    (hphase : phase.Holds entries pass) :
    LockKept queueKey minIntervalMs (s.exec c i).2.redis
      (entries ++ admissionEntries queueKey pass c s.redis) := by
  by_cases hlock : ∃ q ms, c = .lockQueueForTimeMs q ms
  · obtain ⟨q, ms, rfl⟩ := hlock
    by_cases hq : q = queueKey
    · obtain ⟨-, rfl⟩ := hc hq
      subst hq
      exact h.lock pass
    · have hnone : admissionEntries queueKey pass (.lockQueueForTimeMs q ms) s.redis = [] :=
        if_neg fun he => hq he.1
      rw [hnone, List.append_nil]
      change LockKept queueKey minIntervalMs (lockQueueForTimeMs q ms s.redis).2 entries
      unfold lockQueueForTimeMs
      split
      · exact h
      · exact h.later (Function.update_of_ne (fun he => hq he.symm) ..) (Nat.le_refl _)
  · have htimed := exec_timed (fun q ms e => hlock ⟨q, ms, e⟩) s i
    have hlocks : (s.exec c i).2.redis.locks = s.redis.locks := congrArg Prod.fst htimed
    have hclock : (s.exec c i).2.redis.clock = s.redis.clock := congrArg Prod.snd htimed
    refine LockKept.later (r := s.redis) ?_ (congrFun hlocks _) (Nat.le_of_eq hclock.symm)
    cases c with
    | lockQueueForTimeMs q ms => exact absurd ⟨q, ms, rfl⟩ hlock
    | fetchNextMessageInQueueAndMove a =>
      refine h.fetch fun hq => ?_
      have hadmitted : phase = .admitted := hc hq
      exact hadmitted ▸ hphase
    | _ =>
      change LockKept queueKey minIntervalMs s.redis (entries ++ [])
      rwa [List.append_nil]

/-- The ledger and the lock, and every pass, known by where it runs. -/
structure SpacingKept (queueKey : QueueKey) (minIntervalMs : Nat) (x : Process)
    (ledger : AdmissionLedger) : Prop where
  lock : LockKept queueKey minIntervalMs x.world.store.redis ledger.entries
  passes : ∀ e ∈ ledger.entries, e.pass.restarts ≤ ledger.restarts ∧
    (e.pass.restarts = ledger.restarts → e.pass.slot < x.threads.length)
  threads : ∀ (j : Nat) t, x.threads[j]? = some t →
    Tracked queueKey minIntervalMs ledger.entries ⟨ledger.restarts, j⟩ t

theorem spacingKept_initial : SpacingKept queueKey minIntervalMs Process.initial {} where
  lock :=
    { kept := kept_nil
      past := fun _ he => nomatch he
      locked := fun _ _ ht => nomatch ht }
  passes _ he := nomatch he
  threads _ _ ht := nomatch ht

/-- The pass whose command is executed. -/
theorem SpacingKept.executed (hx : SpacingKept queueKey minIntervalMs x ledger) {i : Nat}
    {h : Handler} {c : Cmd} (hw : x.waiting i = some (h, c)) :
    i < x.threads.length ∧ ∃ phase : PassPhase, (spaced queueKey minIntervalMs).allows phase c ∧
      phase.Holds ledger.entries ⟨ledger.restarts, i⟩ := by
  obtain ⟨k, ht⟩ := Config.get_of_waiting hw
  obtain ⟨phase, hp, hphase⟩ := hx.threads i _ ht
  exact ⟨(List.getElem?_eq_some_iff.mp ht).1, phase, hp.1, hphase⟩

theorem SpacingKept.lock_next (hx : SpacingKept queueKey minIntervalMs x ledger)
    {a : Choice Handler Oracle Disturbance} (hy : (engine svc weather).next a x = some y) :
    LockKept queueKey minIntervalMs y.world.store.redis
      (noteAdmission queueKey x a ledger).entries := by
  rcases noteAdmission_cases queueKey ledger hy with
    ⟨hsame, hs | ⟨d, hs⟩⟩ | ⟨i, o, h, c, rfl, hw, hs, hnote⟩
  · rw [hsame, hs]
    exact hx.lock
  · rw [hsame, hs]
    obtain ⟨hlocks, hclock⟩ := disturb_timed x.world.store d
    exact hx.lock.later (congrFun hlocks _) hclock
  · obtain ⟨-, phase, hallow, hphase⟩ := hx.executed hw
    rw [hnote, hs]
    exact hx.lock.exec o.id hallow hphase

theorem noteAdmission_restarts {a : Choice Handler Oracle Disturbance} (ha : a ≠ .crash) :
    (noteAdmission queueKey x a ledger).restarts = ledger.restarts := by
  cases a with
  | crash => exact absurd rfl ha
  | turn i o =>
    simp only [noteAdmission]
    split
    next => split <;> rfl
    next => rfl
  | _ => rfl

/-- What a turn adds is about the pass that takes it. -/
theorem mem_noteAdmission {a : Choice Handler Oracle Disturbance}
    (hy : (engine svc weather).next a x = some y) {e : Entry PassId MessageId}
    (he : e ∈ (noteAdmission queueKey x a ledger).entries) :
    e ∈ ledger.entries ∨ ∃ i o h c, a = .turn i o ∧ x.waiting i = some (h, c) ∧
      e.pass = ⟨ledger.restarts, i⟩ := by
  rcases noteAdmission_cases queueKey ledger hy with
    ⟨hsame, -⟩ | ⟨i, o, h, c, rfl, hw, -, hnote⟩
  · rw [hsame] at he
    exact .inl he
  · rw [hnote] at he
    rcases List.mem_append.mp he with he | he
    · exact .inl he
    · exact .inr ⟨i, o, h, .redis c, rfl, hw, (mem_admissionEntries he).1⟩

theorem threads_length_next {a : Choice Handler Oracle Disturbance} (ha : a ≠ .crash)
    (hy : (engine svc weather).next a x = some y) : x.threads.length ≤ y.threads.length := by
  rcases System.next_cases hy with ⟨h, w, -, -, rfl⟩ | ⟨i, o, h, c, k, r, w, -, -, -, rfl⟩ |
    ⟨d, w, -, -, rfl⟩ | ⟨w, rfl, -, -⟩
  · rw [List.length_append]
    exact Nat.le_add_right _ _
  · exact Nat.le_of_eq List.length_set.symm
  · exact Nat.le_refl _
  · exact absurd rfl ha

theorem SpacingKept.passes_next (hx : SpacingKept queueKey minIntervalMs x ledger)
    {a : Choice Handler Oracle Disturbance} (hy : (engine svc weather).next a x = some y)
    (e : Entry PassId MessageId) (he : e ∈ (noteAdmission queueKey x a ledger).entries) :
    e.pass.restarts ≤ (noteAdmission queueKey x a ledger).restarts ∧
      (e.pass.restarts = (noteAdmission queueKey x a ledger).restarts →
        e.pass.slot < y.threads.length) := by
  by_cases hcrash : a = .crash
  · subst hcrash
    change e.pass.restarts ≤ ledger.restarts + 1 ∧ (e.pass.restarts = ledger.restarts + 1 → _)
    obtain ⟨hle, -⟩ := hx.passes e he
    refine ⟨by omega, fun heq => ?_⟩
    omega
  · rw [noteAdmission_restarts hcrash]
    have hlen := threads_length_next hcrash hy
    rcases mem_noteAdmission hy he with he | ⟨i, o, h, c, -, hw, hpass⟩
    · obtain ⟨hle, hslot⟩ := hx.passes e he
      refine ⟨hle, fun heq => ?_⟩
      have hlt := hslot heq
      omega
    · obtain ⟨hlt, -⟩ := hx.executed hw
      rw [hpass]
      refine ⟨Nat.le_refl _, fun _ => ?_⟩
      change i < y.threads.length
      omega

/-- Where the reply to an executed command takes its pass, the ledger bears out. -/
theorem holds_after {phase : PassPhase} {entries : List (Entry PassId MessageId)} {pass : PassId}
    {o : Oracle} {c : RedisCmd} {w w' : World} {r : Except String c.Value}
    (hr : respond o (.redis c) w = some (r, w')) (hphase : phase.Holds entries pass)
    (hallow : (spaced queueKey minIntervalMs).allows phase (.redis c)) :
    (phase.after queueKey (.redis c) r).Holds
      (if o.fault = some .refused then entries else
        entries ++ admissionEntries queueKey pass c w.store.redis) pass := by
  have hquiet : admissionEntries queueKey pass c w.store.redis = [] → phase.Holds
      (if o.fault = some .refused then entries else
        entries ++ admissionEntries queueKey pass c w.store.redis) pass := by
    intro hnone
    rw [hnone, List.append_nil, ite_self]
    exact hphase
  by_cases hlock : ∃ q ms, c = .lockQueueForTimeMs q ms
  · obtain ⟨q, ms, rfl⟩ := hlock
    by_cases hq : q = queueKey
    · subst hq
      obtain ⟨rfl, -⟩ := hallow rfl
      by_cases hgot : r = .ok true
      · subst hgot
        obtain ⟨-, ⟨ho, hv, -⟩ | ⟨-, hv, -⟩ | ⟨-, hv, -⟩⟩ := execRedis_cases hr
        · have hgranted : (lockQueueForTimeMs q ms w.store.redis).1 = true := (Except.ok.inj hv).symm
          have hentries : admissionEntries q pass (.lockQueueForTimeMs q ms) w.store.redis =
              [.granted pass w.store.redis.clock] := if_pos ⟨rfl, hgranted⟩
          have hafter : PassPhase.after q .outside (.redis (.lockQueueForTimeMs q ms)) (.ok true) =
              .admitted := if_pos rfl
          rw [hafter, hentries, if_neg (by simp [ho])]
          refine ⟨⟨_, List.mem_append_right _ (List.mem_singleton_self _)⟩, fun e he => ?_⟩
          rw [picks_append] at he
          rcases List.mem_append.mp he with he | he
          · exact hphase e (List.mem_filter.mp he).1
          · cases he
        · cases hv
        · cases hv
      · have hover : PassPhase.after q .outside (.redis (.lockQueueForTimeMs q ms)) r = .passed := by
          cases r with
          | error e => exact if_pos rfl
          | ok locked =>
            cases locked with
            | false => exact if_pos rfl
            | true => exact absurd rfl hgot
        rw [hover]
        trivial
    · have hsame : phase.after queueKey (.redis (.lockQueueForTimeMs q ms)) r = phase := by
        cases r with
        | error e => exact if_neg hq
        | ok locked => cases locked <;> exact if_neg hq
      rw [hsame]
      exact hquiet (if_neg fun he => hq he.1)
  by_cases hfetch : ∃ a, c = .fetchNextMessageInQueueAndMove a
  · obtain ⟨a, rfl⟩ := hfetch
    by_cases hq : a.sourceQueue = queueKey
    · have hover : phase.after queueKey (.redis (.fetchNextMessageInQueueAndMove a)) r = .passed :=
        if_pos hq
      rw [hover]
      trivial
    · have hsame : phase.after queueKey (.redis (.fetchNextMessageInQueueAndMove a)) r = phase :=
        if_neg hq
      rw [hsame]
      exact hquiet (if_neg hq)
  · have hneither : (spaced queueKey minIntervalMs).allows phase (.redis c) ∧ _ :=
      after_neither (fun q ms he => hlock ⟨q, ms, by cases he; rfl⟩)
        (fun a he => hfetch ⟨a, by cases he; rfl⟩) phase
    rw [hneither.2 r]
    refine hquiet ?_
    unfold admissionEntries
    split
    next q ms => exact absurd ⟨q, ms, rfl⟩ hlock
    next a => exact absurd ⟨a, rfl⟩ hfetch
    next => rfl

section Interval

variable {plugin : DeliveryPlugin}
  (hp : (getPluginIdFromInitialQueueKey queueKey).bind svc.registry.delivery = some plugin)
  (ha : plugin.admission = .spacing minIntervalMs)

include hp ha

theorem SpacingKept.threads_next (hx : SpacingKept queueKey minIntervalMs x ledger)
    {a : Choice Handler Oracle Disturbance} (hy : (engine svc weather).next a x = some y) :
    ∀ (j : Nat) t, y.threads[j]? = some t →
      Tracked queueKey minIntervalMs (noteAdmission queueKey x a ledger).entries
        ⟨(noteAdmission queueKey x a ledger).restarts, j⟩ t := by
  refine System.slots_next hx.threads hy (fun h w hstart _ => ?_) (fun j t _ hturn hcrash ht => ?_) ?_
  · subst hstart
    refine ⟨.outside, handlerProgram_spaced hp ha h, fun e he heq => ?_⟩
    obtain ⟨-, hslot⟩ := hx.passes e he
    have hlt := hslot (congrArg PassId.restarts heq)
    rw [heq] at hlt
    exact absurd hlt (Nat.lt_irrefl _)
  · obtain ⟨phase, hwp, hphase⟩ := ht
    refine ⟨phase, hwp, ?_⟩
    rw [noteAdmission_restarts hcrash]
    rcases noteAdmission_cases queueKey ledger hy with
      ⟨hsame, -⟩ | ⟨i, o, h, c, rfl, -, -, hnote⟩
    · rw [hsame]
      exact hphase
    · rw [hnote]
      refine hphase.append fun e he heq => ?_
      rw [(mem_admissionEntries he).1] at heq
      cases heq
      exact hturn o rfl
  · rintro i o h c k r w rfl ht hr ⟨phase, hwp, hphase⟩
    refine ⟨phase.after queueKey c r, hwp.2 r _ rfl, ?_⟩
    have hw : x.waiting i = some (h, c) := Config.waiting_of_get ht
    have hsame : (noteAdmission queueKey x (.turn i o) ledger).restarts = ledger.restarts :=
      noteAdmission_restarts fun he => by cases he
    rw [hsame]
    simp only [engine] at hr
    split at hr
    next =>
      cases c with
      | redis c =>
        have hafter := holds_after hr hphase hwp.1
        simp only [noteAdmission, hw]
        split
        next ho =>
          rw [if_pos ho] at hafter
          exact hafter
        next ho =>
          rw [if_neg ho] at hafter
          exact hafter
      | _ =>
        simp only [noteAdmission, hw]
        exact hphase
    next => cases hr

theorem SpacingKept.next (hx : SpacingKept queueKey minIntervalMs x ledger)
    {a : Choice Handler Oracle Disturbance} (hy : (engine svc weather).next a x = some y) :
    SpacingKept queueKey minIntervalMs y (noteAdmission queueKey x a ledger) where
  lock := hx.lock_next hy
  passes e he := hx.passes_next hy e he
  threads := hx.threads_next hp ha hy

theorem ledgered_kept (hx : Ledgered svc weather queueKey x ledger) :
    SpacingKept queueKey minIntervalMs x ledger :=
  hx.invariant (I := SpacingKept queueKey minIntervalMs) spacingKept_initial
    fun _ _ _ _ hI _ hy => hI.next hp ha hy

/-- In every run, each message picked from a ready queue under a spacing plugin has a
lock grant of its own, given before to the pass that picks it; the grants are at least
the interval apart; and so within `D` ms of the first grant at most `D / minIntervalMs + 1`
messages are picked. -/
theorem spacing_limits_picks (hx : Ledgered svc weather queueKey x ledger) :
    (∃ grantOf : Nat → Nat,
      (∀ (n : Nat) pass t id, ledger.entries[n]? = some (.picked pass t id) →
        grantOf n < n ∧ ∃ t', ledger.entries[grantOf n]? = some (.granted pass t')) ∧
      ∀ (n n' : Nat) pass pass' t t' id id', ledger.entries[n]? = some (.picked pass t id) →
        ledger.entries[n']? = some (.picked pass' t' id') → grantOf n = grantOf n' → n = n') ∧
    (∀ (k k' : Nat) pass pass' t t', k < k' → ledger.entries[k]? = some (.granted pass t) →
      ledger.entries[k']? = some (.granted pass' t') → t + minIntervalMs ≤ t') ∧
    (0 < minIntervalMs → ∀ first,
      ((grants ledger.entries).map Entry.atMs).head? = some first → ∀ D,
        ((picks ledger.entries).filter (·.atMs ≤ first + D)).length ≤ D / minIntervalMs + 1) := by
  have hkept := (ledgered_kept hp ha hx).lock.kept
  refine ⟨hkept.own_grants, fun k k' pass pass' t t' hlt hk hk' => hkept.grants_apart hlt hk hk', ?_⟩
  intro hpos first hfirst D
  exact hkept.picks_within hpos hfirst D

end Interval

/-- Two commands wait for one gateway; passes 500 ms apart try its queue. -/
def spacedPicks : List (Choice Handler Oracle Disturbance) :=
  List.flatten [
    [.start (.enqueue sampleCreate), .turn 0 { id := sampleId }, .start (.enqueue sampleCreate),
      .turn 1 { id := "01ARZ3NDEKTSV4RRFFQ69G5FAW" }, .start .distribute], turns 2 2 {},
    [.start (.task (.distributeQueue sampleQueue))], turns 3 3 {},
    [.disturb (.elapse 500), .start .distribute], turns 4 2 {},
    [.start (.task (.distributeQueue sampleQueue))], turns 5 1 {},
    [.disturb (.elapse 1500), .start .distribute], turns 6 2 {},
    [.start (.task (.distributeQueue sampleQueue))], turns 7 3 {}]

/-- The pass after 500 ms is refused; the two that pick do so 2000 ms apart. -/
theorem spacedPicks_limited : ∃ x ledger, Ledgered vendorService {} sampleQueue x ledger ∧
    (picks ledger.entries).length = 2 ∧
    ((picks ledger.entries).filter (·.atMs ≤ 0 + 1999)).length ≤ 1999 / 2000 + 1 := by
  have hplugin : (getPluginIdFromInitialQueueKey sampleQueue).bind vendorService.registry.delivery =
      some (calinChirpstack {}) := rfl
  have hrun : ((engine vendorService {}).followRecorded (fun _ _ _ => true) (noteAdmission sampleQueue)
      spacedPicks Process.initial {}).any (fun s =>
        (picks s.2.entries).length = 2 ∧ ((grants s.2.entries).map Entry.atMs).head? = some 0) = true := by
    decide +kernel
  obtain ⟨⟨x, ledger⟩, hs, hpicks⟩ := (Option.any_eq_true _ _).mp hrun
  obtain ⟨htwo, hfirst⟩ := of_decide_eq_true hpicks
  have hx : Ledgered vendorService {} sampleQueue x ledger :=
    .of_follow (fun _ _ _ _ => trivial) .init hs
  exact ⟨x, ledger, hx, htwo,
    (spacing_limits_picks hplugin rfl hx).2.2 (by decide) 0 hfirst 1999⟩

end DeviceMessaging
