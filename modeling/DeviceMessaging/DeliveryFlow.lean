import DeviceMessaging.ConcurrencyCap
import DeviceMessaging.FlowBoard
import DeviceMessaging.HandlerCommands
import DeviceMessaging.RetryBudget

namespace DeviceMessaging

open Effect

/-- How far a message has come: the retries it has used up, and its status. -/
structure Rung where
  retries : Int
  status : DeliveryStatus
  deriving DecidableEq

/-- The pipeline of one attempt: a message waits, is picked, accepted, transmitted, or
fails into the retry that precedes the next attempt. -/
inductive Flow : Rung → Rung → Prop
  | pick (n : Int) : Flow ⟨n, .QUEUED⟩ ⟨n, .SENT_TO_NS⟩
  | accept (n : Int) : Flow ⟨n, .SENT_TO_NS⟩ ⟨n, .DELIVERED_TO_NS⟩
  | transmit (n : Int) : Flow ⟨n, .DELIVERED_TO_NS⟩ ⟨n, .SENT_TO_DEVICE⟩
  | fail (n : Int) (status : DeliveryStatus) (hs : status ≠ .QUEUED) :
    Flow ⟨n, status⟩ ⟨n + 1, .TO_RETRY⟩
  | requeue (n : Int) : Flow ⟨n, .TO_RETRY⟩ ⟨n, .QUEUED⟩

/-- A message comes in queued, with no retry used up. -/
def Rung.Entry (rung : Rung) : Prop :=
  rung = ⟨0, .QUEUED⟩

/-- The place of a status within an attempt. -/
def DeliveryStatus.level (status : DeliveryStatus) : Int :=
  match status with
  | TO_RETRY => 0
  | QUEUED => 1
  | SENT_TO_NS => 2
  | DELIVERED_TO_NS => 3
  | SENT_TO_DEVICE => 4
  | DELIVERY_SUCCESSFUL => 4
  | DELIVERY_FAILED => 4

def Rung.height (rung : Rung) : Int :=
  5 * rung.retries + rung.status.level

theorem level_le (status : DeliveryStatus) : 0 ≤ status.level ∧ status.level ≤ 4 := by
  cases status <;> decide

theorem Flow.height_lt {rung rung' : Rung} (hf : Flow rung rung') :
    rung.height < rung'.height := by
  cases hf with
  | fail n status hs =>
    have hle := level_le status
    change 5 * n + status.level < 5 * (n + 1) + 0
    omega
  | _ => simp [Rung.height, DeliveryStatus.level]

def MessageHash.rung (h : MessageHash) : Option Rung :=
  match h.deliveryStatus, (h.retryCount.getD (.text 0)).parseNumber with
  | some status, some n => some ⟨n, status⟩
  | _, _ => none

/-- The messages where they stand, and those there ever were. -/
def Store.board (s : Store) : Board MessageId Rung where
  place id := (s.redis.messages id).bind MessageHash.rung
  known := fun id => id ∈ s.named ∨ s.redis.messages id ≠ none
  known_of_place id hid := .inr fun hnone => hid (by rw [hnone]; rfl)

/-- The retry transaction finds the count as it was read. -/
def Counts (c : RedisCmd) (s : Store) : Prop :=
  match c with
  | .enterRetry a => ∀ h rung, s.redis.messages a.messageId = some h → h.rung = some rung →
      a.retryCount = some (rung.retries + 1)
  | _ => True

/-- Retries find the message, its count and its hash as they read them. -/
def Undisturbed (c : RedisCmd) (s : Store) : Prop :=
  Retries c s ∧ Counts c s

/-- Every stored message stands on a rung, within the retries there are. -/
def Store.Standing (svc : Service) (s : Store) : Prop :=
  ∀ id h, s.redis.messages id = some h →
    ∃ rung, h.rung = some rung ∧ 0 ≤ rung.retries ∧ rung.retries ≤ svc.delivery.maxRetries

variable {svc : Service} {weather : Weather} {x y : Process} {s : Store} {c : RedisCmd}
  {i id : MessageId} {h : MessageHash}

theorem rung_status {rung : Rung} (hr : h.rung = some rung) :
    h.deliveryStatus = some rung.status := by
  unfold MessageHash.rung at hr
  split at hr
  next hs hn =>
    cases hr
    exact hs
  next => cases hr

theorem rung_of {status : DeliveryStatus} {n : Int} (hs : h.deliveryStatus = some status)
    (hn : (h.retryCount.getD (.text 0)).parseNumber = some n) : h.rung = some ⟨n, status⟩ := by
  unfold MessageHash.rung
  rw [hs, hn]

/-- A write of the status that keeps the count. -/
theorem rung_restated {h' : MessageHash} {rung : Rung} {status : DeliveryStatus}
    (hr : h.rung = some rung) (hc : h'.retryCount = h.retryCount)
    (hs : h'.deliveryStatus = some status) : h'.rung = some ⟨rung.retries, status⟩ := by
  refine rung_of hs ?_
  rw [hc]
  unfold MessageHash.rung at hr
  split at hr
  next hs hn =>
    cases hr
    exact hn
  next => cases hr

theorem rung_created (dto : CreateDeviceMessage) :
    (serializeCreateDeviceMessage dto).rung = some ⟨0, .QUEUED⟩ :=
  rfl

theorem rung_retried {a : EnterRetryMulti} {n : Int} (hn : a.retryCount = some n)
    (g : MessageHash) : (retryHash a g).rung = some ⟨n, .TO_RETRY⟩ := by
  refine rung_of rfl ?_
  simp [retryHash, setRetry, hn, FieldText.parseNumber]

/-- What a service's move does to the status. -/
theorem moved_flow {a : MoveArgs} {status : DeliveryStatus} {n : Int}
    (hmove : Advances svc a ∨ Requeues svc s.enqueued a) (hs : status = a.sourceQueue.status) :
    Flow ⟨n, status⟩ ⟨n, a.deliveryStatus⟩ := by
  subst hs
  rcases hmove with ⟨plugin, fromStage, next, -, hnext, hsource, -, hstatus, -⟩ |
    ⟨dto, -, hsource, -, hstatus, -⟩
  · rw [hsource, hstatus, stageKeyFor_status]
    have hpair : (fromStage = .ns ∧ (next = .relayNode ∨ next = .awaitingTask)) ∨
        (fromStage = .relayNode ∧ next = .device) := by
      cases hp : plugin.deliveryPattern <;> rw [hp] at hnext <;> cases fromStage <;>
        revert hnext <;> cases next <;> decide
    rcases hpair with ⟨rfl, rfl | rfl⟩ | ⟨rfl, rfl⟩
    · exact .accept n
    · exact .accept n
    · exact .transmit n
  · rw [hsource, hstatus]
    exact .requeue n

theorem standing_empty : Store.Standing svc .empty :=
  fun _ _ h => nomatch h

theorem board_place_update {t : Store} {m : MessageId} {o : Option MessageHash}
    (ht : t.redis.messages = Function.update s.redis.messages m o) :
    t.board.place = Function.update s.board.place m (o.bind MessageHash.rung) := by
  funext id
  change (t.redis.messages id).bind _ = _
  rw [ht]
  by_cases hid : id = m
  · subst hid
    rw [Function.update_self, Function.update_self]
  · rw [Function.update_of_ne hid, Function.update_of_ne hid]
    rfl

theorem board_known_exec (hprov : Provenance s) :
    s.board.known ⊆ (s.exec c i).2.board.known := by
  intro id hid
  have hnamed : id ∈ s.named := hid.elim (fun h => h) (hprov.named id)
  exact .inl (named_exec s c i id hnamed)

/-- A stored hash is replaced by one on a rung. -/
theorem standing_update {t : Store} {m : MessageId} {g : MessageHash} {rung : Rung}
    (hst : s.Standing svc) (ht : t.redis.messages = Function.update s.redis.messages m (some g))
    (hg : g.rung = some rung) (hpos : 0 ≤ rung.retries)
    (hle : rung.retries ≤ svc.delivery.maxRetries) : t.Standing svc := by
  intro id h hh
  rw [ht] at hh
  rcases update_some_cases hh with ⟨-, rfl⟩ | ⟨-, hh⟩
  · exact ⟨rung, hg, hpos, hle⟩
  · exact hst id h hh

/-- A command on a message that stands on a rung puts it on the next. -/
theorem board_move {m : MessageId} {g g' : MessageHash} {rung rung' : Rung}
    (hprov : Provenance s) (hst : s.Standing svc) (hg : s.redis.messages m = some g)
    (hr : g.rung = some rung) (hr' : g'.rung = some rung') (hflow : Flow rung rung')
    (hpos : 0 ≤ rung'.retries) (hle : rung'.retries ≤ svc.delivery.maxRetries)
    (ht : (s.exec c i).2.redis.messages = Function.update s.redis.messages m (some g')) :
    Board.Step Rung.Entry Flow s.board (s.exec c i).2.board ∧ (s.exec c i).2.Standing svc := by
  have hplace := board_place_update ht
  rw [Option.bind_some, hr'] at hplace
  have hwas : s.board.place m = some rung := by
    change (s.redis.messages m).bind _ = _
    rw [hg]
    exact hr
  exact ⟨.move hwas hflow hplace (board_known_exec hprov), standing_update hst ht hr' hpos hle⟩

/-- What one command of the service does on the board. -/
theorem board_exec (hs : SlotsKept svc s) (hprov : Provenance s) (hst : s.Standing svc)
    (hc : Cmd.Proper svc s.enqueued (.redis c)) (hu : Undisturbed c s) (hf : c.Fresh i s)
    (hretry : ∀ a, c = .enterRetry a → (∃ stage p, a.fromKey = stageKeyFor stage p) ∧
      ∀ n, a.retryCount = some n → n ≤ svc.delivery.maxRetries) :
    Board.Step Rung.Entry Flow s.board (s.exec c i).2.board ∧ (s.exec c i).2.Standing svc := by
  have hknown : s.board.known ⊆ (s.exec c i).2.board.known := board_known_exec hprov
  have hw := exec_hashWrite s c i
  generalize hmsgs : (s.exec c i).2.redis.messages = f at hw
  cases hw with
  | keep =>
    have hplace : (s.exec c i).2.board.place = s.board.place := by
      funext id
      change ((s.exec c i).2.redis.messages id).bind _ = _
      rw [hmsgs]
      rfl
    refine ⟨.stay hplace hknown, fun id h hh => ?_⟩
    rw [hmsgs] at hh
    exact hst id h hh
  | @enqueue dto q =>
    have hnew : i ∉ s.named := (hf rfl).2
    have hnone : s.redis.messages i = none := by
      by_contra hne
      exact hnew (hprov.named i hne)
    rw [hnone, Option.getD_none, MessageHash.write_empty] at hmsgs
    have hplace := board_place_update hmsgs
    rw [Option.bind_some, rung_created] at hplace
    have hx : i ∉ s.board.known := fun hk => hk.elim hnew fun hne => hne hnone
    have hmax : (0 : Int) ≤ svc.delivery.maxRetries := Int.natCast_nonneg _
    exact ⟨.enter hx rfl hplace hknown,
      standing_update hst hmsgs (rung_created dto) (le_refl _) hmax⟩
  | @move a g hg hq =>
    obtain ⟨rung, hr, hpos, hle⟩ := hst _ g hg
    obtain ⟨hcount, -, hstatus⟩ := movedHash_fields a g
    have hwas := (hs.slots _ g hg).placed _ hq
    have hrung := rung_restated hr hcount hstatus
    have hflow := moved_flow (n := rung.retries) hc
      (Option.some.inj ((rung_status hr).symm.trans hwas))
    exact board_move hprov hst hg hr hrung hflow hpos hle hmsgs
  | @pick a m g hg hq =>
    obtain ⟨rung, hr, hpos, hle⟩ := hst _ g hg
    obtain ⟨node, plugin, -, hsource, -, hnew, -⟩ := hc
    have hwas := (hs.slots _ g hg).placed _ hq
    rw [hsource] at hwas
    have hstatus : (pickedHash a g).deliveryStatus = some .SENT_TO_NS := by
      change some a.newStatus = _
      rw [hnew]
    have hcount : (pickedHash a g).retryCount = g.retryCount := rfl
    have hrung := rung_restated hr hcount hstatus
    have hrs : rung.status = .QUEUED := Option.some.inj ((rung_status hr).symm.trans hwas)
    have hflow : Flow rung ⟨rung.retries, .SENT_TO_NS⟩ := by
      have he : rung = ⟨rung.retries, .QUEUED⟩ := by rw [← hrs]
      rw [he]
      exact .pick _
    exact board_move hprov hst hg hr hrung hflow hpos hle hmsgs
  | @retry a =>
    obtain ⟨⟨⟨hin, -⟩, hstands⟩, hcounts⟩ := hu
    obtain ⟨g, hg⟩ := Option.ne_none_iff_exists'.mp hstands
    obtain ⟨rung, hr, hpos, hle⟩ := hst _ g hg
    obtain ⟨⟨stage, p, hfrom⟩, hmax⟩ := hretry a rfl
    have hcount : a.retryCount = some (rung.retries + 1) := hcounts g rung hg hr
    have hwas := (hs.slots _ g hg).placed _ hin
    have hne : rung.status ≠ .QUEUED := by
      have hrs : rung.status = a.fromKey.status :=
        Option.some.inj ((rung_status hr).symm.trans hwas)
      rw [hrs, hfrom]
      cases stage <;> exact nofun
    rw [hg, Option.getD_some] at hmsgs
    exact board_move hprov hst hg hr (rung_retried hcount g) (.fail _ _ hne) (by dsimp only; omega)
      (hmax _ hcount) hmsgs
  | @purge m qs =>
    have hplace := board_place_update hmsgs
    refine ⟨.leave hplace hknown, fun id h hh => ?_⟩
    rw [hmsgs] at hh
    exact hst id h (update_none_cases hh).2

theorem board_disturb (hprov : Provenance s) (hst : s.Standing svc) (d : Disturbance) :
    Board.Step Rung.Entry Flow s.board (s.disturb d).board ∧ (s.disturb d).Standing svc := by
  have hknown : s.board.known ⊆ (s.disturb d).board.known := by
    intro id hid
    have hnamed : id ∈ s.named := hid.elim (fun h => h) (hprov.named id)
    exact .inl hnamed
  cases d with
  | expireMessage m =>
    have hmsgs : (s.disturb (.expireMessage m)).redis.messages =
        Function.update s.redis.messages m none := rfl
    have hplace := board_place_update hmsgs
    exact ⟨.leave hplace hknown, fun id h hh => hst id h (update_none_cases hh).2⟩
  | _ => exact ⟨.stay rfl hknown, hst⟩

/-- What holds throughout a run whose retries are undisturbed. -/
structure Flowing (svc : Service) (x : Process) : Prop where
  slots : SlotsKept svc x.world.store
  provenance : Provenance x.world.store
  standing : x.world.store.Standing svc

theorem flowing_step {ok : Process → Choice Handler Oracle Disturbance → Prop}
    (hx : Reached svc weather ok x) (hfl : Flowing svc x)
    {a : Choice Handler Oracle Disturbance} (ha : OnCommand Undisturbed x a)
    (hy : (engine svc weather).next a x = some y) :
    Board.Step Rung.Entry Flow x.world.store.board y.world.store.board ∧
      y.world.store.Standing svc := by
  rcases store_next hy with he | ⟨i, o, h, c, rfl, hw, hf, he⟩ | ⟨d, -, he⟩ <;> rw [he]
  · exact ⟨.stay rfl subset_rfl, hfl.standing⟩
  · have hproper := (reached_commissioned hx).proper hw
    have hu := ha i o h c rfl hw
    refine board_exec hfl.slots hfl.provenance hfl.standing hproper hu hf ?_
    rintro a rfl
    exact reached_retry_within hx hw
  · exact board_disturb hfl.provenance hfl.standing d

theorem reached_flowing (hx : Reached svc weather (OnCommand Undisturbed) x) : Flowing svc x := by
  have hall : Reached svc weather (OnCommand Retries) x ∧ Flowing svc x := by
    refine hx.invariant (I := fun x => Reached svc weather (OnCommand Retries) x ∧ Flowing svc x)
      ⟨.init, slotsKept_empty, provenance_empty, standing_empty⟩ ?_
    rintro x y a ⟨hx, hfl⟩ ha hy
    have hy' : Reached svc weather (OnCommand Retries) y :=
      .step a hx (fun i o h c e hw => (ha i o h c e hw).1) hy
    obtain ⟨-, hst⟩ := flowing_step hx hfl ha hy
    exact ⟨hy', reached_slotsKept hy', reached_provenance hy', hst⟩
  exact hall.2

/-- A later state of the process, with no disturbed retry in between. -/
abbrev Later (svc : Service) (weather : Weather) : Process → Process → Prop :=
  (engine svc weather).Reachable (OnCommand Undisturbed)

theorem board_stored {rung : Rung} (hh : s.redis.messages id = some h) (hr : h.rung = some rung) :
    s.board.place id = some rung := by
  change (s.redis.messages id).bind _ = _
  rw [hh]
  exact hr

theorem board_unstored (hnone : s.redis.messages id = none) : s.board.place id = none := by
  change (s.redis.messages id).bind _ = _
  rw [hnone]
  rfl

/-- In every run whose retries find the message as they read it, the stored messages
are items on the board of the delivery flow: each step of the engine is a step of the board,
which lets one message in, moves it along the flow, lets it out, or leaves the board as it is.
So a message that is stored later has
used up no more retries than there are; if it was known before, it was stored then, on the
same rung or on a lower one, and if not, it came in since and went along the flow; and what
is no longer stored never comes back. -/
theorem reached_flow (hx : Reached svc weather (OnCommand Undisturbed) x)
    (hxy : Later svc weather x y) :
    Board.Run Rung.Entry Flow x.world.store.board y.world.store.board ∧
    (∀ id h, y.world.store.redis.messages id = some h → ∃ rung, h.rung = some rung ∧
      0 ≤ rung.retries ∧ rung.retries ≤ svc.delivery.maxRetries ∧
      (id ∈ x.world.store.named → ∃ g below, x.world.store.redis.messages id = some g ∧
        g.rung = some below ∧ (below = rung ∨ below.height < rung.height)) ∧
      (id ∉ x.world.store.named → Relation.ReflTransGen Flow ⟨0, .QUEUED⟩ rung)) ∧
    (∀ id, id ∈ x.world.store.named → x.world.store.redis.messages id = none →
      y.world.store.redis.messages id = none) ∧
    ∀ a z, OnCommand Undisturbed y a → (engine svc weather).next a y = some z →
      Board.Step Rung.Entry Flow y.world.store.board z.world.store.board := by
  have hall : Reached svc weather (OnCommand Undisturbed) y ∧
      Board.Run Rung.Entry Flow x.world.store.board y.world.store.board := by
    refine hxy.invariant (I := fun y => Reached svc weather (OnCommand Undisturbed) y ∧
      Board.Run Rung.Entry Flow x.world.store.board y.world.store.board) ⟨hx, .refl⟩ ?_
    rintro y z a ⟨hy, hrun⟩ ha hz
    have hstep := (flowing_step hy (reached_flowing hy) ha hz).1
    exact ⟨.step a hy ha hz, hrun.tail hstep⟩
  obtain ⟨hy, hrun⟩ := hall
  have hstanding := (reached_flowing hy).standing
  refine ⟨hrun, fun id h hh => ?_, fun id hid hnone => ?_, fun a z ha hz => ?_⟩
  · obtain ⟨rung, hr, hpos, hle⟩ := hstanding id h hh
    have hplace := board_stored hh hr
    refine ⟨rung, hr, hpos, hle, fun hid => ?_, fun hid => ?_⟩
    · obtain ⟨below, hb, hbelow⟩ :=
        Board.Run.climbs (fun _ _ hf => Flow.height_lt hf) hrun (.inl hid) hplace
      obtain ⟨g, hg, hgr⟩ := Option.bind_eq_some_iff.mp hb
      exact ⟨g, below, hg, hgr, hbelow⟩
    · have hunknown : id ∉ x.world.store.board.known :=
        fun hk => hk.elim hid fun hne => hid ((reached_flowing hx).provenance.named id hne)
      obtain ⟨entry, rfl, hpath⟩ := Board.Run.entered hrun hunknown hplace
      exact hpath
  · have hgone := Board.Run.gone hrun (.inl hid) (board_unstored hnone)
    rw [Option.eq_none_iff_forall_ne_some]
    intro h hh
    obtain ⟨rung, hr, -⟩ := hstanding id h hh
    rw [board_stored hh hr] at hgone
    cases hgone
  · exact (flowing_step hy (reached_flowing hy) ha hz).1

def countsCheck (c : RedisCmd) (s : Store) : Bool :=
  match c with
  | .enterRetry a => ((s.redis.messages a.messageId).bind MessageHash.rung).all fun rung =>
      a.retryCount = some (rung.retries + 1)
  | _ => true

theorem countsCheck_sound (c : RedisCmd) (s : Store) (h : countsCheck c s = true) : Counts c s := by
  cases c with
  | enterRetry a =>
    intro g rung hg hr
    have hall : ((s.redis.messages a.messageId).bind MessageHash.rung).all (fun rung =>
        decide (a.retryCount = some (rung.retries + 1))) = true := h
    rw [hg, Option.bind_some, hr, Option.all_some] at hall
    exact of_decide_eq_true hall
  | _ => trivial

def undisturbedCheck (c : RedisCmd) (s : Store) : Bool :=
  steadyCheck c s && hashStandsCheck c s && countsCheck c s

theorem undisturbedCheck_sound (c : RedisCmd) (s : Store) (h : undisturbedCheck c s = true) :
    Undisturbed c s := by
  unfold undisturbedCheck at h
  rw [Bool.and_eq_true, Bool.and_eq_true] at h
  exact ⟨⟨steadyCheck_sound c s h.1.1, hashStandsCheck_sound c s h.1.2⟩, countsCheck_sound c s h.2⟩

/-- The sample message stands on the rung. -/
def sampleAt (rung : Rung) (x : Process) : Bool :=
  (x.world.store.redis.messages sampleId).bind MessageHash.rung = some rung

/-- A send that fails takes its message up, from its first attempt to its first retry. -/
theorem failed_send_climbs :
    ∃ x y : Process, ∃ g h below rung, Later vendorService { expiry := true } x y ∧
      x.world.store.redis.messages sampleId = some g ∧ g.rung = some below ∧
      y.world.store.redis.messages sampleId = some h ∧ h.rung = some rung ∧
      rung = ⟨1, .TO_RETRY⟩ ∧ below.height < rung.height := by
  have hsound := onCommand_of_check (p := Undisturbed) undisturbedCheck_sound
  obtain ⟨x, hx, hsent⟩ := exists_reached vendorService { expiry := true }
    (checkCommand undisturbedCheck) slottedSend
    (fun x => ((engine vendorService { expiry := true }).follow (checkCommand undisturbedCheck)
      (turns 3 5 {}) x).any fun y => decide (sampleId ∈ x.world.store.named) &&
        sampleAt ⟨1, .TO_RETRY⟩ y && !sampleAt ⟨1, .TO_RETRY⟩ x)
    hsound (by decide +kernel)
  obtain ⟨y, hy, hr⟩ := (Option.any_eq_true _ _).mp hsent
  rw [Bool.and_eq_true, Bool.and_eq_true] at hr
  have hnamed := of_decide_eq_true hr.1.1
  obtain ⟨h, hh, hrung⟩ := Option.bind_eq_some_iff.mp (of_decide_eq_true hr.1.2)
  have hxy : Later vendorService { expiry := true } x y := .of_follow hsound .init hy
  obtain ⟨rung, hr', -, -, hbelow, -⟩ := (reached_flow hx hxy).2.1 sampleId h hh
  obtain ⟨g, below, hg, hgr, hle⟩ := hbelow hnamed
  obtain rfl : rung = ⟨1, .TO_RETRY⟩ := Option.some.inj (hr'.symm.trans hrung)
  refine ⟨x, y, g, h, below, _, hxy, hg, hgr, hh, hr', rfl, ?_⟩
  rcases hle with rfl | hlt
  · have hsame : sampleAt ⟨1, .TO_RETRY⟩ x = true := decide_eq_true (by rw [hg]; exact hgr)
    rw [hsame] at hr
    exact absurd hr.2 (by decide)
  · exact hlt

end DeviceMessaging
