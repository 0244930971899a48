import DeviceMessaging.CalinClient

namespace DeviceMessaging.CalinApiV2

open Effect Prog

/-- A command that calls the vendor. -/
def Cmd.isCall (c : Cmd) : Bool :=
  match c with
  | login _ => true
  | post .. => true
  | _ => false

/-- The client with one call: its calls to the vendor are answered one after the other. -/
def aloneExec (readJwtExpMs : List Char → Option ℚ) (network : Network) (now : ℚ)
    (s : World × Nat) (c : Cmd) (r : Reply c) (s' : World × Nat) : Prop :=
  respond readJwtExpMs { now := now, fetched := network s.2 } c s.1 = some (r, s'.1) ∧
    s'.2 = if c.isCall then s.2 + 1 else s.2

variable (readJwtExpMs : List Char → Option ℚ) (network : Network) (now : ℚ) {w : World} {n : Nat}

/-- The session that the world and the calls so far make. -/
def World.session (w : World) (n : Nat) : Session where
  cachedToken := w.cachedToken
  fetches := n

/-- The world after a session, with no login in flight. -/
structure Idle (s : World × Nat) (session : Session) : Prop where
  free : s.1.fetchTokenInFlight = none
  cached : s.1.cachedToken = session.cachedToken
  fetches : s.2 = session.fetches

abbrev RunsAlone (readJwtExpMs : List Char → Option ℚ) (network : Network) (now : ℚ) {α : Type}
    (p : Code α) : World × Nat → Except VendorError α → World × Nat → Prop :=
  p.Runs (aloneExec readJwtExpMs network now)

theorem loginWithin_alone (tries login : Nat) :
    ∃ w', w'.fetchTokenInFlight = w.fetchTokenInFlight ∧
      RunsAlone readJwtExpMs network now (loginWithin tries login) (w, n) (.ok ())
        (w', (fetchTokenWithin readJwtExpMs network tries (w.session n)).fetches) ∧
      w'.cachedToken = (fetchTokenWithin readJwtExpMs network tries (w.session n)).cachedToken := by
  induction tries generalizing w n with
  | zero => exact ⟨w, rfl, ⟨rfl, rfl⟩, rfl⟩
  | succ tries ih =>
    have hcall : (Prog.command (Cmd.login login) : Code Fetched).Runs
        (aloneExec readJwtExpMs network now) (w, n) (.ok (network n))
        (w.grant readJwtExpMs (network n), n + 1) := runs_command ⟨rfl, rfl⟩
    have hnet : network (w.session n).fetches = network n := rfl
    unfold loginWithin fetchTokenWithin
    rw [hnet]
    cases hf : network n with
    | answered response =>
      rw [hf] at hcall
      refine ⟨w.grant readJwtExpMs (.answered response), rfl, ?_, rfl⟩
      exact runs_bind hcall ⟨rfl, rfl⟩
    | rejected err =>
      rw [hf] at hcall
      obtain ⟨w', hfree, hrun, hc⟩ := ih (w := w) (n := n + 1)
      exact ⟨w', hfree, runs_bind hcall hrun, hc⟩

/-- A login that nobody else makes. -/
theorem flight_alone (hw : w.fetchTokenInFlight = none) :
    ∃ s', Idle s' (fetchToken readJwtExpMs network (w.session n)) ∧
      RunsAlone readJwtExpMs network now (fly w.join.1) (w.join.2, n) (.ok ()) s' := by
  unfold World.join
  rw [hw]
  generalize hv : ({ w with
    fetchTokenInFlight := some w.logins
    logins := w.logins + 1 } : World) = v
  have hs : v.session n = w.session n := by rw [← hv]; rfl
  obtain ⟨w', -, hrun, hc⟩ := loginWithin_alone readJwtExpMs network now
    (w := v) (n := n) FETCH_RETRIES w.logins
  rw [hs] at hrun hc
  refine ⟨({ w' with fetchTokenInFlight := none }, _), ⟨rfl, hc, rfl⟩, ?_⟩
  exact runs_bind hrun (runs_command ⟨rfl, rfl⟩)

/-- What is made of the token of a session. -/
def tokenOr (message : String) (s : Session) : Except VendorError CachedToken :=
  match s.cachedToken with
  | some token => .ok token
  | none => .error (calinApiV2Error message)

theorem readCached_alone {s : World × Nat} {session : Session} (hs : Idle s session)
    (message : String) :
    RunsAlone readJwtExpMs network now (readCached message) s (tokenOr message session) s := by
  unfold readCached tokenOr
  rw [← hs.cached]
  refine runs_bind (a := s.1.cachedToken) (runs_command ⟨rfl, rfl⟩) ?_
  cases s.1.cachedToken <;> exact ⟨rfl, rfl⟩

theorem awaitToken_alone (hw : w.fetchTokenInFlight = none) :
    ∃ s', Idle s' (ensureToken readJwtExpMs network now (w.session n)) ∧
      RunsAlone readJwtExpMs network now awaitToken (w, n)
        (tokenOr "CALIN API-V2 failed to get a token"
          (ensureToken readJwtExpMs network now (w.session n))) s' := by
  have hfetch : needsRefresh now (w.session n) = true → w.ensure now = (.flight w.join.1, w.join.2) := by
    intro hn
    unfold World.ensure
    unfold needsRefresh at hn
    change w.cachedToken.all _ = true at hn
    cases hc : w.cachedToken with
    | none => rfl
    | some token =>
      rw [hc, Option.all_some] at hn
      exact if_pos (of_decide_eq_true hn)
  unfold ensureToken
  by_cases hn : needsRefresh now (w.session n) = true
  · rw [if_pos hn]
    obtain ⟨s', hidle, hrun⟩ := flight_alone readJwtExpMs network now (n := n) hw
    refine ⟨s', hidle, ?_⟩
    have hens : aloneExec readJwtExpMs network now (w, n) .ensure (.flight w.join.1)
        (w.join.2, n) := ⟨congrArg some (hfetch hn), rfl⟩
    exact runs_bind (runs_command hens) (runs_bind hrun (readCached_alone readJwtExpMs network now hidle _))
  · rw [if_neg hn]
    refine ⟨(w, n), ⟨hw, rfl, rfl⟩, ?_⟩
    unfold needsRefresh at hn
    change ¬ w.cachedToken.all _ = true at hn
    unfold tokenOr
    change RunsAlone _ _ _ _ _ (match w.cachedToken with | some token => _ | none => _) _
    cases hc : w.cachedToken with
    | none =>
      rw [hc] at hn
      exact absurd rfl hn
    | some token =>
      rw [hc, Option.all_some] at hn
      have hens : aloneExec readJwtExpMs network now (w, n) .ensure (.ready token) (w, n) := by
        refine ⟨?_, rfl⟩
        unfold respond World.ensure
        dsimp only
        rw [hc]
        exact congrArg some (if_neg fun hlt => hn (decide_eq_true hlt))
      exact runs_bind (runs_command hens) ⟨rfl, rfl⟩

theorem postWave_alone (tries : Nat) (request : Request) (bearer : List Char)
    {s : World × Nat} {session : Session} (hs : Idle s session) :
    ∃ s', Idle s' (postWithin network tries session).2 ∧
      RunsAlone readJwtExpMs network now (postWave tries request bearer) s
        (.ok (postWithin network tries session).1) s' := by
  induction tries generalizing s session with
  | zero => exact ⟨s, hs, ⟨rfl, rfl⟩⟩
  | succ tries ih =>
    have hpost : (Prog.command (Cmd.post request bearer) : Code Fetched).Runs
        (aloneExec readJwtExpMs network now) s (.ok (network s.2)) (s.1, s.2 + 1) :=
      runs_command ⟨rfl, rfl⟩
    have hnext : Idle (s.1, s.2 + 1) { session with fetches := session.fetches + 1 } :=
      ⟨hs.free, hs.cached, congrArg (· + 1) hs.fetches⟩
    unfold postWave postWithin
    rw [← hs.fetches] at hnext ⊢
    cases hp : postAuthorized (network s.2) with
    | down =>
      obtain ⟨s', hidle, hrun⟩ := ih hnext
      refine ⟨s', hidle, runs_bind hpost ?_⟩
      rw [hp]
      exact hrun
    | data data =>
      refine ⟨_, hnext, runs_bind hpost ?_⟩
      rw [hp]
      exact ⟨rfl, rfl⟩
    | unauthorized =>
      refine ⟨_, hnext, runs_bind hpost ?_⟩
      rw [hp]
      exact ⟨rfl, rfl⟩

theorem resend_alone (request : Request) {s : World × Nat} {session : Session}
    (hs : Idle s session) :
    ∃ s', s'.1.fetchTokenInFlight = none ∧ RunsAlone readJwtExpMs network now (resend request) s
      (postAfresh readJwtExpMs network session) s' := by
  have hsession : ({ s.1 with cachedToken := none } : World).session s.2 =
      { session with cachedToken := none } := by
    unfold World.session
    rw [hs.fetches]
  have hfree : ({ s.1 with cachedToken := none } : World).fetchTokenInFlight = none := hs.free
  obtain ⟨s₁, hidle, hrun⟩ := flight_alone readJwtExpMs network now (n := s.2) hfree
  rw [hsession] at hidle
  have hread := readCached_alone readJwtExpMs network now
    hidle "[CALIN API-V2] Can't log in, API may be down"
  have hrenew : aloneExec readJwtExpMs network now s .renew
      ({ s.1 with cachedToken := none } : World).join.1
      (({ s.1 with cachedToken := none } : World).join.2, s.2) := ⟨rfl, rfl⟩
  unfold resend postAfresh
  dsimp only
  generalize fetchToken readJwtExpMs network { session with cachedToken := none } = fresh
    at hidle hread ⊢
  unfold tokenOr at hread
  cases hc : fresh.cachedToken with
  | none =>
    rw [hc] at hread
    refine ⟨s₁, hidle.free, runs_bind (runs_command hrenew) (runs_bind hrun ?_)⟩
    exact runs_bind_error hread
  | some token =>
    rw [hc] at hread
    obtain ⟨s₂, hidle₂, hwave⟩ := postWave_alone readJwtExpMs network now FETCH_RETRIES request token.token hidle
    refine ⟨s₂, hidle₂.free, runs_bind (runs_command hrenew) (runs_bind hrun ?_)⟩
    refine runs_bind hread (runs_bind hwave ?_)
    rw [if_pos (by rfl)]
    cases (postWithin network FETCH_RETRIES fresh).1 <;> exact ⟨rfl, rfl⟩

/-- A call that is alone with the client runs to its end, with the result that `sendRequest`
computes from the session it finds, for every network, clock reading and cached token. -/
theorem send_alone (request : Request) (hw : w.fetchTokenInFlight = none) :
    ∃ s', s'.1.fetchTokenInFlight = none ∧ RunsAlone readJwtExpMs network now (send request) (w, n)
      (sendRequest readJwtExpMs network now (w.session n)) s' := by
  obtain ⟨s₁, hidle, htoken⟩ := awaitToken_alone readJwtExpMs network now (n := n) hw
  unfold send sendRequest
  dsimp only
  generalize ensureToken readJwtExpMs network now (w.session n) = session at hidle htoken ⊢
  unfold tokenOr at htoken
  cases hc : session.cachedToken with
  | none =>
    rw [hc] at htoken
    exact ⟨s₁, hidle.free, runs_bind_error htoken⟩
  | some token =>
    rw [hc] at htoken
    rw [if_pos (by rfl)]
    obtain ⟨s₂, hidle₂, hwave⟩ := postWave_alone readJwtExpMs network now FETCH_RETRIES request token.token hidle
    cases hp : postWithin network FETCH_RETRIES session with
    | mk posted session₂ =>
      rw [hp] at hidle₂ hwave
      cases posted with
      | data data => exact ⟨s₂, hidle₂.free, runs_bind htoken (runs_bind hwave ⟨rfl, rfl⟩)⟩
      | down => exact ⟨s₂, hidle₂.free, runs_bind htoken (runs_bind hwave ⟨rfl, rfl⟩)⟩
      | unauthorized =>
        obtain ⟨s₃, hfree, hrun⟩ := resend_alone readJwtExpMs network now request hidle₂
        exact ⟨s₃, hfree, runs_bind htoken (runs_bind hwave hrun)⟩

/-- A network that gives a token to the login and accepts the post after it. -/
def acceptingNetwork : Network
  | 0 => .answered {
      status := 200
      json := .ok (.obj [("result".toList, .obj [("token".toList, .str "t".toList)])]) }
  | _ => .answered { status := 200, json := .ok (.bool true) }

theorem accepted_alone :
    ∃ s', s'.1.fetchTokenInFlight = none ∧
      RunsAlone (fun _ => some 2000) acceptingNetwork 0 (send ⟨"/API", .null⟩) ({}, 0)
        (.ok (.bool true)) s' :=
  send_alone (fun _ => some 2000) acceptingNetwork 0 ⟨"/API", .null⟩ rfl

end DeviceMessaging.CalinApiV2
