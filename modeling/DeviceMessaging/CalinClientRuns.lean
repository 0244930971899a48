import DeviceMessaging.CalinClient
import DeviceMessaging.Guarded

namespace DeviceMessaging.CalinApiV2

open Effect Prog

/-- No post of the call was answered with data. -/
def Unanswered (posts : List Fetched) : Prop :=
  ∀ fetched ∈ posts, ∀ data, postAuthorized fetched ≠ .data data

/-- A call ends with the data that its last post was answered with, and with an error only
when none was. -/
def Explains (posts : List Fetched) (result : Except VendorError JsValue) : Prop :=
  match result with
  | .ok data => ∃ before last, posts = before ++ [last] ∧ Unanswered before ∧
      postAuthorized last = .data data
  | .error _ => Unanswered posts

/-- A wave of calls for each token the call has asked for. -/
def Trail.waves (g : Trail) : Nat :=
  FETCH_RETRIES * (g.renewals + 1)

/-- What a call does next, by where it stands. -/
def Trail.Allows (request : Request) (g : Trail) (c : Cmd) : Prop :=
  match g.phase, c with
  | .asked, .ensure => True
  | .leading login, .login n => n = login ∧ g.logins < g.waves
  | .leading login, .settle n => n = login
  | .following login, .await n => n = login
  | .flown, .cached => True
  | .posting bearer, .post r b => r = request ∧ b = bearer ∧ g.posts.length < g.waves
  | .posting _, .deliver result => Explains g.posts result
  | .refused, .renew => g.renewals = 0
  | .settling, .deliver result => Explains g.posts result
  | _, _ => False

def watch (request : Request) : Monitor Cmd Reply Trail where
  allows := Trail.Allows request
  next g c r g' := ∃ granted, g' = g.after granted c r

variable {request : Request} {g : Trail} {α : Type}

theorem watch_command {c : Cmd} {Q : Reply c → Trail → Prop} {E : VendorError → Trail → Prop}
    (hc : g.Allows request c) (hQ : ∀ r granted, Q r (g.after granted c r)) :
    (Prog.command c : Code (Reply c)).wp (watch request) Q E g := by
  refine ⟨hc, fun r g' hg => ?_⟩
  obtain ⟨granted, rfl⟩ := hg
  exact hQ r granted

/-- What a login leaves of a call's trail. -/
structure Flown (g g' : Trail) : Prop where
  phase : g'.phase = .flown
  posts : g'.posts = g.posts
  renewals : g'.renewals = g.renewals
  logins : g'.logins ≤ g.waves

abbrev Never : VendorError → Trail → Prop :=
  fun _ _ => False

theorem loginWithin_watched (tries login : Nat) (hp : g.phase = .leading login)
    (hn : g.logins + tries ≤ g.waves) :
    (loginWithin tries login).wp (watch request) (fun _ g' => g'.phase = .leading login ∧
      g'.posts = g.posts ∧ g'.renewals = g.renewals ∧ g'.logins ≤ g.waves) Never g := by
  induction tries generalizing g with
  | zero => exact ⟨hp, rfl, rfl, hn⟩
  | succ tries ih =>
    unfold loginWithin
    rw [wp_bind]
    have hallow : g.Allows request (.login login) := by
      unfold Trail.Allows
      rw [hp]
      exact ⟨rfl, by omega⟩
    refine watch_command hallow fun fetched granted => ?_
    cases fetched with
    | answered response =>
      have hle : g.logins + 1 ≤ g.waves := by omega
      exact ⟨hp, rfl, rfl, hle⟩
    | rejected err =>
      have hn' : g.logins + 1 + tries ≤ g.waves := by omega
      exact ih (g := g.after granted (.login login) (.rejected err)) hp hn'

theorem fly_watched (flight : Flight) (hp : g.phase = flight.phase)
    (hn : g.logins + FETCH_RETRIES ≤ g.waves) :
    (fly flight).wp (watch request) (fun _ g' => Flown g g') Never g := by
  cases flight with
  | lead login =>
    unfold fly
    rw [wp_bind]
    refine wp_mono (loginWithin_watched _ login hp hn) (fun _ g₁ h₁ => ?_) fun _ _ h => h
    obtain ⟨hp₁, hposts, hrenew, hlogins⟩ := h₁
    have hallow : g₁.Allows request (.settle login) := by
      unfold Trail.Allows
      rw [hp₁]
    exact watch_command hallow fun _ _ => ⟨rfl, hposts, hrenew, hlogins⟩
  | follow login =>
    have hallow : g.Allows request (.await login) := by
      unfold Trail.Allows
      rw [hp]
      rfl
    have hle : g.logins ≤ g.waves := by omega
    exact watch_command hallow fun _ _ => ⟨rfl, rfl, rfl, hle⟩

/-- What an error leaves. -/
abbrev Thrown : VendorError → Trail → Prop :=
  fun _ g => (g.phase = .settling ∨ ∃ bearer, g.phase = .posting bearer) ∧ Unanswered g.posts

/-- Where reading the token leads. -/
theorem readCached_watched (message : String) (hp : g.phase = .flown) (hu : Unanswered g.posts) :
    (readCached message).wp (watch request)
      (fun token g' => g'.phase = .posting token.token ∧ g'.posts = g.posts ∧
        g'.renewals = g.renewals ∧ g'.logins = g.logins) Thrown g := by
  unfold readCached
  rw [wp_bind]
  have hallow : g.Allows request .cached := by
    unfold Trail.Allows
    rw [hp]
    trivial
  refine watch_command hallow fun cached granted => ?_
  cases cached with
  | none => exact ⟨.inl rfl, hu⟩
  | some token => exact ⟨rfl, rfl, rfl, rfl⟩

/-- Where a wave of posts leads. -/
structure Posted.Leads (posted : Posted) (g g' : Trail) : Prop where
  renewals : g'.renewals = g.renewals
  logins : g'.logins = g.logins
  posts : g'.posts.length ≤ g.waves
  data : ∀ data, posted = .data data → g'.phase = .settling ∧ Explains g'.posts (.ok data)
  unauthorized : posted = .unauthorized →
    g'.phase = (if g.renewals = 0 then .refused else .settling) ∧ Unanswered g'.posts
  down : posted = .down → (∃ bearer, g'.phase = .posting bearer) ∧ Unanswered g'.posts

theorem unanswered_append {posts : List Fetched} {fetched : Fetched} (hu : Unanswered posts)
    (hf : ∀ data, postAuthorized fetched ≠ .data data) : Unanswered (posts ++ [fetched]) := by
  intro f hmem
  rcases List.mem_append.mp hmem with hmem | hmem
  · exact hu f hmem
  · rw [List.mem_singleton.mp hmem]
    exact hf

theorem postWave_watched (tries : Nat) (bearer : List Char) (hp : g.phase = .posting bearer)
    (hn : g.posts.length + tries ≤ g.waves) (hu : Unanswered g.posts) :
    (postWave tries request bearer).wp (watch request)
      (fun posted g' => posted.Leads g g') Never g := by
  induction tries generalizing g with
  | zero =>
    refine ⟨rfl, rfl, by omega, ?_, ?_, fun _ => ⟨⟨bearer, hp⟩, hu⟩⟩
    · exact fun _ he => by cases he
    · exact fun he => by cases he
  | succ tries ih =>
    unfold postWave
    rw [wp_bind]
    have hallow : g.Allows request (.post request bearer) := by
      unfold Trail.Allows
      rw [hp]
      exact ⟨rfl, rfl, by omega⟩
    refine watch_command hallow fun fetched granted => ?_
    have hlength : (g.posts ++ [fetched]).length = g.posts.length + 1 := by simp
    have hposts : (g.after granted (.post request bearer) fetched).posts = g.posts ++ [fetched] :=
      rfl
    cases hpost : postAuthorized fetched with
    | down =>
      have hu' : Unanswered (g.posts ++ [fetched]) :=
        unanswered_append hu fun data he => by rw [hpost] at he; cases he
      have hp' : (g.after granted (.post request bearer) fetched).phase = .posting bearer := by
        simp only [Trail.after, hpost]
      have hn' : (g.after granted (.post request bearer) fetched).posts.length + tries ≤
          g.waves := by rw [hposts, hlength]; omega
      refine wp_mono (ih hp' hn' hu') (fun posted g' h => ?_) fun _ _ h => h
      exact ⟨h.renewals, h.logins, h.posts, h.data, h.unauthorized, h.down⟩
    | data data =>
      refine ⟨rfl, rfl, by rw [hposts, hlength]; omega, ?_, ?_, ?_⟩
      · intro data' he
        cases he
        refine ⟨by simp only [Trail.after, hpost], g.posts, fetched, rfl, hu, hpost⟩
      · exact fun he => by cases he
      · exact fun he => by cases he
    | unauthorized =>
      refine ⟨rfl, rfl, by rw [hposts, hlength]; omega, ?_, ?_, ?_⟩
      · exact fun _ he => by cases he
      · refine fun _ => ⟨by simp only [Trail.after, hpost], ?_⟩
        exact unanswered_append hu fun data he => by rw [hpost] at he; cases he
      · exact fun he => by cases he

/-- A call with a token in its hands. -/
structure Holding (token : CachedToken) (g g' : Trail) : Prop where
  phase : g'.phase = .posting token.token
  posts : g'.posts = g.posts
  renewals : g'.renewals = g.renewals
  logins : g'.logins ≤ g.waves

theorem awaitToken_watched (hp : g.phase = .asked) (hn : g.logins = 0) (hu : Unanswered g.posts) :
    awaitToken.wp (watch request) (fun token g' => Holding token g g') Thrown g := by
  unfold awaitToken
  rw [wp_bind]
  have hallow : g.Allows request .ensure := by
    unfold Trail.Allows
    rw [hp]
    trivial
  refine watch_command hallow fun ensured granted => ?_
  cases ensured with
  | ready token => exact ⟨rfl, rfl, rfl, by change g.logins ≤ g.waves; omega⟩
  | flight flight =>
    dsimp only
    rw [wp_bind]
    have hroom : g.logins + FETCH_RETRIES ≤ g.waves := by
      unfold Trail.waves
      rw [hn, Nat.mul_add]
      omega
    refine wp_mono (fly_watched flight (g := g.after granted .ensure (.flight flight)) rfl hroom)
      (fun _ g₁ h₁ => ?_) fun _ _ h => h.elim
    have hu₁ : Unanswered g₁.posts := by
      rw [h₁.posts]
      exact hu
    refine wp_mono (readCached_watched _ h₁.phase hu₁) (fun token g₂ h₂ => ?_) fun _ _ h => h
    obtain ⟨hp₂, hposts, hrenew, hlogins⟩ := h₂
    have hle : g₁.logins ≤ g.waves := h₁.logins
    exact ⟨hp₂, hposts.trans h₁.posts, hrenew.trans h₁.renewals, by omega⟩

/-- The data a call ends with. -/
abbrev Answered : JsValue → Trail → Prop :=
  fun data g => g.phase = .settling ∧ Explains g.posts (.ok data)

theorem resend_watched (hp : g.phase = .refused) (hr : g.renewals = 0) (hl : g.logins ≤ g.waves)
    (hn : g.posts.length ≤ g.waves) (hu : Unanswered g.posts) :
    (resend request).wp (watch request) Answered Thrown g := by
  unfold resend
  rw [wp_bind]
  have hallow : g.Allows request .renew := by
    unfold Trail.Allows
    rw [hp]
    exact hr
  refine watch_command hallow fun flight granted => ?_
  generalize hg : g.after granted .renew flight = g₁
  have hp₁ : g₁.phase = flight.phase := by rw [← hg]; rfl
  have hposts₁ : g₁.posts = g.posts := by rw [← hg]; rfl
  have hlogins₁ : g₁.logins = g.logins := by rw [← hg]; rfl
  have hrenew₁ : g₁.renewals = 1 := by
    rw [← hg]
    change g.renewals + 1 = 1
    omega
  have hroom : g.waves + FETCH_RETRIES = g₁.waves := by
    unfold Trail.waves
    rw [hr, hrenew₁, Nat.mul_add]
    rfl
  rw [wp_bind]
  refine wp_mono (fly_watched flight hp₁ (by omega)) (fun _ g₂ h₂ => ?_) fun _ _ h => h.elim
  have hu₂ : Unanswered g₂.posts := by
    rw [h₂.posts, hposts₁]
    exact hu
  rw [wp_bind]
  refine wp_mono (readCached_watched _ h₂.phase hu₂) (fun token g₃ h₃ => ?_) fun _ _ h => h
  obtain ⟨hp₃, hposts₃, hrenew₃, -⟩ := h₃
  have hwaves : g₃.waves = g₁.waves := by
    unfold Trail.waves
    rw [hrenew₃, h₂.renewals]
  have hposts : g₃.posts = g.posts := by rw [hposts₃, h₂.posts, hposts₁]
  have hn₃ : g₃.posts.length + FETCH_RETRIES ≤ g₃.waves := by
    rw [hposts]
    omega
  have hu₃ : Unanswered g₃.posts := by
    rw [hposts]
    exact hu
  have hne : g₃.renewals ≠ 0 := by
    rw [hrenew₃, h₂.renewals, hrenew₁]
    exact one_ne_zero
  rw [wp_bind]
  refine wp_mono (postWave_watched _ _ hp₃ hn₃ hu₃) (fun posted g₄ h₄ => ?_) fun _ _ h => h.elim
  cases posted with
  | data data => exact h₄.data data rfl
  | unauthorized =>
    obtain ⟨hp₄, hu₄⟩ := h₄.unauthorized rfl
    rw [if_neg hne] at hp₄
    exact ⟨.inl hp₄, hu₄⟩
  | down =>
    obtain ⟨hp₄, hu₄⟩ := h₄.down rfl
    exact ⟨.inr hp₄, hu₄⟩

theorem send_watched : (send request).wp (watch request) Answered Thrown {} := by
  unfold send
  rw [wp_bind]
  have hu : Unanswered [] := fun _ hf => by cases hf
  refine wp_mono (awaitToken_watched rfl rfl hu) (fun token g₁ h₁ => ?_) fun _ _ h => h
  have hposts : g₁.posts = [] := h₁.posts
  have hrenew : g₁.renewals = 0 := h₁.renewals
  have hwaves : g₁.waves = FETCH_RETRIES := by
    unfold Trail.waves
    rw [hrenew]
    exact Nat.mul_one _
  have hlogins : g₁.logins ≤ FETCH_RETRIES := h₁.logins
  rw [wp_bind]
  have hn : g₁.posts.length + FETCH_RETRIES ≤ g₁.waves := by
    rw [hposts, hwaves]
    exact le_of_eq (Nat.zero_add _)
  refine wp_mono (postWave_watched _ _ h₁.phase hn (by rw [hposts]; exact hu))
    (fun posted g₂ h₂ => ?_) fun _ _ h => h.elim
  have hwaves₂ : g₂.waves = g₁.waves := by
    unfold Trail.waves
    rw [h₂.renewals]
  cases posted with
  | data data => exact h₂.data data rfl
  | unauthorized =>
    obtain ⟨hp₂, hu₂⟩ := h₂.unauthorized rfl
    rw [if_pos hrenew] at hp₂
    refine resend_watched hp₂ (h₂.renewals.trans hrenew) ?_ ?_ hu₂
    · rw [hwaves₂, h₂.logins, hwaves]
      exact hlogins
    · rw [hwaves₂]
      exact h₂.posts
  | down =>
    obtain ⟨hp₂, hu₂⟩ := h₂.down rfl
    exact ⟨.inr hp₂, hu₂⟩

/-- A call goes as it may, to its end. -/
theorem caller_watched : (caller request).wp (watch request) (fun _ g => g.phase = .over) Never {} := by
  unfold caller
  rw [wp_bind, wp_tryCatch, wp_bind]
  have hend : ∀ (g : Trail) result, (g.phase = .settling ∨ ∃ bearer, g.phase = .posting bearer) →
      Explains g.posts result →
      (Prog.command (Cmd.deliver result) : Code Unit).wp (watch request)
        (fun _ g => g.phase = .over) Never g := by
    intro g result hp he
    have hallow : g.Allows request (.deliver result) := by
      unfold Trail.Allows
      rcases hp with hp | ⟨bearer, hp⟩ <;> rw [hp] <;> exact he
    exact watch_command hallow fun _ _ => rfl
  refine wp_mono send_watched (fun data g h => ?_) fun err g h => ?_
  · exact hend g (.ok data) (.inl h.1) h.2
  · exact hend g (.error err) h.1 h.2

theorem Trail.Allows.post {r : Request} {bearer : List Char}
    (h : g.Allows request (.post r bearer)) :
    g.phase = .posting bearer ∧ r = request ∧ g.posts.length < g.waves := by
  unfold Trail.Allows at h
  cases hp : g.phase with
  | posting b =>
    rw [hp] at h
    obtain ⟨hr, hb, hn⟩ := h
    exact ⟨by rw [hb], hr, hn⟩
  | _ =>
    rw [hp] at h
    exact h.elim

theorem Trail.Allows.login {n : Nat} (h : g.Allows request (.login n)) :
    g.phase = .leading n ∧ g.logins < g.waves := by
  unfold Trail.Allows at h
  cases hp : g.phase with
  | leading m =>
    rw [hp] at h
    obtain ⟨hn, hlt⟩ := h
    exact ⟨by rw [hn], hlt⟩
  | _ =>
    rw [hp] at h
    exact h.elim

theorem Trail.Allows.settle {n : Nat} (h : g.Allows request (.settle n)) : g.phase = .leading n := by
  unfold Trail.Allows at h
  cases hp : g.phase with
  | leading m =>
    rw [hp] at h
    exact congrArg Phase.leading h.symm
  | _ =>
    rw [hp] at h
    exact h.elim

theorem Trail.Allows.deliver {result : Except VendorError JsValue}
    (h : g.Allows request (.deliver result)) : Explains g.posts result := by
  unfold Trail.Allows at h
  cases hp : g.phase with
  | posting b =>
    rw [hp] at h
    exact h
  | settling =>
    rw [hp] at h
    exact h
  | _ =>
    rw [hp] at h
    exact h.elim

theorem Trail.Allows.renew (h : g.Allows request .renew) : g.phase = .refused ∧ g.renewals = 0 := by
  unfold Trail.Allows at h
  cases hp : g.phase with
  | refused =>
    rw [hp] at h
    exact ⟨rfl, h⟩
  | _ =>
    rw [hp] at h
    exact h.elim

theorem Trail.Allows.ensure (h : g.Allows request .ensure) : g.phase = .asked := by
  unfold Trail.Allows at h
  cases hp : g.phase with
  | asked => rfl
  | _ =>
    rw [hp] at h
    exact h.elim

/-- A call that leads a login makes its calls, and then settles it. -/
theorem Trail.Allows.leading {n : Nat} {c : Cmd} (h : g.Allows request c)
    (hp : g.phase = .leading n) : c = .login n ∨ c = .settle n := by
  unfold Trail.Allows at h
  rw [hp] at h
  cases c with
  | login m => exact .inl (congrArg Cmd.login h.1)
  | settle m => exact .inr (congrArg Cmd.settle h)
  | _ => exact h.elim

theorem Trail.Allows.following {n : Nat} {c : Cmd} (h : g.Allows request c)
    (hp : g.phase = .following n) : c = .await n := by
  unfold Trail.Allows at h
  rw [hp] at h
  cases c with
  | await m => exact congrArg Cmd.await h
  | _ => exact h.elim

variable {readJwtExpMs : List Char → Option ℚ} {x y : Calls} {w w' : World}
  {trails : Nat → Trail}

/-- Every token there is, and the bearer of the call, was granted since it last dropped one. -/
structure Trail.Fresh (g : Trail) (w : World) : Prop where
  le : g.since ≤ w.granted.length
  cached : ∀ token, w.cachedToken = some token → token ∈ w.granted.drop g.since
  bearer : ∀ bearer, g.phase = .posting bearer →
    ∃ token ∈ w.granted.drop g.since, token.token = bearer

theorem join_world (w : World) :
    w.join.2.cachedToken = w.cachedToken ∧ w.join.2.granted = w.granted := by
  unfold World.join
  cases w.fetchTokenInFlight <;> exact ⟨rfl, rfl⟩

/-- What a command can do to the token: it drops it, leaves it, or a login grants one. -/
theorem respond_token {o : Oracle} {c : Cmd} {r : Reply c}
    (hr : respond readJwtExpMs o c w = some (r, w')) :
    (w'.granted = w.granted ∧ (w'.cachedToken = none ∨ w'.cachedToken = w.cachedToken)) ∨
      ∃ token, w'.granted = w.granted ++ [token] ∧ w'.cachedToken = some token := by
  cases c with
  | ensure =>
    obtain ⟨hc, hg⟩ := join_world w
    simp only [respond, World.ensure, Option.some.injEq] at hr
    split at hr
    next =>
      split at hr <;> cases hr
      · exact .inl ⟨hg, .inr hc⟩
      · exact .inl ⟨rfl, .inr rfl⟩
    next =>
      cases hr
      exact .inl ⟨hg, .inr hc⟩
  | renew =>
    obtain ⟨hc, hg⟩ := join_world { w with cachedToken := none }
    simp only [respond, Option.some.injEq] at hr
    rw [hr] at hc hg
    exact .inl ⟨hg, .inl hc⟩
  | login n =>
    simp only [respond, Option.some.injEq] at hr
    cases hr
    unfold World.grant
    cases o.fetched with
    | rejected err => exact .inl ⟨rfl, .inr rfl⟩
    | answered response =>
      dsimp only
      cases loginToken readJwtExpMs response with
      | none => exact .inl ⟨List.append_nil _, .inl rfl⟩
      | some token => exact .inr ⟨token, rfl, rfl⟩
  | await n =>
    simp only [respond] at hr
    split at hr <;> cases hr
    exact .inl ⟨rfl, .inr rfl⟩
  | _ =>
    cases hr
    exact .inl ⟨rfl, .inr rfl⟩

theorem Trail.Fresh.respond {o : Oracle} {c : Cmd} {r : Reply c} (hf : g.Fresh w)
    (hr : CalinApiV2.respond readJwtExpMs o c w = some (r, w')) : g.Fresh w' := by
  rcases respond_token hr with ⟨hg, hc⟩ | ⟨token, hg, hc⟩
  · refine ⟨hg ▸ hf.le, fun token he => ?_, fun bearer hp => hg ▸ hf.bearer bearer hp⟩
    rcases hc with hc | hc <;> rw [hc] at he
    · cases he
    · rw [hg]
      exact hf.cached token he
  · have hdrop : w'.granted.drop g.since = w.granted.drop g.since ++ [token] := by
      rw [hg, List.drop_append_of_le_length hf.le]
    have hle : w'.granted.length = w.granted.length + 1 := by rw [hg, List.length_append]; rfl
    have hlt := hf.le
    refine ⟨by omega, fun token' he => ?_, fun bearer hp => ?_⟩
    · rw [hc] at he
      cases he
      rw [hdrop]
      exact List.mem_append_right _ List.mem_cons_self
    · obtain ⟨t, ht, he⟩ := hf.bearer bearer hp
      rw [hdrop]
      exact ⟨t, List.mem_append_left _ ht, he⟩

/-- And its own step keeps a call's trail fresh. -/
theorem Trail.Fresh.after {o : Oracle} {c : Cmd} {r : Reply c} (hf : g.Fresh w)
    (hallow : g.Allows request c) (hr : CalinApiV2.respond readJwtExpMs o c w = some (r, w')) :
    (g.after w.granted.length c r).Fresh w' := by
  have hf' := hf.respond hr
  have hkeep : ∀ g' : Trail, g'.since = g.since → (∀ bearer, g'.phase = .posting bearer →
      ∃ token ∈ w'.granted.drop g.since, token.token = bearer) → g'.Fresh w' := by
    intro g' hs hb
    exact ⟨hs ▸ hf'.le, hs ▸ hf'.cached, hs ▸ hb⟩
  cases c with
  | ensure =>
    simp only [CalinApiV2.respond, World.ensure, Option.some.injEq] at hr
    have hflight : ∀ f : Flight, (∀ bearer, f.phase = .posting bearer →
        ∃ token ∈ w'.granted.drop g.since, token.token = bearer) := by
      intro f bearer hp
      cases f <;> cases hp
    split at hr
    next token hc =>
      split at hr <;> cases hr
      · exact hkeep _ rfl (hflight _)
      · refine hkeep _ rfl fun bearer hp => ?_
        cases hp
        exact ⟨token, hf.cached token hc, rfl⟩
    next =>
      cases hr
      exact hkeep _ rfl (hflight _)
  | renew =>
    obtain ⟨hc, hg⟩ := join_world { w with cachedToken := none }
    simp only [CalinApiV2.respond, Option.some.injEq] at hr
    rw [hr] at hc hg
    refine ⟨le_of_eq (by rw [hg]; rfl), fun token he => ?_, fun bearer hp => ?_⟩
    · rw [hc] at he
      cases he
    · have hp : Flight.phase r = .posting bearer := hp
      cases r <;> cases hp
  | cached =>
    cases hr
    cases hc : w.cachedToken with
    | none => exact hkeep _ rfl fun bearer hp => by cases hp
    | some token =>
      refine hkeep _ rfl fun bearer hp => ?_
      cases hp
      exact ⟨token, hf.cached token hc, rfl⟩
  | post r' bearer =>
    cases hr
    obtain ⟨hold, -, -⟩ := hallow.post
    refine hkeep _ rfl fun bearer' hp => ?_
    have hsame : bearer = bearer' := by
      simp only [Trail.after] at hp
      cases hpost : postAuthorized o.fetched with
      | down =>
        rw [hpost] at hp
        exact Phase.posting.inj hp
      | data data =>
        rw [hpost] at hp
        cases hp
      | unauthorized =>
        rw [hpost] at hp
        dsimp only at hp
        split at hp <;> cases hp
    exact hsame ▸ hf'.bearer bearer hold
  | login n => exact hkeep _ rfl fun bearer hp => hf'.bearer bearer hp
  | settle n => exact hkeep _ rfl fun bearer hp => by cases hp
  | await n => exact hkeep _ rfl fun bearer hp => by cases hp
  | deliver result => exact hkeep _ rfl fun bearer hp => by cases hp

/-- The login that is in flight, and the one a call leads. -/
def World.Flies (w : World) (n : Nat) : Prop :=
  w.fetchTokenInFlight = some n

def Trail.Leads (g : Trail) (n : Nat) : Prop :=
  g.phase = .leading n

/-- Joining a login from where no login is led. -/
theorem leadStep_join {g' : Trail} {v : World} (hold : ∀ m, ¬ g.Leads m)
    (hv : v.fetchTokenInFlight = w.fetchTokenInFlight) (hp : g'.phase = v.join.1.phase) :
    Guarded.Step w.Flies v.join.2.Flies g.Leads g'.Leads := by
  unfold World.join at hp ⊢
  cases hin : v.fetchTokenInFlight with
  | some n =>
    rw [hin] at hp
    refine .keep (fun k => ?_) fun m => ?_
    · change v.fetchTokenInFlight = some k ↔ w.fetchTokenInFlight = some k
      rw [hv]
    · refine ⟨fun he => ?_, fun he => absurd he (hold m)⟩
      cases hp.symm.trans he
  | none =>
    rw [hin] at hp
    have hfree : ∀ m, ¬ w.Flies m := fun m he => by cases (hv.symm.trans hin).symm.trans he
    refine .take v.logins (hfree _) (fun m => ?_) fun m => ?_
    · refine ⟨fun he => .inr (Option.some.inj he).symm, fun he => ?_⟩
      exact congrArg some (he.resolve_left (hfree m)).symm
    · refine ⟨fun he => .inr (Phase.leading.inj (hp.symm.trans he)).symm, fun he => ?_⟩
      exact hp.trans (congrArg Phase.leading (he.resolve_left (hold m)).symm)

theorem leadStep {o : Oracle} {c : Cmd} {r : Reply c} (granted : Nat)
    (hallow : g.Allows request c) (hr : respond readJwtExpMs o c w = some (r, w'))
    (hin : ∀ n, g.Leads n → w.Flies n) :
    Guarded.Step w.Flies w'.Flies g.Leads (g.after granted c r).Leads := by
  have hsame : ∀ g' : Trail, w'.fetchTokenInFlight = w.fetchTokenInFlight →
      (∀ m, ¬ g.Leads m) → (∀ m, ¬ g'.Leads m) →
      Guarded.Step w.Flies w'.Flies g.Leads g'.Leads := by
    intro g' hw hold hnew
    refine .keep (fun m => ?_) fun m => ⟨fun he => absurd he (hnew m), fun he => absurd he (hold m)⟩
    change w'.fetchTokenInFlight = some m ↔ w.fetchTokenInFlight = some m
    rw [hw]
  have hnot : (∀ n, c ≠ .login n) → (∀ n, c ≠ .settle n) → ∀ m, ¬ g.Leads m := by
    intro hlogin hsettle m hp
    rcases hallow.leading hp with he | he
    · exact hlogin m he
    · exact hsettle m he
  cases c with
  | ensure =>
    have hold := hnot (fun _ he => by cases he) fun _ he => by cases he
    simp only [respond, World.ensure, Option.some.injEq] at hr
    split at hr
    next token _ =>
      split at hr <;> cases hr
      · exact leadStep_join hold rfl rfl
      · exact hsame _ rfl hold fun m he => by cases he
    next =>
      cases hr
      exact leadStep_join hold rfl rfl
  | renew =>
    have hold := hnot (fun _ he => by cases he) fun _ he => by cases he
    have hr' : ({ w with cachedToken := none } : World).join = (r, w') := Option.some.inj hr
    have hj : Guarded.Step w.Flies ({ w with cachedToken := none } : World).join.2.Flies g.Leads
        (g.after granted .renew ({ w with cachedToken := none } : World).join.1).Leads :=
      leadStep_join hold rfl rfl
    rw [hr'] at hj
    exact hj
  | login n =>
    cases hr
    refine .keep (fun m => ?_) fun m => Iff.rfl
    unfold World.grant
    cases o.fetched <;> exact Iff.rfl
  | settle n =>
    cases hr
    have hp := hallow.settle
    refine .give n hp (fun m => ?_) fun m => ?_
    · refine ⟨fun he => (by cases he), fun he => absurd ?_ he.2⟩
      have hn : w.fetchTokenInFlight = some n := hin n hp
      exact Option.some.inj (he.1.symm.trans hn)
    · refine ⟨fun he => (by cases he), fun he => absurd ?_ he.2⟩
      exact Phase.leading.inj (he.1.symm.trans hp)
  | await n =>
    have hold := hnot (fun _ he => by cases he) fun _ he => by cases he
    simp only [respond] at hr
    split at hr <;> cases hr
    exact hsame _ rfl hold fun m he => by cases he
  | cached =>
    have hold := hnot (fun _ he => by cases he) fun _ he => by cases he
    cases hr
    refine hsame _ rfl hold fun m he => ?_
    cases hc : w.cachedToken <;> rw [hc] at he <;> cases he
  | post q b =>
    have hold := hnot (fun _ he => by cases he) fun _ he => by cases he
    cases hr
    refine hsame _ rfl hold fun m he => ?_
    simp only [Trail.after] at he
    cases hpost : postAuthorized o.fetched <;> rw [hpost] at he
    · cases he
    · dsimp only at he
      split at he <;> cases he
    · cases he
  | deliver result =>
    have hold := hnot (fun _ he => by cases he) fun _ he => by cases he
    cases hr
    exact hsame _ rfl hold fun m he => by cases he

/-- A call makes no more calls than its waves have. -/
structure Trail.Within (g : Trail) : Prop where
  posts : g.posts.length ≤ g.waves
  logins : g.logins ≤ g.waves
  renewals : g.renewals ≤ 1

theorem Trail.Within.after {c : Cmd} {r : Reply c} (granted : Nat) (hg : g.Within)
    (hallow : g.Allows request c) : (g.after granted c r).Within := by
  obtain ⟨hposts, hlogins, hrenew⟩ := hg
  cases c with
  | ensure => cases r <;> exact ⟨hposts, hlogins, hrenew⟩
  | renew =>
    obtain ⟨-, hzero⟩ := hallow.renew
    have hwaves : (g.after granted .renew r).waves = g.waves + FETCH_RETRIES := by
      change FETCH_RETRIES * (g.renewals + 1 + 1) = _
      rw [Nat.mul_add]
      rfl
    refine ⟨?_, ?_, ?_⟩
    · rw [hwaves]
      exact Nat.le_add_right_of_le hposts
    · rw [hwaves]
      exact Nat.le_add_right_of_le hlogins
    · change g.renewals + 1 ≤ 1
      omega
  | login n =>
    obtain ⟨-, hlt⟩ := hallow.login
    exact ⟨hposts, hlt, hrenew⟩
  | cached => cases r <;> exact ⟨hposts, hlogins, hrenew⟩
  | post q b =>
    obtain ⟨-, -, hlt⟩ := hallow.post
    refine ⟨?_, hlogins, hrenew⟩
    change (g.posts ++ [r]).length ≤ g.waves
    rw [List.length_append]
    exact hlt
  | _ => exact ⟨hposts, hlogins, hrenew⟩

/-- What holds throughout a run of the client. -/
structure Kept (x : Calls) (trails : Nat → Trail) : Prop where
  watched : ∀ (j : Nat) t, x.threads[j]? = some t →
    t.2.wp (watch t.1) (fun _ g => g.phase = .over) Never (trails j)
  fresh : ∀ j < x.threads.length, (trails j).Fresh x.world
  within : ∀ j < x.threads.length, (trails j).Within
  granted : ∀ token, x.world.cachedToken = some token → token ∈ x.world.granted
  led : Guarded x.world.Flies fun j n => j < x.threads.length ∧ (trails j).Leads n

/-- Without calls there is nothing to keep. -/
theorem kept_idle (hc : w.cachedToken = none) (hf : w.fetchTokenInFlight = none) :
    Kept ⟨[], w⟩ trails where
  watched _ _ ht := by cases ht
  fresh _ hj := by cases hj
  within _ hj := by cases hj
  granted _ he := by cases hc.symm.trans he
  led := by
    refine .idle (fun n he => ?_) fun _ _ hj => ?_
    · cases hf.symm.trans he
    · cases hj.1

theorem kept_start (hx : Kept x trails) (h : Request) :
    Kept ⟨x.threads ++ [(h, caller h)], x.world⟩
      (Function.update trails x.threads.length {}) := by
  have hlen : (x.threads ++ [(h, caller h)]).length = x.threads.length + 1 := by simp
  have hold : ∀ j < x.threads.length, Function.update trails x.threads.length {} j = trails j :=
    fun j hj => Function.update_of_ne (Nat.ne_of_lt hj) _ _
  have hnew : Function.update trails x.threads.length {} x.threads.length = {} :=
    Function.update_self _ _ _
  have hcases : ∀ j < (x.threads ++ [(h, caller h)]).length,
      j < x.threads.length ∨ j = x.threads.length := by
    intro j hj
    rw [hlen] at hj
    omega
  refine ⟨fun j t ht => ?_, fun j hj => ?_, fun j hj => ?_, hx.granted, ?_⟩
  · rcases Nat.lt_or_ge j x.threads.length with hj | hj
    · rw [List.getElem?_append_left hj] at ht
      rw [hold j hj]
      exact hx.watched j t ht
    · rw [List.getElem?_append_right hj] at ht
      have hz : j - x.threads.length < 1 := (List.getElem?_eq_some_iff.mp ht).1
      obtain rfl : j = x.threads.length := by omega
      rw [Nat.sub_self] at ht
      cases ht
      rw [hnew]
      exact caller_watched
  · rcases hcases j hj with hj | rfl
    · rw [hold j hj]
      exact hx.fresh j hj
    · rw [hnew]
      exact ⟨Nat.zero_le _, hx.granted, fun _ he => by cases he⟩
  · rcases hcases j hj with hj | rfl
    · rw [hold j hj]
      exact hx.within j hj
    · rw [hnew]
      exact ⟨Nat.zero_le _, Nat.zero_le _, Nat.zero_le _⟩
  · refine hx.led.congr (fun _ => Iff.rfl) fun j n => ⟨fun hj => ?_, fun hj => ?_⟩
    · rcases hcases j hj.1 with hlt | rfl
      · exact ⟨hlt, by rw [← hold j hlt]; exact hj.2⟩
      · have hp := hj.2
        rw [hnew] at hp
        cases hp
    · have hlt := hj.1
      refine ⟨?_, by rw [hold j hlt]; exact hj.2⟩
      change j < (x.threads ++ [(h, caller h)]).length
      omega

theorem kept_turn (hx : Kept x trails) {i : Nat} {o : Oracle} {h : Request} {c : Cmd}
    {k : Reply c → Code Unit} {r : Reply c} (ht : x.threads[i]? = some (h, .step c k))
    (hr : respond readJwtExpMs o c x.world = some (r, w)) :
    Kept ⟨x.threads.set i (h, k r), w⟩
      (Function.update trails i ((trails i).after x.world.granted.length c r)) := by
  have hi : i < x.threads.length := (List.getElem?_eq_some_iff.mp ht).1
  have hlen : (x.threads.set i (h, k r)).length = x.threads.length := List.length_set
  obtain ⟨hallow, hnext⟩ := hx.watched i _ ht
  have hallow : (trails i).Allows h c := hallow
  have hself : ∀ g, Function.update trails i g i = g := fun g => Function.update_self _ _ _
  have hother : ∀ g, ∀ j, j ≠ i → Function.update trails i g j = trails j :=
    fun g j hj => Function.update_of_ne hj _ _
  have hlead : Guarded.Step x.world.Flies w.Flies (trails i).Leads
      ((trails i).after x.world.granted.length c r).Leads :=
    leadStep x.world.granted.length hallow hr fun n hn => (hx.led.holder n).mpr ⟨i, hi, hn⟩
  have hfresh := (hx.fresh i hi).after hallow hr
  have hwithin := (hx.within i hi).after (r := r) x.world.granted.length hallow
  have hafter := hnext r ((trails i).after x.world.granted.length c r) ⟨_, rfl⟩
  generalize (trails i).after x.world.granted.length c r = g at hlead hfresh hwithin hafter ⊢
  refine ⟨fun j t ht' => ?_, fun j hj => ?_, fun j hj => ?_, fun token he => ?_, ?_⟩
  · by_cases hij : j = i
    · subst hij
      rw [List.getElem?_set_self hi] at ht'
      cases ht'
      rw [hself]
      exact hafter
    · rw [List.getElem?_set_ne (Ne.symm hij)] at ht'
      rw [hother g j hij]
      exact hx.watched j t ht'
  · rw [hlen] at hj
    by_cases hij : j = i
    · subst hij
      rw [hself]
      exact hfresh
    · rw [hother g j hij]
      exact (hx.fresh j hj).respond hr
  · rw [hlen] at hj
    by_cases hij : j = i
    · subst hij
      rw [hself]
      exact hwithin
    · rw [hother g j hij]
      exact hx.within j hj
  · rcases respond_token hr with ⟨hg, hc⟩ | ⟨token', hg, hc⟩
    · rw [hg]
      rcases hc with hc | hc <;> rw [hc] at he
      · cases he
      · exact hx.granted token he
    · rw [hc] at he
      cases he
      rw [hg]
      exact List.mem_append_right _ List.mem_cons_self
  · change Guarded w.Flies fun j n => j < (x.threads.set i (h, k r)).length ∧ _
    rw [hlen]
    refine hx.led.turn (i := i) (fun j hj n => by rw [hother g j hj]) ?_
    rw [hself]
    simp only [hi, true_and]
    exact hlead

theorem kept_next {a : Choice Request Oracle Empty} (hx : Kept x trails)
    (hy : (client readJwtExpMs).next a x = some y) :
    Kept y (noteTrail readJwtExpMs x a trails) := by
  rcases System.next_cases hy with ⟨h, w, rfl, hw, rfl⟩ | ⟨i, o, h, c, k, r, w, rfl, ht, hr, rfl⟩ |
    ⟨d, w, rfl, hw, rfl⟩ | ⟨w, rfl, hw, rfl⟩
  · cases hw
    exact kept_start hx h
  · have hwait : x.waiting i = some (h, c) := by simp [Config.waiting, ht, Prog.pending]
    have hr' : respond readJwtExpMs o c x.world = some (r, w) := hr
    have hnote : noteTrail readJwtExpMs x (.turn i o) trails =
        Function.update trails i ((trails i).after x.world.granted.length c r) := by
      simp only [noteTrail, hwait, hr']
    rw [hnote]
    exact kept_turn hx ht hr'
  · exact d.elim
  · cases hw
    exact kept_idle rfl rfl

/-- The runs of the client, with the trails of its calls. -/
abbrev Runs (readJwtExpMs : List Char → Option ℚ) : Calls → (Nat → Trail) → Prop :=
  (client readJwtExpMs).Recorded (fun _ _ _ => True) (noteTrail readJwtExpMs) Calls.initial
    fun _ => {}

theorem runs_kept (hx : Runs readJwtExpMs x trails) : Kept x trails :=
  hx.invariant (I := Kept) (kept_idle rfl rfl) fun _ _ _ _ h _ hy => kept_next h hy

/-- The command a call waits on is one it may issue, and its trail stands there. -/
theorem Kept.waiting (hx : Kept x trails) {j : Nat} {h : Request} {c : Cmd}
    (hw : x.waiting j = some (h, c)) : j < x.threads.length ∧ (trails j).Allows h c := by
  obtain ⟨k, ht⟩ := Config.get_of_waiting hw
  exact ⟨(List.getElem?_eq_some_iff.mp ht).1, (hx.watched j _ ht).1⟩

/-- A call that leads a login waits on the next step of it. -/
theorem Kept.leader (hx : Kept x trails) {j n : Nat} (hj : j < x.threads.length)
    (hp : (trails j).phase = .leading n) :
    ∃ h c, x.waiting j = some (h, c) ∧ (c = .login n ∨ c = .settle n) := by
  have ht : x.threads[j]? = some x.threads[j] := List.getElem?_eq_getElem hj
  have hwp := hx.watched j _ ht
  generalize x.threads[j] = t at ht hwp
  obtain ⟨h, p⟩ := t
  cases p with
  | pure a =>
    have hover : (trails j).phase = .over := hwp
    rw [hp] at hover
    cases hover
  | fail e => exact hwp.elim
  | step c k =>
    have hallow : (trails j).Allows h c := hwp.1
    refine ⟨h, c, by simp [Config.waiting, ht, Prog.pending], hallow.leading hp⟩

/-- A command is answered, unless it awaits the login that is in flight. -/
theorem respond_answers (o : Oracle) {c : Cmd} (hc : ∀ n, c = .await n → w.fetchTokenInFlight ≠ some n) :
    (respond readJwtExpMs o c w).isSome := by
  cases c with
  | await n =>
    unfold respond
    dsimp only
    rw [if_neg (hc n rfl)]
    rfl
  | _ => rfl

theorem next_of_waiting {j : Nat} {h : Request} {c : Cmd} (o : Oracle)
    (hw : x.waiting j = some (h, c)) (hr : (respond readJwtExpMs o c x.world).isSome) :
    ((client readJwtExpMs).next (.turn j o) x).isSome := by
  obtain ⟨k, ht⟩ := Config.get_of_waiting hw
  obtain ⟨⟨r, w⟩, hr⟩ := Option.isSome_iff_exists.mp hr
  have hadv : (client readJwtExpMs).advance o (.step c k) x.world = some (k r, w) := by
    change (respond readJwtExpMs o c x.world).map _ = _
    rw [hr]
    rfl
  simp [System.next, ht, hadv]

/-- In every interleaving of any number of calls, whatever the network answers: at most one
login call is out at a time; a post carries the request of its call and a token that a login
gave, after the last refusal of the call if there was one; a call makes at most three posts
and three login calls for each of its two tokens; it ends with the data of its last post, or
with an error if none of its posts was answered with data; and a call that cannot go on
awaits a login that another call can go on with. -/
theorem runs_singleFlight (hx : Runs readJwtExpMs x trails) :
    (∀ i j h h' n m, x.waiting i = some (h, .login n) → x.waiting j = some (h', .login m) → i = j) ∧
    (∀ j h request bearer, x.waiting j = some (h, .post request bearer) → request = h ∧
      ∃ token ∈ x.world.granted.drop (trails j).since, token.token = bearer) ∧
    (∀ j < x.threads.length, (trails j).posts.length ≤ 2 * FETCH_RETRIES ∧
      (trails j).logins ≤ 2 * FETCH_RETRIES ∧ (trails j).renewals ≤ 1) ∧
    (∀ j h result, x.waiting j = some (h, .deliver result) → Explains (trails j).posts result) ∧
    ∀ j h c o, x.waiting j = some (h, c) →
      ((client readJwtExpMs).next (.turn j o) x).isSome ∨
        ∃ n i, c = .await n ∧ i ≠ j ∧ ((client readJwtExpMs).next (.turn i o) x).isSome := by
  have hk := runs_kept hx
  refine ⟨fun i j h h' n m hi hj => ?_, fun j h request bearer hw => ?_, fun j hj => ?_,
    fun j h result hw => ?_, fun j h c o hw => ?_⟩
  · obtain ⟨hil, hia⟩ := hk.waiting hi
    obtain ⟨hjl, hja⟩ := hk.waiting hj
    have hn : x.world.Flies n := (hk.led.holder n).mpr ⟨i, hil, hia.login.1⟩
    have hm : x.world.Flies m := (hk.led.holder m).mpr ⟨j, hjl, hja.login.1⟩
    obtain rfl : n = m := Option.some.inj (hn.symm.trans hm)
    exact hk.led.single i j n ⟨hil, hia.login.1⟩ ⟨hjl, hja.login.1⟩
  · obtain ⟨hj, hallow⟩ := hk.waiting hw
    obtain ⟨hp, hr, -⟩ := hallow.post
    exact ⟨hr, (hk.fresh j hj).bearer bearer hp⟩
  · obtain ⟨hposts, hlogins, hrenew⟩ := hk.within j hj
    have hwaves : (trails j).waves ≤ 2 * FETCH_RETRIES := by
      unfold Trail.waves
      rw [Nat.mul_comm]
      exact Nat.mul_le_mul_right _ (by omega)
    exact ⟨hposts.trans hwaves, hlogins.trans hwaves, hrenew⟩
  · exact (hk.waiting hw).2.deliver
  · by_cases hc : ∃ n, c = .await n ∧ x.world.fetchTokenInFlight = some n
    · obtain ⟨n, rfl, hin⟩ := hc
      obtain ⟨i, hi, hp⟩ := (hk.led.holder n).mp hin
      obtain ⟨h', c', hw', hc'⟩ := hk.leader hi hp
      have hne : i ≠ j := by
        rintro rfl
        rw [hw] at hw'
        cases hw'
        rcases hc' with he | he <;> cases he
      refine .inr ⟨n, i, rfl, hne, next_of_waiting o hw' (respond_answers o fun m he => ?_)⟩
      rcases hc' with rfl | rfl <;> cases he
    · exact .inl (next_of_waiting o hw (respond_answers o fun n he hin => hc ⟨n, he, hin⟩))

def sampleRequest : Request where
  path := "/API/RemoteMeterTask/GetReadingTask"
  body := .null

/-- A second call finds a login in flight. -/
def sampleCalls : List (Choice Request Oracle Empty) :=
  [.start sampleRequest, .start sampleRequest, .turn 0 {}, .turn 1 {}]

def awaits (j n : Nat) (x : Calls) : Bool :=
  match x.waiting j with
  | some (_, .await m) => m = n
  | _ => false

theorem waiting_of_awaits {j n : Nat} (h : awaits j n x = true) :
    ∃ request, x.waiting j = some (request, .await n) := by
  unfold awaits at h
  split at h
  next request m hw =>
    obtain rfl := of_decide_eq_true h
    exact ⟨request, hw⟩
  next => cases h

/-- The second call can not go on, but the first one can. -/
theorem second_call_awaits : ∃ (x : Calls) (i : Nat), awaits 1 0 x = true ∧
    (client fun _ => none).next (.turn 1 {}) x = none ∧
    ((client fun _ => none).next (.turn i {}) x).isSome := by
  obtain ⟨⟨x, trails⟩, hx, hp⟩ := (Option.any_eq_true _ _).mp
    (by decide +kernel : (System.followRecorded (client fun _ => none) (fun _ _ _ => true)
      (noteTrail fun _ => none) sampleCalls Calls.initial fun _ => {}).any
        (fun s => awaits 1 0 s.1 && ((client fun _ => none).next (.turn 1 {}) s.1).isNone) = true)
  rw [Bool.and_eq_true, Option.isNone_iff_eq_none] at hp
  obtain ⟨request, hw⟩ := waiting_of_awaits hp.1
  have hrun : Runs (fun _ => none) x trails :=
    System.Recorded.of_follow (fun _ _ _ _ => trivial) .init hx
  obtain ⟨-, -, -, -, hmoves⟩ := runs_singleFlight hrun
  rcases hmoves 1 request _ {} hw with hgo | ⟨n, i, -, -, hgo⟩
  · rw [hp.2] at hgo
    cases hgo
  · exact ⟨x, i, hp.1, hp.2, hgo⟩

end DeviceMessaging.CalinApiV2
