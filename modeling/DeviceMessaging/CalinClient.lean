import DeviceMessaging.CalinPolls
import DeviceMessaging.EffectRecord

namespace DeviceMessaging.CalinApiV2

open Effect

/-- The login a caller waits for: the one it has started, or one that was in flight. -/
inductive Flight
  | lead (login : Nat)
  | follow (login : Nat)

/-- What the first part of `ensureToken` finds. -/
inductive Ensured
  | ready (token : CachedToken)
  | flight (flight : Flight)

structure Request where
  path : String
  body : JsValue

/-- The stretches of the client's code between two awaits, and its calls. -/
inductive Cmd
  | ensure
  | renew
  | login (login : Nat)
  | settle (login : Nat)
  | await (login : Nat)
  | cached
  | post (request : Request) (bearer : List Char)
  | deliver (result : Except VendorError JsValue)

@[reducible] def Reply (c : Cmd) : Type :=
  match c with
  | .ensure => Ensured
  | .renew => Flight
  | .login _ => Fetched
  | .settle _ => Unit
  | .await _ => Unit
  | .cached => Option CachedToken
  | .post .. => Fetched
  | .deliver _ => Unit

abbrev Code :=
  Prog Cmd Reply VendorError

/-- The login loop: a rejected call is tried again, an answer is not. -/
def loginWithin (tries : Nat) (login : Nat) : Code Unit :=
  match tries with
  | 0 => pure ()
  | tries + 1 => do
    let fetched ← Prog.command (Cmd.login login)
    match fetched with
    | .answered _ => return ()
    | .rejected _ => loginWithin tries login

/-- The rest of `fetchToken`. -/
def fly (flight : Flight) : Code Unit :=
  match flight with
  | .lead login => do
    loginWithin FETCH_RETRIES login
    Prog.command (Cmd.settle login)
  | .follow login => Prog.command (Cmd.await login)

def readCached (message : String) : Code CachedToken := do
  let cachedToken ← Prog.command Cmd.cached
  match cachedToken with
  | none => throw (calinApiV2Error message)
  | some token => return token

def awaitToken : Code CachedToken := do
  let ensured ← Prog.command Cmd.ensure
  match ensured with
  | .ready token => return token
  | .flight flight =>
    fly flight
    readCached "CALIN API-V2 failed to get a token"

/-- A wave of authenticated posts, until one is answered. -/
def postWave (tries : Nat) (request : Request) (bearer : List Char) : Code Posted :=
  match tries with
  | 0 => pure .down
  | tries + 1 => do
    let fetched ← Prog.command (Cmd.post request bearer)
    match postAuthorized fetched with
    | .down => postWave tries request bearer
    | posted => return posted

/-- The wave after a new login. -/
def resend (request : Request) : Code JsValue := do
  let flight ← Prog.command Cmd.renew
  fly flight
  let token ← readCached "[CALIN API-V2] Can't log in, API may be down"
  let posted ← postWave FETCH_RETRIES request token.token
  match posted with
  | .data data => return data
  | .unauthorized => throw (calinApiV2Error "[CALIN API-V2] Unauthorized after token refresh")
  | .down => throw (calinApiV2Error "CALIN API-V2 is down")

def send (request : Request) : Code JsValue := do
  let token ← awaitToken
  let posted ← postWave FETCH_RETRIES request token.token
  match posted with
  | .data data => return data
  | .unauthorized => resend request
  | .down => throw (calinApiV2Error "CALIN API-V2 is down")

/-- A call of `sendRequest`, up to the settling of its promise. -/
def caller (request : Request) : Code Unit := do
  let result ← tryCatch (do
    let data ← send request
    return .ok data) fun err => pure (.error err)
  Prog.command (Cmd.deliver result)

/-- The variables of the client, how many logins there were, and the tokens they gave. -/
structure World where
  cachedToken : Option CachedToken := none
  fetchTokenInFlight : Option Nat := none
  logins : Nat := 0
  granted : List CachedToken := []

structure Oracle where
  now : ℚ := 0
  fetched : Fetched := .rejected .value

/-- The first part of `fetchToken`. -/
def World.join (w : World) : Flight × World :=
  match w.fetchTokenInFlight with
  | some login => (.follow login, w)
  | none => (.lead w.logins, { w with
      fetchTokenInFlight := some w.logins
      logins := w.logins + 1 })

def World.ensure (now : ℚ) (w : World) : Ensured × World :=
  match w.cachedToken with
  | some token =>
    if token.expMs - now < TOKEN_EXPIRY_SKEW_MS then (.flight w.join.1, w.join.2)
    else (.ready token, w)
  | none => (.flight w.join.1, w.join.2)

/-- What an answer to the login leaves. -/
def World.grant (readJwtExpMs : List Char → Option ℚ) (fetched : Fetched) (w : World) : World :=
  match fetched with
  | .rejected _ => w
  | .answered response => { w with
      cachedToken := loginToken readJwtExpMs response
      granted := w.granted ++ (loginToken readJwtExpMs response).toList }

/-- A promise of a login is awaited until it has settled. -/
def respond (readJwtExpMs : List Char → Option ℚ) (o : Oracle) (c : Cmd) (w : World) :
    Option (Reply c × World) :=
  match c with
  | .ensure => some (w.ensure o.now)
  | .renew => some ({ w with cachedToken := none } : World).join
  | .login _ => some (o.fetched, w.grant readJwtExpMs o.fetched)
  | .settle _ => some ((), { w with fetchTokenInFlight := none })
  | .await login => if w.fetchTokenInFlight = some login then none else some ((), w)
  | .cached => some (w.cachedToken, w)
  | .post .. => some (o.fetched, w)
  | .deliver _ => some ((), w)

/-- The client: any number of calls, interleaved where they await. -/
def client (readJwtExpMs : List Char → Option ℚ) :
    System Cmd Reply VendorError Request World Oracle Empty where
  program := caller
  respond := respond readJwtExpMs
  start _ w := some w
  disturb d _ := d.elim
  crash w := some { logins := w.logins, granted := w.granted }

abbrev Calls :=
  Config Cmd Reply VendorError Request World

def Calls.initial : Calls where
  threads := []
  world := {}

/-- Where a call stands. -/
inductive Phase
  | asked
  | leading (login : Nat)
  | following (login : Nat)
  | flown
  | posting (bearer : List Char)
  | refused
  | settling
  | over
  deriving DecidableEq

def Flight.phase (flight : Flight) : Phase :=
  match flight with
  | lead login => .leading login
  | follow login => .following login

/-- What a call has done: its login calls, the answers to its posts, how often it dropped
the token, and how many tokens there were when it last did. -/
structure Trail where
  phase : Phase := .asked
  logins : Nat := 0
  posts : List Fetched := []
  renewals : Nat := 0
  since : Nat := 0

/-- The trail after a command, when so many tokens had been granted. -/
def Trail.after (g : Trail) (granted : Nat) (c : Cmd) (r : Reply c) : Trail :=
  match c, r with
  | .ensure, .ready token => { g with phase := .posting token.token }
  | .ensure, .flight flight => { g with phase := flight.phase }
  | .renew, flight => { g with
      phase := flight.phase
      renewals := g.renewals + 1
      since := granted }
  | .login _, _ => { g with logins := g.logins + 1 }
  | .settle _, _ => { g with phase := .flown }
  | .await _, _ => { g with phase := .flown }
  | .cached, none => { g with phase := .settling }
  | .cached, some token => { g with phase := .posting token.token }
  | .post _ bearer, fetched => { g with
      posts := g.posts ++ [fetched]
      phase := match postAuthorized fetched with
        | .down => .posting bearer
        | .data _ => .settling
        | .unauthorized => if g.renewals = 0 then .refused else .settling }
  | .deliver _, _ => { g with phase := .over }

/-- The trails of the slots, taken down with every step. -/
def noteTrail (readJwtExpMs : List Char → Option ℚ) (x : Calls)
    (a : Choice Request Oracle Empty) (g : Nat → Trail) : Nat → Trail :=
  match a with
  | .start _ => Function.update g x.threads.length {}
  | .turn i o =>
    match x.waiting i with
    | some (_, c) =>
      match respond readJwtExpMs o c x.world with
      | some (r, _) => Function.update g i ((g i).after x.world.granted.length c r)
      | none => g
    | none => g
  | _ => g

end DeviceMessaging.CalinApiV2
