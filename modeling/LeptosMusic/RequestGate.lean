import LeptosMusic.SessionLedger

/-!
# The gate of a session

A session's network task starts when both green lights are on. Each light stands for a header, which
is set before the light is written and stays as long as the session is there.
-/
namespace LeptosMusic
open LMApiaryDeviceCrypto (printed)
open Runs (Outcome)
open Weights

/-- The device has been registered: its ID and its key are there. -/
def LMApiaryDeviceCrypto.registered (crypto : LMApiaryDeviceCrypto) : Bool :=
  crypto.deviceID.isSome && crypto.deviceKey.isSome

variable (P : Platform)

/-- The header that `signURLRequest:` computes, over the URL and body of this very request. -/
def DeviceSigned (request : NSMutableURLRequest) : Prop :=
  ∃ crypto : LMApiaryDeviceCrypto, crypto.registered = true ∧
    request.headers "X-Goog-Device-Auth" =
      some (crypto.compoundValue P.commonCrypto request.url request.httpBody)

/-- The header carries a token, and the token was valid when it was set. -/
def AccessAuthorized (request : NSMutableURLRequest) (authorization : Option Authorization) : Prop :=
  ∃ setting ∈ authorization, ∃ access ∈ setting.token, access.isValid setting.time = true ∧
    ∃ type token, access.token = some token ∧
      request.headers "Authorization" = some (printed type ++ literal " " ++ token)

def StartedTask.Passes (task : StartedTask) : Prop :=
  DeviceSigned P task.urlRequest ∧ AccessAuthorized task.urlRequest task.authorization

variable {P}

theorem DeviceSigned.setValue {request : NSMutableURLRequest} (signed : DeviceSigned P request)
    (value : NSString) {field : String} (other : "X-Goog-Device-Auth" ≠ field) :
    DeviceSigned P (request.setValue value field) := by
  obtain ⟨crypto, registered, header⟩ := signed
  refine ⟨crypto, registered, ?_⟩
  rw [NSMutableURLRequest.setValue_other _ _ other]
  exact header

theorem AccessAuthorized.setValue {request : NSMutableURLRequest}
    {authorization : Option Authorization} (authorized : AccessAuthorized request authorization)
    (value : NSString) {field : String} (other : "Authorization" ≠ field) :
    AccessAuthorized (request.setValue value field) authorization := by
  obtain ⟨setting, set, access, current, valid, type, token, hasToken, header⟩ := authorized
  refine ⟨setting, set, access, current, valid, type, token, hasToken, ?_⟩
  rw [NSMutableURLRequest.setValue_other _ _ other]
  exact header

/-- The two green lights of a session. -/
inductive Light where
  | crypto
  | access
  deriving DecidableEq

namespace Light

def isGreen : Light → LMInnerTubeSession → Bool
  | crypto, session => session.cryptoGreenLight
  | access, session => session.accessGreenLight

/-- The step that turns it on. -/
def write : Light → SessionStep
  | crypto => .writeCryptoGreenLight
  | access => .writeAccessGreenLight

end Light

namespace SessionThreads
variable {Message : Type} {C : Nat → ResponseClass Message} {s t : SessionThreads Message}
  {light : Light} {R : NSMutableURLRequest → Option Authorization → Prop} {k : Nat}

/-- Session `i` has still to take this step. -/
def Awaits (s : SessionThreads Message) (i : Nat) (step : SessionStep) : Prop :=
  step ∈ s.callers i ∨ .session i step ∈ s.queue

/-- What a light stands for holds of every request with that light, of every task, and of every
request whose light is to be written. -/
structure Backed (light : Light) (R : NSMutableURLRequest → Option Authorization → Prop)
    (s : SessionThreads Message) : Prop where
  lights : ∀ (i : Nat) session, s.app.sessions[i]? = some session → light.isGreen session = true →
    R session.urlRequest session.authorization
  started : ∀ task ∈ s.app.started, R task.urlRequest task.authorization
  awaited : ∀ i, s.Awaits i light.write → ∀ session, s.app.sessions[i]? = some session →
    R session.urlRequest session.authorization

/-- The manager has a private token that is valid now. -/
def Current (app : InnerTube) : Prop :=
  (app.tokenManager.privateAccess.any fun access => access.isValid app.now) = true
  deriving Decidable

theorem current_iff {app : InnerTube} : Current app ↔
    ∃ access, app.tokenManager.privateAccess = some access ∧ access.isValid app.now = true := by
  rw [Current]
  cases app.tokenManager.privateAccess <;> simp

/-- What setting a header does to the property: none of the headers takes it away, and the one that
the light is about brings it. -/
structure Provides (P : Platform) (light : Light)
    (R : NSMutableURLRequest → Option Authorization → Prop) (app : InnerTube) : Prop where
  userAgent : ∀ request authorization, R request authorization →
    R (request.setValue P.userAgent "User-Agent") authorization
  signs : app.cryptoManager.ready = true → ∀ request authorization,
    R request authorization ∨ light = .crypto →
      R (app.cryptoManager.signURLRequest P request).1 authorization
  authorizes : (light = .access → Current app) → ∀ request authorization,
    R request authorization ∨ light = .access →
    R (app.tokenManager.authorizePrivateRequest request) (some ⟨app.tokenManager.privateAccess, app.now⟩)

theorem awaits_caller {u : SessionThreads Message} (frame : Frame s u) {step : SessionStep}
    {rest next : List SessionStep} (front : s.callers k = step :: rest) {i : Nat} {later : SessionStep}
    (awaits : Awaits { u with callers := Function.update u.callers k (next ++ rest) } i later) :
    s.Awaits i later ∨ i = k ∧ later ∈ next := by
  rcases awaits with member | member
  · change later ∈ Function.update u.callers k (next ++ rest) i at member
    by_cases same : i = k
    · subst same
      rw [Function.update_self] at member
      rcases List.mem_append.mp member with new | old
      · exact .inr ⟨rfl, new⟩
      · exact .inl (.inl (front ▸ List.mem_cons_of_mem _ old))
    · rw [Function.update_of_ne same, frame.callers] at member
      exact .inl (.inl member)
  · change _ ∈ u.queue at member
    exact .inl (.inr (frame.queue ▸ member))

theorem awaits_queue {u : SessionThreads Message} (frame : Frame s u) {step : QueueStep}
    {rest next : List QueueStep} (front : s.queue = step :: rest) {i : Nat} {later : SessionStep}
    (awaits : Awaits { u with queue := next ++ rest } i later) :
    s.Awaits i later ∨ .session i later ∈ next := by
  rcases awaits with member | member
  · change later ∈ u.callers i at member
    exact .inl (.inl (frame.callers ▸ member))
  · rcases List.mem_append.mp member with new | old
    · exact .inr new
    · exact .inl (.inr (front ▸ List.mem_cons_of_mem _ old))

theorem awaits_completes {i : Nat} {step : SessionStep} (awaits : Awaits { s with
      called := Function.update s.called k true
      callers := Function.update s.callers k completeSteps } i step) :
    s.Awaits i step ∨ step ∈ completeSteps := by
  rcases awaits with member | member
  · change step ∈ Function.update s.callers k completeSteps i at member
    by_cases same : i = k
    · subst same
      rw [Function.update_self] at member
      exact .inr member
    · rw [Function.update_of_ne same] at member
      exact .inl (.inl member)
  · exact .inl (.inr member)

theorem Frame.awaits {u : SessionThreads Message} (frame : Frame s u) {i : Nat} {step : SessionStep} :
    u.Awaits i step ↔ s.Awaits i step := by
  rw [Awaits, Awaits, frame.callers, frame.queue]

theorem Accounted.ready_of_awaits (accounted : Accounted s) (awaits : s.Awaits k .sign) :
    s.app.cryptoManager.ready = true := by
  rcases awaits with member | member
  · exact accounted.callersReady k .sign member rfl
  · exact accounted.queueReady _ member rfl

/-- Whoever waits to write a light has been completed, so the session is there. -/
theorem Accounted.present_of_awaits (accounted : Accounted s) (light : Light) {i : Nat}
    (awaits : s.Awaits i light.write) : i < s.app.sessions.length := by
  apply accounted.present
  rcases awaits with member | member
  · cases called : s.called i with
    | true => rfl
    | false =>
        rw [accounted.idle i called] at member
        cases member
  · apply accounted.called_of_source
    have crypto := weight_le_of_mem (QueueStep.cryptoSource i) member
    have access := weight_le_of_mem (QueueStep.accessSource i) member
    unfold cryptoAccount accessAccount
    cases light with
    | crypto =>
        change own i i 1 ≤ _ at crypto
        rw [own_self] at crypto
        omega
    | access =>
        change own i i 1 ≤ _ at access
        rw [own_self] at access
        omega

theorem Backed.frame (backed : Backed light R s) (sessions : t.app.sessions = s.app.sessions)
    (started : t.app.started = s.app.started)
    (awaits : ∀ i, t.Awaits i light.write → s.Awaits i light.write) : Backed light R t where
  lights := sessions ▸ backed.lights
  started := started ▸ backed.started
  awaited i awaited := sessions ▸ backed.awaited i (awaits i awaited)

/-- A change of a session that keeps the property, and turns no light on without it. -/
theorem Backed.modify (backed : Backed light R s) {change : LMInnerTubeSession → LMInnerTubeSession}
    (keeps : ∀ session, R session.urlRequest session.authorization →
      R (change session).urlRequest (change session).authorization)
    (lit : ∀ session, s.app.sessions[k]? = some session → light.isGreen (change session) = true →
      light.isGreen session = true ∨ R (change session).urlRequest (change session).authorization) :
    Backed light R (s.modify k change) := by
  constructor
  · intro i session found green
    rw [sessions_modify] at found
    split_ifs at found with same
    · subst same
      obtain ⟨before, stored, rfl⟩ := Option.map_eq_some_iff.mp found
      rcases lit before stored green with old | new
      · exact keeps before (backed.lights k before stored old)
      · exact new
    · exact backed.lights i session found green
  · intro task member
    refine backed.started task ?_
    change task ∈ (s.app.atSession k _).started at member
    rw [InnerTube.atSession] at member
    cases found : s.app.sessions[k]? with
    | none => rwa [found] at member
    | some session =>
        rw [found] at member
        exact (List.mem_append.mp member).resolve_right List.not_mem_nil
  · intro i awaited session found
    rw [sessions_modify] at found
    split_ifs at found
    · obtain ⟨before, stored, rfl⟩ := Option.map_eq_some_iff.mp found
      exact keeps before (backed.awaited i awaited before stored)
    · exact backed.awaited i awaited session found

theorem Backed.start (backed : Backed light R s) (k : Nat) : Backed light R (s.start k) := by
  refine ⟨?_, ?_, ?_⟩
  · rw [sessions_start]
    exact backed.lights
  · intro task member
    change task ∈ (s.app.atSession k _).started at member
    rw [InnerTube.atSession] at member
    cases found : s.app.sessions[k]? with
    | none =>
        rw [found] at member
        exact backed.started task member
    | some session =>
        rw [found] at member
        rcases List.mem_append.mp member with old | new
        · exact backed.started task old
        · rw [LMInnerTubeSession._testAndExecute] at new
          split_ifs at new with both
          · obtain rfl := List.mem_singleton.mp new
            rw [Bool.and_eq_true] at both
            refine backed.lights k session found ?_
            cases light
            · exact both.1
            · exact both.2
          · cases new
  · rw [sessions_start]
    exact backed.awaited

/-- A step of a session keeps what the lights stand for, and what is to be written next. -/
theorem Backed.execSession (backed : Backed light R s) (accounted : Accounted s)
    (provides : Provides P light R s.app)
    (current : light = .access → s.Awaits k .authorize → Current s.app)
    {step : SessionStep} {next : List SessionStep} (awaits : s.Awaits k step)
    (ran : s.execSession P C k step = .ok (t, next)) :
    Backed light R t ∧ (light.write ∈ next → ∀ session, t.app.sessions[k]? = some session →
      R session.urlRequest session.authorization) := by
  cases step with
  | setUserAgent =>
      cases ran
      refine ⟨backed.modify (fun session => provides.userAgent _ _) fun _ _ green => .inl ?_,
        fun absurd => by cases absurd⟩
      cases light <;> exact green
  | readReady =>
      simp only [SessionThreads.execSession] at ran
      split_ifs at ran <;> cases ran <;> exact ⟨backed, by cases light <;> simp [Light.write]⟩
  | addReadyCallback =>
      cases ran
      exact ⟨backed.frame rfl rfl fun _ => id, fun absurd => by cases absurd⟩
  | sign =>
      have ready := accounted.ready_of_awaits awaits
      simp only [SessionThreads.execSession, signError_eq_none ready] at ran
      cases ran
      refine ⟨backed.modify (fun session holds => provides.signs ready _ _ (.inl holds))
        fun _ _ green => .inl ?_, fun member session found => ?_⟩
      · cases light <;> exact green
      · rw [sessions_modify, if_pos rfl] at found
        obtain ⟨before, _, rfl⟩ := Option.map_eq_some_iff.mp found
        have own : light = .crypto := by
          cases light
          · rfl
          · simp [Light.write] at member
        exact provides.signs ready _ _ (.inr own)
  | writeCryptoGreenLight =>
      cases ran
      refine ⟨backed.modify (fun _ holds => holds) fun session found green => ?_,
        by cases light <;> simp [Light.write]⟩
      cases light with
      | crypto => exact .inr (backed.awaited k awaits session found)
      | access => exact .inl green
  | readPrivateAccess =>
      simp only [SessionThreads.execSession] at ran
      split at ran <;> cases ran <;> exact ⟨backed, by cases light <;> simp [Light.write]⟩
  | authorize =>
      cases ran
      have current (own : light = .access) := current own awaits
      refine ⟨backed.modify (fun session holds => provides.authorizes current _ _ (.inl holds))
        fun _ _ green => .inl ?_, fun member session found => ?_⟩
      · cases light <;> exact green
      · rw [sessions_modify, if_pos rfl] at found
        obtain ⟨before, _, rfl⟩ := Option.map_eq_some_iff.mp found
        have own : light = .access := by
          cases light
          · simp [Light.write] at member
          · rfl
        exact provides.authorizes current before.urlRequest before.authorization (.inr own)
  | writeAccessGreenLight =>
      cases ran
      refine ⟨backed.modify (fun _ holds => holds) fun session found green => ?_,
        by cases light <;> simp [Light.write]⟩
      cases light with
      | crypto => exact .inl green
      | access => exact .inr (backed.awaited k awaits session found)
  | updatePrivateAccessToken =>
      simp only [SessionThreads.execSession] at ran
      split at ran
      · rename_i app sent
        cases ran
        obtain ⟨request, _, rfl⟩ := updatePrivate_asks sent
        exact ⟨backed.frame rfl rfl fun _ => id, fun absurd => by cases absurd⟩
      · cases ran
  | callCompletion error =>
      cases ran
      have reported : Backed light R (s.modify k (·._callCompletionWithError error)) := by
        refine backed.modify (fun _ holds => holds) fun _ _ green => .inl ?_
        cases light <;> exact green
      exact ⟨reported.frame rfl rfl fun _ => id, fun absurd => by cases absurd⟩
  | testAndExecute =>
      simp only [SessionThreads.execSession] at ran
      split_ifs at ran <;> cases ran
      · exact ⟨backed.start k, fun absurd => by cases absurd⟩
      · exact ⟨backed, fun absurd => by cases absurd⟩

theorem write_ne (light : Light) : light.write ≠ .sign ∧ light.write ≠ .authorize ∧
    light.write ≠ .updatePrivateAccessToken ∧ ∀ error, light.write ≠ .callCompletion error := by
  cases light <;> simp [Light.write]

/-- The steps that are about no session set no header. -/
theorem Backed.execQueue (backed : Backed light R s) (accounted : Accounted s)
    (provides : Provides P light R s.app)
    (current : light = .access → ∀ i, s.Awaits i .authorize → Current s.app)
    {step : QueueStep} {rest next : List QueueStep} (front : s.queue = step :: rest)
    (ran : s.execQueue P C step = .ok (t, next)) :
    Backed light R t ∧ ∀ i, .session i light.write ∈ next → ∀ session,
      t.app.sessions[i]? = some session → R session.urlRequest session.authorization := by
  obtain ⟨notSign, notAuthorize, notUpdate, notCall⟩ := write_ne light
  cases step with
  | session k own =>
      obtain ⟨⟨u, later⟩, executed, same⟩ := map_eq_ok ran
      cases same
      have awaits : s.Awaits k own := .inr (front ▸ List.mem_cons_self)
      obtain ⟨backed', new⟩ :=
        backed.execSession accounted provides (fun own => current own k) awaits executed
      refine ⟨backed', fun i member => ?_⟩
      obtain ⟨_, inside, same⟩ := List.mem_map.mp member
      cases same
      exact new inside
  | registered status garbage reply =>
      obtain ⟨⟨crypto, error⟩, _, same⟩ := map_eq_ok ran
      cases error <;> cases same <;> exact ⟨backed.frame rfl rfl fun _ => id, by simp⟩
  | writeReady | enumerateReadyCallbacks | archive =>
      cases ran
      exact ⟨backed.frame rfl rfl fun _ => id, by simp⟩
  | callNext callbacks count =>
      cases callbacks with
      | nil =>
          cases ran
          exact ⟨backed, by simp⟩
      | cons i callbacks =>
          simp only [SessionThreads.execQueue] at ran
          split_ifs at ran
          cases ran
          exact ⟨backed, by simp [notSign]⟩
  | tokenResponse request reply =>
      simp only [SessionThreads.execQueue] at ran
      cases reply with
      | failed | notJSON =>
          cases ran
          exact ⟨backed, by simp [notCall]⟩
      | array => cases ran
      | object jsonResponse =>
          cases request <;>
            obtain ⟨⟨tokenManager, defaults⟩, _, same⟩ := map_eq_ok ran <;> cases same <;>
              exact ⟨backed.frame rfl rfl fun _ => id, by simp [notUpdate, notAuthorize]⟩
  | taskResponse i data error =>
      cases ran
      exact ⟨backed.frame rfl rfl fun _ => id, by simp⟩

theorem Backed.preserve (backed : Backed light R s) (accounted : Accounted s)
    (provides : Provides P light R s.app)
    (current : light = .access → ∀ i, s.Awaits i .authorize → Current s.app) {a : Action}
    (moved : Moved P C s a t) : Backed light R t := by
  cases moved with
  | stays => exact backed
  | setsRefreshToken | waits => exact backed.frame rfl rfl fun _ => id
  | creates request =>
      refine ⟨fun i session found green => ?_, backed.started, fun i awaits session found => ?_⟩
      · change (s.app.sessions ++ [_])[i]? = some session at found
        rcases Nat.lt_or_ge i s.app.sessions.length with inside | beyond
        · rw [List.getElem?_append_left inside] at found
          exact backed.lights i session found green
        · rw [List.getElem?_append_right beyond] at found
          obtain rfl := List.mem_singleton.mp (List.mem_of_getElem? found)
          cases light <;> cases green
      · change (s.app.sessions ++ [_])[i]? = some session at found
        rw [List.getElem?_append_left (accounted.present_of_awaits light awaits)] at found
        exact backed.awaited i awaits session found
  | completes present fresh =>
      refine backed.frame rfl rfl fun i awaits => ?_
      rcases awaits_completes awaits with old | new
      · exact old
      · cases light <;> simp [Light.write, completeSteps] at new
  | caller front ran =>
      have frame := (accounted.caller_move front ran).frame
      obtain ⟨backed', new⟩ := backed.execSession accounted provides (fun own => current own _)
        (.inl (front ▸ List.mem_cons_self)) ran
      refine ⟨backed'.lights, backed'.started, fun i awaits session found => ?_⟩
      rcases awaits_caller frame front awaits with old | ⟨rfl, inside⟩
      · exact backed'.awaited i (frame.awaits.mpr old) session found
      · exact new inside session found
  | queue front ran =>
      have frame := (accounted.queue_move front ran).frame
      obtain ⟨backed', new⟩ := backed.execQueue accounted provides current front ran
      refine ⟨backed'.lights, backed'.started, fun i awaits session found => ?_⟩
      rcases awaits_queue frame front awaits with old | inside
      · exact backed'.awaited i (frame.awaits.mpr old) session found
      · exact new i inside session found
  | registrationReply | tokenReply | taskReply =>
      exact backed.frame rfl rfl fun _ awaits => awaits.elim .inl fun member => by simp at member

/-- What the steps of a session leave as it is. -/
structure Leaves (s t : SessionThreads Message) : Prop where
  crypto : t.app.cryptoManager._crypto = s.app.cryptoManager._crypto
  ready : t.app.cryptoManager.ready = s.app.cryptoManager.ready
  registering : t.app.registering = s.app.registering
  tokenManager : t.app.tokenManager = s.app.tokenManager
  now : t.app.now = s.app.now
  defaults : t.app.defaults = s.app.defaults

theorem Leaves.refl (s : SessionThreads Message) : Leaves s s := ⟨rfl, rfl, rfl, rfl, rfl, rfl⟩

theorem leaves_modify (s : SessionThreads Message) (k : Nat)
    (change : LMInnerTubeSession → LMInnerTubeSession) : Leaves s (s.modify k change) := by
  unfold modify InnerTube.atSession
  split <;> exact ⟨rfl, rfl, rfl, rfl, rfl, rfl⟩

theorem leaves_start (s : SessionThreads Message) (k : Nat) : Leaves s (s.start k) := by
  unfold start InnerTube.atSession
  split <;> exact ⟨rfl, rfl, rfl, rfl, rfl, rfl⟩

theorem execSession_leaves {step : SessionStep} {next : List SessionStep}
    (ran : s.execSession P C k step = .ok (t, next)) : Leaves s t := by
  cases step with
  | setUserAgent | writeCryptoGreenLight | writeAccessGreenLight | authorize =>
      cases ran
      exact leaves_modify s k _
  | readReady =>
      simp only [SessionThreads.execSession] at ran
      split_ifs at ran <;> cases ran <;> exact .refl s
  | addReadyCallback =>
      cases ran
      exact ⟨rfl, rfl, rfl, rfl, rfl, rfl⟩
  | sign =>
      simp only [SessionThreads.execSession] at ran
      split at ran <;> cases ran <;> exact leaves_modify s k _
  | readPrivateAccess =>
      simp only [SessionThreads.execSession] at ran
      split at ran <;> cases ran <;> exact .refl s
  | updatePrivateAccessToken =>
      simp only [SessionThreads.execSession] at ran
      split at ran
      · rename_i app sent
        cases ran
        obtain ⟨request, _, rfl⟩ := updatePrivate_asks sent
        exact ⟨rfl, rfl, rfl, rfl, rfl, rfl⟩
      · cases ran
  | callCompletion error =>
      cases ran
      obtain ⟨crypto, ready, registering, tokenManager, now, defaults⟩ :=
        leaves_modify s k (·._callCompletionWithError error)
      exact ⟨crypto, ready, registering, tokenManager, now, defaults⟩
  | testAndExecute =>
      simp only [SessionThreads.execSession] at ran
      split_ifs at ran <;> cases ran
      · exact leaves_start s k
      · exact .refl s

/-- A session is handed on to the header only with a token that is valid. -/
theorem current_of_execSession {step : SessionStep} {next : List SessionStep}
    (ran : s.execSession P C k step = .ok (t, next)) (member : .authorize ∈ next) : Current s.app := by
  cases step with
  | readPrivateAccess =>
      simp only [SessionThreads.execSession] at ran
      split at ran
      · rename_i access found
        obtain ⟨stored, valid⟩ := Option.filter_eq_some_iff.mp found
        exact current_iff.mpr ⟨access, stored, valid⟩
      · cases ran
        simp at member
  | readReady =>
      simp only [SessionThreads.execSession] at ran
      split_ifs at ran <;> cases ran <;> simp at member
  | sign =>
      simp only [SessionThreads.execSession] at ran
      split at ran <;> cases ran <;> simp at member
  | updatePrivateAccessToken =>
      simp only [SessionThreads.execSession] at ran
      split at ran <;> cases ran
      cases member
  | testAndExecute =>
      simp only [SessionThreads.execSession] at ran
      split_ifs at ran <;> cases ran <;> cases member
  | setUserAgent | addReadyCallback | callCompletion =>
      cases ran
      cases member
  | writeCryptoGreenLight | authorize | writeAccessGreenLight =>
      cases ran
      simp at member

theorem Leaves.current (leaves : Leaves s t) (current : Current s.app) : Current t.app := by
  rw [Current, leaves.tokenManager, leaves.now]
  exact current

end SessionThreads

/-- It is about to set the `Authorization` header. -/
def SessionStep.authorizes : SessionStep → Bool
  | authorize => true
  | _ => false

def QueueStep.authorizes : QueueStep → Bool
  | session _ step => step.authorizes
  | _ => false

namespace SessionThreads
variable {Message : Type} {C : Nat → ResponseClass Message} {s t : SessionThreads Message}
  {light : Light} {R : NSMutableURLRequest → Option Authorization → Prop} {k : Nat}

variable (P) in
/-- A reply that brings a private token also brings a positive lifetime. -/
def lasts (jsonResponse : JSONObject) : Bool :=
  match LMAccessTokenManager.expiresInValue P.tokens (jsonResponse "expiresIn"),
    stringValue (jsonResponse "token") with
  | .ok expiresIn, .ok (some _) => decide (0 < expiresIn)
  | _, _ => true

theorem generalTokenResponse_privateAccess {tokenManager tokenManager' : LMAccessTokenManager}
    {defaults defaults' : NSUserDefaults} {now : Int} {jsonResponse : JSONObject}
    (handled : tokenManager.generalTokenResponse P.tokens defaults now jsonResponse =
      .ok (tokenManager', defaults')) : tokenManager'.privateAccess = tokenManager.privateAccess := by
  unfold LMAccessTokenManager.generalTokenResponse at handled
  obtain ⟨expiresIn, _, handled⟩ := bind_eq_ok handled
  obtain ⟨accessToken, _, handled⟩ := bind_eq_ok handled
  obtain ⟨dataStore, _, handled⟩ := bind_eq_ok handled
  obtain ⟨authTypeObject, _, handled⟩ := bind_eq_ok handled
  cases handled
  rfl

/-- A token that lasts is valid when it is stored. -/
theorem issueTokenResponse_valid {tokenManager tokenManager' : LMAccessTokenManager}
    {defaults defaults' : NSUserDefaults} {now : Int} {jsonResponse : JSONObject}
    (handled : tokenManager.issueTokenResponse P.tokens defaults now jsonResponse =
      .ok (tokenManager', defaults')) (long : lasts P jsonResponse = true) :
    ∃ access, tokenManager'.privateAccess = some access ∧ access.isValid now = true := by
  unfold LMAccessTokenManager.issueTokenResponse at handled
  unfold lasts at long
  obtain ⟨seconds, expiresIn, handled⟩ := bind_eq_ok handled
  obtain ⟨text, token, handled⟩ := bind_eq_ok handled
  rw [expiresIn, token] at long
  cases text with
  | none => cases handled
  | some text =>
      cases handled
      have positive : 0 < seconds := of_decide_eq_true long
      exact ⟨_, rfl, LMAccessTokenModel.isValid_iff.mpr (by omega)⟩

variable (P) in
/-- Unless the key in the reply is refused, the reply yields a key and carries an ID. -/
def registers (crypto : LMApiaryDeviceCrypto) (status : CryptorStatus) (garbage : UInt8)
    (parsedTree : JSONObject) : Bool :=
  match stringValue (parsedTree "key") >>= fun deviceKey =>
      crypto.decryptEncodedString P.commonCrypto status garbage deviceKey (some none) with
  | .error _ => true
  | .ok (_, some (some _)) => true
  | .ok (key, _) => key.isSome && (parsedTree "id").isSome

/-- A registration that is not refused leaves a registered crypto. -/
theorem setDeviceID_registered {crypto crypto' : LMApiaryDeviceCrypto} {status : CryptorStatus}
    {garbage : UInt8} {parsedTree : JSONObject} {done : Bool} {error : ErrorPointer}
    (handled : (stringValue (parsedTree "key") >>= fun deviceKey =>
      crypto.setDeviceID P.commonCrypto status garbage
        ((parsedTree "id").map JSONValue.description) deviceKey (some none)) =
      .ok (crypto', done, error))
    (accepted : ∀ e, error ≠ some (some e))
    (given : registers P crypto status garbage parsedTree = true) : crypto'.registered = true := by
  unfold registers at given
  obtain ⟨deviceKey, keyValue, handled⟩ := bind_eq_ok handled
  obtain ⟨⟨key, derefError⟩, decrypted, handled⟩ := bind_eq_ok handled
  rw [keyValue, ok_bind, decrypted] at given
  rcases derefError with _ | _ | e
  · cases handled
    rw [Bool.and_eq_true] at given
    simp [LMApiaryDeviceCrypto.registered, given]
  · cases handled
    rw [Bool.and_eq_true] at given
    simp [LMApiaryDeviceCrypto.registered, given]
  · cases handled
    exact absurd rfl (accepted e)

/-- Some session has been handed a valid token and has not set its header. -/
def authorizing (s : SessionThreads Message) : Bool :=
  s.queue.any QueueStep.authorizes ||
    (List.range s.app.sessions.length).any fun i => (s.callers i).any SessionStep.authorizes

variable (P) in
/-- What the server, the user and the clock have to get right: a registration reply registers, a
private token lasts, and it neither goes nor expires while a session is authorizing. -/
def sound (s : SessionThreads Message) : Action → Bool
  | .queue =>
      match s.queue with
      | .registered status garbage (.object parsedTree) :: _ =>
          s.app.cryptoManager._crypto.all fun crypto => registers P crypto status garbage parsedTree
      | .tokenResponse (.issueToken _ _) (.object jsonResponse) :: _ => lasts P jsonResponse
      | _ => true
  | .setRefreshToken _ => !s.authorizing
  | .wait seconds => !s.authorizing || decide (Current { s.app with now := s.app.now + seconds })
  | _ => true

theorem authorizing_of_awaits (accounted : Accounted s) {i : Nat} (awaits : s.Awaits i .authorize) :
    s.authorizing = true := by
  rw [authorizing, Bool.or_eq_true]
  rcases awaits with member | member
  · have called : s.called i = true := by
      cases called : s.called i with
      | true => rfl
      | false =>
          rw [accounted.idle i called] at member
          cases member
    refine .inr (List.any_eq_true.mpr ⟨i, List.mem_range.mpr (accounted.present i called), ?_⟩)
    exact List.any_eq_true.mpr ⟨_, member, rfl⟩
  · exact .inl (List.any_eq_true.mpr ⟨_, member, rfl⟩)

/-- What a step on the queue hands on to a header comes with a valid token. -/
theorem current_of_execQueue (current : ∀ i, s.Awaits i .authorize → Current s.app) {step : QueueStep}
    {rest next : List QueueStep} (front : s.queue = step :: rest)
    (ran : s.execQueue P C step = .ok (t, next)) (sound : s.sound P .queue = true) {i : Nat}
    (awaits : s.Awaits i .authorize ∨ .session i .authorize ∈ next) : Current t.app := by
  cases step with
  | session k own =>
      obtain ⟨⟨u, later⟩, executed, same⟩ := map_eq_ok ran
      cases same
      apply (execSession_leaves executed).current
      rcases awaits with old | new
      · exact current i old
      · obtain ⟨_, inside, same⟩ := List.mem_map.mp new
        cases same
        exact current_of_execSession executed inside
  | registered status garbage reply =>
      obtain ⟨⟨crypto, error⟩, _, same⟩ := map_eq_ok ran
      cases error <;> cases same <;> exact current i (awaits.resolve_right (by simp))
  | writeReady | enumerateReadyCallbacks | archive | taskResponse =>
      cases ran
      exact current i (awaits.resolve_right (by simp))
  | callNext callbacks count =>
      cases callbacks with
      | nil =>
          cases ran
          exact current i (awaits.resolve_right (by simp))
      | cons j callbacks =>
          simp only [SessionThreads.execQueue] at ran
          split_ifs at ran
          cases ran
          exact current i (awaits.resolve_right (by simp))
  | tokenResponse request reply =>
      simp only [SessionThreads.execQueue] at ran
      cases reply with
      | failed | notJSON =>
          cases ran
          exact current i (awaits.resolve_right (by simp))
      | array => cases ran
      | object jsonResponse =>
          cases request with
          | general refreshToken k =>
              obtain ⟨⟨tokenManager, defaults⟩, handled, same⟩ := map_eq_ok ran
              cases same
              have old := current i (awaits.resolve_right (by simp))
              rw [Current] at old ⊢
              rwa [generalTokenResponse_privateAccess handled]
          | issueToken authorization k =>
              obtain ⟨⟨tokenManager, defaults⟩, handled, same⟩ := map_eq_ok ran
              cases same
              simp only [SessionThreads.sound, front] at sound
              exact current_iff.mpr (issueTokenResponse_valid handled sound)

theorem current_preserve (current : ∀ i, s.Awaits i .authorize → Current s.app)
    (accounted : Accounted s) {a : Action} (sound : s.sound P a = true) (moved : Moved P C s a t)
    (i : Nat) (awaits : t.Awaits i .authorize) : Current t.app := by
  cases moved with
  | stays | creates => exact current i awaits
  | setsRefreshToken refreshToken =>
      have authorizing := authorizing_of_awaits accounted (i := i) awaits
      simp [SessionThreads.sound, authorizing] at sound
  | waits seconds =>
      have authorizing := authorizing_of_awaits accounted (i := i) awaits
      simpa [SessionThreads.sound, authorizing] using sound
  | completes present fresh =>
      rcases awaits_completes awaits with old | new
      · exact current i old
      · simp [completeSteps] at new
  | caller front ran =>
      have frame := (accounted.caller_move front ran).frame
      apply (execSession_leaves ran).current
      rcases awaits_caller frame front awaits with old | ⟨rfl, inside⟩
      · exact current i old
      · exact current_of_execSession ran inside
  | queue front ran =>
      have frame := (accounted.queue_move front ran).frame
      have current' := current_of_execQueue current front ran sound (awaits_queue frame front awaits)
      exact current'
  | registrationReply | tokenReply | taskReply =>
      exact current i (awaits.elim .inl fun member => by simp at member)

/-- The manager's own object: `Made` until the device is registered, and `Registered` then. -/
structure Manages (Made Registered : LMApiaryDeviceCrypto → Prop) (s : SessionThreads Message) :
    Prop where
  ready : s.app.cryptoManager.ready = true →
    ∃ crypto, s.app.cryptoManager._crypto = some crypto ∧ Registered crypto
  waiting : s.app.registering = true → s.app.cryptoManager.ready = false ∧
    ∃ crypto, s.app.cryptoManager._crypto = some crypto ∧ Made crypto
  answered : ∀ status garbage reply, .registered status garbage reply ∈ s.queue →
    s.app.cryptoManager.ready = false ∧
      ∃ crypto, s.app.cryptoManager._crypto = some crypto ∧ Made crypto
  writes : .writeReady ∈ s.queue → s.app.cryptoManager.ready = false ∧
    ∃ crypto, s.app.cryptoManager._crypto = some crypto ∧ Registered crypto

variable {Made Registered : LMApiaryDeviceCrypto → Prop}

/-- Steps that leave the manager alone, and add none of its own to the queue. -/
theorem Manages.frame (manages : Manages Made Registered s)
    (crypto : t.app.cryptoManager._crypto = s.app.cryptoManager._crypto)
    (ready : t.app.cryptoManager.ready = s.app.cryptoManager.ready)
    (registering : t.app.registering = true → s.app.registering = true)
    (queue : ∀ step ∈ t.queue, step.walkSource = 1 → step ∈ s.queue) :
    Manages Made Registered t := by
  constructor
  · rw [crypto, ready]
    exact manages.ready
  · rw [crypto, ready]
    exact fun waiting => manages.waiting (registering waiting)
  · rw [crypto, ready]
    exact fun status garbage reply member =>
      manages.answered status garbage reply (queue _ member rfl)
  · rw [crypto, ready]
    exact fun member => manages.writes (queue _ member rfl)

/-- A step on its way to the callbacks is the only one, and no registration is on its way. -/
theorem Accounted.alone (accounted : Accounted s) {step : QueueStep} {rest : List QueueStep}
    (front : s.queue = step :: rest) (source : step.walkSource = 1) :
    s.app.registering = false ∧ ∀ other ∈ rest, other.walkSource = 0 := by
  have walk := accounted.walk
  rw [walkAccount, front, weigh_cons, source] at walk
  constructor
  · cases registering : s.app.registering with
    | false => rfl
    | true =>
        rw [registering] at walk
        change 1 + _ + _ ≤ 1 at walk
        omega
  · intro other member
    have counted := weight_le_of_mem QueueStep.walkSource member
    omega

variable (P Made Registered) in
/-- The reply that is handled next registers what was made. -/
def Grants (s : SessionThreads Message) : Prop :=
  ∀ status garbage reply, s.queue.head? = some (.registered status garbage reply) →
    (∃ crypto, s.app.cryptoManager._crypto = some crypto ∧ Made crypto) → ∀ crypto,
      s.registrationResult P status garbage reply = .ok (crypto, none) →
        ∃ device, crypto = some device ∧ Registered device

theorem Manages.execQueue (manages : Manages Made Registered s) (accounted : Accounted s)
    (grants : Grants P Made Registered s) {step : QueueStep} {rest next : List QueueStep}
    (front : s.queue = step :: rest) (ran : s.execQueue P C step = .ok (t, next)) :
    Manages Made Registered { t with queue := next ++ rest } := by
  have later {other : QueueStep} (member : other ∈ rest) : other ∈ s.queue :=
    front ▸ List.mem_cons_of_mem _ member
  have quiet (silent : ∀ other ∈ next, other.walkSource = 1 → other ∈ s.queue) :
      ∀ other ∈ next ++ rest, other.walkSource = 1 → other ∈ s.queue := fun other member source =>
    (List.mem_append.mp member).elim (fun new => silent other new source) later
  cases step with
  | session k own =>
      obtain ⟨⟨u, sessionSteps⟩, executed, same⟩ := map_eq_ok ran
      cases same
      have leaves := execSession_leaves executed
      refine manages.frame leaves.crypto leaves.ready (fun waiting => leaves.registering ▸ waiting) ?_
      intro other member source
      rcases List.mem_append.mp member with new | old
      · obtain ⟨_, _, rfl⟩ := List.mem_map.mp new
        cases source
      · exact later old
  | registered status garbage reply =>
      obtain ⟨idle, apart⟩ := accounted.alone front rfl
      obtain ⟨unready, made⟩ := manages.answered status garbage reply (front ▸ List.mem_cons_self)
      obtain ⟨⟨crypto, error⟩, result, same⟩ := map_eq_ok ran
      have granted := grants status garbage reply (by rw [front]; rfl) made crypto
      cases error with
      | some error =>
          cases same
          refine ⟨fun ready => ?_, fun waiting => ?_, fun _ _ _ member => ?_, fun member => ?_⟩
          · cases unready.symm.trans ready
          · cases idle.symm.trans waiting
          · cases apart _ member
          · cases apart _ member
      | none =>
          cases same
          refine ⟨fun ready => ?_, fun waiting => ?_, fun _ _ _ member => ?_,
            fun _ => ⟨unready, granted result⟩⟩
          · cases unready.symm.trans ready
          · cases idle.symm.trans waiting
          · simp only [List.cons_append, List.nil_append, List.mem_cons, reduceCtorEq,
              false_or] at member
            cases apart _ member
  | writeReady =>
      cases ran
      obtain ⟨idle, apart⟩ := accounted.alone front rfl
      obtain ⟨_, registered⟩ := manages.writes (front ▸ List.mem_cons_self)
      refine ⟨fun _ => registered, fun waiting => ?_, fun _ _ _ member => ?_, fun member => ?_⟩
      · cases idle.symm.trans waiting
      · simp only [List.cons_append, List.nil_append, List.mem_cons, reduceCtorEq, false_or] at member
        cases apart _ member
      · simp only [List.cons_append, List.nil_append, List.mem_cons, reduceCtorEq, false_or] at member
        cases apart _ member
  | enumerateReadyCallbacks | archive | taskResponse =>
      cases ran
      exact manages.frame rfl rfl id (quiet (by simp [QueueStep.walkSource]))
  | callNext callbacks count =>
      cases callbacks with
      | nil =>
          cases ran
          exact manages.frame rfl rfl id (quiet (by simp))
      | cons i callbacks =>
          simp only [SessionThreads.execQueue] at ran
          split_ifs at ran
          cases ran
          exact manages.frame rfl rfl id (quiet (by simp [QueueStep.walkSource]))
  | tokenResponse request reply =>
      simp only [SessionThreads.execQueue] at ran
      cases reply with
      | failed | notJSON =>
          cases ran
          exact manages.frame rfl rfl id (quiet (by simp [QueueStep.walkSource]))
      | array => cases ran
      | object jsonResponse =>
          cases request <;>
            obtain ⟨⟨tokenManager, defaults⟩, _, same⟩ := map_eq_ok ran <;> cases same <;>
              exact manages.frame rfl rfl id (quiet (by simp [QueueStep.walkSource]))

theorem Manages.preserve (manages : Manages Made Registered s) (accounted : Accounted s) {a : Action}
    (grants : a = .queue → Grants P Made Registered s) (moved : Moved P C s a t) :
    Manages Made Registered t := by
  cases moved with
  | stays => exact manages
  | setsRefreshToken | waits | creates | completes =>
      exact manages.frame rfl rfl id fun _ member _ => member
  | @caller k step rest next u front ran =>
      have leaves := execSession_leaves ran
      have frame := (accounted.caller_move front ran).frame
      refine manages.frame leaves.crypto leaves.ready (fun waiting => leaves.registering ▸ waiting) ?_
      intro other member _
      exact frame.queue ▸ member
  | queue front ran => exact manages.execQueue accounted (grants rfl) front ran
  | registrationReply free registering =>
      refine ⟨manages.ready, fun waiting => (by cases waiting),
        fun _ _ _ _ => manages.waiting registering, fun member => ?_⟩
      cases List.mem_singleton.mp member
  | tokenReply | taskReply =>
      refine manages.frame rfl rfl id fun _ member source => ?_
      obtain rfl := List.mem_singleton.mp member
      cases source

variable (P) in
/-- What both lights stand for, and what it rests on. -/
structure Honest (s : SessionThreads Message) : Prop where
  accounted : Accounted s
  signed : Backed .crypto (fun request _ => DeviceSigned P request) s
  authorized : Backed .access AccessAuthorized s
  current : ∀ i, s.Awaits i .authorize → Current s.app
  manages : Manages (fun _ => True) (fun crypto => crypto.registered = true) s

theorem provides_deviceSigned (ready : s.app.cryptoManager.ready = true →
      ∃ crypto, s.app.cryptoManager._crypto = some crypto ∧ crypto.registered = true) :
    Provides P .crypto (fun request _ => DeviceSigned P request) s.app where
  userAgent request _ signed := signed.setValue _ (by decide)
  signs isReady request _ _ := by
    obtain ⟨crypto, own, registered⟩ := ready isReady
    rw [LMRequestCryptoManager.signURLRequest, if_pos isReady, own]
    exact ⟨crypto, registered, NSMutableURLRequest.setValue_same _ _ _⟩
  authorizes _ request _ signed :=
    (signed.resolve_right (by decide)).setValue _ (by decide)

theorem provides_accessAuthorized (P : Platform) (app : InnerTube) :
    Provides P .access AccessAuthorized app where
  userAgent request _ authorized := authorized.setValue _ (by decide)
  signs ready request authorization holds := by
    have authorized := holds.resolve_right (by decide)
    rw [LMRequestCryptoManager.signURLRequest, if_pos ready]
    cases app.cryptoManager._crypto with
    | none => exact authorized
    | some crypto => exact authorized.setValue _ (by decide)
  authorizes current request authorization _ := by
    obtain ⟨access, stored, valid⟩ := current_iff.mp (current rfl)
    obtain ⟨token, hasToken⟩ : ∃ token, access.token = some token := by
      rw [LMAccessTokenModel.isValid, Bool.and_eq_true] at valid
      exact Option.isSome_iff_exists.mp valid.2
    refine ⟨_, rfl, access, stored, valid, app.tokenManager._authorizationType, token, hasToken, ?_⟩
    simp only [LMAccessTokenManager.authorizePrivateRequest, LMAccessTokenManager._authorizeRequest,
      NSMutableURLRequest.setValue_same, LMAccessTokenManager._authorizationValueForToken, stored,
      Option.bind_some, hasToken]
    rfl

theorem grants_of_sound (sound : s.sound P .queue = true) :
    Grants P (fun _ => True) (fun crypto => crypto.registered = true) s := by
  rintro status garbage reply head ⟨own, stored, -⟩ crypto result
  obtain ⟨rest, front⟩ := List.head?_eq_some_iff.mp head
  cases reply with
  | failed | notJSON | array => cases result
  | object parsedTree =>
      simp only [SessionThreads.sound, front, stored, Option.all_some] at sound
      simp only [registrationResult, stored] at result
      split at result
      · cases result
      · next device done error handled =>
          obtain ⟨rfl, accepted⟩ := Prod.mk.inj (Except.ok.inj result)
          refine ⟨device, rfl, setDeviceID_registered handled ?_ sound⟩
          rintro e rfl
          cases accepted

theorem Honest.preserve (honest : Honest P s) {a : Action} (sound : s.sound P a = true)
    (moved : Moved P C s a t) : Honest P t where
  accounted := honest.accounted.preserve moved
  signed := honest.signed.preserve honest.accounted (provides_deviceSigned honest.manages.ready)
    (fun other => by cases other) moved
  authorized := honest.authorized.preserve honest.accounted (provides_accessAuthorized P s.app)
    (fun _ => honest.current) moved
  current := current_preserve honest.current honest.accounted sound moved
  manages := by
    refine honest.manages.preserve honest.accounted ?_ moved
    rintro rfl
    exact grants_of_sound sound

theorem Accounted.setDefaults (accounted : Accounted s) (defaults : NSUserDefaults) :
    Accounted { s with app := { s.app with defaults := defaults } } :=
  ⟨accounted.present, accounted.idle, accounted.callersReady, accounted.queueReady, accounted.walk,
    accounted.crypto, accounted.access, accounted.settled, accounted.tested⟩

/-- The defaults are only read at a launch. -/
theorem Honest.setDefaults (honest : Honest P s) (defaults : NSUserDefaults) :
    Honest P { s with app := { s.app with defaults := defaults } } where
  accounted := honest.accounted.setDefaults defaults
  signed := honest.signed.frame rfl rfl fun _ => id
  authorized := honest.authorized.frame rfl rfl fun _ => id
  current := honest.current
  manages := honest.manages.frame rfl rfl id fun _ member _ => member

end SessionThreads

namespace InnerTube

/-- Digests and keystream of zeros; an archive is a single zero byte. -/
def zeroPlatform : Platform where
  commonCrypto := {
    sha1 _ := ⟨List.replicate 20 0, rfl⟩
    hmacSHA1 _ _ := ⟨List.replicate 20 0, rfl⟩
    keystream _ _ _ := 0
    behind := ⟨[], stored_nil⟩ }
  archivedData _ := some [0]
  unarchivedObject data :=
    .ok (if data = [0] then some ⟨some (literal "device"), some [0], none, none, 4⟩ else none)
  tokens := asciiPlatform
  userAgent := literal "music"
  privateGoogleAccessToken := literal "1/refresh"

def searchRequest : NSMutableURLRequest where
  url := [0x68, 0x74, 0x74, 0x70, 0x73]
  httpMethod := "POST"
  httpBody := some [1, 2, 3]
  headers _ := none

def registrationObject : JSONObject
  | "id" => some (.string (literal "device"))
  | "key" => some (.string (literal "AAAAAAAAAAAAAAAAAAAAAAAA"))
  | _ => none

def generalObject : JSONObject
  | "access_token" => some (.string (literal "ya29.general"))
  | "expires_in" => some (.number 3600)
  | "token_type" => some (.string (literal "Bearer"))
  | _ => none

def issueTokenObject : JSONObject
  | "token" => some (.string (literal "ya29.private"))
  | "expiresIn" => some (.number 3600)
  | _ => none

end InnerTube
end LeptosMusic
