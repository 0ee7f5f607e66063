import LeptosMusic.Library.Threads
import LeptosMusic.SessionAccounts

/-!
# Threads that are not interrupted

Each step of `InnerTube` is a run of the threads in which one of them goes on to its end before any
other takes a step. So what the threads can do includes all that `InnerTube` does.
-/
namespace LeptosMusic
open Runs (Outcome)
open Threads

namespace InnerTube

theorem atSession_atSession (self : InnerTube) (i : Nat)
    (first second : LMInnerTubeSession → LMInnerTubeSession × List StartedTask) :
    (self.atSession i first).atSession i second = self.atSession i fun session =>
      ((second (first session).1).1, (first session).2 ++ (second (first session).1).2) := by
  unfold atSession
  cases found : self.sessions[i]? with
  | none => simp only [found]
  | some session =>
      obtain ⟨inside, _⟩ := List.getElem?_eq_some_iff.mp found
      simp only [List.getElem?_set_self inside, List.set_set, List.append_assoc]

theorem atSession_id (self : InnerTube) (i : Nat)
    {method : LMInnerTubeSession → LMInnerTubeSession × List StartedTask}
    (same : ∀ session ∈ self.sessions[i]?, method session = (session, [])) :
    self.atSession i method = self := by
  unfold atSession
  cases found : self.sessions[i]? with
  | none => rfl
  | some session =>
      obtain ⟨inside, at_i⟩ := List.getElem?_eq_some_iff.mp found
      simp only [same session found, List.append_nil]
      rw [← at_i, List.set_getElem_self]

theorem atSession_congr (self : InnerTube) (i : Nat)
    {first second : LMInnerTubeSession → LMInnerTubeSession × List StartedTask}
    (same : ∀ session, first session = second session) :
    self.atSession i first = self.atSession i second := by
  rw [funext same]

/-- The end of `complete`. -/
def obtainAccess (self : InnerTube) (i : Nat) : Outcome Fault InnerTube :=
  match self.tokenManager.privateAccess.filter fun token => token.isValid self.now with
  | some _ => .done (self.authorize i)
  | none => self.updatePrivateAccessToken i

end InnerTube

namespace SessionThreads
variable {Message : Type} {P : Platform} {C : Nat → ResponseClass Message}

abbrev SessionExecutes (P : Platform) (C : Nat → ResponseClass Message) (k : Nat) :=
  Executes fun s => execSession P C s k

abbrev QueueExecutes (P : Platform) (C : Nat → ResponseClass Message) := Executes (execQueue P C)

variable {s t : SessionThreads Message} {k : Nat}

theorem execQueue_session (s : SessionThreads Message) (k : Nat) (step : SessionStep) :
    s.execQueue P C (.session k step) =
      (s.execSession P C k step).map fun (t, next) => (t, next.map (.session k)) := rfl

/-- The state with other threads in it. -/
def withThreads (s : SessionThreads Message) (called : Nat → Bool)
    (callers : Nat → List SessionStep) (queue : List QueueStep) : SessionThreads Message :=
  { s with called := called, callers := callers, queue := queue }

section
variable (called : Nat → Bool) (callers : Nat → List SessionStep)

/-- No step of a session reads or changes the threads. -/
theorem execSession_withThreads (queue : List QueueStep) (step : SessionStep) :
    (s.withThreads called callers queue).execSession P C k step =
      (s.execSession P C k step).map fun (t, next) => (t.withThreads called callers queue, next) := by
  cases step with
  | readReady =>
      cases ready : s.app.cryptoManager.ready <;> simp only [execSession, withThreads, ready] <;> rfl
  | sign =>
      have same : (s.withThreads called callers queue).signError P k = s.signError P k := rfl
      cases error : s.signError P k <;> simp only [execSession, same, error] <;> rfl
  | readPrivateAccess =>
      cases valid : s.app.tokenManager.privateAccess.filter fun token => token.isValid s.app.now <;>
        simp only [execSession, withThreads, valid] <;> rfl
  | updatePrivateAccessToken =>
      cases sent : s.app.updatePrivateAccessToken k <;>
        simp only [execSession, withThreads, sent] <;> rfl
  | testAndExecute =>
      have same : (s.withThreads called callers queue).lightsGreen k = s.lightsGreen k := rfl
      cases lights : s.lightsGreen k <;> simp only [execSession, same, lights] <;> rfl
  | _ => rfl

/-- Nor does a step on the queue. -/
theorem execQueue_withThreads (queue : List QueueStep) (step : QueueStep) :
    (s.withThreads called callers queue).execQueue P C step =
      (s.execQueue P C step).map fun (t, next) => (t.withThreads called callers queue, next) := by
  cases step with
  | session k step =>
      rw [execQueue_session, execSession_withThreads, execQueue_session]
      cases s.execSession P C k step <;> rfl
  | registered status garbage reply =>
      have same : (s.withThreads called callers queue).registrationResult P status garbage reply =
          s.registrationResult P status garbage reply := rfl
      simp only [execQueue, same]
      cases s.registrationResult P status garbage reply with
      | error fault => rfl
      | ok result =>
          obtain ⟨crypto, error⟩ := result
          cases error <;> rfl
  | callNext rest count =>
      cases rest with
      | nil => rfl
      | cons i rest =>
          have same : (s.withThreads called callers queue).app = s.app := rfl
          simp only [execQueue, same]
          split_ifs <;> rfl
  | tokenResponse request reply =>
      cases reply with
      | object jsonResponse =>
          simp only [execQueue, withThreads]
          cases request with
          | general refreshToken k =>
              dsimp only
              cases s.app.tokenManager.generalTokenResponse P.tokens s.app.defaults s.app.now
                jsonResponse <;> rfl
          | issueToken authorization k =>
              dsimp only
              cases s.app.tokenManager.issueTokenResponse P.tokens s.app.defaults s.app.now
                jsonResponse <;> rfl
      | _ => rfl
  | _ => rfl

/-- The thread of a caller takes its steps one after the other. -/
theorem SessionExecutes.caller {steps left : List SessionStep}
    (runs : SessionExecutes P C k steps s left t) (queue : List QueueStep)
    (front : callers k = steps) :
    ∃ n, run P C (s.withThreads called callers queue) (List.replicate n (.caller k)) =
      .done (t.withThreads called (Function.update callers k left) queue) := by
  induction runs generalizing callers with
  | @refl steps s =>
      refine ⟨0, ?_⟩
      rw [← front, Function.update_eq_self]
      rfl
  | @step step rest next left s t u ran later ih =>
      obtain ⟨n, goesOn⟩ := ih (Function.update callers k (next ++ rest)) (Function.update_self ..)
      rw [Function.update_idem] at goesOn
      have own : (s.withThreads called callers queue).callers k = step :: rest := front
      have taken : SessionThreads.step P C (s.withThreads called callers queue) (.caller k) =
          .done (t.withThreads called (Function.update callers k (next ++ rest)) queue) := by
        simp only [SessionThreads.step, stepCaller, own, execSession_withThreads, ran]
        rfl
      refine ⟨n + 1, ?_⟩
      rw [List.replicate_succ, run, Runs.run_cons, taken, Outcome.done_andThen]
      exact goesOn

/-- So does the queue. -/
theorem QueueExecutes.queue {steps left : List QueueStep}
    (runs : QueueExecutes P C steps s left t) :
    ∃ n, run P C (s.withThreads called callers steps) (List.replicate n .queue) =
      .done (t.withThreads called callers left) := by
  induction runs with
  | refl => exact ⟨0, rfl⟩
  | @step step rest next left s t u ran later ih =>
      obtain ⟨n, goesOn⟩ := ih
      have own : (s.withThreads called callers (step :: rest)).queue = step :: rest := rfl
      have taken : SessionThreads.step P C (s.withThreads called callers (step :: rest)) .queue =
          .done (t.withThreads called callers (next ++ rest)) := by
        simp only [SessionThreads.step, stepQueue, own, execQueue_withThreads, ran]
        rfl
      refine ⟨n + 1, ?_⟩
      rw [List.replicate_succ, run, Runs.run_cons, taken, Outcome.done_andThen]
      exact goesOn

end

/-- After a write of a light, the test leaves what the setter leaves. -/
theorem executes_write (step : SessionStep)
    {write : LMInnerTubeSession → LMInnerTubeSession}
    (writes : s.execSession P C k step = .ok (s.modify k write, [.testAndExecute])) :
    ∃ t, SessionExecutes P C k [step] s [] t ∧
      t.app = s.app.atSession k fun session => (write session)._testAndExecute := by
  have tested : ((s.modify k write).app.atSession k LMInnerTubeSession._testAndExecute) =
      s.app.atSession k fun session => (write session)._testAndExecute := by
    rw [modify, InnerTube.atSession_atSession]
    exact InnerTube.atSession_congr _ _ fun session => by rw [List.nil_append]
  cases lights : (s.modify k write).lightsGreen k with
  | true =>
      have taken : (s.modify k write).execSession P C k .testAndExecute =
          .ok ((s.modify k write).start k, []) := by
        simp only [execSession, lights, if_true]
      exact ⟨(s.modify k write).start k, .step writes (.step taken .refl), tested⟩
  | false =>
      have taken : (s.modify k write).execSession P C k .testAndExecute =
          .ok (s.modify k write, []) := by
        simp only [execSession, lights, Bool.false_eq_true, if_false]
      refine ⟨s.modify k write, .step writes (.step taken .refl), ?_⟩
      rw [← tested]
      symm
      apply InnerTube.atSession_id
      intro session found
      rw [lightsGreen, found] at lights
      change (session.cryptoGreenLight && session.accessGreenLight) = false at lights
      rw [LMInnerTubeSession._testAndExecute, lights]
      rfl

theorem executes_authorize (s : SessionThreads Message) (k : Nat) :
    ∃ t, SessionExecutes P C k [.authorize] s [] t ∧ t.app = s.app.authorize k := by
  let authorized := s.modify k fun session =>
    { session with
      urlRequest := s.app.tokenManager.authorizePrivateRequest session.urlRequest
      authorization := some ⟨s.app.tokenManager.privateAccess, s.app.now⟩ }
  obtain ⟨t, executes, app⟩ := executes_write (P := P) (C := C) (s := authorized) (k := k)
    .writeAccessGreenLight rfl
  refine ⟨t, .step rfl executes, ?_⟩
  rw [app]
  exact InnerTube.atSession_atSession ..

theorem executes_sign (ready : s.app.cryptoManager.ready = true) (k : Nat) :
    ∃ t, SessionExecutes P C k [.sign] s [] t ∧ t.app = s.app.sign P k := by
  let signed := s.modify k fun session =>
    { session with urlRequest := (s.app.cryptoManager.signURLRequest P session.urlRequest).1 }
  obtain ⟨t, executes, app⟩ := executes_write (P := P) (C := C) (s := signed) (k := k)
    .writeCryptoGreenLight rfl
  have taken : s.execSession P C k .sign = .ok (signed, [.writeCryptoGreenLight]) := by
    simp only [execSession, signError_eq_none ready k, signed]
  refine ⟨t, .step taken executes, ?_⟩
  rw [app]
  refine (InnerTube.atSession_atSession ..).trans (InnerTube.atSession_congr _ _ fun session => ?_)
  rw [LMInnerTubeSession.sign, LMInnerTubeSession._tryCryptoSign]
  simp only [signURLRequest_error ready, if_true, List.nil_append]
  rfl

abbrev SessionEnds (P : Platform) (C : Nat → ResponseClass Message) (k : Nat) :=
  Ends (fun s => execSession P C s k) app

theorem ends_updatePrivate (s : SessionThreads Message) (k : Nat) :
    SessionEnds P C k [.updatePrivateAccessToken] s (s.app.updatePrivateAccessToken k) := by
  cases sent : s.app.updatePrivateAccessToken k with
  | done app =>
      have taken : s.execSession P C k .updatePrivateAccessToken = .ok ({ s with app := app }, []) := by
        simp only [execSession, sent]
      have executes : SessionExecutes P C k [.updatePrivateAccessToken] s [] { s with app := app } :=
        .single taken
      exact .done executes
  | raised fault app =>
      have same : app = s.app := by
        unfold InnerTube.updatePrivateAccessToken at sent
        split at sent
        · cases sent
        · unfold InnerTube.updateGeneralAccessToken at sent
          split at sent <;> cases sent
          rfl
      have raises : s.execSession P C k .updatePrivateAccessToken = .error fault := by
        simp only [execSession, sent]
      rw [same]
      exact .raised .refl raises

theorem ends_readPrivateAccess (s : SessionThreads Message) (k : Nat) :
    SessionEnds P C k [.readPrivateAccess] s (s.app.obtainAccess k) := by
  unfold InnerTube.obtainAccess
  cases valid : s.app.tokenManager.privateAccess.filter fun token => token.isValid s.app.now with
  | some token =>
      have taken : s.execSession P C k .readPrivateAccess = .ok (s, [.authorize]) := by
        simp only [execSession, valid]
      obtain ⟨t, executes, app⟩ := executes_authorize (P := P) (C := C) s k
      rw [← app]
      exact .done (.step taken executes)
  | none =>
      have taken : s.execSession P C k .readPrivateAccess = .ok (s, [.updatePrivateAccessToken]) := by
        simp only [execSession, valid]
      exact Executes.ends (.single taken) (ends_updatePrivate s k)

/-- `complete`, when nobody comes in between. -/
theorem ends_complete (s : SessionThreads Message) (k : Nat) :
    SessionEnds P C k completeSteps s (s.app.complete P k) := by
  let prepared := s.modify k fun session =>
    { session with urlRequest := session.urlRequest.setValue P.userAgent "User-Agent" }
  have first : SessionExecutes P C k completeSteps s [.readReady, .readPrivateAccess] prepared :=
    .step rfl .refl
  have last : s.app.complete P k = InnerTube.obtainAccess
      (if prepared.app.cryptoManager.ready = true then prepared.app.sign P k
        else { prepared.app with
          cryptoManager := prepared.app.cryptoManager.addReadyCallback k }) k := rfl
  rw [last]
  cases ready : prepared.app.cryptoManager.ready with
  | true =>
      have taken : prepared.execSession P C k .readReady = .ok (prepared, [.sign]) := by
        simp only [execSession, ready, if_true]
      obtain ⟨t, executes, app⟩ := executes_sign (P := P) (C := C) ready k
      have signed : SessionExecutes P C k [.readReady, .readPrivateAccess] prepared
          [.readPrivateAccess] t :=
        .step taken (executes.append [.readPrivateAccess])
      have whole := (first.trans signed).ends (ends_readPrivateAccess t k)
      rw [app] at whole
      exact whole
  | false =>
      have taken : prepared.execSession P C k .readReady = .ok (prepared, [.addReadyCallback]) := by
        simp only [execSession, ready, Bool.false_eq_true, if_false]
      have added : SessionExecutes P C k [.readReady, .readPrivateAccess] prepared
          [.readPrivateAccess] { prepared with app := { prepared.app with
            cryptoManager := prepared.app.cryptoManager.addReadyCallback k } } :=
        .step taken (.step rfl .refl)
      exact (first.trans added).ends (ends_readPrivateAccess _ k)

abbrev QueueEnds (P : Platform) (C : Nat → ResponseClass Message) := Ends (execQueue P C) app

theorem SessionExecutes.queued {steps left : List SessionStep}
    (runs : SessionExecutes P C k steps s left t) :
    QueueExecutes P C (steps.map (.session k)) s (left.map (.session k)) t :=
  runs.map (QueueStep.session k) fun s step => execQueue_session s k step

theorem ends_failed {first : QueueStep} {error : NSError} (k : Nat)
    (taken : s.execQueue P C first = .ok (s, [.session k (.callCompletion error)])) :
    QueueEnds P C [first] s (.done (s.app.callCompletionWithError k error)) := by
  have reported : QueueExecutes P C [.session k (.callCompletion error)] s []
      ((s.modify k fun session => session._callCompletionWithError error).finish C k none
        (some error)) := .single rfl
  exact Executes.ends (.single taken) (.done reported)

theorem ends_generalReply (s : SessionThreads Message) (refreshToken : NSString) (k : Nat)
    (reply : URLReply) :
    QueueEnds P C [.tokenResponse (.general refreshToken k) reply] s (s.app.generalReply P k reply) := by
  cases reply with
  | failed error => exact ends_failed k rfl
  | notJSON error => exact ends_failed k rfl
  | array => exact .raised .refl rfl
  | object jsonResponse =>
      unfold InnerTube.generalReply
      cases stored : s.app.tokenManager.generalTokenResponse P.tokens s.app.defaults s.app.now
          jsonResponse with
      | error fault =>
          simp only [stored]
          refine .raised .refl ?_
          simp only [execQueue, stored]
          rfl
      | ok result =>
          simp only [stored]
          let granted : SessionThreads Message := { s with app := { s.app with
            tokenManager := result.1, defaults := result.2 } }
          have taken : s.execQueue P C (.tokenResponse (.general refreshToken k) (.object jsonResponse)) =
              .ok (granted, [.session k .updatePrivateAccessToken]) := by
            simp only [execQueue, stored]
            rfl
          exact Executes.ends (.single taken)
            ((ends_updatePrivate granted k).map (QueueStep.session k) fun s step =>
              execQueue_session s k step)

theorem ends_issueTokenReply (s : SessionThreads Message) (authorization : NSString) (k : Nat)
    (reply : URLReply) :
    QueueEnds P C [.tokenResponse (.issueToken authorization k) reply] s
      (s.app.issueTokenReply P k reply) := by
  cases reply with
  | failed error => exact ends_failed k rfl
  | notJSON error => exact ends_failed k rfl
  | array => exact .raised .refl rfl
  | object jsonResponse =>
      unfold InnerTube.issueTokenReply
      cases stored : s.app.tokenManager.issueTokenResponse P.tokens s.app.defaults s.app.now
          jsonResponse with
      | error fault =>
          simp only [stored]
          refine .raised .refl ?_
          simp only [execQueue, stored]
          rfl
      | ok result =>
          simp only [stored]
          let granted : SessionThreads Message := { s with app := { s.app with
            tokenManager := result.1, defaults := result.2 } }
          have taken : s.execQueue P C
              (.tokenResponse (.issueToken authorization k) (.object jsonResponse)) =
                .ok (granted, [.session k .authorize]) := by
            simp only [execQueue, stored]
            rfl
          obtain ⟨t, executes, app⟩ := executes_authorize (P := P) (C := C) granted k
          have whole : QueueEnds P C _ s (.done t.app) :=
            Executes.ends (.single taken) (.done executes.queued)
          rw [app] at whole
          exact whole

/-- The enumeration comes to every callback in turn. -/
theorem executes_callbacks (rest : List Nat) (s : SessionThreads Message)
    (ready : s.app.cryptoManager.ready = true) :
    ∃ t, QueueExecutes P C
        [.callNext rest (s.app.cryptoManager._readyCallbacks.getD []).length] s [] t ∧
      t.app = rest.foldl (fun app i => app.sign P i) s.app := by
  induction rest generalizing s with
  | nil => exact ⟨s, .single rfl, rfl⟩
  | cons i rest ih =>
      obtain ⟨t, signs, app⟩ := executes_sign (P := P) (C := C) ready i
      have manager : t.app.cryptoManager = s.app.cryptoManager := by
        rw [app]
        exact InnerTube.atSession_cryptoManager ..
      obtain ⟨u, callsOn, last⟩ := ih t (manager ▸ ready)
      rw [manager] at callsOn
      have taken : s.execQueue P C
          (.callNext (i :: rest) (s.app.cryptoManager._readyCallbacks.getD []).length) =
            .ok (s, [.session i .sign,
              .callNext rest (s.app.cryptoManager._readyCallbacks.getD []).length]) := by
        simp only [execQueue, if_true]
      refine ⟨u, ?_, ?_⟩
      · exact .step taken ((signs.queued.append _).trans callsOn)
      · rw [last, app]
        rfl

theorem cryptoManager_signs (callbacks : List Nat) (app : InnerTube) :
    (callbacks.foldl (fun app i => app.sign P i) app).cryptoManager = app.cryptoManager := by
  induction callbacks generalizing app with
  | nil => rfl
  | cons i callbacks ih =>
      rw [List.foldl_cons, ih]
      exact InnerTube.atSession_cryptoManager ..

/-- A successful registration: the callbacks, and then the archive. -/
theorem executes_ready (s : SessionThreads Message) {crypto : LMApiaryDeviceCrypto}
    (own : s.app.cryptoManager._crypto = some crypto) :
    ∃ t, QueueExecutes P C [.writeReady, .archive] s [] t ∧
      t.app = { s.app.setReady P with
        defaults := (s.app.setReady P).defaults.setObject ((P.archivedData crypto).map .data)
          LMRequestCryptoManagerApiaryUserDefaultsKey } := by
  let walking : SessionThreads Message := { s with
    app := { s.app with cryptoManager := { s.app.cryptoManager with ready := true } }
    walked := true }
  let callbacks := s.app.cryptoManager._readyCallbacks.getD []
  have first : QueueExecutes P C [.writeReady, .archive] s
      [.callNext callbacks callbacks.length, .archive] walking := .step rfl (.step rfl .refl)
  obtain ⟨t, calls, app⟩ := executes_callbacks (P := P) (C := C) callbacks walking rfl
  have ready : t.app = s.app.setReady P := app
  have kept : t.app.cryptoManager._crypto = some crypto := by
    rw [app, cryptoManager_signs]
    exact own
  refine ⟨_, first.trans ((calls.append [.archive]).trans (.single rfl)), ?_⟩
  change ({ t.app with
    defaults := t.app.defaults.setObject
      ((t.app.cryptoManager._crypto.bind P.archivedData).map .data) _ } : InnerTube) = _
  rw [kept, ready]
  rfl

theorem ends_registrationReply (s : SessionThreads Message) (status : CryptorStatus)
    (garbage : UInt8) (reply : URLReply) (own : s.app.cryptoManager._crypto.isSome = true) :
    QueueEnds P C [.registered status garbage reply] s
      (s.app.registrationReply P status garbage reply) := by
  cases reply with
  | failed error => exact .done (.single rfl)
  | notJSON error => exact .done (.single rfl)
  | array => exact .raised .refl rfl
  | object parsedTree =>
      obtain ⟨crypto, own⟩ := Option.isSome_iff_exists.mp own
      unfold InnerTube.registrationReply
      simp only [own]
      cases set : stringValue (parsedTree "key") >>= fun deviceKey => crypto.setDeviceID P.commonCrypto
          status garbage ((parsedTree "id").map JSONValue.description) deviceKey (some none) with
      | error fault =>
          have raises : s.execQueue P C (.registered status garbage (.object parsedTree)) =
              .error fault := by
            simp only [execQueue, registrationResult, own, set]
            rfl
          exact .raised .refl raises
      | ok result =>
          obtain ⟨next, accepted, error⟩ := result
          let stored : SessionThreads Message := { s with
            app := { s.app with cryptoManager := { s.app.cryptoManager with _crypto := some next } } }
          have registered : s.registrationResult P status garbage (.object parsedTree) =
              .ok (some next, error.join) := by
            simp only [registrationResult, own, set]
          cases joined : error.join with
          | some e =>
              have refused : error = some (some e) := Option.join_eq_some_iff.mp joined
              have taken : s.execQueue P C (.registered status garbage (.object parsedTree)) =
                  .ok (stored, []) := by
                simp only [execQueue, registered, joined]
                rfl
              simp only [refused]
              exact .done (.single taken)
          | none =>
              have taken : s.execQueue P C (.registered status garbage (.object parsedTree)) =
                  .ok (stored, [.writeReady, .archive]) := by
                simp only [execQueue, registered, joined]
                rfl
              obtain ⟨t, executes, app⟩ := executes_ready (P := P) (C := C) stored rfl
              have whole : QueueEnds P C _ s (.done t.app) :=
                Executes.ends (.single taken) (.done executes)
              rw [app] at whole
              cases error with
              | none => exact whole
              | some error =>
                  cases error with
                  | none => exact whole
                  | some e => cases joined

/-- A registration on its way is that of the manager's own object. -/
def Captured (app : InnerTube) : Prop :=
  app.registering = true → app.cryptoManager._crypto.isSome = true

theorem captured_congr {app app' : InnerTube} (captured : Captured app)
    (registering : app'.registering = app.registering)
    (own : app'.cryptoManager._crypto.isSome = app.cryptoManager._crypto.isSome) : Captured app' := by
  rw [Captured, registering, own]
  exact captured

theorem captured_atSession {app : InnerTube} (captured : Captured app) {k : Nat}
    {method : LMInnerTubeSession → LMInnerTubeSession × List StartedTask} :
    Captured (app.atSession k method) := by
  refine captured_congr captured (InnerTube.atSession_registering ..) ?_
  rw [InnerTube.atSession_cryptoManager]

theorem execSession_captured {step : SessionStep} {next : List SessionStep}
    (ran : s.execSession P C k step = .ok (t, next)) (captured : Captured s.app) : Captured t.app := by
  cases step with
  | setUserAgent | writeCryptoGreenLight | authorize | writeAccessGreenLight | callCompletion =>
      cases ran
      exact captured_atSession captured
  | addReadyCallback =>
      cases ran
      exact captured
  | sign =>
      simp only [execSession] at ran
      split at ran <;> cases ran <;> exact captured_atSession captured
  | readReady | readPrivateAccess =>
      simp only [execSession] at ran
      split at ran <;> cases ran <;> exact captured
  | updatePrivateAccessToken =>
      simp only [execSession] at ran
      split at ran <;> cases ran
      next sent =>
        obtain ⟨request, _, rfl⟩ := updatePrivate_asks sent
        exact captured
  | testAndExecute =>
      simp only [execSession] at ran
      split_ifs at ran <;> cases ran
      · exact captured_atSession captured
      · exact captured

/-- A registration replaces an object by an object. -/
theorem registrationResult_isSome {status : CryptorStatus} {garbage : UInt8} {reply : URLReply}
    {crypto : Option LMApiaryDeviceCrypto} {error : Option NSError}
    (result : s.registrationResult P status garbage reply = .ok (crypto, error)) :
    crypto.isSome = s.app.cryptoManager._crypto.isSome := by
  cases reply with
  | failed | notJSON =>
      cases result
      rfl
  | array => cases result
  | object parsedTree =>
      simp only [registrationResult] at result
      split at result
      · next none =>
          cases result
          rw [none]
      · next own =>
          split at result <;> cases result
          rw [own]
          rfl

theorem execQueue_captured {step : QueueStep} {next : List QueueStep}
    (ran : s.execQueue P C step = .ok (t, next)) (captured : Captured s.app) : Captured t.app := by
  cases step with
  | session k step =>
      obtain ⟨result, own, same⟩ := map_eq_ok ran
      cases same
      exact execSession_captured own captured
  | registered status garbage reply =>
      obtain ⟨⟨crypto, error⟩, result, same⟩ := map_eq_ok ran
      have replaced := registrationResult_isSome result
      cases error <;> cases same <;> exact captured_congr captured rfl replaced
  | writeReady | enumerateReadyCallbacks | archive | taskResponse =>
      cases ran
      exact captured
  | callNext rest count =>
      cases rest with
      | nil =>
          cases ran
          exact captured
      | cons i rest =>
          simp only [execQueue] at ran
          split_ifs at ran
          cases ran
          exact captured
  | tokenResponse request reply =>
      cases reply with
      | failed | notJSON =>
          cases ran
          exact captured
      | array => cases ran
      | object jsonResponse =>
          cases request with
          | general refreshToken k =>
              obtain ⟨result, _, same⟩ := map_eq_ok ran
              cases same
              exact captured
          | issueToken authorization k =>
              obtain ⟨result, _, same⟩ := map_eq_ok ran
              cases same
              exact captured

/-- Nobody is inside a method or a handler. -/
structure Idle (s : SessionThreads Message) : Prop where
  callers : ∀ i, s.callers i = []
  queue : s.queue = []
  captured : Captured s.app

/-- A run of the threads comes to what `InnerTube` comes to; `known` are the sessions that have been
completed. -/
inductive Simulates (known : Nat → Prop) :
    Outcome Fault InnerTube → Outcome Fault (SessionThreads Message) → Prop where
  | done {t : SessionThreads Message} (idle : Idle t) (called : ∀ i, t.called i = true → known i) :
      Simulates known (.done t.app) (.done t)
  | raised (fault : Fault) (t : SessionThreads Message) :
      Simulates known (.raised fault t.app) (.raised fault t)

theorem SessionEnds.simulated {steps : List SessionStep} {outcome : Outcome Fault InnerTube}
    (ends : SessionEnds P C k steps s outcome) (front : s.callers k = steps)
    (others : ∀ i, i ≠ k → s.callers i = []) (free : s.queue = []) (captured : Captured s.app) :
    ∃ actions, Simulates (s.called · = true) outcome (run P C s actions) := by
  cases ends with
  | @done t executes =>
      obtain ⟨n, ran⟩ := SessionExecutes.caller s.called s.callers executes s.queue front
      change Runs.run (SessionThreads.step P C) s _ = _ at ran
      have kept : Captured t.app := executes.keeps (I := fun s => Captured s.app)
        (fun _ _ _ _ => execSession_captured) captured
      refine ⟨List.replicate n (.caller k), ?_⟩
      rw [run, ran]
      refine Simulates.done (t := t.withThreads s.called (Function.update s.callers k []) s.queue)
        ⟨fun i => ?_, free, kept⟩ fun _ known => known
      by_cases same : i = k
      · rw [same]
        exact Function.update_self ..
      · exact (Function.update_of_ne same ..).trans (others i same)
  | @raised step rest t fault executes raises =>
      obtain ⟨n, ran⟩ := SessionExecutes.caller s.called s.callers executes s.queue front
      change Runs.run (SessionThreads.step P C) s _ = _ at ran
      have own : (t.withThreads s.called (Function.update s.callers k (step :: rest)) s.queue).callers
          k = step :: rest := Function.update_self ..
      have last : SessionThreads.step P C
          (t.withThreads s.called (Function.update s.callers k (step :: rest)) s.queue) (.caller k) =
            .raised fault (t.withThreads s.called (Function.update s.callers k (step :: rest))
              s.queue) := by
        simp only [SessionThreads.step, stepCaller, own, execSession_withThreads, raises]
        rfl
      refine ⟨List.replicate n (.caller k) ++ [.caller k], ?_⟩
      rw [run, Runs.run_append, ran, Outcome.done_andThen, Runs.run_cons, last]
      exact Simulates.raised fault (t.withThreads s.called _ _)

theorem QueueEnds.simulated {steps : List QueueStep} {outcome : Outcome Fault InnerTube}
    (ends : QueueEnds P C steps s outcome) (front : s.queue = steps)
    (callers : ∀ i, s.callers i = []) (captured : Captured s.app) :
    ∃ actions, Simulates (s.called · = true) outcome (run P C s actions) := by
  subst front
  cases ends with
  | @done t executes =>
      obtain ⟨n, ran⟩ := QueueExecutes.queue s.called s.callers executes
      change Runs.run (SessionThreads.step P C) s _ = _ at ran
      have kept : Captured t.app := executes.keeps (I := fun s => Captured s.app)
        (fun _ _ _ _ => execQueue_captured) captured
      refine ⟨List.replicate n .queue, ?_⟩
      rw [run, ran]
      exact Simulates.done (t := t.withThreads s.called s.callers []) ⟨callers, rfl, kept⟩
        fun _ known => known
  | @raised step rest t fault executes raises =>
      obtain ⟨n, ran⟩ := QueueExecutes.queue s.called s.callers executes
      change Runs.run (SessionThreads.step P C) s _ = _ at ran
      have own : (t.withThreads s.called s.callers (step :: rest)).queue = step :: rest := rfl
      have last : SessionThreads.step P C (t.withThreads s.called s.callers (step :: rest)) .queue =
          .raised fault (t.withThreads s.called s.callers (step :: rest)) := by
        simp only [SessionThreads.step, stepQueue, own, execQueue_withThreads, raises]
        rfl
      refine ⟨List.replicate n .queue ++ [.queue], ?_⟩
      rw [run, Runs.run_append, ran, Outcome.done_andThen, Runs.run_cons, last]
      exact Simulates.raised fault (t.withThreads s.called _ _)

/-- The threads go on after an action of theirs. -/
theorem simulated_after {known : Nat → Prop} {outcome : Outcome Fault InnerTube} {action : Action}
    (taken : SessionThreads.step P C s action = .done t)
    (goesOn : ∃ actions, Simulates known outcome (run P C t actions)) :
    ∃ actions, Simulates known outcome (run P C s actions) := by
  obtain ⟨actions, simulates⟩ := goesOn
  refine ⟨action :: actions, ?_⟩
  rw [run, Runs.run_cons, taken]
  exact simulates

theorem Simulates.mono {known known' : Nat → Prop} {outcome : Outcome Fault InnerTube}
    {result : Outcome Fault (SessionThreads Message)} (simulates : Simulates known outcome result)
    (more : ∀ i, known i → known' i) : Simulates known' outcome result := by
  cases simulates with
  | done idle called => exact .done idle fun i own => more i (called i own)
  | raised fault t => exact .raised fault t

/-- A session is completed once. -/
def Admits (known : Nat → Prop) : InnerTube.Action → Prop
  | .complete i => ¬ known i
  | _ => True

/-- The sessions that have been completed after an action. -/
def knownAfter (known : Nat → Prop) : InnerTube.Action → Nat → Prop
  | .complete k => fun i => known i ∨ i = k
  | _ => known

section
variable (P) (C) {known : Nat → Prop}

theorem complete_simulated (idle : Idle s) (called : ∀ i, s.called i = true → known i)
    (fresh : ¬ known k) :
    ∃ actions, Simulates (fun i => known i ∨ i = k) (s.app.step P (.complete k)) (run P C s actions) := by
  by_cases inside : k < s.app.sessions.length
  · have uncalled : s.called k = false := by
      cases own : s.called k with
      | false => rfl
      | true => exact absurd (called k own) fresh
    let t : SessionThreads Message := { s with
      called := Function.update s.called k true
      callers := Function.update s.callers k completeSteps }
    have taken : SessionThreads.step P C s (.complete k) = .done t := by
      simp only [SessionThreads.step, inside, uncalled, and_self, if_true, t]
    have others : ∀ i, i ≠ k → t.callers i = [] := fun i other =>
      (Function.update_of_ne other ..).trans (idle.callers i)
    obtain ⟨actions, simulates⟩ := SessionEnds.simulated (ends_complete (P := P) (C := C) t k)
      (Function.update_self ..) others idle.queue idle.captured
    rw [InnerTube.step, if_pos inside]
    refine simulated_after taken ⟨actions, simulates.mono fun i own => ?_⟩
    by_cases same : i = k
    · exact .inr same
    · exact .inl (called i ((Function.update_of_ne same ..).symm.trans own))
  · rw [InnerTube.step, if_neg inside]
    exact ⟨[], .done idle fun i own => .inl (called i own)⟩

theorem registrationReply_simulated (idle : Idle s) (called : ∀ i, s.called i = true → known i)
    (status : CryptorStatus) (garbage : UInt8) (reply : URLReply) :
    ∃ actions, Simulates known (s.app.step P (.registrationReply status garbage reply))
      (run P C s actions) := by
  cases registering : s.app.registering with
  | false =>
      have stays : s.app.step P (.registrationReply status garbage reply) = .done s.app := by
        simp only [InnerTube.step, registering, Bool.false_eq_true, if_false]
      rw [stays]
      exact ⟨[], .done idle called⟩
  | true =>
      let t : SessionThreads Message := { s with
        app := { s.app with registering := false }
        queue := [.registered status garbage reply] }
      have taken : SessionThreads.step P C s (.registrationReply status garbage reply) = .done t := by
        simp only [SessionThreads.step, idle.queue, registering, and_self, if_true, t]
      have handled : QueueEnds P C [.registered status garbage reply] t
          (s.app.step P (.registrationReply status garbage reply)) := by
        rw [InnerTube.step, if_pos registering]
        exact ends_registrationReply t status garbage reply (idle.captured registering)
      have answered : Captured t.app := fun none => by cases none
      obtain ⟨actions, simulates⟩ := QueueEnds.simulated handled rfl idle.callers answered
      exact simulated_after taken ⟨actions, simulates.mono called⟩

theorem tokenReply_simulated (idle : Idle s) (called : ∀ i, s.called i = true → known i) (i : Nat)
    (reply : URLReply) :
    ∃ actions, Simulates known (s.app.step P (.tokenReply i reply)) (run P C s actions) := by
  cases waiting : s.app.tokenRequests[i]? with
  | none =>
      have stays : s.app.step P (.tokenReply i reply) = .done s.app := by
        simp only [InnerTube.step, waiting]
      rw [stays]
      exact ⟨[], .done idle called⟩
  | some request =>
      let t : SessionThreads Message := { s with
        app := { s.app with tokenRequests := s.app.tokenRequests.eraseIdx i }
        queue := [.tokenResponse request reply] }
      have taken : SessionThreads.step P C s (.tokenReply i reply) = .done t := by
        simp only [SessionThreads.step, idle.queue, waiting, t]
      have handled : QueueEnds P C [.tokenResponse request reply] t
          (s.app.step P (.tokenReply i reply)) := by
        simp only [InnerTube.step, waiting]
        cases request with
        | general refreshToken k => exact ends_generalReply t refreshToken k reply
        | issueToken authorization k => exact ends_issueTokenReply t authorization k reply
      obtain ⟨actions, simulates⟩ := QueueEnds.simulated handled rfl idle.callers idle.captured
      exact simulated_after taken ⟨actions, simulates.mono called⟩

/-- Every step of `InnerTube` is a run of the threads. -/
theorem step_simulated (idle : Idle s) (called : ∀ i, s.called i = true → known i)
    {action : InnerTube.Action} (admits : Admits known action) :
    ∃ actions, Simulates (knownAfter known action) (s.app.step P action) (run P C s actions) := by
  cases action with
  | sessionWithRequest request =>
      let t : SessionThreads Message := { s with app := { s.app with
        sessions := s.app.sessions ++ [.initWithRequest request] } }
      have taken : SessionThreads.step P C s (.sessionWithRequest request) = .done t := rfl
      have rests : Idle t := ⟨idle.callers, idle.queue, idle.captured⟩
      exact simulated_after taken ⟨[], .done rests called⟩
  | setRefreshToken refreshToken =>
      let t : SessionThreads Message := { s with app := { s.app with
        tokenManager := s.app.tokenManager.setRefreshToken refreshToken } }
      have taken : SessionThreads.step P C s (.setRefreshToken refreshToken) = .done t := rfl
      have rests : Idle t := ⟨idle.callers, idle.queue, idle.captured⟩
      exact simulated_after taken ⟨[], .done rests called⟩
  | wait seconds =>
      let t : SessionThreads Message := { s with app := { s.app with now := s.app.now + seconds } }
      have taken : SessionThreads.step P C s (.wait seconds) = .done t := rfl
      have rests : Idle t := ⟨idle.callers, idle.queue, idle.captured⟩
      exact simulated_after taken ⟨[], .done rests called⟩
  | complete k => exact complete_simulated P C idle called admits
  | registrationReply status garbage reply =>
      exact registrationReply_simulated P C idle called status garbage reply
  | tokenReply i reply => exact tokenReply_simulated P C idle called i reply

end

def AdmitsAll (known : Nat → Prop) : List InnerTube.Action → Prop
  | [] => True
  | action :: actions => Admits known action ∧ AdmitsAll (knownAfter known action) actions

/-- Every run of `InnerTube` is a run of the threads. -/
theorem run_simulated (P : Platform) (C : Nat → ResponseClass Message) {known : Nat → Prop}
    (idle : Idle s) (called : ∀ i, s.called i = true → known i) {actions : List InnerTube.Action}
    (admits : AdmitsAll known actions) :
    ∃ taken after, Simulates after (s.app.run P actions) (run P C s taken) := by
  induction actions generalizing s known with
  | nil => exact ⟨[], known, .done idle called⟩
  | cons action actions ih =>
      obtain ⟨first, simulates⟩ := step_simulated P C idle called admits.1
      rw [InnerTube.run, Runs.run_cons]
      generalize s.app.step P action = outcome at simulates
      generalize ran : run P C s first = result at simulates
      change Runs.run (SessionThreads.step P C) s first = result at ran
      cases simulates with
      | @done t idle called =>
          obtain ⟨rest, after, simulates⟩ := ih idle called admits.2
          refine ⟨first ++ rest, after, ?_⟩
          rw [run, Runs.run_append, ran]
          exact simulates
      | raised fault t =>
          refine ⟨first, knownAfter known action, ?_⟩
          rw [run, ran]
          exact .raised fault t

/-- From a launch on, the sessions of the threads do all that those of `InnerTube` do. -/
theorem launched_simulated (P : Platform) (C : Nat → ResponseClass Message) {before app : InnerTube}
    (launch : before.launch P = .done app) {actions : List InnerTube.Action}
    (admits : AdmitsAll (fun _ => False) actions) :
    ∃ taken after, Simulates after (app.run P actions) (run P C (launched app) taken) := by
  have captured : Captured app := by
    simp only [InnerTube.launch] at launch
    split at launch <;> split at launch <;> cases launch
    · intro registering
      cases registering
    · exact fun _ => rfl
  exact run_simulated P C (s := launched app) ⟨fun _ => rfl, rfl, captured⟩
    (fun i none => by cases none) admits

end SessionThreads
end LeptosMusic
