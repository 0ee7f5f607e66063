import LeptosMusic.Library.Weights
import LeptosMusic.SessionThreads

/-!
# What a session may still do

Every light of a session has one source: a step that will write it, a callback that will be called,
a token request on its way, or the light itself once it is green. The accounts below count these,
and each step of a thread only moves them.
-/
namespace LeptosMusic
open Runs (Outcome)
open Weights

namespace SessionStep

def cryptoSource : SessionStep → Nat
  | readReady | addReadyCallback | sign | writeCryptoGreenLight => 1
  | _ => 0

def accessSource : SessionStep → Nat
  | readPrivateAccess | authorize | writeAccessGreenLight | updatePrivateAccessToken
  | callCompletion _ => 1
  | _ => 0

def test : SessionStep → Nat
  | testAndExecute => 1
  | _ => 0

def needsReady : SessionStep → Bool
  | sign => true
  | _ => false

def writesLight : SessionStep → Bool
  | writeCryptoGreenLight | writeAccessGreenLight => true
  | _ => false

end SessionStep

namespace QueueStep

def cryptoSource (i : Nat) : QueueStep → Nat
  | session k step => own k i step.cryptoSource
  | callNext rest _ => weigh (own · i 1) rest
  | _ => 0

def accessSource (i : Nat) : QueueStep → Nat
  | session k step => own k i step.accessSource
  | tokenResponse request _ => own request.session i 1
  | _ => 0

def test (i : Nat) : QueueStep → Nat
  | session k step => own k i step.test
  | _ => 0

def response (i : Nat) : QueueStep → Nat
  | taskResponse k _ _ => own k i 1
  | _ => 0

/-- The step leads to the enumeration of the ready callbacks. -/
def walkSource : QueueStep → Nat
  | registered _ _ _ | writeReady | enumerateReadyCallbacks => 1
  | _ => 0

def needsReady : QueueStep → Bool
  | session _ step => step.needsReady
  | enumerateReadyCallbacks | callNext _ _ => true
  | _ => false

end QueueStep

namespace SessionThreads
variable {Message : Type}

def cryptoLight (s : SessionThreads Message) (i : Nat) : Bool :=
  (s.app.sessions[i]?).any fun session => session.cryptoGreenLight

def accessLight (s : SessionThreads Message) (i : Nat) : Bool :=
  (s.app.sessions[i]?).any fun session => session.accessGreenLight

/-- How often the completion block of a session was called with an error of its own. -/
def errors (s : SessionThreads Message) (i : Nat) : Nat :=
  ((s.app.sessions[i]?).map fun session => session.completions.length).getD 0

/-- The ready callbacks that the enumeration will come to. -/
def uncalled (s : SessionThreads Message) (i : Nat) : Nat :=
  if s.walked then 0 else weigh (own · i 1) (s.app.cryptoManager._readyCallbacks.getD [])

def cryptoCore (s : SessionThreads Message) (i : Nat) : Nat := (s.cryptoLight i).toNat + s.uncalled i

def accessCore (s : SessionThreads Message) (i : Nat) : Nat :=
  (s.accessLight i).toNat + s.errors i + weigh (own ·.session i 1) s.app.tokenRequests

def cryptoAccount (s : SessionThreads Message) (i : Nat) : Nat :=
  s.cryptoCore i + weigh SessionStep.cryptoSource (s.callers i) +
    weigh (QueueStep.cryptoSource i) s.queue

def accessAccount (s : SessionThreads Message) (i : Nat) : Nat :=
  s.accessCore i + weigh SessionStep.accessSource (s.callers i) +
    weigh (QueueStep.accessSource i) s.queue

/-- The tests of both lights that are still to come, each after a write. -/
def pendingTests (s : SessionThreads Message) (i : Nat) : Nat :=
  weigh SessionStep.test (s.callers i) + weigh (QueueStep.test i) s.queue

/-- The network tasks whose reply has not reached the completion block. -/
def responses (s : SessionThreads Message) (i : Nat) : Nat :=
  weigh (own · i 1) s.tasks + weigh (QueueStep.response i) s.queue

def walkAccount (s : SessionThreads Message) : Nat :=
  s.app.registering.toNat + s.walked.toNat + weigh QueueStep.walkSource s.queue

theorem lightsGreen_eq (s : SessionThreads Message) (i : Nat) :
    s.lightsGreen i = (s.cryptoLight i && s.accessLight i) := by
  simp only [lightsGreen, cryptoLight, accessLight]
  cases s.app.sessions[i]? <;> rfl

theorem sessions_modify (s : SessionThreads Message) (i j : Nat)
    (change : LMInnerTubeSession → LMInnerTubeSession) :
    (s.modify i change).app.sessions[j]? =
      if i = j then (s.app.sessions[j]?).map change else s.app.sessions[j]? := by
  simp only [modify, InnerTube.atSession]
  cases found : s.app.sessions[i]? with
  | none =>
      split_ifs with same
      · rw [← same, found]
        rfl
      · rfl
  | some session =>
      simp only [List.getElem?_set]
      obtain ⟨inside, _⟩ := List.getElem?_eq_some_iff.mp found
      split_ifs with same
      · rw [← same, found]
        rfl
      · rfl

theorem length_modify (s : SessionThreads Message) (i : Nat)
    (change : LMInnerTubeSession → LMInnerTubeSession) :
    (s.modify i change).app.sessions.length = s.app.sessions.length := by
  simp only [modify, InnerTube.atSession]
  cases s.app.sessions[i]? with
  | none => rfl
  | some session => exact List.length_set

theorem sessions_start (s : SessionThreads Message) (i : Nat) :
    (s.start i).app.sessions = s.app.sessions := by
  simp only [start, InnerTube.atSession]
  cases found : s.app.sessions[i]? with
  | none => rfl
  | some session =>
      have same : (LMInnerTubeSession._testAndExecute session).1 = session := by
        unfold LMInnerTubeSession._testAndExecute
        split <;> rfl
      obtain ⟨inside, found⟩ := List.getElem?_eq_some_iff.mp found
      dsimp only
      rw [same, ← found]
      exact List.set_getElem_self inside

section
variable (s : SessionThreads Message) (k i : Nat)
  {change : LMInnerTubeSession → LMInnerTubeSession}

theorem cryptoLight_modify :
    (s.modify k change).cryptoLight i = if k = i
      then (s.app.sessions[i]?).any fun session => (change session).cryptoGreenLight
      else s.cryptoLight i := by
  rw [cryptoLight, sessions_modify]
  split_ifs
  · exact Option.any_map ..
  · rfl

theorem accessLight_modify :
    (s.modify k change).accessLight i = if k = i
      then (s.app.sessions[i]?).any fun session => (change session).accessGreenLight
      else s.accessLight i := by
  rw [accessLight, sessions_modify]
  split_ifs
  · exact Option.any_map ..
  · rfl

theorem errors_modify :
    (s.modify k change).errors i = if k = i
      then ((s.app.sessions[i]?).map fun session => (change session).completions.length).getD 0
      else s.errors i := by
  rw [errors, sessions_modify]
  split_ifs
  · rw [Option.map_map]
    rfl
  · rfl

end

/-- A change of a session that leaves its lights and its completions alone. -/
structure PreparesRequest (change : LMInnerTubeSession → LMInnerTubeSession) : Prop where
  cryptoGreenLight : ∀ session, (change session).cryptoGreenLight = session.cryptoGreenLight
  accessGreenLight : ∀ session, (change session).accessGreenLight = session.accessGreenLight
  completions : ∀ session, (change session).completions = session.completions

/-- The steps that take the place of one step. -/
structure Replaces (s : SessionThreads Message) (step : SessionStep) (next : List SessionStep) :
    Prop where
  cryptoSource : weigh SessionStep.cryptoSource next = step.cryptoSource
  accessSource : weigh SessionStep.accessSource next = step.accessSource
  test : weigh SessionStep.test next = 0
  needsReady : ∀ later ∈ next, later.needsReady = true → s.app.cryptoManager.ready = true

/-- What a step of session `k` does, by what it does to the accounts. -/
inductive SessionMove (C : Nat → ResponseClass Message) (s : SessionThreads Message) (k : Nat) :
    SessionStep → SessionThreads Message → List SessionStep → Prop where
  | reads {step next} (replaces : Replaces s step next)
      (dark : step = .testAndExecute → s.lightsGreen k = false) : SessionMove C s k step s next
  | prepares {step next change} (replaces : Replaces s step next) (test : step.test = 0)
      (keeps : PreparesRequest change) : SessionMove C s k step (s.modify k change) next
  | addsCallback : SessionMove C s k .addReadyCallback
      { s with app := { s.app with cryptoManager := s.app.cryptoManager.addReadyCallback k } } []
  | writesCrypto : SessionMove C s k .writeCryptoGreenLight
      (s.modify k fun session => { session with cryptoGreenLight := true }) [.testAndExecute]
  | writesAccess : SessionMove C s k .writeAccessGreenLight
      (s.modify k fun session => { session with accessGreenLight := true }) [.testAndExecute]
  | asks {request : TokenRequest} (own : request.session = k) :
      SessionMove C s k .updatePrivateAccessToken
        { s with app := { s.app with tokenRequests := s.app.tokenRequests ++ [request] } } []
  | reports (error : NSError) : SessionMove C s k (.callCompletion error)
      ((s.modify k fun session => session._callCompletionWithError error).finish C k none
        (some error)) []
  | starts (green : s.lightsGreen k = true) : SessionMove C s k .testAndExecute (s.start k) []

/-- What a step on the queue does. -/
inductive QueueMove (P : Platform) (C : Nat → ResponseClass Message) (s : SessionThreads Message) :
    QueueStep → SessionThreads Message → List QueueStep → Prop where
  | session {k step t next} (move : SessionMove C s k step t next) :
      QueueMove P C s (.session k step) t (next.map (.session k))
  | registers {status garbage reply crypto} (accepted : s.registrationResult P status garbage reply =
        .ok (crypto, none)) :
      QueueMove P C s (.registered status garbage reply)
        { s with app := { s.app with cryptoManager := { s.app.cryptoManager with _crypto := crypto } } }
        [.writeReady, .archive]
  | refuses {status garbage reply crypto error} (refused : s.registrationResult P status garbage reply =
        .ok (crypto, some error)) :
      QueueMove P C s (.registered status garbage reply)
        { s with app := { s.app with cryptoManager := { s.app.cryptoManager with _crypto := crypto } } }
        []
  | readies : QueueMove P C s .writeReady
      { s with app := { s.app with cryptoManager := { s.app.cryptoManager with ready := true } } }
      [.enumerateReadyCallbacks]
  | enumerates : QueueMove P C s .enumerateReadyCallbacks { s with walked := true }
      [.callNext (s.app.cryptoManager._readyCallbacks.getD [])
        (s.app.cryptoManager._readyCallbacks.getD []).length]
  | called {count} : QueueMove P C s (.callNext [] count) s []
  | calls {i rest count} :
      QueueMove P C s (.callNext (i :: rest) count) s [.session i .sign, .callNext rest count]
  | archives (defaults : NSUserDefaults) :
      QueueMove P C s .archive { s with app := { s.app with defaults := defaults } } []
  | answers {request reply step} (tokenManager : LMAccessTokenManager) (defaults : NSUserDefaults)
      (replaces : weigh SessionStep.accessSource [step] = 1 ∧ step.cryptoSource = 0 ∧ step.test = 0 ∧
        step.needsReady = false) :
      QueueMove P C s (.tokenResponse request reply)
        { s with app := { s.app with tokenManager := tokenManager, defaults := defaults } }
        [.session request.session step]
  | responds {i data error} : QueueMove P C s (.taskResponse i data error) (s.finish C i data error) []

section
variable {P : Platform} {C : Nat → ResponseClass Message} {s t : SessionThreads Message}

/-- Once the manager is ready, it signs without an error. -/
theorem signURLRequest_error {cryptoManager : LMRequestCryptoManager}
    (ready : cryptoManager.ready = true) (request : NSMutableURLRequest) :
    (cryptoManager.signURLRequest P request).2.2 = none := by
  rw [LMRequestCryptoManager.signURLRequest, if_pos ready]
  cases cryptoManager._crypto <;> rfl

theorem signError_eq_none (ready : s.app.cryptoManager.ready = true) (k : Nat) :
    s.signError P k = none := by
  unfold signError
  cases s.app.sessions[k]? with
  | none => rfl
  | some session => exact signURLRequest_error ready session.urlRequest

theorem updatePrivate_asks {app app' : InnerTube} {k : Nat}
    (sent : app.updatePrivateAccessToken k = .done app') :
    ∃ request : TokenRequest, request.session = k ∧
      app' = { app with tokenRequests := app.tokenRequests ++ [request] } := by
  unfold InnerTube.updatePrivateAccessToken at sent
  split at sent
  · cases sent
    exact ⟨_, rfl, rfl⟩
  · unfold InnerTube.updateGeneralAccessToken at sent
    split at sent
    · cases sent
      exact ⟨_, rfl, rfl⟩
    · cases sent

theorem sessionMove {k : Nat} {step : SessionStep} {next : List SessionStep}
    (ran : s.execSession P C k step = .ok (t, next))
    (signed : step.needsReady = true → s.app.cryptoManager.ready = true) :
    SessionMove C s k step t next := by
  cases step with
  | setUserAgent =>
      cases ran
      exact .prepares ⟨rfl, rfl, rfl, by simp⟩ rfl ⟨fun _ => rfl, fun _ => rfl, fun _ => rfl⟩
  | readReady =>
      simp only [execSession] at ran
      split_ifs at ran with ready <;> cases ran
      · exact .reads ⟨rfl, rfl, rfl, fun _ _ _ => ready⟩ (by rintro ⟨⟩)
      · exact .reads ⟨rfl, rfl, rfl, by simp [SessionStep.needsReady]⟩ (by rintro ⟨⟩)
  | addReadyCallback =>
      cases ran
      exact .addsCallback
  | sign =>
      simp only [execSession, signError_eq_none (signed rfl)] at ran
      cases ran
      exact .prepares ⟨rfl, rfl, rfl, by simp [SessionStep.needsReady]⟩ rfl
        ⟨fun _ => rfl, fun _ => rfl, fun _ => rfl⟩
  | writeCryptoGreenLight =>
      cases ran
      exact .writesCrypto
  | readPrivateAccess =>
      simp only [execSession] at ran
      split at ran <;> cases ran <;>
        exact .reads ⟨rfl, rfl, rfl, by simp [SessionStep.needsReady]⟩ (by rintro ⟨⟩)
  | authorize =>
      cases ran
      exact .prepares ⟨rfl, rfl, rfl, by simp [SessionStep.needsReady]⟩ rfl
        ⟨fun _ => rfl, fun _ => rfl, fun _ => rfl⟩
  | writeAccessGreenLight =>
      cases ran
      exact .writesAccess
  | updatePrivateAccessToken =>
      simp only [execSession] at ran
      split at ran
      · next app sent =>
          obtain ⟨request, own, rfl⟩ := updatePrivate_asks sent
          cases ran
          exact .asks own
      · cases ran
  | callCompletion error =>
      cases ran
      exact .reports error
  | testAndExecute =>
      simp only [execSession] at ran
      split_ifs at ran with green <;> cases ran
      · exact .starts green
      · exact .reads ⟨rfl, rfl, rfl, by simp⟩ fun _ => Bool.eq_false_iff.mpr green

theorem queueMove {step : QueueStep} {next : List QueueStep}
    (ran : s.execQueue P C step = .ok (t, next))
    (signed : step.needsReady = true → s.app.cryptoManager.ready = true) :
    QueueMove P C s step t next := by
  cases step with
  | session k step =>
      obtain ⟨result, stepped, same⟩ := map_eq_ok ran
      cases same
      exact .session (sessionMove stepped signed)
  | registered status garbage reply =>
      obtain ⟨⟨crypto, error⟩, result, same⟩ := map_eq_ok ran
      cases error <;> cases same
      · exact .registers result
      · exact .refuses result
  | writeReady =>
      cases ran
      exact .readies
  | enumerateReadyCallbacks =>
      cases ran
      exact .enumerates
  | callNext rest count =>
      cases rest with
      | nil =>
          cases ran
          exact .called
      | cons i rest =>
          simp only [execQueue] at ran
          split_ifs at ran
          cases ran
          exact .calls
  | archive =>
      cases ran
      exact .archives _
  | tokenResponse request reply =>
      cases reply with
      | failed error =>
          cases ran
          exact .answers _ _ ⟨rfl, rfl, rfl, rfl⟩
      | notJSON error =>
          cases ran
          exact .answers _ _ ⟨rfl, rfl, rfl, rfl⟩
      | array => cases ran
      | object jsonResponse =>
          cases request with
          | general refreshToken k =>
              obtain ⟨result, _, same⟩ := map_eq_ok ran
              cases same
              exact .answers _ _ ⟨rfl, rfl, rfl, rfl⟩
          | issueToken authorization k =>
              obtain ⟨result, _, same⟩ := map_eq_ok ran
              cases same
              exact .answers _ _ ⟨rfl, rfl, rfl, rfl⟩
  | taskResponse i data error =>
      cases ran
      exact .responds

end

end SessionThreads
end LeptosMusic
