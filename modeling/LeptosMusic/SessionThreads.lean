import LeptosMusic.InnerTubeSession

/-!
# Sessions on their threads

The sessions of `LMInnerTubeRequest`s with the single steps that their threads take. Each
`complete` runs on a thread of its own; the completion handlers of the shared URL session run on
its serial queue, one after the other. A thread is the list of the steps still to be taken. What
a handler of the token manager does before it calls its block is one step.
-/
namespace LeptosMusic
open Runs (Outcome)

/-- The message class of a response, and the object in an error body as its texts. -/
structure ResponseClass (Message : Type) where
  parseFromData : NSData → Except NSError Message
  JSONObjectWithData : NSData → Option (List (String × String))

def LMInnerTubeRequestErrorDomain : String := "null.leptos.music.innertube.request"

def unknownError (reason : String) : NSError where
  domain := LMInnerTubeRequestErrorDomain
  code := 1
  userInfo := [("NSLocalizedDescriptionKey", "Unknown error"),
    ("NSLocalizedFailureReasonErrorKey", reason)]

/-- What the completion of a request is called with. -/
abbrev RequestResult (Message : Type) := Option Message × Option NSError

/-- The block that `completeRequestWithCompletion:` gives to its session. -/
def ResponseClass.completionBlock {Message : Type} (C : ResponseClass Message)
    (data : Option NSData) (error : Option NSError) : RequestResult Message :=
  match error with
  | some error => (none, some error)
  | none =>
      match data with
      | some data =>
          match C.parseFromData data with
          | .ok message => (some message, none)
          | .error _ =>
              match C.JSONObjectWithData data with
              | some errMessage => (none, some ⟨"com.googleapis.youtubei.request", 1, errMessage, none⟩)
              | none =>
                  (none, some (unknownError "Response object is not a Protobuf Message or JSON"))
      | none =>
          (none, some (unknownError "Both data and error are nil after completing network request"))

/-- A step that is about one session. The two writes are those of the setters, which test both
lights next. -/
inductive SessionStep where
  | setUserAgent
  | readReady
  | addReadyCallback
  | sign
  | writeCryptoGreenLight
  | readPrivateAccess
  | authorize
  | writeAccessGreenLight
  | updatePrivateAccessToken
  | callCompletion (error : NSError)
  | testAndExecute

/-- A step on the queue of the URL session. `callNext` goes on with an enumeration: the callbacks
that are left of those there were when it began, and how many those were. -/
inductive QueueStep where
  | session (session : Nat) (step : SessionStep)
  | registered (status : CryptorStatus) (garbage : UInt8) (reply : URLReply)
  | writeReady
  | enumerateReadyCallbacks
  | callNext (rest : List Nat) (count : Nat)
  | archive
  | tokenResponse (request : TokenRequest) (reply : URLReply)
  | taskResponse (session : Nat) (data : Option NSData) (error : Option NSError)

def TokenRequest.session : TokenRequest → Nat
  | general _ session => session
  | issueToken _ session => session

/-- `callers` and `called` are about the threads of `complete`, by session; each session is that of
a request with a response class of its own. `tasks` are the
sessions whose network tasks have not been replied to. No step reads the last three fields:
whether the enumeration of the ready callbacks has begun, or is not to come; and for each session
how many tasks it has started and what the completion of its request was called with. -/
structure SessionThreads (Message : Type) where
  app : InnerTube
  called : Nat → Bool
  callers : Nat → List SessionStep
  queue : List QueueStep
  tasks : List Nat
  walked : Bool
  starts : Nat → Nat
  results : Nat → List (RequestResult Message)

namespace SessionThreads
variable {Message : Type} (P : Platform) (C : Nat → ResponseClass Message)

/-- Right after a launch. -/
def launched (app : InnerTube) : SessionThreads Message where
  app := app
  called _ := false
  callers _ := []
  queue := []
  tasks := []
  walked := app.cryptoManager.ready
  starts _ := 0
  results _ := []

/-- A change of one session's own data. -/
def modify (self : SessionThreads Message) (i : Nat)
    (change : LMInnerTubeSession → LMInnerTubeSession) : SessionThreads Message :=
  { self with app := self.app.atSession i fun session => (change session, []) }

/-- The completion block of a session is called. -/
def finish (self : SessionThreads Message) (i : Nat) (data : Option NSData)
    (error : Option NSError) : SessionThreads Message :=
  { self with
    results := Function.update self.results i
      (self.results i ++ [(C i).completionBlock data error]) }

/-- A network task is started with the session's completion block. -/
def start (self : SessionThreads Message) (i : Nat) : SessionThreads Message :=
  { self with
    app := self.app.atSession i LMInnerTubeSession._testAndExecute
    tasks := self.tasks ++ [i]
    starts := Function.update self.starts i (self.starts i + 1) }

def lightsGreen (self : SessionThreads Message) (i : Nat) : Bool :=
  (self.app.sessions[i]?).any fun session => session.cryptoGreenLight && session.accessGreenLight

/-- `[cryptoManager signURLRequest:_urlRequest error:&signErr]`, as the error it leaves. -/
def signError (self : SessionThreads Message) (i : Nat) : Option NSError :=
  (self.app.sessions[i]?).bind fun session =>
    (self.app.cryptoManager.signURLRequest P session.urlRequest).2.2

/-- A step of a session, with the steps that its thread takes next. -/
def execSession (self : SessionThreads Message) (i : Nat) :
    SessionStep → Except Fault (SessionThreads Message × List SessionStep)
  | .setUserAgent =>
      .ok (self.modify i fun session =>
        { session with urlRequest := session.urlRequest.setValue P.userAgent "User-Agent" }, [])
  | .readReady =>
      if self.app.cryptoManager.ready then .ok (self, [.sign]) else .ok (self, [.addReadyCallback])
  | .addReadyCallback =>
      .ok ({ self with app := { self.app with
        cryptoManager := self.app.cryptoManager.addReadyCallback i } }, [])
  | .sign =>
      let signed := self.modify i fun session =>
        { session with
          urlRequest := (self.app.cryptoManager.signURLRequest P session.urlRequest).1 }
      match self.signError P i with
      | some signErr => .ok (signed, [.callCompletion signErr])
      | none => .ok (signed, [.writeCryptoGreenLight])
  | .writeCryptoGreenLight =>
      .ok (self.modify i fun session => { session with cryptoGreenLight := true }, [.testAndExecute])
  | .readPrivateAccess =>
      match self.app.tokenManager.privateAccess.filter fun token => token.isValid self.app.now with
      | some _ => .ok (self, [.authorize])
      | none => .ok (self, [.updatePrivateAccessToken])
  | .authorize =>
      .ok (self.modify i fun session =>
        { session with
          urlRequest := self.app.tokenManager.authorizePrivateRequest session.urlRequest
          authorization := some ⟨self.app.tokenManager.privateAccess, self.app.now⟩ },
        [.writeAccessGreenLight])
  | .writeAccessGreenLight =>
      .ok (self.modify i fun session => { session with accessGreenLight := true }, [.testAndExecute])
  | .updatePrivateAccessToken =>
      match self.app.updatePrivateAccessToken i with
      | .done app => .ok ({ self with app := app }, [])
      | .raised fault _ => .error fault
  | .callCompletion error =>
      .ok ((self.modify i fun session => session._callCompletionWithError error).finish C i none
        (some error), [])
  | .testAndExecute =>
      if self.lightsGreen i then .ok (self.start i, []) else .ok (self, [])

/-- What `_setupDeviceCrypto:completion:` makes of a reply: the crypto object and the error. -/
def registrationResult (self : SessionThreads Message) (status : CryptorStatus) (garbage : UInt8) :
    URLReply → Except Fault (Option LMApiaryDeviceCrypto × Option NSError)
  | .failed error => .ok (self.app.cryptoManager._crypto, some error)
  | .notJSON error => .ok (self.app.cryptoManager._crypto, some {
      domain := "null.leptos.music.cryptomanager"
      code := 1
      userInfo := [("NSLocalizedDescriptionKey", "Unknown server response while registering device"),
        ("NSLocalizedFailureReasonErrorKey", "Expected JSON response from server")]
      underlying := some error })
  | .array => .error .unrecognizedSelector
  | .object parsedTree =>
      match self.app.cryptoManager._crypto with
      | none => .ok (none, none)
      | some crypto =>
          let deviceID := (parsedTree "id").map JSONValue.description
          match stringValue (parsedTree "key") >>= fun deviceKey =>
              crypto.setDeviceID P.commonCrypto status garbage deviceID deviceKey (some none) with
          | .error fault => .error fault
          | .ok (crypto, _, error) => .ok (some crypto, error.join)

/-- A step on the queue. The enumeration checks before each element that the array is as it was. -/
def execQueue (self : SessionThreads Message) :
    QueueStep → Except Fault (SessionThreads Message × List QueueStep)
  | .session i step =>
      (self.execSession P C i step).map fun (self, next) => (self, next.map (.session i))
  | .registered status garbage reply =>
      (self.registrationResult P status garbage reply).map fun (crypto, error) =>
        let self := { self with app := { self.app with
          cryptoManager := { self.app.cryptoManager with _crypto := crypto } } }
        match error with
        | some _ => (self, [])
        | none => (self, [.writeReady, .archive])
  | .writeReady =>
      .ok ({ self with app := { self.app with
        cryptoManager := { self.app.cryptoManager with ready := true } } }, [.enumerateReadyCallbacks])
  | .enumerateReadyCallbacks =>
      let callbacks := self.app.cryptoManager._readyCallbacks.getD []
      .ok ({ self with walked := true }, [.callNext callbacks callbacks.length])
  | .callNext [] _ => .ok (self, [])
  | .callNext (i :: rest) count =>
      if (self.app.cryptoManager._readyCallbacks.getD []).length = count then
        .ok (self, [.session i .sign, .callNext rest count])
      else .error .genericException
  | .archive =>
      let archive := self.app.cryptoManager._crypto.bind P.archivedData
      .ok ({ self with app := { self.app with
        defaults := self.app.defaults.setObject (archive.map .data)
          LMRequestCryptoManagerApiaryUserDefaultsKey } }, [])
  | .tokenResponse request reply =>
      match reply with
      | .failed error => .ok (self, [.session request.session (.callCompletion error)])
      | .notJSON error => .ok (self, [.session request.session (.callCompletion error)])
      | .array => .error .unrecognizedSelector
      | .object jsonResponse =>
          match request with
          | .general _ i =>
              (self.app.tokenManager.generalTokenResponse P.tokens self.app.defaults self.app.now
                jsonResponse).map fun (tokenManager, defaults) =>
                ({ self with app := { self.app with
                  tokenManager := tokenManager
                  defaults := defaults } }, [.session i .updatePrivateAccessToken])
          | .issueToken _ i =>
              (self.app.tokenManager.issueTokenResponse P.tokens self.app.defaults self.app.now
                jsonResponse).map fun (tokenManager, defaults) =>
                ({ self with app := { self.app with
                  tokenManager := tokenManager
                  defaults := defaults } }, [.session i .authorize])
  | .taskResponse i data error => .ok (self.finish C i data error, [])

/-- `caller` and `queue` are the next step of a thread. A reply is taken up when the queue is free;
token and task replies name what they answer by its place in the list. -/
inductive Action where
  | sessionWithRequest (request : NSMutableURLRequest)
  | complete (session : Nat)
  | caller (session : Nat)
  | queue
  | registrationReply (status : CryptorStatus) (garbage : UInt8) (reply : URLReply)
  | tokenReply (request : Nat) (reply : URLReply)
  | taskReply (task : Nat) (data : Option NSData) (error : Option NSError)
  | setRefreshToken (refreshToken : Option NSString)
  | wait (seconds : Nat)

/-- The body of `complete`. -/
def completeSteps : List SessionStep := [.setUserAgent, .readReady, .readPrivateAccess]

/-- A thread that raises stays where it is, and the process ends. -/
def advance (self : SessionThreads Message) :
    Except Fault (SessionThreads Message) → Outcome Fault (SessionThreads Message)
  | .ok next => .done next
  | .error fault => .raised fault self

def stepCaller (self : SessionThreads Message) (i : Nat) : Except Fault (SessionThreads Message) :=
  match self.callers i with
  | [] => .ok self
  | step :: rest =>
      (self.execSession P C i step).map fun (self, next) =>
        { self with callers := Function.update self.callers i (next ++ rest) }

def stepQueue (self : SessionThreads Message) : Except Fault (SessionThreads Message) :=
  match self.queue with
  | [] => .ok self
  | step :: rest =>
      (self.execQueue P C step).map fun (self, next) => { self with queue := next ++ rest }

def step (self : SessionThreads Message) : Action → Outcome Fault (SessionThreads Message)
  | .sessionWithRequest request =>
      .done { self with app := { self.app with
        sessions := self.app.sessions ++ [.initWithRequest request] } }
  | .complete i =>
      if i < self.app.sessions.length ∧ self.called i = false then
        .done { self with
          called := Function.update self.called i true
          callers := Function.update self.callers i completeSteps }
      else .done self
  | .caller i => self.advance (self.stepCaller P C i)
  | .queue => self.advance (self.stepQueue P C)
  | .registrationReply status garbage reply =>
      if self.queue = [] ∧ self.app.registering = true then
        .done { self with
          app := { self.app with registering := false }
          queue := [.registered status garbage reply] }
      else .done self
  | .tokenReply k reply =>
      match self.queue, self.app.tokenRequests[k]? with
      | [], some request =>
          .done { self with
            app := { self.app with tokenRequests := self.app.tokenRequests.eraseIdx k }
            queue := [.tokenResponse request reply] }
      | _, _ => .done self
  | .taskReply k data error =>
      match self.queue, self.tasks[k]? with
      | [], some i =>
          .done { self with
            tasks := self.tasks.eraseIdx k
            queue := [.taskResponse i data error] }
      | _, _ => .done self
  | .setRefreshToken refreshToken =>
      .done { self with app := { self.app with
        tokenManager := self.app.tokenManager.setRefreshToken refreshToken } }
  | .wait seconds => .done { self with app := { self.app with now := self.app.now + seconds } }

abbrev run (self : SessionThreads Message) (actions : List Action) :
    Outcome Fault (SessionThreads Message) := Runs.run (step P C) self actions

end SessionThreads
end LeptosMusic
