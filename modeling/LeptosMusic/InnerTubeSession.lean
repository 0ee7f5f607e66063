import LeptosMusic.AccessTokens

/-!
# LMInnerTubeSession and the managers it goes through

The app with its user defaults, the two shared managers, the sessions and the replies that
are on their way. Here a method or a completion handler runs as one step, which is coarser than the
app: `SessionThreads` has their single steps. The form bodies of the token requests are left out.
-/
namespace LeptosMusic
open LMApiaryDeviceCrypto (printed)
open Runs (Outcome)

/-- What the services use of the platform. Before iOS 11 unarchiving can raise. -/
structure Platform where
  commonCrypto : CommonCrypto
  archivedData : LMApiaryDeviceCrypto → Option NSData
  unarchivedObject : NSData → Except Fault (Option LMApiaryDeviceCrypto)
  tokens : TokenPlatform
  userAgent : NSString
  privateGoogleAccessToken : NSString

def kYouTubeMusicBase64EncodedProjectKey : NSString :=
  literal "WrM95onSB5FfXofSzKWgkNZGiosfmCCAcTH4htvkuj4="

def LMRequestCryptoManagerApiaryUserDefaultsKey : String :=
  "LMRequestCryptoManagerApiaryUserDefaultsKey"

/-- A ready callback is kept as the number of the session that added it. -/
structure LMRequestCryptoManager where
  _crypto : Option LMApiaryDeviceCrypto
  ready : Bool
  _readyCallbacks : Option (List Nat)

def notReadyError : NSError where
  domain := "null.leptos.music.cryptomanager"
  code := 1
  userInfo := [("NSLocalizedDescriptionKey", "DeviceCrypto is not yet ready"),
    ("NSLocalizedFailureReasonErrorKey", "Attempted to use CryptoManger before it was ready")]

namespace LMRequestCryptoManager

/-- The request, the returned `BOOL` and the error variable. -/
def signURLRequest (P : Platform) (self : LMRequestCryptoManager) (request : NSMutableURLRequest) :
    NSMutableURLRequest × Bool × Option NSError :=
  if self.ready then
    match self._crypto with
    | some crypto =>
        let (request, signed) := crypto.signURLRequest P.commonCrypto request
        (request, signed, none)
    | none => (request, false, none)
  else (request, false, some notReadyError)

def addReadyCallback (self : LMRequestCryptoManager) (session : Nat) : LMRequestCryptoManager :=
  { self with _readyCallbacks := self._readyCallbacks.map (· ++ [session]) }

end LMRequestCryptoManager

/-- One setting of the `Authorization` header. -/
structure Authorization where
  token : Option LMAccessTokenModel
  time : Int

/-- A network task that a session has started, with its request at that moment. -/
structure StartedTask where
  urlRequest : NSMutableURLRequest
  authorization : Option Authorization

/-- `completions` are the errors that the completion block was called with. `authorization` is
the last setting of that header; no method reads it. -/
structure LMInnerTubeSession where
  urlRequest : NSMutableURLRequest
  cryptoGreenLight : Bool
  accessGreenLight : Bool
  completions : List NSError
  authorization : Option Authorization

namespace LMInnerTubeSession

def initWithRequest (request : NSMutableURLRequest) : LMInnerTubeSession :=
  ⟨request, false, false, [], none⟩

def _testAndExecute (self : LMInnerTubeSession) : LMInnerTubeSession × List StartedTask :=
  if self.cryptoGreenLight && self.accessGreenLight then
    (self, [⟨self.urlRequest, self.authorization⟩])
  else (self, [])

def setCryptoGreenLight (self : LMInnerTubeSession) (cryptoGreenLight : Bool) :
    LMInnerTubeSession × List StartedTask :=
  ({ self with cryptoGreenLight := cryptoGreenLight })._testAndExecute

def setAccessGreenLight (self : LMInnerTubeSession) (accessGreenLight : Bool) :
    LMInnerTubeSession × List StartedTask :=
  ({ self with accessGreenLight := accessGreenLight })._testAndExecute

def _callCompletionWithError (self : LMInnerTubeSession) (err : NSError) : LMInnerTubeSession :=
  { self with completions := self.completions ++ [err] }

def _tryCryptoSign (P : Platform) (cryptoManager : LMRequestCryptoManager)
    (self : LMInnerTubeSession) : LMInnerTubeSession × Bool :=
  let (urlRequest, _, signErr) := cryptoManager.signURLRequest P self.urlRequest
  let self := { self with urlRequest := urlRequest }
  match signErr with
  | some signErr => (self._callCompletionWithError signErr, false)
  | none => (self, true)

/-- `if ([self _tryCryptoSign]) { self.cryptoGreenLight = YES; }` -/
def sign (P : Platform) (cryptoManager : LMRequestCryptoManager) (self : LMInnerTubeSession) :
    LMInnerTubeSession × List StartedTask :=
  let (self, signed) := self._tryCryptoSign P cryptoManager
  if signed then self.setCryptoGreenLight true else (self, [])

/-- `[tokenManager authorizePrivateRequest:_urlRequest]; self.accessGreenLight = YES;` -/
def authorize (tokenManager : LMAccessTokenManager) (now : Int) (self : LMInnerTubeSession) :
    LMInnerTubeSession × List StartedTask :=
  let self := { self with
    urlRequest := tokenManager.authorizePrivateRequest self.urlRequest
    authorization := some ⟨tokenManager.privateAccess, now⟩ }
  self.setAccessGreenLight true

end LMInnerTubeSession

/-- A token request on its way, for the session that waits for it: with the refresh token in
its form, or with its `Authorization` value. -/
inductive TokenRequest where
  | general (refreshToken : NSString) (session : Nat)
  | issueToken (authorization : NSString) (session : Nat)

/-- `registering` tells whether the reply to the device registration is on its way. -/
structure InnerTube where
  defaults : NSUserDefaults
  cryptoManager : LMRequestCryptoManager
  tokenManager : LMAccessTokenManager
  registering : Bool
  sessions : List LMInnerTubeSession
  tokenRequests : List TokenRequest
  now : Int
  started : List StartedTask

namespace InnerTube

/-- The device before the first launch, with what the defaults hold. -/
def off (defaults : NSUserDefaults) (now : Int) : InnerTube where
  defaults := defaults
  cryptoManager := ⟨none, false, none⟩
  tokenManager := ⟨none, none, none, none⟩
  registering := false
  sessions := []
  tokenRequests := []
  now := now
  started := []

variable (P : Platform)

/-- Both shared managers are made by their `init`; nothing of an earlier process is left. -/
def launch (self : InnerTube) : Outcome Fault InnerTube :=
  let self := { self with
    cryptoManager := ⟨none, false, none⟩
    tokenManager := .init P.tokens P.privateGoogleAccessToken self.defaults
    registering := false
    sessions := []
    tokenRequests := [] }
  match self.defaults.dataForKey LMRequestCryptoManagerApiaryUserDefaultsKey with
  | some cryptoData =>
      match P.unarchivedObject cryptoData with
      | .ok crypto => .done { self with cryptoManager := ⟨crypto, true, none⟩ }
      | .error fault => .raised fault self
  | none =>
      let projectKey := (Base64.decode kYouTubeMusicBase64EncodedProjectKey).getD []
      match LMApiaryDeviceCrypto.initWithProjectKey projectKey 4 with
      | .ok crypto =>
          .done { self with cryptoManager := ⟨some crypto, false, some []⟩, registering := true }
      | .error fault => .raised fault self

/-- A method of one session, with the tasks that it starts. -/
def atSession (self : InnerTube) (i : Nat)
    (method : LMInnerTubeSession → LMInnerTubeSession × List StartedTask) : InnerTube :=
  match self.sessions[i]? with
  | some session =>
      { self with
        sessions := self.sessions.set i (method session).1
        started := self.started ++ (method session).2 }
  | none => self

section
variable (self : InnerTube) (i : Nat)
  (method : LMInnerTubeSession → LMInnerTubeSession × List StartedTask)

@[simp] theorem atSession_cryptoManager :
    (self.atSession i method).cryptoManager = self.cryptoManager := by
  unfold atSession
  split <;> rfl

@[simp] theorem atSession_registering :
    (self.atSession i method).registering = self.registering := by
  unfold atSession
  split <;> rfl

@[simp] theorem atSession_tokenRequests :
    (self.atSession i method).tokenRequests = self.tokenRequests := by
  unfold atSession
  split <;> rfl

end

def callCompletionWithError (self : InnerTube) (i : Nat) (error : NSError) : InnerTube :=
  self.atSession i fun session => (session._callCompletionWithError error, [])

def authorize (self : InnerTube) (i : Nat) : InnerTube :=
  self.atSession i (LMInnerTubeSession.authorize self.tokenManager self.now)

/-- The dictionary literal of the form raises without a refresh token. -/
def updateGeneralAccessToken (self : InnerTube) (i : Nat) : Outcome Fault InnerTube :=
  match self.tokenManager.refreshToken with
  | some refreshToken =>
      .done { self with tokenRequests := self.tokenRequests ++ [.general refreshToken i] }
  | none => .raised .invalidArgumentException self

def updatePrivateAccessToken (self : InnerTube) (i : Nat) : Outcome Fault InnerTube :=
  match self.tokenManager.generalAccess.filter fun token => token.isValid self.now with
  | some generalAccess =>
      .done { self with tokenRequests := self.tokenRequests ++
        [.issueToken (self.tokenManager._authorizationValueForToken (some generalAccess)) i] }
  | none => self.updateGeneralAccessToken i

def generalReply (self : InnerTube) (i : Nat) : URLReply → Outcome Fault InnerTube
  | .failed error => .done (self.callCompletionWithError i error)
  | .notJSON error => .done (self.callCompletionWithError i error)
  | .array => .raised .unrecognizedSelector self
  | .object jsonResponse =>
      match self.tokenManager.generalTokenResponse P.tokens self.defaults self.now jsonResponse with
      | .ok (tokenManager, defaults) =>
          ({ self with tokenManager := tokenManager, defaults := defaults }).updatePrivateAccessToken i
      | .error fault => .raised fault self

def issueTokenReply (self : InnerTube) (i : Nat) : URLReply → Outcome Fault InnerTube
  | .failed error => .done (self.callCompletionWithError i error)
  | .notJSON error => .done (self.callCompletionWithError i error)
  | .array => .raised .unrecognizedSelector self
  | .object jsonResponse =>
      match self.tokenManager.issueTokenResponse P.tokens self.defaults self.now jsonResponse with
      | .ok (tokenManager, defaults) =>
          .done (({ self with tokenManager := tokenManager, defaults := defaults }).authorize i)
      | .error fault => .raised fault self

def sign (self : InnerTube) (i : Nat) : InnerTube :=
  self.atSession i (LMInnerTubeSession.sign P self.cryptoManager)

/-- `setReady:YES` -/
def setReady (self : InnerTube) : InnerTube :=
  let self := { self with cryptoManager := { self.cryptoManager with ready := true } }
  (self.cryptoManager._readyCallbacks.getD []).foldl (fun self i => self.sign P i) self

/-- `status` and `garbage` are what CommonCrypto and the stack come up with. The object that
the handler has captured is the manager's own and not `nil`. -/
def registrationReply (self : InnerTube) (status : CryptorStatus) (garbage : UInt8) :
    URLReply → Outcome Fault InnerTube
  | .failed _ => .done self
  | .notJSON _ => .done self
  | .array => .raised .unrecognizedSelector self
  | .object parsedTree =>
      match self.cryptoManager._crypto with
      | none => .done self
      | some crypto =>
          let deviceID := (parsedTree "id").map JSONValue.description
          match stringValue (parsedTree "key") >>= fun deviceKey =>
              crypto.setDeviceID P.commonCrypto status garbage deviceID deviceKey (some none) with
          | .error fault => .raised fault self
          | .ok (crypto, _, error) =>
              let self := { self with
                cryptoManager := { self.cryptoManager with _crypto := some crypto } }
              match error with
              | some (some _) => .done self
              | _ =>
                  let self := self.setReady P
                  let archive := P.archivedData crypto
                  .done { self with
                    defaults := self.defaults.setObject (archive.map .data)
                      LMRequestCryptoManagerApiaryUserDefaultsKey }

def complete (self : InnerTube) (i : Nat) : Outcome Fault InnerTube :=
  let self := self.atSession i fun session =>
    ({ session with urlRequest := session.urlRequest.setValue P.userAgent "User-Agent" }, [])
  let self :=
    if self.cryptoManager.ready then self.sign P i
    else { self with cryptoManager := self.cryptoManager.addReadyCallback i }
  match self.tokenManager.privateAccess.filter fun token => token.isValid self.now with
  | some _ => .done (self.authorize i)
  | none => self.updatePrivateAccessToken i

/-- What can happen. A token reply names an outstanding request by its place in the list. -/
inductive Action where
  | sessionWithRequest (request : NSMutableURLRequest)
  | complete (session : Nat)
  | registrationReply (status : CryptorStatus) (garbage : UInt8) (reply : URLReply)
  | tokenReply (request : Nat) (reply : URLReply)
  | setRefreshToken (refreshToken : Option NSString)
  | wait (seconds : Nat)

def step (self : InnerTube) : Action → Outcome Fault InnerTube
  | .sessionWithRequest request =>
      .done { self with sessions := self.sessions ++ [.initWithRequest request] }
  | .complete session =>
      if session < self.sessions.length then self.complete P session else .done self
  | .registrationReply status garbage reply =>
      if self.registering then
        ({ self with registering := false }).registrationReply P status garbage reply
      else .done self
  | .tokenReply i reply =>
      match self.tokenRequests[i]? with
      | some request =>
          let self := { self with tokenRequests := self.tokenRequests.eraseIdx i }
          match request with
          | .general _ session => self.generalReply P session reply
          | .issueToken _ session => self.issueTokenReply P session reply
      | none => .done self
  | .setRefreshToken refreshToken =>
      .done { self with tokenManager := self.tokenManager.setRefreshToken refreshToken }
  | .wait seconds => .done { self with now := self.now + seconds }

abbrev run (self : InnerTube) (actions : List Action) : Outcome Fault InnerTube :=
  Runs.run (step P) self actions

end InnerTube
end LeptosMusic
