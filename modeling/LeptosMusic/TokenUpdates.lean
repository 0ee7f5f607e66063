import LeptosMusic.TokenBytes

/-!
# Token updates

The shared token manager with the requests it has sent, in a process with its user defaults. A
public call, a completion handler or a launch runs as one step; an exception and a bad access
end the process. The refresh token is set by the initializer and by the setter; these settings
are numbered, so that it can be said for which of them a token was issued.
-/
namespace LeptosMusic
open Runs (Outcome)

/-- The block that a token request ends with: the one given to a public call, or the one in
which `updatePrivateAccessTokenWithCompletion:` goes on. Public calls are numbered. -/
inductive UpdateCompletion where
  | caller (call : Nat)
  | updatePrivate (call : Nat)
  deriving DecidableEq, Repr

def UpdateCompletion.call : UpdateCompletion → Nat
  | caller call => call
  | updatePrivate call => call

/-- A token request on its way, with its credential. `setting` numbers the refresh token that
the answer is issued for. -/
inductive TokenTask where
  | general (refreshToken : NSString) (completion : UpdateCompletion) (setting : Nat)
  | issueToken (authorization : NSString) (call : Nat) (setting : Nat)
  deriving DecidableEq, Repr

namespace TokenTask

def completion : TokenTask → UpdateCompletion
  | general _ completion _ => completion
  | issueToken _ call _ => .caller call

def call (task : TokenTask) : Nat := task.completion.call

def setting : TokenTask → Nat
  | general _ _ setting => setting
  | issueToken _ _ setting => setting

end TokenTask

/-- What has become of a public call: the requests sent, and what its block was called with. -/
structure UpdateCall where
  general : Nat
  issueToken : Nat
  errors : List (Option NSError)

def UpdateCall.sent (call : UpdateCall) : TokenTask → UpdateCall
  | .general _ _ _ => { call with general := call.general + 1 }
  | .issueToken _ _ _ => { call with issueToken := call.issueToken + 1 }

def UpdateCall.completed (call : UpdateCall) (error : Option NSError) : UpdateCall :=
  { call with errors := call.errors ++ [error] }

/-- The settings of the refresh token: the present one, the last one made by the setter, and
those for which the tokens in memory and under the two keys were issued. -/
structure Provenance where
  current : Nat
  switched : Nat
  generalAccess : Nat
  privateAccess : Nat
  storedGeneral : Nat
  storedPrivate : Nat

/-- One setting of an `Authorization` header from a token in memory. -/
structure TokenUse where
  authorization : NSString
  token : Option LMAccessTokenModel
  setting : Nat
  switched : Nat

/-- No method reads the last four fields. -/
structure TokenService where
  manager : LMAccessTokenManager
  defaults : NSUserDefaults
  running : Bool
  now : Int
  tasks : List TokenTask
  calls : Nat
  log : Nat → UpdateCall
  uses : List TokenUse
  crashes : List Fault
  provenance : Provenance

/-- The value of `error` at the end of a completion handler. -/
def URLReply.error : URLReply → Option NSError
  | failed error => some error
  | notJSON error => some error
  | array => none
  | object _ => none

namespace TokenService

/-- The device before a launch. -/
def off (defaults : NSUserDefaults) (provenance : Provenance) (now : Int) : TokenService where
  manager := ⟨none, none, none, none⟩
  defaults := defaults
  running := false
  now := now
  tasks := []
  calls := 0
  log _ := ⟨0, 0, []⟩
  uses := []
  crashes := []
  provenance := provenance

variable (T : TokenPlatform) (privateGoogleAccessToken : NSString)

def launch (self : TokenService) : TokenService :=
  { self with
    manager := .init T privateGoogleAccessToken self.defaults
    running := true
    tasks := []
    calls := 0
    log := fun _ => ⟨0, 0, []⟩
    provenance := { self.provenance with
      current := self.provenance.current + 1
      generalAccess := self.provenance.storedGeneral
      privateAccess := self.provenance.storedPrivate } }

def setRefreshToken (self : TokenService) (refreshToken : Option NSString) : TokenService :=
  { self with
    manager := self.manager.setRefreshToken refreshToken
    provenance := { self.provenance with
      current := self.provenance.current + 1
      switched := self.provenance.current + 1 } }

def send (self : TokenService) (task : TokenTask) : TokenService :=
  { self with
    tasks := self.tasks ++ [task]
    log := Function.update self.log task.call ((self.log task.call).sent task) }

def use (self : TokenService) (token : Option LMAccessTokenModel) (setting : Nat) : TokenService :=
  { self with uses := self.uses ++
      [⟨self.manager._authorizationValueForToken token, token, setting, self.provenance.switched⟩] }

/-- The dictionary literal of the form raises without a refresh token. -/
def updateGeneralAccessToken (self : TokenService) (completion : UpdateCompletion) :
    Outcome Fault TokenService :=
  match self.manager.refreshToken with
  | some refreshToken => .done (self.send (.general refreshToken completion self.provenance.current))
  | none => .raised .invalidArgumentException self

/-- `generalAccess`, when it is valid. -/
def validGeneralAccess (self : TokenService) : Option LMAccessTokenModel :=
  self.manager.generalAccess.filter fun token => token.isValid self.now

def updatePrivateAccessToken (self : TokenService) (call : Nat) : Outcome Fault TokenService :=
  match self.validGeneralAccess with
  | some generalAccess =>
      let self := self.use (some generalAccess) self.provenance.generalAccess
      .done (self.send (.issueToken (self.manager._authorizationValueForToken (some generalAccess))
        call self.provenance.generalAccess))
  | none => self.updateGeneralAccessToken (.updatePrivate call)

def authorizePrivateRequest (self : TokenService) : TokenService :=
  self.use self.manager.privateAccess self.provenance.privateAccess

/-- A message to a value of the reply, which raises when the value does not respond to it. -/
def attempt {α : Type} (self : TokenService) (value : Except Fault α)
    (rest : α → Outcome Fault TokenService) : Outcome Fault TokenService :=
  match value with
  | .ok value => rest value
  | .error fault => .raised fault self

/-- The branch for a dictionary, field by field. A token that is no string would only raise in
`dataStore`; nothing of it is left then but memory of a process that has ended. -/
def generalTokenObject (self : TokenService) (setting : Nat) (jsonResponse : JSONObject) :
    Outcome Fault TokenService :=
  self.attempt (LMAccessTokenManager.expiresInValue T (jsonResponse "expires_in")) fun expiresIn =>
  let expiry := self.now + expiresIn
  self.attempt (stringValue (jsonResponse "access_token")) fun accessToken =>
  let token := LMAccessTokenModel.initWithToken accessToken (some expiry)
  let authType := jsonResponse "token_type"
  let self := { self with
    manager := { self.manager with
      generalAccess := some token
      _authorizationType := authType.map JSONValue.description }
    provenance := { self.provenance with generalAccess := setting } }
  self.attempt (token.dataStore T) fun dataStore =>
  let self := { self with
    defaults := self.defaults.setObject (some (.data dataStore))
      LMAccessTokenManagerPrivateAccessUserDefaultsKey
    provenance := { self.provenance with storedPrivate := setting } }
  self.attempt (LMAccessTokenManager.authTypeObject authType) fun authTypeObject =>
  .done { self with
    defaults := self.defaults.setObject authTypeObject
      LMAccessTokenManagerAuthorizationUserDefaultsKey }

def issueTokenObject (self : TokenService) (setting : Nat) (jsonResponse : JSONObject) :
    Outcome Fault TokenService :=
  self.attempt (LMAccessTokenManager.expiresInValue T (jsonResponse "expiresIn")) fun expiresIn =>
  let expiry := self.now + expiresIn
  self.attempt (stringValue (jsonResponse "token")) fun accessToken =>
  let token := LMAccessTokenModel.initWithToken accessToken (some expiry)
  let self := { self with
    manager := { self.manager with privateAccess := some token }
    provenance := { self.provenance with privateAccess := setting } }
  self.attempt (token.dataStore T) fun dataStore =>
  .done { self with
    defaults := self.defaults.setObject (some (.data dataStore))
      LMAccessTokenManagerPrivateAccessUserDefaultsKey
    provenance := { self.provenance with storedPrivate := setting } }

/-- The handler of a task up to the call of its completion block. -/
def tokenReply (self : TokenService) (task : TokenTask) : URLReply → Outcome Fault TokenService
  | .failed _ => .done self
  | .notJSON _ => .done self
  | .array => .raised .unrecognizedSelector self
  | .object jsonResponse =>
      match task with
      | .general _ _ setting => self.generalTokenObject T setting jsonResponse
      | .issueToken _ _ setting => self.issueTokenObject T setting jsonResponse

/-- The block given to a public call is called. -/
def complete (self : TokenService) (call : Nat) (error : Option NSError) : TokenService :=
  { self with
    log := Function.update self.log call ((self.log call).completed error) }

def invoke (self : TokenService) (completion : UpdateCompletion) (error : Option NSError) :
    Outcome Fault TokenService :=
  match completion with
  | .caller call => .done (self.complete call error)
  | .updatePrivate call =>
      match error with
      | some error => .done (self.complete call (some error))
      | none => self.updatePrivateAccessToken call

def answer (self : TokenService) (task : TokenTask) (reply : URLReply) : Outcome Fault TokenService :=
  (self.tokenReply T task reply).andThen fun self => self.invoke task.completion reply.error

/-- A reply names a request on its way by its place in the list. -/
inductive Action where
  | launch
  | setRefreshToken (refreshToken : Option NSString)
  | updateGeneralAccessToken
  | updatePrivateAccessToken
  | authorizePrivateRequest
  | reply (task : Nat) (reply : URLReply)
  | wait (seconds : Nat)

/-- A public call with a block takes the next number. -/
def call (self : TokenService) : TokenService := { self with calls := self.calls + 1 }

/-- What the running process does. -/
def perform (self : TokenService) : Action → Outcome Fault TokenService
  | .setRefreshToken refreshToken => .done (self.setRefreshToken refreshToken)
  | .updateGeneralAccessToken => self.call.updateGeneralAccessToken (.caller self.calls)
  | .updatePrivateAccessToken => self.call.updatePrivateAccessToken self.calls
  | .authorizePrivateRequest => .done self.authorizePrivateRequest
  | .reply i reply =>
      match self.tasks[i]? with
      | some task => ({ self with tasks := self.tasks.eraseIdx i }).answer T task reply
      | none => .done self
  | _ => .done self

/-- The process ends where a method raises. -/
def settle : Outcome Fault TokenService → TokenService
  | .done self => self
  | .raised fault self => { self with running := false, crashes := self.crashes ++ [fault] }

def step (self : TokenService) : Action → Outcome Fault TokenService
  | .launch => .done (self.launch T privateGoogleAccessToken)
  | .wait seconds => .done { self with now := self.now + seconds }
  | a => if self.running then .done (settle (self.perform T a)) else .done self

abbrev run (self : TokenService) (actions : List Action) : Outcome Fault TokenService :=
  Runs.run (step T privateGoogleAccessToken) self actions

end TokenService

/-- A value that is used as a token. -/
def tokenString : Option JSONValue → Option NSString
  | some (.string text) => some text
  | _ => none

/-- The seconds until the expiry, where the value has a `doubleValue`. -/
def lifetime (T : TokenPlatform) (value : Option JSONValue) : Option Int :=
  (LMAccessTokenManager.expiresInValue T value).toOption

namespace TokenTask

def tokenKey : TokenTask → String
  | general _ _ _ => "access_token"
  | issueToken _ _ _ => "token"

def expiryKey : TokenTask → String
  | general _ _ _ => "expires_in"
  | issueToken _ _ _ => "expiresIn"

def isGeneral : TokenTask → Bool
  | general _ _ _ => true
  | issueToken _ _ _ => false

/-- The dictionary has a token, and nothing in it that the handler cannot use. -/
structure Readable (T : TokenPlatform) (task : TokenTask) (jsonResponse : JSONObject) : Prop where
  token : (tokenString (jsonResponse task.tokenKey)).isSome = true
  expiry : (lifetime T (jsonResponse task.expiryKey)).isSome = true
  authType : task.isGeneral = true → jsonResponse "token_type" ≠ some .null

/-- The token that a reply brings. -/
def tokenOf (task : TokenTask) : URLReply → Option NSString
  | .object jsonResponse => tokenString (jsonResponse task.tokenKey)
  | _ => none

/-- A reply with an error, or a dictionary that grants a token. -/
def Proper (T : TokenPlatform) (task : TokenTask) : URLReply → Prop
  | .failed _ => True
  | .notJSON _ => True
  | .array => False
  | .object jsonResponse => task.Readable T jsonResponse

end TokenTask

namespace TokenService

variable (T : TokenPlatform)

/-- The state after a granted token. -/
def granted (self : TokenService) (task : TokenTask) (token : NSString) (expiresIn : Int)
    (authType : Option JSONValue) : TokenService :=
  let model : LMAccessTokenModel := ⟨some token, some (self.now + expiresIn)⟩
  let defaults := self.defaults.setObject
    (some (.data (LMAccessTokenModel.tokenBytes T token (self.now + expiresIn))))
    LMAccessTokenManagerPrivateAccessUserDefaultsKey
  match task with
  | .general _ _ setting =>
      { self with
        manager := { self.manager with
          generalAccess := some model
          _authorizationType := authType.map JSONValue.description }
        defaults := defaults.setObject (authType.map fun value => .string value.description)
          LMAccessTokenManagerAuthorizationUserDefaultsKey
        provenance := { self.provenance with
          generalAccess := setting
          storedPrivate := setting } }
  | .issueToken _ _ setting =>
      { self with
        manager := { self.manager with privateAccess := some model }
        defaults := defaults
        provenance := { self.provenance with
          privateAccess := setting
          storedPrivate := setting } }

/-- A completion handler touches the tokens only. -/
structure Handled (s t : TokenService) : Prop where
  frame : t = { s with
    manager := t.manager
    defaults := t.defaults
    provenance := t.provenance }
  current : t.provenance.current = s.provenance.current
  switched : t.provenance.switched = s.provenance.switched

theorem Handled.refl (self : TokenService) : Handled self self := ⟨rfl, rfl, rfl⟩

theorem granted_handled (self : TokenService) (task : TokenTask) (token : NSString)
    (expiresIn : Int) (authType : Option JSONValue) :
    Handled self (self.granted T task token expiresIn authType) := by
  cases task <;> exact ⟨rfl, rfl, rfl⟩

variable {T}

theorem stringValue_of_tokenString {value : Option JSONValue} {token : NSString}
    (found : tokenString value = some token) : stringValue value = .ok (some token) := by
  match value with
  | some (.string text) =>
      cases found
      rfl

theorem expiresInValue_of_lifetime {value : Option JSONValue} {expiresIn : Int}
    (found : lifetime T value = some expiresIn) :
    LMAccessTokenManager.expiresInValue T value = .ok expiresIn := by
  unfold lifetime at found
  cases read : LMAccessTokenManager.expiresInValue T value with
  | error fault =>
      rw [read] at found
      cases found
  | ok other =>
      rw [read] at found
      cases found
      rfl

/-- A dictionary with a token, and nothing that cannot be used, is granted. -/
theorem tokenReply_granted (self : TokenService) (task : TokenTask) {jsonResponse : JSONObject}
    {token : NSString} {expiresIn : Int}
    (hasToken : tokenString (jsonResponse task.tokenKey) = some token)
    (hasExpiry : lifetime T (jsonResponse task.expiryKey) = some expiresIn)
    (typed : task.isGeneral = true → jsonResponse "token_type" ≠ some .null) :
    self.tokenReply T task (.object jsonResponse) =
      .done (self.granted T task token expiresIn (jsonResponse "token_type")) := by
  have string := stringValue_of_tokenString hasToken
  have expiry := expiresInValue_of_lifetime hasExpiry
  cases task with
  | general refreshToken completion setting =>
      have type := LMAccessTokenManager.authTypeObject_of_ne_null (typed rfl)
      simp only [TokenTask.tokenKey, TokenTask.expiryKey] at string expiry
      simp only [tokenReply, generalTokenObject, attempt, expiry, string, type]
      rfl
  | issueToken authorization call setting =>
      simp only [TokenTask.tokenKey, TokenTask.expiryKey] at string expiry
      simp only [tokenReply, issueTokenObject, attempt, expiry, string]
      rfl

theorem tokenString_of_stringValue {value : Option JSONValue} {token : NSString}
    (found : stringValue value = .ok (some token)) : tokenString value = some token := by
  match value with
  | some (.string text) =>
      cases found
      rfl

/-- Any other dictionary ends the process. -/
theorem tokenReply_raised (self : TokenService) (task : TokenTask) {jsonResponse : JSONObject}
    (unreadable : ¬ task.Readable T jsonResponse) :
    ∃ fault t, self.tokenReply T task (.object jsonResponse) = .raised fault t ∧ Handled self t := by
  have readable {expiresIn : Int} {token : NSString}
      (expiry : LMAccessTokenManager.expiresInValue T (jsonResponse task.expiryKey) = .ok expiresIn)
      (string : stringValue (jsonResponse task.tokenKey) = .ok (some token))
      (typed : task.isGeneral = true → jsonResponse "token_type" ≠ some .null) : False := by
    apply unreadable
    refine ⟨?_, ?_, typed⟩
    · rw [tokenString_of_stringValue string]
      rfl
    · rw [lifetime, expiry]
      rfl
  cases task with
  | general refreshToken completion setting =>
      simp only [TokenTask.tokenKey, TokenTask.expiryKey] at readable
      simp only [tokenReply, generalTokenObject]
      cases expiry : LMAccessTokenManager.expiresInValue T (jsonResponse "expires_in") with
      | error fault => exact ⟨fault, self, rfl, .refl self⟩
      | ok expiresIn =>
          cases string : stringValue (jsonResponse "access_token") with
          | error fault => exact ⟨fault, self, rfl, .refl self⟩
          | ok accessToken =>
              cases accessToken with
              | none => exact ⟨_, _, rfl, rfl, rfl, rfl⟩
              | some token =>
                  cases type : LMAccessTokenManager.authTypeObject (jsonResponse "token_type") with
                  | error fault =>
                      simp only [attempt, LMAccessTokenModel.initWithToken,
                        LMAccessTokenModel.dataStore_eq]
                      exact ⟨_, _, rfl, rfl, rfl, rfl⟩
                  | ok object =>
                      refine (readable expiry string fun _ null => ?_).elim
                      rw [null] at type
                      cases type
  | issueToken authorization call setting =>
      simp only [TokenTask.tokenKey, TokenTask.expiryKey] at readable
      simp only [tokenReply, issueTokenObject]
      cases expiry : LMAccessTokenManager.expiresInValue T (jsonResponse "expiresIn") with
      | error fault => exact ⟨fault, self, rfl, .refl self⟩
      | ok expiresIn =>
          cases string : stringValue (jsonResponse "token") with
          | error fault => exact ⟨fault, self, rfl, .refl self⟩
          | ok accessToken =>
              cases accessToken with
              | none => exact ⟨_, _, rfl, rfl, rfl, rfl⟩
              | some token => exact (readable expiry string fun general => by cases general).elim

/-- The handlers compute what the manager's own methods do, and raise where these do. -/
theorem generalTokenObject_response (self : TokenService) (setting : Nat) (jsonResponse : JSONObject) :
    match self.manager.generalTokenResponse T self.defaults self.now jsonResponse with
    | .ok (manager, defaults) => ∃ t, self.generalTokenObject T setting jsonResponse = .done t ∧
        t.manager = manager ∧ t.defaults = defaults
    | .error fault => ∃ t, self.generalTokenObject T setting jsonResponse = .raised fault t := by
  unfold LMAccessTokenManager.generalTokenResponse generalTokenObject
  cases LMAccessTokenManager.expiresInValue T (jsonResponse "expires_in") with
  | error fault => exact ⟨self, rfl⟩
  | ok expiresIn =>
      cases stringValue (jsonResponse "access_token") with
      | error fault => exact ⟨self, rfl⟩
      | ok accessToken =>
          cases accessToken with
          | none => exact ⟨_, rfl⟩
          | some token =>
              simp only [ok_bind, attempt, LMAccessTokenModel.initWithToken,
                LMAccessTokenModel.dataStore_eq]
              cases LMAccessTokenManager.authTypeObject (jsonResponse "token_type") with
              | error fault => exact ⟨_, rfl⟩
              | ok object => exact ⟨_, rfl, rfl, rfl⟩

theorem issueTokenObject_response (self : TokenService) (setting : Nat) (jsonResponse : JSONObject) :
    match self.manager.issueTokenResponse T self.defaults self.now jsonResponse with
    | .ok (manager, defaults) => ∃ t, self.issueTokenObject T setting jsonResponse = .done t ∧
        t.manager = manager ∧ t.defaults = defaults
    | .error fault => ∃ t, self.issueTokenObject T setting jsonResponse = .raised fault t := by
  unfold LMAccessTokenManager.issueTokenResponse issueTokenObject
  cases LMAccessTokenManager.expiresInValue T (jsonResponse "expiresIn") with
  | error fault => exact ⟨self, rfl⟩
  | ok expiresIn =>
      cases stringValue (jsonResponse "token") with
      | error fault => exact ⟨self, rfl⟩
      | ok accessToken =>
          cases accessToken with
          | none => exact ⟨_, rfl⟩
          | some token => exact ⟨_, rfl, rfl, rfl⟩

end TokenService
end LeptosMusic
