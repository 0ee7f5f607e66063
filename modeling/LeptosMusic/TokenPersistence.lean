import LeptosMusic.AccessTokens

/-!
# Tokens across launches

What the manager reads back at the next launch, after any number of granted tokens.
-/
namespace LeptosMusic
open Runs (Outcome)

variable (T : TokenPlatform)

/-- A reply to a general token request that grants a token. The expiry is any value that has a
`doubleValue`, and the type any that the defaults can keep. -/
structure GeneralGrant where
  jsonResponse : JSONObject
  token : NSString
  expiresIn : Int
  hasToken : jsonResponse "access_token" = some (.string token)
  hasExpiry : (jsonResponse "expires_in").isSome = true
  expires : LMAccessTokenManager.expiresInValue T (jsonResponse "expires_in") = .ok expiresIn
  hasType : jsonResponse "token_type" ≠ some .null
  nonempty : token ≠ []

/-- A reply to an `IssueToken` request that grants a token. -/
structure PrivateGrant where
  jsonResponse : JSONObject
  token : NSString
  expiresIn : Int
  hasToken : jsonResponse "token" = some (.string token)
  hasExpiry : (jsonResponse "expiresIn").isSome = true
  expires : LMAccessTokenManager.expiresInValue T (jsonResponse "expiresIn") = .ok expiresIn
  nonempty : token ≠ []

inductive TokenEvent where
  | general (now : Int) (grant : GeneralGrant T)
  | issued (now : Int) (grant : PrivateGrant T)
  | relaunch

variable {T}

def GeneralGrant.model (grant : GeneralGrant T) (now : Int) : LMAccessTokenModel :=
  ⟨some grant.token, some (now + grant.expiresIn)⟩

def GeneralGrant.tokenType (grant : GeneralGrant T) : Option NSString :=
  (grant.jsonResponse "token_type").map JSONValue.description

def PrivateGrant.model (grant : PrivateGrant T) (now : Int) : LMAccessTokenModel :=
  ⟨some grant.token, some (now + grant.expiresIn)⟩

namespace TokenEvent

def generalModel : TokenEvent T → Option LMAccessTokenModel
  | general now grant => some (grant.model now)
  | _ => none

def issuedModel : TokenEvent T → Option LMAccessTokenModel
  | issued now grant => some (grant.model now)
  | _ => none

def model (event : TokenEvent T) : Option LMAccessTokenModel :=
  event.generalModel.or event.issuedModel

def tokenType : TokenEvent T → Option NSString
  | general _ grant => grant.tokenType
  | _ => none

/-- What is stored under the key of the type, which a reply without a type removes. -/
def typeObject : TokenEvent T → Option (Option DefaultsObject)
  | general _ grant => some (grant.tokenType.map .string)
  | _ => none

/-- The last of the values that the events have under `f`. -/
def last {β : Type} (f : TokenEvent T → Option β) (events : List (TokenEvent T)) : Option β :=
  (events.filterMap f).getLast?

variable {β : Type}

@[simp] theorem last_nil (f : TokenEvent T → Option β) : last f [] = none := rfl

theorem last_cons (f : TokenEvent T → Option β) (event : TokenEvent T) (events : List (TokenEvent T)) :
    last f (event :: events) = (last f events).or (f event) := by
  have split : (event :: events).filterMap f = (f event).toList ++ events.filterMap f := by
    cases value : f event <;> simp [value]
  rw [last, split, List.getLast?_append, last]
  cases f event <;> rfl

theorem last_eq_none {f : TokenEvent T → Option β} {events : List (TokenEvent T)} :
    last f events = none ↔ ∀ event ∈ events, f event = none := by
  rw [last, List.getLast?_eq_none_iff, List.filterMap_eq_nil_iff]

theorem last_mem {f : TokenEvent T → Option β} {events : List (TokenEvent T)} {value : β}
    (found : last f events = some value) : ∃ event ∈ events, f event = some value :=
  List.mem_filterMap.mp (List.mem_of_getLast? found)

theorem last_congr {f g : TokenEvent T → Option β} {events : List (TokenEvent T)}
    (same : ∀ event ∈ events, f event = g event) : last f events = last g events := by
  rw [last, last, List.filterMap_congr same]

end TokenEvent

/-- The manager and the user defaults it writes. -/
structure TokenStore where
  manager : LMAccessTokenManager
  defaults : NSUserDefaults

namespace TokenStore
open LMAccessTokenManager TokenEvent

variable (T : TokenPlatform) (privateGoogleAccessToken : NSString)

def launch (defaults : NSUserDefaults) : TokenStore :=
  ⟨LMAccessTokenManager.init T privateGoogleAccessToken defaults, defaults⟩

def ofResponse (store : TokenStore) :
    Except Fault (LMAccessTokenManager × NSUserDefaults) → Outcome Fault TokenStore
  | .ok (manager, defaults) => .done ⟨manager, defaults⟩
  | .error fault => .raised fault store

def step (store : TokenStore) : TokenEvent T → Outcome Fault TokenStore
  | .general now grant =>
      store.ofResponse
        (store.manager.generalTokenResponse T store.defaults now grant.jsonResponse)
  | .issued now grant =>
      store.ofResponse
        (store.manager.issueTokenResponse T store.defaults now grant.jsonResponse)
  | .relaunch => .done (launch T privateGoogleAccessToken store.defaults)

variable {T} in
/-- The manager holds what was last received of each kind. -/
structure Agrees (manager : LMAccessTokenManager) (events : List (TokenEvent T)) : Prop where
  generalAccess : manager.generalAccess = last generalModel events
  privateAccess : manager.privateAccess = last issuedModel events
  authorizationType : manager._authorizationType = last tokenType events

/-- The stored form of a model with a token. -/
def storedBytes (model : LMAccessTokenModel) : NSData :=
  (T.dateBytes (model.expiry.getD 0)).val ++
    (T.UTF8String (model.token.getD [])).takeWhile (· ≠ 0)

/-- A granted general token is stored under the key of the private one. -/
theorem generalTokenResponse_granted (manager : LMAccessTokenManager) (defaults : NSUserDefaults)
    (now : Int) (grant : GeneralGrant T) :
    manager.generalTokenResponse T defaults now grant.jsonResponse = .ok
      ({ manager with
        generalAccess := some (grant.model now)
        _authorizationType := grant.tokenType },
      (defaults.setObject (some (.data (storedBytes T (grant.model now))))
        LMAccessTokenManagerPrivateAccessUserDefaultsKey).setObject (grant.tokenType.map .string)
          LMAccessTokenManagerAuthorizationUserDefaultsKey) := by
  rw [generalTokenResponse, grant.hasToken, grant.expires]
  dsimp only
  rw [authTypeObject_of_ne_null grant.hasType, GeneralGrant.tokenType, Option.map_map]
  rfl

theorem issueTokenResponse_granted (manager : LMAccessTokenManager) (defaults : NSUserDefaults)
    (now : Int) (grant : PrivateGrant T) :
    manager.issueTokenResponse T defaults now grant.jsonResponse = .ok
      ({ manager with privateAccess := some (grant.model now) },
      defaults.setObject (some (.data (storedBytes T (grant.model now))))
        LMAccessTokenManagerPrivateAccessUserDefaultsKey) := by
  rw [issueTokenResponse, grant.hasToken, grant.expires]
  rfl

/-- The byte format gives the model back. -/
def Faithful (model : LMAccessTokenModel) : Prop :=
  LMAccessTokenModel.initWithDataStore T (some (storedBytes T model)) = some model
  deriving Decidable

/-- The three keys after a run, from what they were before it. -/
structure Written (before after : NSUserDefaults) (events : List (TokenEvent T)) : Prop where
  general : after LMAccessTokenManagerGeneralAccessUserDefaultsKey =
    before LMAccessTokenManagerGeneralAccessUserDefaultsKey
  issued : after LMAccessTokenManagerPrivateAccessUserDefaultsKey =
    ((last model events).map fun model => .data (storedBytes T model)).or
      (before LMAccessTokenManagerPrivateAccessUserDefaultsKey)
  authorization : after LMAccessTokenManagerAuthorizationUserDefaultsKey =
    (last typeObject events).getD (before LMAccessTokenManagerAuthorizationUserDefaultsKey)

/-- Every event is handled, and the general key is never written. -/
theorem step_written (store : TokenStore) (event : TokenEvent T) :
    ∃ after, step T privateGoogleAccessToken store event = .done after ∧
      Written T store.defaults after.defaults [event] := by
  cases event with
  | general now grant =>
      refine ⟨⟨_, _⟩, by rw [step, generalTokenResponse_granted, ofResponse], ?_, ?_, ?_⟩
      · dsimp only
        rw [NSUserDefaults.setObject_other _ _ (by decide),
          NSUserDefaults.setObject_other _ _ (by decide)]
      · dsimp only
        rw [NSUserDefaults.setObject_other _ _ (by decide), NSUserDefaults.setObject_same]
        rfl
      · dsimp only
        rw [NSUserDefaults.setObject_same]
        rfl
  | issued now grant =>
      refine ⟨⟨_, _⟩, by rw [step, issueTokenResponse_granted, ofResponse], ?_, ?_, ?_⟩
      · dsimp only
        rw [NSUserDefaults.setObject_other _ _ (by decide)]
      · dsimp only
        rw [NSUserDefaults.setObject_same]
        rfl
      · dsimp only
        rw [NSUserDefaults.setObject_other _ _ (by decide)]
        rfl
  | relaunch => exact ⟨_, rfl, ⟨rfl, rfl, rfl⟩⟩

theorem Written.cons {before middle after : NSUserDefaults} {event : TokenEvent T}
    {events : List (TokenEvent T)} (first : Written T before middle [event])
    (rest : Written T middle after events) : Written T before after (event :: events) := by
  constructor
  · rw [rest.general, first.general]
  · rw [rest.issued, first.issued, last_cons, last_cons, last_nil, Option.none_or]
    cases last model events <;> rfl
  · rw [rest.authorization, first.authorization, last_cons, last_cons, last_nil, Option.none_or]
    cases last typeObject events <;> rfl

theorem run_written (store : TokenStore) (events : List (TokenEvent T)) :
    ∃ after, Runs.run (step T privateGoogleAccessToken) store events = .done after ∧
      Written T store.defaults after.defaults events := by
  induction events generalizing store with
  | nil => exact ⟨store, rfl, ⟨rfl, rfl, rfl⟩⟩
  | cons event events ih =>
      obtain ⟨middle, taken, first⟩ := step_written T privateGoogleAccessToken store event
      obtain ⟨after, ran, rest⟩ := ih middle
      refine ⟨after, ?_, first.cons T rest⟩
      rw [Runs.run_cons, taken, Outcome.done_andThen, ran]

/-- A fresh install has none of the three keys. -/
structure Fresh (defaults : NSUserDefaults) : Prop where
  general : defaults LMAccessTokenManagerGeneralAccessUserDefaultsKey = none
  issued : defaults LMAccessTokenManagerPrivateAccessUserDefaultsKey = none
  authorization : defaults LMAccessTokenManagerAuthorizationUserDefaultsKey = none

/-- The model read back under the private key is the last one received, of either kind. -/
theorem reloaded_private {before after : NSUserDefaults} {events : List (TokenEvent T)}
    (written : Written T before after events) (fresh : Fresh before)
    (faithful : ∀ event ∈ events, ∀ received ∈ event.model, Faithful T received) :
    (LMAccessTokenManager.init T privateGoogleAccessToken after).privateAccess = last model events := by
  have stored := written.issued
  rw [fresh.issued, Option.or_none] at stored
  simp only [LMAccessTokenManager.init, NSUserDefaults.dataForKey, stored]
  cases received : last model events with
  | none => rfl
  | some model =>
      obtain ⟨event, member, from_event⟩ := last_mem received
      exact faithful event member model from_event

/-- From a fresh install, after any run of granted tokens and relaunches, the next launch reads
back what was last received of each kind exactly when no general token was received. -/
theorem reloaded_agrees_iff (defaults : NSUserDefaults) (fresh : Fresh defaults)
    (events : List (TokenEvent T))
    (faithful : ∀ event ∈ events, ∀ received ∈ event.model, Faithful T received) :
    ∃ store, Runs.run (step T privateGoogleAccessToken)
        (launch T privateGoogleAccessToken defaults) events = .done store ∧
      (Agrees (launch T privateGoogleAccessToken store.defaults).manager events ↔
        ∀ event ∈ events, event.generalModel = none) := by
  obtain ⟨store, ran, written⟩ := run_written T privateGoogleAccessToken
    (launch T privateGoogleAccessToken defaults) events
  change Written T defaults store.defaults events at written
  have reloaded := reloaded_private T privateGoogleAccessToken written fresh faithful
  have general : (launch T privateGoogleAccessToken store.defaults).manager.generalAccess = none := by
    have absent := written.general.trans fresh.general
    simp only [launch, LMAccessTokenManager.init, NSUserDefaults.dataForKey, absent]
    rfl
  refine ⟨store, ran, ?_⟩
  constructor
  · intro agrees
    exact last_eq_none.mp (agrees.generalAccess.symm.trans general)
  · intro onlyIssued
    have noTypes : ∀ event ∈ events, event.tokenType = none ∧ event.typeObject = none := by
      intro event member
      cases event with
      | general now grant => cases onlyIssued _ member
      | issued now grant => exact ⟨rfl, rfl⟩
      | relaunch => exact ⟨rfl, rfl⟩
    have sameModels : ∀ event ∈ events, event.model = event.issuedModel := by
      intro event member
      rw [TokenEvent.model, onlyIssued event member, Option.none_or]
    constructor
    · rw [general, last_eq_none.mpr onlyIssued]
    · rw [← last_congr sameModels]
      exact reloaded
    · have stored := written.authorization
      rw [last_eq_none.mpr fun event member => (noTypes event member).2, fresh.authorization] at stored
      rw [last_eq_none.mpr fun event member => (noTypes event member).1]
      simp only [launch, LMAccessTokenManager.init, NSUserDefaults.stringForKey, stored]
      rfl

def generalGrant : GeneralGrant asciiPlatform where
  jsonResponse key :=
    if key = "access_token" then some (.string (literal "ya29.general"))
    else if key = "expires_in" then some (.number 3600)
    else if key = "token_type" then some (.string (literal "Bearer"))
    else none
  token := literal "ya29.general"
  expiresIn := 3600
  hasToken := rfl
  hasExpiry := rfl
  expires := rfl
  hasType := by decide
  nonempty := by decide

def privateGrant : PrivateGrant asciiPlatform where
  jsonResponse key :=
    if key = "token" then some (.string (literal "ya29.private"))
    else if key = "expiresIn" then some (.number 3600)
    else none
  token := literal "ya29.private"
  expiresIn := 3600
  hasToken := rfl
  hasExpiry := rfl
  expires := rfl
  nonempty := by decide

/-- A run of the handlers alone: the app asks for a private token with a general one in hand, which
it has received before. -/
theorem issued_reloaded :
    ∃ store, Runs.run (step asciiPlatform (literal "1/refresh"))
        (launch asciiPlatform (literal "1/refresh") fun _ => none)
        [.issued 0 privateGrant, .relaunch, .issued 7200 privateGrant] = .done store ∧
      Agrees (launch asciiPlatform (literal "1/refresh") store.defaults).manager
        [.issued 0 privateGrant, .relaunch, .issued 7200 privateGrant] := by
  obtain ⟨store, ran, agrees⟩ := reloaded_agrees_iff asciiPlatform (literal "1/refresh")
    (fun _ => none) ⟨rfl, rfl, rfl⟩
    [.issued 0 privateGrant, .relaunch, .issued 7200 privateGrant] (by decide)
  exact ⟨store, ran, agrees.mpr (by decide)⟩

/-- One general token, received on a fresh install, comes back as the private one. -/
theorem general_reloaded_as_private :
    ∃ store, Runs.run (step asciiPlatform (literal "1/refresh"))
        (launch asciiPlatform (literal "1/refresh") fun _ => none)
        [.general 0 generalGrant] = .done store ∧
      Faithful asciiPlatform (generalGrant.model 0) ∧
      (launch asciiPlatform (literal "1/refresh") store.defaults).manager.privateAccess =
        some (generalGrant.model 0) ∧
      ¬ Agrees (launch asciiPlatform (literal "1/refresh") store.defaults).manager
        [.general 0 generalGrant] := by
  refine ⟨_, rfl, by decide, by decide, ?_⟩
  intro agrees
  exact absurd agrees.generalAccess (by decide)

end TokenStore
end LeptosMusic
