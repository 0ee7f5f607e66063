import LeptosMusic.DeviceCrypto
import LeptosMusic.Library.Runs

/-!
# LMAccessTokenModel and LMAccessTokenManager

Dates are seconds. What a token model needs of the platform is a parameter: the bytes of a
date, UTF-8, and the memory that follows a C buffer.
-/
namespace LeptosMusic
open LMApiaryDeviceCrypto (printed)
open Runs (Outcome)

/-- `dateBytes` are the eight bytes of the union for a date. `UTF8String` are the bytes before
the terminating zero. `beyond` is what stands in memory behind a local buffer with the given
contents. -/
structure TokenPlatform where
  dateBytes : Int → { bytes : NSData // bytes.length = 8 }
  dateOfBytes : NSData → Int
  UTF8String : NSString → NSData
  stringWithUTF8String : NSData → Option NSString
  beyond : NSData → NSData
  doubleValue : NSString → Int

/-- ASCII tokens, dates before 2106, and a zero behind every buffer. -/
def asciiPlatform : TokenPlatform where
  dateBytes date := ⟨[UInt8.ofNat date.toNat, UInt8.ofNat (date.toNat / 2 ^ 8),
    UInt8.ofNat (date.toNat / 2 ^ 16), UInt8.ofNat (date.toNat / 2 ^ 24), 0, 0, 0, 0], rfl⟩
  dateOfBytes bytes := bytes.foldr (fun byte date => date * 256 + byte.toNat) 0
  UTF8String text := text.map fun unit => UInt8.ofNat unit.toNat
  stringWithUTF8String bytes := some (bytes.map fun byte => UInt16.ofNat byte.toNat)
  beyond _ := [0]
  doubleValue _ := 0

structure LMAccessTokenModel where
  token : Option NSString
  expiry : Option Int
  deriving DecidableEq, Repr

namespace LMAccessTokenModel

def initWithToken (token : Option NSString) (expiry : Option Int) : LMAccessTokenModel :=
  ⟨token, expiry⟩

/-- Sent to `nil`, `timeIntervalSinceNow` is zero. -/
def isValid (self : LMAccessTokenModel) (now : Int) : Bool :=
  decide (0 < (self.expiry.map (· - now)).getD 0) && self.token.isSome

theorem isValid_iff {token : NSString} {expiry now : Int} :
    (⟨some token, some expiry⟩ : LMAccessTokenModel).isValid now = true ↔ now < expiry := by
  simp [isValid]

variable (T : TokenPlatform)

/-- `strlen` of the `NULL` that a missing token has as its C string is a bad access. -/
def dataStore (self : LMAccessTokenModel) : Except Fault NSData :=
  match self.token with
  | none => .error .badAccess
  | some token =>
      .ok ((T.dateBytes (self.expiry.getD 0)).val ++ (T.UTF8String token).takeWhile (· ≠ 0))

/-- The token is read as a C string from the start of a buffer that has no terminating zero. -/
def initWithDataStore (dataStore : Option NSData) : Option LMAccessTokenModel :=
  let dataStore := dataStore.getD []
  if dataStore.length < 8 then none
  else
    let tokenBytes := dataStore.drop 8
    some {
      expiry := some (T.dateOfBytes (dataStore.take 8))
      token := T.stringWithUTF8String ((tokenBytes ++ T.beyond tokenBytes).takeWhile (· ≠ 0)) }

end LMAccessTokenModel

/-- The header's value is `"%@ %@"` of the type and the token. -/
structure LMAccessTokenManager where
  refreshToken : Option NSString
  generalAccess : Option LMAccessTokenModel
  privateAccess : Option LMAccessTokenModel
  _authorizationType : Option NSString
  deriving DecidableEq, Repr

def LMAccessTokenManagerGeneralAccessUserDefaultsKey : String :=
  "LMAccessTokenManagerGeneralAccessUserDefaultsKey"
def LMAccessTokenManagerPrivateAccessUserDefaultsKey : String :=
  "LMAccessTokenManagerPrivateAccessUserDefaultsKey"
def LMAccessTokenManagerAuthorizationUserDefaultsKey : String :=
  "LMAccessTokenManagerAuthorizationUserDefaultsKey"

namespace LMAccessTokenManager
variable (T : TokenPlatform)

def init (privateGoogleAccessToken : NSString) (defaults : NSUserDefaults) :
    LMAccessTokenManager where
  refreshToken := some privateGoogleAccessToken
  generalAccess := LMAccessTokenModel.initWithDataStore T
    (defaults.dataForKey LMAccessTokenManagerGeneralAccessUserDefaultsKey)
  privateAccess := LMAccessTokenModel.initWithDataStore T
    (defaults.dataForKey LMAccessTokenManagerPrivateAccessUserDefaultsKey)
  _authorizationType := defaults.stringForKey LMAccessTokenManagerAuthorizationUserDefaultsKey

def _authorizationValueForToken (self : LMAccessTokenManager) (token : Option LMAccessTokenModel) :
    NSString :=
  printed self._authorizationType ++ literal " " ++
    printed (token.bind fun token => token.token)

def _authorizeRequest (self : LMAccessTokenManager) (request : NSMutableURLRequest)
    (token : Option LMAccessTokenModel) : NSMutableURLRequest :=
  request.setValue (self._authorizationValueForToken token) "Authorization"

def setRefreshToken (self : LMAccessTokenManager) (refreshToken : Option NSString) :
    LMAccessTokenManager :=
  { self with refreshToken := refreshToken, generalAccess := none, privateAccess := none }

def authorizePrivateRequest (self : LMAccessTokenManager) (request : NSMutableURLRequest) :
    NSMutableURLRequest := self._authorizeRequest request self.privateAccess

/-- `doubleValue` of the value, zero for `nil` -/
def expiresInValue : Option JSONValue → Except Fault Int
  | none => .ok 0
  | some (.number value) => .ok value
  | some (.string text) => .ok (T.doubleValue text)
  | some .null => .error .unrecognizedSelector

/-- What the defaults keep of a value: `NSNull` is not a property list object, and a number comes
back as text. -/
def authTypeObject : Option JSONValue → Except Fault (Option DefaultsObject)
  | some .null => .error .invalidArgumentException
  | value => .ok (value.map fun value => .string value.description)

theorem authTypeObject_of_ne_null {value : Option JSONValue} (typed : value ≠ some .null) :
    authTypeObject value = .ok (value.map fun value => .string value.description) := by
  match value with
  | none => rfl
  | some (.string text) => rfl
  | some (.number number) => rfl
  | some .null => exact absurd rfl typed

/-- The handler of a general token request, for a dictionary. -/
def generalTokenResponse (self : LMAccessTokenManager) (defaults : NSUserDefaults) (now : Int)
    (jsonResponse : JSONObject) : Except Fault (LMAccessTokenManager × NSUserDefaults) := do
  let expiresIn ← expiresInValue T (jsonResponse "expires_in")
  let expiry := now + expiresIn
  let accessToken ← stringValue (jsonResponse "access_token")
  let token := LMAccessTokenModel.initWithToken accessToken (some expiry)
  let authType := jsonResponse "token_type"
  let self := { self with
    generalAccess := some token
    _authorizationType := authType.map JSONValue.description }
  let dataStore ← token.dataStore T
  let defaults := defaults.setObject (some (.data dataStore))
    LMAccessTokenManagerPrivateAccessUserDefaultsKey
  let authTypeObject ← authTypeObject authType
  let defaults := defaults.setObject authTypeObject
    LMAccessTokenManagerAuthorizationUserDefaultsKey
  return (self, defaults)

/-- The handler of an `IssueToken` request, for a dictionary. -/
def issueTokenResponse (self : LMAccessTokenManager) (defaults : NSUserDefaults) (now : Int)
    (jsonResponse : JSONObject) : Except Fault (LMAccessTokenManager × NSUserDefaults) := do
  let expiresIn ← expiresInValue T (jsonResponse "expiresIn")
  let expiry := now + expiresIn
  let accessToken ← stringValue (jsonResponse "token")
  let token := LMAccessTokenModel.initWithToken accessToken (some expiry)
  let self := { self with privateAccess := some token }
  let dataStore ← token.dataStore T
  let defaults := defaults.setObject (some (.data dataStore))
    LMAccessTokenManagerPrivateAccessUserDefaultsKey
  return (self, defaults)

end LMAccessTokenManager
end LeptosMusic
