import LeptosMusic.Foundation

/-!
# LMApiaryDeviceCrypto

The class as it stands in the source, over CommonCrypto as a parameter. `NSAssert` is
compiled out. Sending a message to `nil` gives `nil` or zero, so an absent key has no
bytes.
-/
namespace LeptosMusic
open ByteStrings

/-- The contents of a `uint8_t [CC_SHA1_DIGEST_LENGTH]`. -/
abbrev Digest := { bytes : NSData // bytes.length = 20 }

/-- What the class uses of CommonCrypto: the two digests, and the AES-CTR keystream of a
key and a 16-byte initial counter block, which is xored into the input. `behind` is what can be read
of the stack behind a digest, for an HMAC length above that of the digest. -/
structure CommonCrypto where
  sha1 : NSData → Digest
  hmacSHA1 : (key data : NSData) → Digest
  keystream : (key iv : NSData) → Nat → UInt8
  behind : Stored UInt8

/-- Whether the two cryptor calls of one `performCrypto:` return `kCCSuccess`. -/
structure CryptorStatus where
  create : Bool
  update : Bool

def CryptorStatus.success : CryptorStatus := ⟨true, true⟩

def CryptorStatus.succeeds (status : CryptorStatus) : Bool := status.create && status.update

inductive CCOperation where
  | kCCEncrypt
  | kCCDecrypt

structure LMApiaryDeviceCrypto where
  deviceID : Option NSString
  deviceKey : Option NSData
  projectKey : Option NSData
  hmacKey : Option NSData
  hmacLength : Nat

/-- Eight random bytes. -/
abbrev RandomBytes := { bytes : NSData // bytes.length = 8 }

def kEncryptionLeadByte : UInt8 := 83

def netCryptoErrorWithMessage (message : String) : NSError where
  domain := "com.google.ios.youtube.Net.ErrorDomain"
  code := 0
  userInfo := [("message", message)]

namespace LMApiaryDeviceCrypto

def initWithProjectKey (projectKey : NSData) (hmacLength : Nat) :
    Except Fault LMApiaryDeviceCrypto :=
  let internalHmacLength := 0x10
  let projectKeyLength := projectKey.length
  if internalHmacLength ≤ projectKeyLength then do
    let key ← subdataWithRange projectKey 0 internalHmacLength
    let hmacKey ← subdataWithRange projectKey internalHmacLength
      (projectKeyLength - internalHmacLength)
    return ⟨none, none, some key, some hmacKey, hmacLength⟩
  else return ⟨none, none, none, none, hmacLength⟩

def paddedData (data : NSData) : NSData :=
  let alignment := 0x10
  let dataLength := data.length
  let lengthMod := dataLength % alignment
  if lengthMod ≠ 0 then
    overwrite 0 data (dataWithLength (dataLength + alignment - lengthMod))
  else data

/-- The bytes of the `uint64_t` 0x1000000000000000 in memory. -/
def magic : NSData := [0, 0, 0, 0, 0, 0, 0, 0x10]

variable (C : CommonCrypto) (self : LMApiaryDeviceCrypto)

def projectKeySignature : NSData :=
  let data := magic ++ self.projectKey.getD [] ++ magic ++ self.hmacKey.getD []
  (C.sha1 data).val.take 4

/-- In counter mode both operations xor the keystream into the data, and the output
length that `CCCryptorGetOutputLength` gives for a stream cipher is the input length. -/
def performCrypto (status : CryptorStatus) (data : NSData) (length : Nat) (iv : NSData)
    (_operation : CCOperation) : Except Fault (Option NSData) :=
  if status.create then
    let outBytes := xorStream (C.keystream (self.projectKey.getD []) iv) data
    if status.update then (dataWithBytes outBytes length).map some
    else .ok none
  else .ok none

def verifySignedData (data : NSData) : Except Fault Bool := do
  let projectHash ← subdataWithRange data 1 4
  if projectHash = self.projectKeySignature C then
    let lengthDiff := nsInteger (data.length - self.hmacLength)
    if 0 ≤ lengthDiff then
      let highData ← subdataWithRange data lengthDiff.toNat self.hmacLength
      let lowData ← subdataWithRange data 0 lengthDiff.toNat
      let mutData := dataWithLength (lengthDiff.toNat + 9)
      let mutData := overwrite 0 [kEncryptionLeadByte] mutData
      let mutData := overwrite 9 lowData mutData
      let hmacBytes := C.hmacSHA1 (self.hmacKey.getD []) mutData
      let checkData ← dataWithBytes (hmacBytes.val ++ C.behind.val) self.hmacLength
      return decide (highData = checkData)
    else return false
  else return false

/-- `garbage` is what the local `firstByte` holds before `getBytes:length:`, which writes
nothing when the decoded data is `nil` or empty. -/
def decryptEncodedString (status : CryptorStatus) (garbage : UInt8)
    (encodedString : Option NSString) (error : ErrorPointer) :
    Except Fault (Option NSData × ErrorPointer) := do
  match encodedString with
  | none => throw .invalidArgumentException
  | some encodedString =>
      let encodedStringPadLength := encodedString.length + encodedString.length % 4
      let encodedString := stringByPadding encodedString encodedStringPadLength Base64.pad
      let decoded := Base64.decode encodedString
      let bytes := decoded.getD []
      let firstByte := bytes.headD garbage
      if firstByte = 0 then
        if 0xc < bytes.length then
          let lowPad := paddedData (← subdataWithRange bytes 5 8)
          let someVal := nsInteger (bytes.length - self.hmacLength - 0xd)
          if 0 ≤ someVal then
            if ← self.verifySignedData C bytes then
              let highPad := paddedData (← subdataWithRange bytes 0xd someVal.toNat)
              return (← self.performCrypto C status highPad someVal.toNat lowPad .kCCDecrypt, error)
            else return (none, error.set (netCryptoErrorWithMessage "Could not verify encrypted data"))
          else return (none, error.set (netCryptoErrorWithMessage "Could not determine cipher"))
        else
          return (none, error.set
            (netCryptoErrorWithMessage "Could not determine initializion vector"))
      else return (none, error.set (netCryptoErrorWithMessage "Could not determine key sign"))

def encryptAndEncodeData (status : CryptorStatus) (buff : RandomBytes) (data : NSData)
    (error : ErrorPointer) : Except Fault (Option NSString × ErrorPointer) := do
  let zeroByte : UInt8 := 0
  let mutData := [zeroByte] ++ self.projectKeySignature C
  let ivData := buff.val
  let mutData := mutData ++ ivData
  match ← self.performCrypto C status (paddedData data) data.length (paddedData ivData)
      .kCCEncrypt with
  | some crypto =>
      let mutData := mutData ++ crypto
      let moreData := dataWithLength (mutData.length + 9)
      let moreData := overwrite 0 [kEncryptionLeadByte] moreData
      let moreData := overwrite 9 mutData moreData
      let sha1Digest := C.hmacSHA1 (self.hmacKey.getD []) moreData
      let mutData := mutData ++ (← dataWithBytes (sha1Digest.val ++ C.behind.val) self.hmacLength)
      return (some (Base64.encode mutData), error)
  | none => return (none, error.set (netCryptoErrorWithMessage "Generic crypto error."))

/-- The new state, the returned `BOOL` and the error variable. -/
def setDeviceID (status : CryptorStatus) (garbage : UInt8) (deviceID deviceKey : Option NSString)
    (error : ErrorPointer) : Except Fault (LMApiaryDeviceCrypto × Bool × ErrorPointer) := do
  let (key, derefError) ← self.decryptEncodedString C status garbage deviceKey (some none)
  let self := { self with deviceKey := key }
  match derefError with
  | some (some derefError) => return (self, false, error.set derefError)
  | _ => return ({ self with deviceID := deviceID }, true, error)

def signData (data : Option NSData) (shouldPad : Bool) (hmacLength : Nat) : NSString :=
  let key := self.deviceKey.getD []
  let hashedData := (C.sha1 key).val.take 4
  let data := data.getD []
  let data := if shouldPad then data ++ [0] else data
  let sha1Digest := C.hmacSHA1 key data
  let newData := [0] ++ hashedData
  let appendLength := if hmacLength < 20 then hmacLength else 20
  let newData := newData ++ sha1Digest.val.take appendLength
  stringByTrimming (Base64.encode newData) Base64.pad

/-- What the format `%@` prints for a string that may be `nil`. -/
def printed (string : Option NSString) : NSString := string.getD (literal "(null)")

def compoundValue (url : NSData) (httpBody : Option NSData) : NSString :=
  let signedURL := self.signData C (some url) true 4
  let signedContent := self.signData C httpBody false 20
  literal "device_id=" ++ printed self.deviceID ++ literal ",data=" ++ signedURL ++
    literal ",content=" ++ signedContent

def signURLRequest (request : NSMutableURLRequest) : NSMutableURLRequest × Bool :=
  (request.setValue (self.compoundValue C request.url request.httpBody) "X-Goog-Device-Auth", true)

end LMApiaryDeviceCrypto
end LeptosMusic
