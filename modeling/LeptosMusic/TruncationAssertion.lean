import LeptosMusic.UnpaddedText

/-!
# The truncation assertion

The class as a debug build runs it, where `NSAssert` raises. Both public methods hand
`performCrypto:` a padded text and the length of the text itself.
-/
namespace LeptosMusic
open ByteStrings

/-- What ends a method of a debug build early. -/
inductive Stop where
  | fault (fault : Fault)
  | assertionFailed (description : String)
  deriving DecidableEq, Repr

instance : MonadLift (Except Fault) (Except Stop) where
  monadLift x := x.mapError .fault

@[simp] theorem lift_ok {α β : Type} (a : α) (f : α → Except Stop β) :
    ((monadLift (Except.ok a : Except Fault α) : Except Stop α) >>= f) = f a := rfl

def nsAssert (condition : Bool) (description : String) : Except Stop Unit :=
  if condition then .ok () else .error (.assertionFailed description)

/-- What CommonCrypto answers for a stream cipher without padding. -/
def CCCryptorGetOutputLength (inputLength : Nat) : Nat := inputLength

def truncationDescription : String := "Truncation length must not be larger than original length"

namespace LMApiaryDeviceCrypto

variable (C : CommonCrypto) (self : LMApiaryDeviceCrypto)

/-- `performCrypto:outputLength:IV:operation:` with its assertion. -/
def performCryptoAsserting (status : CryptorStatus) (data : NSData) (length : Nat) (iv : NSData)
    (_operation : CCOperation) : Except Stop (Option NSData) := do
  if status.create then
    let cryptorLen := CCCryptorGetOutputLength data.length
    nsAssert (length < cryptorLen) truncationDescription
    let outBytes := xorStream (C.keystream (self.projectKey.getD []) iv) data
    if status.update then
      return some (← dataWithBytes outBytes length)
    else return none
  else return none

section Callers

variable {m : Type → Type} [Monad m] [MonadLiftT (Except Fault) m]
  (perform : NSData → Nat → NSData → CCOperation → m (Option NSData))

/-- `decryptEncodedString:error:` over either build of `performCrypto:`. -/
def decryptEncodedStringWith (garbage : UInt8) (encodedString : Option NSString)
    (error : ErrorPointer) : m (Option NSData × ErrorPointer) := do
  match encodedString with
  | none => monadLift (Except.error Fault.invalidArgumentException : Except Fault _)
  | some encodedString =>
      let encodedStringPadLength := encodedString.length + encodedString.length % 4
      let encodedString := stringByPadding encodedString encodedStringPadLength Base64.pad
      let decoded := Base64.decode encodedString
      let bytes := decoded.getD []
      let firstByte := bytes.headD garbage
      if firstByte = 0 then
        if 0xc < bytes.length then
          let lowPad := paddedData (← subdataWithRange bytes 5 8)
          let someVal := nsInteger (bytes.length - self.hmacLength - 0xd)
          if 0 ≤ someVal then
            if ← self.verifySignedData C bytes then
              let highPad := paddedData (← subdataWithRange bytes 0xd someVal.toNat)
              return (← perform highPad someVal.toNat lowPad .kCCDecrypt, error)
            else return (none, error.set (netCryptoErrorWithMessage "Could not verify encrypted data"))
          else return (none, error.set (netCryptoErrorWithMessage "Could not determine cipher"))
        else
          return (none, error.set
            (netCryptoErrorWithMessage "Could not determine initializion vector"))
      else return (none, error.set (netCryptoErrorWithMessage "Could not determine key sign"))

/-- `encryptAndEncodeData:error:` over either build of `performCrypto:`. -/
def encryptAndEncodeDataWith (buff : RandomBytes) (data : NSData) (error : ErrorPointer) :
    m (Option NSString × ErrorPointer) := do
  let zeroByte : UInt8 := 0
  let mutData := [zeroByte] ++ self.projectKeySignature C
  let ivData := buff.val
  let mutData := mutData ++ ivData
  match ← perform (paddedData data) data.length (paddedData ivData) .kCCEncrypt with
  | some crypto =>
      let mutData := mutData ++ crypto
      let moreData := dataWithLength (mutData.length + 9)
      let moreData := overwrite 0 [kEncryptionLeadByte] moreData
      let moreData := overwrite 9 mutData moreData
      let sha1Digest := C.hmacSHA1 (self.hmacKey.getD []) moreData
      let mutData := mutData ++ (← dataWithBytes (sha1Digest.val ++ C.behind.val) self.hmacLength)
      return (some (Base64.encode mutData), error)
  | none => return (none, error.set (netCryptoErrorWithMessage "Generic crypto error."))

end Callers

/-- Over the release build of `performCrypto:` the methods are those of the release build. -/
theorem decryptEncodedStringWith_release (status : CryptorStatus) (garbage : UInt8)
    (encodedString : Option NSString) (error : ErrorPointer) :
    self.decryptEncodedStringWith C (self.performCrypto C status) garbage encodedString error =
      self.decryptEncodedString C status garbage encodedString error := by
  cases encodedString <;> rfl

theorem encryptAndEncodeDataWith_release (status : CryptorStatus) (buff : RandomBytes)
    (data : NSData) (error : ErrorPointer) :
    self.encryptAndEncodeDataWith C (self.performCrypto C status) buff data error =
      self.encryptAndEncodeData C status buff data error := rfl

def decryptEncodedStringAsserting (status : CryptorStatus) (garbage : UInt8)
    (encodedString : Option NSString) (error : ErrorPointer) :
    Except Stop (Option NSData × ErrorPointer) :=
  self.decryptEncodedStringWith C (self.performCryptoAsserting C status) garbage encodedString error

def encryptAndEncodeDataAsserting (status : CryptorStatus) (buff : RandomBytes) (data : NSData)
    (error : ErrorPointer) : Except Stop (Option NSString × ErrorPointer) :=
  self.encryptAndEncodeDataWith C (self.performCryptoAsserting C status) buff data error

/-- With a padded text the assertion asks for some padding. Where it holds the two builds agree. -/
theorem performCryptoAsserting_padded (status : CryptorStatus) (data iv : NSData)
    (operation : CCOperation) :
    self.performCryptoAsserting C status (zeroPadded 0x10 data) data.length iv operation =
      if status.create ∧ data.length % 0x10 = 0 then
        .error (.assertionFailed truncationDescription)
      else monadLift (self.performCrypto C status (zeroPadded 0x10 data) data.length iv operation) := by
  have fits : data.length ≤ (xorStream (C.keystream (self.projectKey.getD []) iv)
      (zeroPadded 0x10 data)).length := by
    simpa using length_le_zeroPadded 0x10 data
  have rounded := length_lt_zeroPadded (show 0 < 0x10 by decide) data
  obtain ⟨create, update⟩ := status
  cases create with
  | false => rfl
  | true =>
      by_cases aligned : data.length % 0x10 = 0
      · have equal : ¬ data.length < (zeroPadded 0x10 data).length := by
          rw [rounded]
          exact not_not_intro aligned
        simp [performCryptoAsserting, CCCryptorGetOutputLength, equal, aligned, nsAssert]
        rfl
      · have larger := rounded.mpr aligned
        rw [if_neg fun both => aligned both.2]
        cases update <;>
          simp [performCryptoAsserting, performCrypto, CCCryptorGetOutputLength, larger, nsAssert,
            dataWithBytes_ok fits] <;> rfl

/-- The frame is only built once the text has been encrypted. -/
theorem encryptAndEncodeDataAsserting_eq (status : CryptorStatus) (buff : RandomBytes)
    (data : NSData) (error : ErrorPointer) :
    self.encryptAndEncodeDataAsserting C status buff data error =
      if status.create ∧ data.length % 0x10 = 0 then
        .error (.assertionFailed truncationDescription)
      else monadLift (self.encryptAndEncodeData C status buff data error) := by
  unfold encryptAndEncodeDataAsserting encryptAndEncodeDataWith encryptAndEncodeData
  simp only [paddedData_eq, performCryptoAsserting_padded, performCrypto_padded]
  split
  · rfl
  · cases status.succeeds with
    | false => rfl
    | true =>
        simp only [if_true, lift_ok, ok_bind]
        cases dataWithBytes _ self.hmacLength <;> rfl

/-- A verified frame is decrypted by one call, on its padded ciphertext. -/
theorem decryptEncodedStringWith_accepted
    (perform : NSData → Nat → NSData → CCOperation → Except Stop (Option NSData)) (garbage : UInt8)
    {string : NSString} (error : ErrorPointer) {frame : NSData}
    (decoded : Base64.decode (repadded string) = some frame) (stored : frame.length < 2 ^ 63)
    (accepted : Verified C self frame) :
    self.decryptEncodedStringWith C perform garbage (some string) error =
      perform (zeroPadded 0x10 (self.cipherText frame)) (self.cipherText frame).length
        (slice 5 8 frame ++ dataWithLength 8) .kCCDecrypt >>= fun plain => pure (plain, error) := by
  have long := accepted.long
  have nonempty : 0 < frame.length := by omega
  obtain ⟨first, rest, cons⟩ := List.exists_cons_of_length_pos nonempty
  have version : frame.headD garbage = 0 := by
    have zero := accepted.version
    rw [cons] at zero ⊢
    simpa using zero
  have someVal : nsInteger (frame.length - self.hmacLength - 0xd) =
      frame.length - self.hmacLength - 0xd := nsInteger_eq (by omega) (by omega)
  have nonneg : (0 : Int) ≤ frame.length - self.hmacLength - 0xd := by omega
  have size : ((frame.length : Int) - self.hmacLength - 0xd).toNat =
      frame.length - 13 - self.hmacLength := by omega
  have hasVector : 0xc < frame.length := by omega
  have room : 13 + (frame.length - 13 - self.hmacLength) ≤ frame.length := by omega
  have vectorData : subdataWithRange frame 5 8 = .ok (slice 5 8 frame) :=
    subdataWithRange_ok (by omega)
  have cipherData : subdataWithRange frame 13 (frame.length - 13 - self.hmacLength) =
      .ok (self.cipherText frame) := subdataWithRange_ok room
  have bodyLength : (self.cipherText frame).length = frame.length - 13 - self.hmacLength :=
    slice_length room
  have vector : zeroPadded 0x10 (slice 5 8 frame) = slice 5 8 frame ++ dataWithLength 8 :=
    zeroPadded_iv (slice_length (by omega))
  have verified : self.verifySignedData C frame = .ok true := by
    have tagged : self.hmacLength ≤ frame.length := by omega
    rw [verifySignedData_eq C self accepted.readable (by omega) stored]
    simp [accepted.signature, ← accepted.tag, tagged]
  simp only [decryptEncodedStringWith, stringByPadding_repadded, decoded, Option.getD_some, version,
    if_true, hasVector, vectorData, lift_ok, someVal, nonneg, verified, size, cipherData,
    paddedData_eq, vector, bodyLength]

theorem decryptEncodedStringAsserting_eq (status : CryptorStatus) (garbage : UInt8)
    {string : NSString} (error : ErrorPointer) {frame : NSData}
    (decoded : Base64.decode (repadded string) = some frame) (stored : frame.length < 2 ^ 63)
    (accepted : Verified C self frame) :
    self.decryptEncodedStringAsserting C status garbage (some string) error =
      if status.create ∧ (frame.length - 13 - self.hmacLength) % 0x10 = 0 then
        .error (.assertionFailed truncationDescription)
      else monadLift (self.decryptEncodedString C status garbage (some string) error) := by
  have payloadLength : (self.cipherText frame).length = frame.length - 13 - self.hmacLength := by
    rw [← plainText_length C self accepted.long]
    exact (xorStream_length _ _).symm
  rw [decryptEncodedStringAsserting, decryptEncodedStringWith_accepted C self _ garbage error decoded
    stored accepted, performCryptoAsserting_padded,
    decryptEncodedString_verified C self accepted.readable status garbage string error decoded stored
      accepted, performCrypto_padded, payloadLength]
  split <;> rfl

theorem lifted_ne_assertion {α : Type} (x : Except Fault α) (description : String) :
    (monadLift x : Except Stop α) ≠ .error (.assertionFailed description) := by
  cases x <;> exact nofun

/-- On either route the assertion holds exactly for the payloads that `paddedData:` lengthens,
those whose length is no multiple of 16, once the cryptor has been created. -/
theorem truncationAssertion_iff (status : CryptorStatus) :
    (∀ (buff : RandomBytes) (payload : NSData) (error : ErrorPointer),
      self.encryptAndEncodeDataAsserting C status buff payload error ≠
          .error (.assertionFailed truncationDescription) ↔
        (status.create → payload.length % 0x10 ≠ 0)) ∧
    ∀ (frame : Stored UInt8) (encodedString : NSString) (garbage : UInt8) (error : ErrorPointer),
      Base64.decode (repadded encodedString) = some frame.val → Verified C self frame.val →
        (self.decryptEncodedStringAsserting C status garbage (some encodedString) error ≠
            .error (.assertionFailed truncationDescription) ↔
          (status.create → (frame.val.length - 13 - self.hmacLength) % 0x10 ≠ 0)) := by
  constructor
  · intro buff payload error
    rw [encryptAndEncodeDataAsserting_eq]
    split
    · rename_i fires
      exact iff_of_false (fun holds => holds rfl) fun unaligned => unaligned fires.1 fires.2
    · rename_i holds
      exact iff_of_true (lifted_ne_assertion _ _) fun created aligned => holds ⟨created, aligned⟩
  · intro frame encodedString garbage error decoded accepted
    have stored : frame.val.length < 2 ^ 63 := by
      have := frame.property
      omega
    rw [decryptEncodedStringAsserting_eq C self status garbage error decoded stored accepted]
    split
    · rename_i fires
      exact iff_of_false (fun holds => holds rfl) fun unaligned => unaligned fires.1 fires.2
    · rename_i holds
      exact iff_of_true (lifted_ne_assertion _ _) fun created aligned => holds ⟨created, aligned⟩

/-- "hi" passes on both routes. -/
theorem truncationAssertion_hi :
    musicCrypto.encryptAndEncodeDataAsserting frameCommonCrypto .success frameBytes [0x68, 0x69]
        none ≠ .error (.assertionFailed truncationDescription) ∧
      musicCrypto.decryptEncodedStringAsserting frameCommonCrypto .success 0
          (some (Base64.encode hiFrame.val)) none ≠
        .error (.assertionFailed truncationDescription) := by
  obtain ⟨encrypts, decrypts⟩ := truncationAssertion_iff frameCommonCrypto musicCrypto .success
  constructor
  · exact (encrypts frameBytes [0x68, 0x69] none).mpr fun _ => by decide
  · exact (decrypts hiFrame _ 0 none (repadded_encode hiFrame.val)
      ⟨by decide, by decide, by decide, by decide⟩).mpr fun _ => by decide

/-- No bytes and 16 bytes stop a debug build. -/
theorem truncationAssertion_fires :
    musicCrypto.encryptAndEncodeDataAsserting frameCommonCrypto .success frameBytes [] none =
        .error (.assertionFailed truncationDescription) ∧
      musicCrypto.encryptAndEncodeDataAsserting frameCommonCrypto .success frameBytes
          (List.replicate 16 0x61) none = .error (.assertionFailed truncationDescription) ∧
      musicCrypto.decryptEncodedStringAsserting emptyFrameCommonCrypto .success 0
          (some (literal "AM7QvmEBAgMEBQYHCPU3EtA=")) none =
        .error (.assertionFailed truncationDescription) :=
  ⟨rfl, rfl, rfl⟩

end LMApiaryDeviceCrypto
end LeptosMusic
