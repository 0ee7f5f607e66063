import LeptosMusic.EncryptedFrame

/-!
# Encryption and decryption against the frame format

`encryptAndEncodeData:` writes a sealed frame, and `decryptEncodedString:` returns the
plaintext of exactly the frames that pass the checks of the format.
-/
namespace LeptosMusic
open ByteStrings

namespace LMApiaryDeviceCrypto

/-- The string after the decoder has appended its pad characters. -/
def repadded (encodedString : NSString) : NSString :=
  encodedString ++ List.replicate (encodedString.length % 4) Base64.pad

theorem stringByPadding_repadded (s : NSString) :
    stringByPadding s (s.length + s.length % 4) Base64.pad = repadded s :=
  stringByPadding_extend s (s.length % 4) Base64.pad

theorem decoded_length (s : Stored UInt16) :
    ((Base64.decode (repadded s.val)).getD []).length < 2 ^ 63 := by
  have stored := s.property
  cases decoded : Base64.decode (repadded s.val) with
  | none => simp
  | some frame =>
      have bound := Base64.decode_length decoded
      simp only [repadded, List.length_append, List.length_replicate] at bound
      simp only [Option.getD_some]
      omega

variable (C : CommonCrypto) (self : LMApiaryDeviceCrypto)

theorem hmacSHA1_long (short : self.hmacLength ≤ 20) (data : NSData) :
    self.hmacLength ≤ (C.hmacSHA1 (self.hmacKey.getD []) data).val.length := by
  rw [(C.hmacSHA1 _ data).property]
  exact short

theorem dataWithBytes_readTag (readable : self.Readable C) (frame : NSData) :
    dataWithBytes ((C.hmacSHA1 (self.hmacKey.getD []) (signedBytes frame)).val ++ C.behind.val)
      self.hmacLength = .ok (self.readTag C frame) := by
  apply dataWithBytes_ok
  rw [List.length_append, (C.hmacSHA1 _ _).property]
  exact readable

/-- The signature and tag checks of `verifySignedData:`, with no range out of bounds. -/
theorem verifySignedData_eq (readable : self.Readable C) {frame : NSData}
    (long : 5 ≤ frame.length) (stored : frame.length < 2 ^ 63) :
    self.verifySignedData C frame =
      .ok (decide (slice 1 4 frame = self.projectKeySignature C ∧
        self.hmacLength ≤ frame.length ∧
        frame.drop (frame.length - self.hmacLength) =
          self.readTag C (frame.take (frame.length - self.hmacLength)))) := by
  have memory := C.behind.property
  have reach : self.hmacLength ≤ 20 + C.behind.val.length := readable
  have diff : nsInteger (frame.length - self.hmacLength) = frame.length - self.hmacLength :=
    nsInteger_eq (by omega) (by omega)
  rw [verifySignedData, subdataWithRange_ok (by omega)]
  by_cases signed : slice 1 4 frame = self.projectKeySignature C
  · by_cases room : self.hmacLength ≤ frame.length
    · have nonneg : (0 : Int) ≤ frame.length - self.hmacLength := by omega
      have size : ((frame.length : Int) - self.hmacLength).toNat =
          frame.length - self.hmacLength := by omega
      have lowLength : (frame.take (frame.length - self.hmacLength)).length =
          frame.length - self.hmacLength := by simp
      have buffer := overwrite_signedBytes (frame.take (frame.length - self.hmacLength))
      rw [lowLength] at buffer
      have highData : subdataWithRange frame (frame.length - self.hmacLength) self.hmacLength =
          .ok (frame.drop (frame.length - self.hmacLength)) := by
        rw [subdataWithRange_ok (by omega), slice_to_end (by omega)]
      have lowData : subdataWithRange frame 0 (frame.length - self.hmacLength) =
          .ok (frame.take (frame.length - self.hmacLength)) := by
        rw [subdataWithRange_ok (by omega), slice_zero]
      simp only [ok_bind, pure_eq_ok, signed, if_true, diff, nonneg, size, highData, lowData, buffer,
        true_and, dataWithBytes_readTag C self readable, room]
    · simp [signed, diff, room]
  · simp [signed]

/-- A frame that passes every check is decrypted, unless the cryptor fails silently. -/
theorem decryptEncodedString_verified (readable : self.Readable C) (status : CryptorStatus)
    (garbage : UInt8) (s : NSString) (error : ErrorPointer) {frame : NSData}
    (decoded : Base64.decode (repadded s) = some frame) (stored : frame.length < 2 ^ 63)
    (accepted : Verified C self frame) :
    self.decryptEncodedString C status garbage (some s) error =
      .ok (if status.succeeds then some (self.plainText C frame) else none, error) := by
  have long := accepted.long
  have nonempty : 0 < frame.length := by omega
  obtain ⟨first, rest, cons⟩ := List.exists_cons_of_length_pos nonempty
  have version : frame.headD garbage = 0 := by
    have := accepted.version
    rw [cons] at this ⊢
    simpa using this
  have someVal : nsInteger (frame.length - self.hmacLength - 0xd) =
      frame.length - self.hmacLength - 0xd := nsInteger_eq (by omega) (by omega)
  have nonneg : (0 : Int) ≤ frame.length - self.hmacLength - 0xd := by omega
  have size : ((frame.length : Int) - self.hmacLength - 0xd).toNat =
      frame.length - 13 - self.hmacLength := by omega
  have room : 13 + (frame.length - 13 - self.hmacLength) ≤ frame.length := by omega
  have hasVector : 0xc < frame.length := by omega
  have vectorData : subdataWithRange frame 5 8 = .ok (slice 5 8 frame) :=
    subdataWithRange_ok (by omega)
  have cipherData : subdataWithRange frame 13 (frame.length - 13 - self.hmacLength) =
      .ok (self.cipherText frame) := subdataWithRange_ok room
  have vector : zeroPadded 0x10 (slice 5 8 frame) = slice 5 8 frame ++ dataWithLength 8 :=
    zeroPadded_iv (slice_length (by omega))
  have verified : self.verifySignedData C frame = .ok true := by
    have tagged : self.hmacLength ≤ frame.length := by omega
    rw [verifySignedData_eq C self readable (by omega) stored]
    simp [accepted.signature, ← accepted.tag, tagged]
  have bodyLength : (self.cipherText frame).length = frame.length - 13 - self.hmacLength :=
    slice_length room
  have decrypted := performCrypto_padded C self status (self.cipherText frame)
    (slice 5 8 frame ++ dataWithLength 8) .kCCDecrypt
  rw [bodyLength] at decrypted
  simp only [decryptEncodedString, stringByPadding_repadded, decoded, Option.getD_some, version,
    if_true, hasVector, vectorData, ok_bind, someVal, nonneg, verified, size, cipherData,
    paddedData_eq, vector, decrypted]
  rfl

theorem decryptEncodedString_accepted (short : self.hmacLength ≤ 20) (status : CryptorStatus)
    (garbage : UInt8) (s : NSString) (error : ErrorPointer) {frame : NSData}
    (decoded : Base64.decode (repadded s) = some frame) (stored : frame.length < 2 ^ 63)
    (accepted : Accepts C self frame) :
    self.decryptEncodedString C status garbage (some s) error =
      .ok (if status.succeeds then some (self.plainText C frame) else none, error) :=
  decryptEncodedString_verified C self (readable_of_short C self short) status garbage s error decoded
    stored ((verified_iff_accepts C self short frame).mpr accepted)

/-- Everything else is refused with an error, whatever the uninitialised byte is. -/
theorem decryptEncodedString_unverified (readable : self.Readable C) (status : CryptorStatus)
    (garbage : UInt8) (s : NSString) (error : ErrorPointer)
    (stored : ((Base64.decode (repadded s)).getD []).length < 2 ^ 63)
    (refused : ∀ frame, Base64.decode (repadded s) = some frame → ¬ Verified C self frame) :
    ∃ e, self.decryptEncodedString C status garbage (some s) error = .ok (none, error.set e) := by
  have memory := C.behind.property
  have reach : self.hmacLength ≤ 20 + C.behind.val.length := readable
  simp only [decryptEncodedString, stringByPadding_repadded]
  have bad : ¬ Verified C self ((Base64.decode (repadded s)).getD []) := by
    cases decoded : Base64.decode (repadded s) with
    | none => intro accepted; simpa using accepted.long
    | some frame => exact refused frame decoded
  generalize (Base64.decode (repadded s)).getD [] = frame at stored bad ⊢
  by_cases version : frame.headD garbage = 0
  · by_cases long : 0xc < frame.length
    · have nonempty : 0 < frame.length := by omega
      have vectorData : subdataWithRange frame 5 8 = .ok (slice 5 8 frame) :=
        subdataWithRange_ok (by omega)
      have someVal : nsInteger (frame.length - self.hmacLength - 0xd) =
          frame.length - self.hmacLength - 0xd := nsInteger_eq (by omega) (by omega)
      by_cases nonneg : (0 : Int) ≤ frame.length - self.hmacLength - 0xd
      · have verified : self.verifySignedData C frame = .ok false := by
          rw [verifySignedData_eq C self readable (by omega) stored]
          congr 1
          rw [decide_eq_false_iff_not]
          rintro ⟨signature, _, tag⟩
          refine bad ⟨by omega, ?_, signature, tag⟩
          obtain ⟨first, rest, cons⟩ := List.exists_cons_of_length_pos nonempty
          rw [cons] at version ⊢
          simpa using version
        simp only [version, long, someVal, nonneg, verified, if_true, ok_bind, pure_eq_ok, vectorData]
        exact ⟨_, rfl⟩
      · simp only [version, long, someVal, nonneg, if_true, if_false, ok_bind, pure_eq_ok, vectorData]
        exact ⟨_, rfl⟩
    · simp only [version, long, if_true, if_false, pure_eq_ok]
      exact ⟨_, rfl⟩
  · simp only [version, if_false, pure_eq_ok]
    exact ⟨_, rfl⟩

theorem decryptEncodedString_refused (short : self.hmacLength ≤ 20) (status : CryptorStatus)
    (garbage : UInt8) (s : NSString) (error : ErrorPointer)
    (stored : ((Base64.decode (repadded s)).getD []).length < 2 ^ 63)
    (refused : ∀ frame, Base64.decode (repadded s) = some frame → ¬ Accepts C self frame) :
    ∃ e, self.decryptEncodedString C status garbage (some s) error = .ok (none, error.set e) := by
  apply decryptEncodedString_unverified C self (readable_of_short C self short) status garbage s error
    stored
  intro frame decoded verified
  exact refused frame decoded ((verified_iff_accepts C self short frame).mp verified)

/-- The encoder writes the sealed frame of the encrypted data. -/
theorem encryptAndEncodeData_eq (short : self.hmacLength ≤ 20) (buff : RandomBytes)
    (data : NSData) (error : ErrorPointer) :
    self.encryptAndEncodeData C .success buff data error =
      .ok (some (Base64.encode (self.sealedFrame C buff.val
        (xorStream (C.keystream (self.projectKey.getD []) (buff.val ++ dataWithLength 8)) data))),
        error) := by
  have success : CryptorStatus.success.succeeds = true := rfl
  simp only [encryptAndEncodeData, paddedData_eq, performCrypto_padded, ok_bind,
    success, if_true, zeroPadded_iv buff.property, overwrite_signedBytes,
    dataWithBytes_front (hmacSHA1_long C self short _), pure_eq_ok]
  rfl

/-- The instances that the initializer makes, also after device registrations. -/
inductive CreatedWith (C : CommonCrypto) (projectKey : NSData) (hmacLength : Nat) :
    LMApiaryDeviceCrypto → Prop where
  | init {crypto : LMApiaryDeviceCrypto} :
      initWithProjectKey projectKey hmacLength = .ok crypto →
      CreatedWith C projectKey hmacLength crypto
  | setDeviceID {crypto next : LMApiaryDeviceCrypto} {status : CryptorStatus} {garbage : UInt8}
      {deviceID deviceKey : Option NSString} {error error' : ErrorPointer} {set : Bool} :
      CreatedWith C projectKey hmacLength crypto →
      crypto.setDeviceID C status garbage deviceID deviceKey error = .ok (next, set, error') →
      CreatedWith C projectKey hmacLength next

/-- A registration touches neither key nor the HMAC length. -/
theorem setDeviceID_keys {C : CommonCrypto} {crypto next : LMApiaryDeviceCrypto}
    {status : CryptorStatus} {garbage : UInt8} {deviceID deviceKey : Option NSString}
    {error error' : ErrorPointer} {set : Bool}
    (h : crypto.setDeviceID C status garbage deviceID deviceKey error = .ok (next, set, error')) :
    next.projectKey = crypto.projectKey ∧ next.hmacKey = crypto.hmacKey ∧
      next.hmacLength = crypto.hmacLength := by
  obtain ⟨⟨key, derefError⟩, _, h⟩ := bind_eq_ok h
  rcases derefError with _ | _ | derefError <;>
    (cases h
     exact ⟨rfl, rfl, rfl⟩)

theorem CreatedWith.keys {C : CommonCrypto} {projectKey : NSData} {hmacLength : Nat}
    {crypto : LMApiaryDeviceCrypto} (long : 0x10 ≤ projectKey.length)
    (created : CreatedWith C projectKey hmacLength crypto) :
    crypto.projectKey = some (projectKey.take 0x10) ∧
      crypto.hmacKey = some (projectKey.drop 0x10) ∧ crypto.hmacLength = hmacLength := by
  induction created with
  | init made =>
      have key : subdataWithRange projectKey 0 0x10 = .ok (projectKey.take 0x10) := by
        rw [subdataWithRange_ok (by omega), slice_zero]
      have hmacKey : subdataWithRange projectKey 0x10 (projectKey.length - 0x10) =
          .ok (projectKey.drop 0x10) := by
        rw [subdataWithRange_ok (by omega), slice_to_end (by omega)]
      simp only [initWithProjectKey, long, if_true, key, hmacKey, ok_bind, pure_eq_ok,
        Except.ok.injEq] at made
      subst made
      exact ⟨rfl, rfl, rfl⟩
  | setDeviceID _ registered ih =>
      obtain ⟨sameProject, sameHmac, sameLength⟩ := setDeviceID_keys registered
      rw [sameProject, sameHmac, sameLength]
      exact ih

/-- Two instances of one project key write and read the same frames. -/
theorem sealedFrame_congr (C : CommonCrypto) {a b : LMApiaryDeviceCrypto}
    (project : a.projectKey = b.projectKey) (hmac : a.hmacKey = b.hmacKey)
    (length : a.hmacLength = b.hmacLength) (iv body : NSData) :
    a.sealedFrame C iv body = b.sealedFrame C iv body := by
  simp only [sealedFrame, frameHead, frameTag, projectKeySignature, project, hmac, length]

/-! A frame of the two bytes "hi" under the YouTube Music project key. -/

def musicProjectKey : NSData :=
  [90, 179, 61, 230, 137, 210, 7, 145, 95, 94, 135, 210, 204, 165, 160, 144,
    214, 70, 138, 139, 31, 152, 32, 128, 113, 49, 248, 134, 219, 228, 186, 62]

/-- The digests and the keystream that CommonCrypto gives for this one frame. -/
def frameCommonCrypto : CommonCrypto where
  sha1 _ := ⟨[206, 208, 190, 97, 138, 79, 173, 139, 151, 46, 253, 228, 108, 119, 141, 50, 46,
    161, 123, 63], rfl⟩
  hmacSHA1 _ _ := ⟨[32, 241, 110, 159, 81, 123, 208, 247, 163, 240, 40, 255, 10, 67, 213, 139,
    255, 192, 112, 87], rfl⟩
  keystream _ _ i := [15, 73, 122, 251, 88, 105, 205, 195, 182, 248, 123, 191, 194, 201, 203,
    205].getD i 0
  behind := ⟨[], stored_nil⟩

def musicCrypto : LMApiaryDeviceCrypto :=
  ⟨none, none, some (musicProjectKey.take 16), some (musicProjectKey.drop 16), 4⟩

theorem musicCrypto_created : CreatedWith frameCommonCrypto musicProjectKey 4 musicCrypto :=
  .init rfl

def frameBytes : RandomBytes := ⟨[1, 2, 3, 4, 5, 6, 7, 8], rfl⟩

/-- What one instance encrypts, another one of the same project key decrypts. -/
theorem decryptEncodedString_encryptAndEncodeData (C : CommonCrypto) {projectKey : NSData}
    {hmacLength : Nat} (long : 0x10 ≤ projectKey.length) (short : hmacLength ≤ 20)
    {sender receiver : LMApiaryDeviceCrypto} (madeSender : CreatedWith C projectKey hmacLength sender)
    (madeReceiver : CreatedWith C projectKey hmacLength receiver) (data : Stored UInt8)
    (buff : RandomBytes) (garbage : UInt8) (error error' : ErrorPointer) :
    ∃ text, sender.encryptAndEncodeData C .success buff data.val error = .ok (some text, error) ∧
      receiver.decryptEncodedString C .success garbage (some text) error' =
        .ok (some data.val, error') := by
  obtain ⟨project, hmac, length⟩ := madeSender.keys long
  obtain ⟨project', hmac', length'⟩ := madeReceiver.keys long
  have senderShort : sender.hmacLength ≤ 20 := by omega
  have receiverShort : receiver.hmacLength ≤ 20 := by omega
  have written := encryptAndEncodeData_eq C sender senderShort buff data.val error
  rw [sealedFrame_congr C (project.trans project'.symm) (hmac.trans hmac'.symm)
    (length.trans length'.symm), project, ← project'] at written
  refine ⟨_, written, ?_⟩
  have size := sealedFrame_length C receiver receiverShort buff.property
    (xorStream (C.keystream (receiver.projectKey.getD []) (buff.val ++ dataWithLength 8)) data.val)
  rw [xorStream_length] at size
  have stored := data.property
  rw [decryptEncodedString_accepted C receiver receiverShort .success garbage _ error' ?_
    (by rw [size]; omega)
    ((accepts_iff_sealed C receiver receiverShort _).mpr ⟨buff.val, _, buff.property, rfl⟩),
    plainText_sealed C receiver receiverShort buff.property]
  · rfl
  · rw [repadded, Base64.encode_length_mod]
    simp [Base64.decode_encode]

theorem decrypt_encrypted_hi :
    ∃ text, musicCrypto.encryptAndEncodeData frameCommonCrypto .success frameBytes [0x68, 0x69]
        (some none) = .ok (some text, some none) ∧
      musicCrypto.decryptEncodedString frameCommonCrypto .success 0 (some text) (some none) =
        .ok (some [0x68, 0x69], some none) :=
  decryptEncodedString_encryptAndEncodeData frameCommonCrypto (by decide) (by decide) musicCrypto_created
    musicCrypto_created ⟨[0x68, 0x69], by decide⟩ frameBytes 0 (some none) (some none)

/-- Exactly the accepted frames are decrypted. Anything else gives `nil` and an error, and
no message on the way raises or reads outside a buffer. Of a text that is not decoded, only the text
of the error depends on the uninitialised byte. -/
theorem decryptEncodedString_exact (C : CommonCrypto) {projectKey : NSData} {hmacLength : Nat}
    (long : 0x10 ≤ projectKey.length) (short : hmacLength ≤ 20) {crypto : LMApiaryDeviceCrypto}
    (created : CreatedWith C projectKey hmacLength crypto) (encodedString : Stored UInt16)
    (garbage : UInt8) (error : ErrorPointer) :
    ∃ result error',
      crypto.decryptEncodedString C .success garbage (some encodedString.val) error =
        .ok (result, error') ∧
      (result.isSome ↔ ∃ frame, Base64.decode (repadded encodedString.val) = some frame ∧
        Accepts C crypto frame) ∧
      (∀ frame, Base64.decode (repadded encodedString.val) = some frame → Accepts C crypto frame →
        result = some (crypto.plainText C frame) ∧ error' = error ∧
          (crypto.plainText C frame).length = frame.length - 13 - hmacLength) ∧
      (result = none → ∃ e, error' = error.set e) ∧
      (Base64.decode (repadded encodedString.val) = none → ∀ other, ∃ e,
        crypto.decryptEncodedString C .success other (some encodedString.val) error =
          .ok (none, error.set e)) := by
  obtain ⟨-, -, length⟩ := created.keys long
  have bound : crypto.hmacLength ≤ 20 := by omega
  have stored := decoded_length encodedString
  have undecoded : Base64.decode (repadded encodedString.val) = none → ∀ other, ∃ e,
      crypto.decryptEncodedString C .success other (some encodedString.val) error =
        .ok (none, error.set e) := by
    intro none other
    exact decryptEncodedString_refused C crypto bound .success other encodedString.val error stored
      (fun frame some => by rw [none] at some; cases some)
  by_cases accepted : ∃ frame, Base64.decode (repadded encodedString.val) = some frame ∧
      Accepts C crypto frame
  · obtain ⟨frame, decoded, accepts⟩ := accepted
    rw [decoded] at stored
    refine ⟨_, _, decryptEncodedString_accepted C crypto bound .success garbage _ error decoded
      stored accepts, ?_, ?_, ?_, undecoded⟩
    · exact iff_of_true rfl ⟨frame, decoded, accepts⟩
    · intro other same _
      obtain rfl : frame = other := Option.some.inj (decoded.symm.trans same)
      refine ⟨rfl, rfl, ?_⟩
      rw [plainText_length C crypto accepts.long, length]
    · intro none
      cases none
  · have refused : ∀ frame, Base64.decode (repadded encodedString.val) = some frame →
        ¬ Accepts C crypto frame := fun frame decoded accepts => accepted ⟨frame, decoded, accepts⟩
    obtain ⟨e, outcome⟩ := decryptEncodedString_refused C crypto bound .success garbage
      encodedString.val error stored refused
    refine ⟨none, error.set e, outcome, ?_, ?_, fun _ => ⟨e, rfl⟩, undecoded⟩
    · simpa using refused
    · intro frame decoded accepts
      exact absurd accepts (refused frame decoded)

/-- The frame of "hi", whose text has two pad characters. -/
def hiFrame : Stored UInt8 :=
  ⟨[0, 206, 208, 190, 97, 1, 2, 3, 4, 5, 6, 7, 8, 0x67, 0x20, 32, 241, 110, 159], by decide⟩

def hiText : Stored UInt16 := ⟨literal "AM7QvmEBAgMEBQYHCGcgIPFunw==", by decide⟩

/-- Its text is decrypted to "hi", whatever stands in the uninitialised byte. -/
theorem decrypt_hi_exact :
    Base64.decode (repadded hiText.val) = some hiFrame.val ∧
      Accepts frameCommonCrypto musicCrypto hiFrame.val ∧
      musicCrypto.decryptEncodedString frameCommonCrypto .success 7 (some hiText.val) (some none) =
        .ok (some [0x68, 0x69], some none) := by
  have accepted : Accepts frameCommonCrypto musicCrypto hiFrame.val :=
    ⟨by decide, by decide, by decide, by decide⟩
  refine ⟨rfl, accepted, ?_⟩
  obtain ⟨result, error', outcome, -, decrypts, -, -⟩ :=
    decryptEncodedString_exact frameCommonCrypto (by decide) (by decide) musicCrypto_created hiText 7
      (some none)
  obtain ⟨rfl, rfl, -⟩ := decrypts hiFrame.val rfl accepted
  exact outcome

end LMApiaryDeviceCrypto
end LeptosMusic
