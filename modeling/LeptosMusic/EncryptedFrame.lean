import LeptosMusic.DeviceCrypto

/-!
# The frame of an encrypted payload

A frame is a zero version byte, the project key signature, eight bytes of initialization
vector, the ciphertext, and the first bytes of an HMAC over all of that behind a fixed
prefix. The class writes this layout in one method and reads it back in two others, each
with its own offsets. Here the layout is stated once, and every method is related to it.
-/
namespace LeptosMusic
open ByteStrings

namespace LMApiaryDeviceCrypto

@[simp] theorem paddedData_eq (data : NSData) : paddedData data = zeroPadded 0x10 data := by
  unfold paddedData zeroPadded
  by_cases aligned : data.length % 0x10 = 0
  · simp [aligned]
  · simp only [ne_eq, aligned, not_false_eq_true, if_true, if_false]
    have size : data.length + 0x10 - data.length % 0x10 =
        data.length + (0x10 - data.length % 0x10) := by omega
    rw [size, dataWithLength, overwrite_zeros_front]

theorem zeroPadded_iv {iv : NSData} (h : iv.length = 8) :
    zeroPadded 0x10 iv = iv ++ dataWithLength 8 := by
  simp [zeroPadded, h, dataWithLength]

@[simp] theorem projectKeySignature_length (C : CommonCrypto) (self : LMApiaryDeviceCrypto) :
    (self.projectKeySignature C).length = 4 := by
  simp [projectKeySignature, (C.sha1 _).property]

/-- The cryptor calls on a padded text, truncated to the length of the text. -/
theorem performCrypto_padded (C : CommonCrypto) (self : LMApiaryDeviceCrypto)
    (status : CryptorStatus) (data iv : NSData) (operation : CCOperation) :
    self.performCrypto C status (zeroPadded 0x10 data) data.length iv operation =
      .ok (if status.succeeds then
        some (xorStream (C.keystream (self.projectKey.getD []) iv) data) else none) := by
  have fits : data.length ≤ (xorStream (C.keystream (self.projectKey.getD []) iv)
      (zeroPadded 0x10 data)).length := by
    simpa using length_le_zeroPadded 0x10 data
  obtain ⟨create, update⟩ := status
  cases create <;> cases update <;>
    simp [performCrypto, CryptorStatus.succeeds, dataWithBytes_ok fits, take_xorStream_zeroPadded,
      Except.map]

variable (C : CommonCrypto) (self : LMApiaryDeviceCrypto)

/-- The bytes under the HMAC: the lead byte and eight zeros, then the frame so far. -/
def signedBytes (frame : NSData) : NSData := kEncryptionLeadByte :: (dataWithLength 8 ++ frame)

def frameTag (frame : NSData) : NSData :=
  (C.hmacSHA1 (self.hmacKey.getD []) (signedBytes frame)).val.take self.hmacLength

def frameHead (iv body : NSData) : NSData := 0 :: (self.projectKeySignature C ++ iv ++ body)

def sealedFrame (iv body : NSData) : NSData :=
  self.frameHead C iv body ++ self.frameTag C (self.frameHead C iv body)

theorem frameTag_length (short : self.hmacLength ≤ 20) (frame : NSData) :
    (self.frameTag C frame).length = self.hmacLength := by
  simp [frameTag, (C.hmacSHA1 _ _).property, short]

theorem frameHead_length {iv : NSData} (hiv : iv.length = 8) (body : NSData) :
    (self.frameHead C iv body).length = 13 + body.length := by
  simp only [frameHead, List.length_cons, List.length_append, projectKeySignature_length, hiv]
  omega

theorem sealedFrame_length (short : self.hmacLength ≤ 20) {iv : NSData} (hiv : iv.length = 8)
    (body : NSData) :
    (self.sealedFrame C iv body).length = 13 + body.length + self.hmacLength := by
  rw [sealedFrame, List.length_append, frameHead_length C self hiv, frameTag_length C self short]

/-- Writing the lead byte and the frame into a zeroed buffer gives the signed bytes. -/
theorem overwrite_signedBytes (frame : NSData) :
    overwrite 9 frame (overwrite 0 [kEncryptionLeadByte] (dataWithLength (frame.length + 9))) =
      signedBytes frame := by
  have buffer : overwrite 0 [kEncryptionLeadByte] (dataWithLength (frame.length + 9)) =
      kEncryptionLeadByte :: dataWithLength 8 ++ dataWithLength frame.length := by
    have size : frame.length + 9 = [kEncryptionLeadByte].length + (8 + frame.length) := by
      rw [List.length_singleton]; omega
    rw [size, dataWithLength, overwrite_zeros_front, List.replicate_add]
    rfl
  have place : 9 = (kEncryptionLeadByte :: dataWithLength 8).length := rfl
  rw [buffer, place]
  exact overwrite_tail (kEncryptionLeadByte :: dataWithLength 8) 0 frame

/-- The checks that a decoded frame has to pass, at the offsets of the layout. -/
structure Accepts (C : CommonCrypto) (crypto : LMApiaryDeviceCrypto) (frame : NSData) : Prop where
  long : 13 + crypto.hmacLength ≤ frame.length
  version : frame[0]? = some 0
  signature : slice 1 4 frame = crypto.projectKeySignature C
  tag : frame.drop (frame.length - crypto.hmacLength) =
    crypto.frameTag C (frame.take (frame.length - crypto.hmacLength))

/-- No tag is as long as an HMAC length above that of the digest. -/
theorem Accepts.length_le {C : CommonCrypto} {self : LMApiaryDeviceCrypto} {frame : NSData}
    (accepted : Accepts C self frame) : self.hmacLength ≤ 20 := by
  have long := accepted.long
  have size := congrArg List.length accepted.tag
  have digest := (C.hmacSHA1 (self.hmacKey.getD [])
    (signedBytes (frame.take (frame.length - self.hmacLength)))).property
  rw [List.length_drop, frameTag, List.length_take, digest] at size
  omega

/-- No read behind the digest leaves the memory that can be read. -/
def Readable : Prop := self.hmacLength ≤ 20 + C.behind.val.length

/-- The tag that `verifySignedData:` compares with: with an HMAC length above that of the digest it
goes on with what stands behind. -/
def readTag (frame : NSData) : NSData :=
  ((C.hmacSHA1 (self.hmacKey.getD []) (signedBytes frame)).val ++ C.behind.val).take self.hmacLength

/-- The checks with this tag. -/
structure Verified (C : CommonCrypto) (crypto : LMApiaryDeviceCrypto) (frame : NSData) : Prop where
  long : 13 + crypto.hmacLength ≤ frame.length
  version : frame[0]? = some 0
  signature : slice 1 4 frame = crypto.projectKeySignature C
  tag : frame.drop (frame.length - crypto.hmacLength) =
    crypto.readTag C (frame.take (frame.length - crypto.hmacLength))

theorem Verified.readable {C : CommonCrypto} {self : LMApiaryDeviceCrypto} {frame : NSData}
    (verified : Verified C self frame) : self.Readable C := by
  have long := verified.long
  have size := congrArg List.length verified.tag
  rw [List.length_drop, readTag, List.length_take, List.length_append, (C.hmacSHA1 _ _).property]
    at size
  rw [Readable]
  omega

theorem readable_of_short (short : self.hmacLength ≤ 20) : self.Readable C :=
  Nat.le_trans short (Nat.le_add_right _ _)

theorem verified_iff_accepts (short : self.hmacLength ≤ 20) (frame : NSData) :
    Verified C self frame ↔ Accepts C self frame := by
  have same (front : NSData) : self.readTag C front = self.frameTag C front := by
    apply List.take_append_of_le_length
    rw [(C.hmacSHA1 _ _).property]
    exact short
  constructor
  · rintro ⟨long, version, signature, tag⟩
    exact ⟨long, version, signature, tag.trans (same _)⟩
  · rintro ⟨long, version, signature, tag⟩
    exact ⟨long, version, signature, tag.trans (same _).symm⟩

def cipherText (frame : NSData) : NSData :=
  slice 13 (frame.length - 13 - self.hmacLength) frame

/-- The AES-CTR decryption of the ciphertext under the frame's zero-extended vector. -/
def plainText (frame : NSData) : NSData :=
  xorStream (C.keystream (self.projectKey.getD []) (slice 5 8 frame ++ dataWithLength 8))
    (self.cipherText frame)

theorem plainText_length {frame : NSData} (long : 13 + self.hmacLength ≤ frame.length) :
    (self.plainText C frame).length = frame.length - 13 - self.hmacLength := by
  rw [plainText, xorStream_length, cipherText, slice_length]
  omega

/-- The accepted byte strings are exactly the sealed frames. -/
theorem accepts_iff_sealed (short : self.hmacLength ≤ 20) (frame : NSData) :
    Accepts C self frame ↔
      ∃ iv body : NSData, iv.length = 8 ∧ frame = self.sealedFrame C iv body := by
  constructor
  · rintro ⟨long, version, signature, tag⟩
    refine ⟨slice 5 8 frame, self.cipherText frame, slice_length (by omega), ?_⟩
    have head : frame.take (frame.length - self.hmacLength) =
        self.frameHead C (slice 5 8 frame) (self.cipherText frame) := by
      have nonempty : 0 < frame.length := by omega
      obtain ⟨first, rest, rfl⟩ := List.exists_cons_of_length_pos nonempty
      have zero : first = 0 := by simpa using version
      have cut : (first :: rest).length - self.hmacLength =
          ((first :: rest).length - 13 - self.hmacLength) + 13 := by
        simp only [List.length_cons] at long ⊢; omega
      rw [frameHead, ← signature, cipherText, cut, zero]
      simp only [slice, List.drop_succ_cons, List.take_succ_cons, List.drop_zero]
      congr 1
      generalize (0 :: rest).length - 13 - self.hmacLength = bodyLength
      have parts : bodyLength + 12 = 4 + (8 + bodyLength) := by omega
      rw [parts, List.take_add, List.take_add, List.drop_drop, List.append_assoc]
    rw [sealedFrame, ← head, ← tag, List.take_append_drop]
  · rintro ⟨iv, body, hiv, rfl⟩
    have size := sealedFrame_length C self short hiv body
    have cut : (self.sealedFrame C iv body).length - self.hmacLength =
        (self.frameHead C iv body).length := by
      rw [size, frameHead_length C self hiv]; omega
    refine ⟨by omega, rfl, ?_, ?_⟩
    · have parts : self.sealedFrame C iv body = [0] ++ self.projectKeySignature C ++
          (iv ++ body ++ self.frameTag C (self.frameHead C iv body)) := by
        simp [sealedFrame, frameHead]
      rw [parts]
      exact slice_middle _ _ _ rfl (projectKeySignature_length C self).symm
    · rw [cut, sealedFrame, List.drop_left, List.take_left]

/-- Decrypting a sealed frame undoes the xor that made its body. -/
theorem plainText_sealed (short : self.hmacLength ≤ 20) {iv : NSData} (hiv : iv.length = 8)
    (data : NSData) :
    self.plainText C (self.sealedFrame C iv
      (xorStream (C.keystream (self.projectKey.getD []) (iv ++ dataWithLength 8)) data)) = data := by
  set stream := C.keystream (self.projectKey.getD []) (iv ++ dataWithLength 8) with hstream
  set body := xorStream stream data
  have size := sealedFrame_length C self short hiv body
  have vector : slice 5 8 (self.sealedFrame C iv body) = iv := by
    have parts : self.sealedFrame C iv body = (0 :: self.projectKeySignature C) ++ iv ++
        (body ++ self.frameTag C (self.frameHead C iv body)) := by
      simp [sealedFrame, frameHead]
    rw [parts]
    exact slice_middle _ _ _ (by simp) hiv.symm
  have text : self.cipherText (self.sealedFrame C iv body) = body := by
    have parts : self.sealedFrame C iv body = (0 :: (self.projectKeySignature C ++ iv)) ++ body ++
        self.frameTag C (self.frameHead C iv body) := by
      simp [sealedFrame, frameHead]
    rw [cipherText, size, parts]
    exact slice_middle _ _ _ (by simp [hiv]) (by omega)
  rw [plainText, vector, text, ← hstream]
  exact xorStream_xorStream stream data

end LMApiaryDeviceCrypto
end LeptosMusic
