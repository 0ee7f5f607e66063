import LeptosMusic.DeviceCryptoContract

/-!
# What a device registration leaves behind

`setDeviceID:deviceKey:error:` takes its outcome from the error variable of the decryption,
and writes the device key before it looks there.
-/
namespace LeptosMusic
open ByteStrings

namespace LMApiaryDeviceCrypto

/-- A call that returns `NO` has set the error and changed nothing, and one that returns `YES` has
stored the device ID and the decrypted key. -/
structure AllOrNothing (C : CommonCrypto) (crypto : LMApiaryDeviceCrypto)
    (deviceID : Option NSString) (deviceKey : NSString) (error : ErrorPointer)
    (next : LMApiaryDeviceCrypto) (set : Bool) (error' : ErrorPointer) : Prop where
  failed : set = false → (∃ e, error' = error.set e) ∧ next.deviceID = crypto.deviceID ∧
    next.deviceKey = crypto.deviceKey ∧
    ∀ request, next.signURLRequest C request = crypto.signURLRequest C request
  registered : set = true → next.deviceID = deviceID ∧
    ∃ frame, Base64.decode (repadded deviceKey) = some frame ∧
      next.deviceKey = some (crypto.plainText C frame)

/-- The text is of a frame that passes every check. -/
def AcceptsText (C : CommonCrypto) (self : LMApiaryDeviceCrypto) (text : NSString) : Prop :=
  ∃ frame, Base64.decode (repadded text) = some frame ∧ Verified C self frame

/-- The checks that lead to a read behind everything that can be read, which ends the process. -/
structure OverReads (C : CommonCrypto) (crypto : LMApiaryDeviceCrypto) (frame : NSData) : Prop where
  length : ¬ crypto.Readable C
  vector : 0xc < frame.length
  version : frame[0]? = some 0
  cipher : 0 ≤ nsInteger (frame.length - crypto.hmacLength - 0xd)
  signature : slice 1 4 frame = crypto.projectKeySignature C
  tag : 0 ≤ nsInteger (frame.length - crypto.hmacLength)

variable (C : CommonCrypto) (self : LMApiaryDeviceCrypto)

theorem frame_headD_eq_zero {frame : NSData} (nonempty : 0 < frame.length) (garbage : UInt8) :
    frame.headD garbage = 0 ↔ frame[0]? = some 0 := by
  obtain ⟨first, rest, cons⟩ := List.exists_cons_of_length_pos nonempty
  rw [cons]
  simp

/-- With an HMAC length that leaves the memory, the tag is never found right. -/
theorem verifySignedData_long (long : ¬ self.Readable C) {frame : NSData}
    (vector : 0xc < frame.length) :
    if slice 1 4 frame = self.projectKeySignature C ∧
        0 ≤ nsInteger (frame.length - self.hmacLength) then
      ∃ fault, self.verifySignedData C frame = .error fault
    else self.verifySignedData C frame = .ok false := by
  have beyond : 20 + C.behind.val.length < self.hmacLength := Nat.lt_of_not_le long
  rw [verifySignedData, subdataWithRange_ok (by omega), ok_bind]
  by_cases signed : slice 1 4 frame = self.projectKeySignature C
  · by_cases nonneg : 0 ≤ nsInteger (frame.length - self.hmacLength)
    · rw [if_pos ⟨signed, nonneg⟩, if_pos signed]
      dsimp only
      rw [if_pos nonneg]
      cases high : subdataWithRange frame (nsInteger (frame.length - self.hmacLength)).toNat
          self.hmacLength with
      | error fault => exact ⟨fault, rfl⟩
      | ok highData =>
          cases low : subdataWithRange frame 0
              (nsInteger (frame.length - self.hmacLength)).toNat with
          | error fault => exact ⟨fault, rfl⟩
          | ok lowData =>
              have short (data : NSData) : dataWithBytes
                  ((C.hmacSHA1 (self.hmacKey.getD []) data).val ++ C.behind.val) self.hmacLength =
                    .error .badAccess := by
                rw [dataWithBytes, List.length_append, (C.hmacSHA1 _ data).property,
                  if_neg (Nat.not_le_of_lt beyond)]
              simp only [ok_bind, short, error_bind]
              exact ⟨_, rfl⟩
    · rw [if_neg (fun both => nonneg both.2), if_pos signed]
      dsimp only
      rw [if_neg nonneg]
      rfl
  · rw [if_neg (fun both => signed both.1), if_neg signed]
    rfl

/-- Then every text is refused, unless the call leaves the memory. -/
theorem decryptEncodedString_long (long : ¬ self.Readable C) (status : CryptorStatus)
    (garbage : UInt8) (s : NSString) (error : ErrorPointer) :
    (OverReads C self ((Base64.decode (repadded s)).getD []) ∧
      ∃ fault, self.decryptEncodedString C status garbage (some s) error = .error fault) ∨
    ¬ OverReads C self ((Base64.decode (repadded s)).getD []) ∧
      ∃ e, self.decryptEncodedString C status garbage (some s) error = .ok (none, error.set e) := by
  simp only [decryptEncodedString, stringByPadding_repadded]
  generalize (Base64.decode (repadded s)).getD [] = frame
  by_cases version : frame.headD garbage = 0
  · by_cases vector : 0xc < frame.length
    · have first := (frame_headD_eq_zero (by omega) garbage).mp version
      have vectorData : subdataWithRange frame 5 8 = .ok (slice 5 8 frame) :=
        subdataWithRange_ok (by omega)
      by_cases cipher : 0 ≤ nsInteger (frame.length - self.hmacLength - 0xd)
      · have verified := verifySignedData_long C self long vector
        split_ifs at verified with reads
        · obtain ⟨fault, verified⟩ := verified
          refine .inl ⟨⟨long, vector, first, cipher, reads.1, reads.2⟩, fault, ?_⟩
          simp only [version, vector, cipher, if_true, vectorData, ok_bind, verified, error_bind]
        · refine .inr ⟨fun reading => reads ⟨reading.signature, reading.tag⟩, ?_⟩
          simp only [version, vector, cipher, if_true, vectorData, ok_bind, verified, pure_eq_ok]
          exact ⟨_, rfl⟩
      · refine .inr ⟨fun reading => cipher reading.cipher, ?_⟩
        simp only [version, vector, cipher, if_true, if_false, vectorData, ok_bind, pure_eq_ok]
        exact ⟨_, rfl⟩
    · refine .inr ⟨fun reading => vector reading.vector, ?_⟩
      simp only [version, vector, if_true, if_false, pure_eq_ok]
      exact ⟨_, rfl⟩
  · refine .inr ⟨?_, ?_⟩
    · intro reading
      have vector := reading.vector
      exact version ((frame_headD_eq_zero (by omega) garbage).mpr reading.version)
    · simp only [version, if_false, pure_eq_ok]
      exact ⟨_, rfl⟩

/-- The three ways out of a decryption, told apart by the text alone. -/
inductive Decrypted (status : CryptorStatus) (text : NSString) (error : ErrorPointer) :
    Except Fault (Option NSData × ErrorPointer) → Prop where
  | overRead (fault : Fault) :
      OverReads C self ((Base64.decode (repadded text)).getD []) →
      ¬ AcceptsText C self text → Decrypted status text error (.error fault)
  | refused (e : NSError) :
      ¬ OverReads C self ((Base64.decode (repadded text)).getD []) →
      ¬ AcceptsText C self text → Decrypted status text error (.ok (none, error.set e))
  | accepted (frame : NSData) :
      Base64.decode (repadded text) = some frame → Verified C self frame →
      Decrypted status text error
        (.ok (if status.succeeds then some (self.plainText C frame) else none, error))

theorem decryptEncodedString_decrypted (status : CryptorStatus) (garbage : UInt8)
    (text : Stored UInt16) (error : ErrorPointer) :
    Decrypted C self status text.val error
      (self.decryptEncodedString C status garbage (some text.val) error) := by
  have stored := decoded_length text
  by_cases readable : self.Readable C
  · by_cases accepts : AcceptsText C self text.val
    · obtain ⟨frame, decoded, verified⟩ := accepts
      rw [decoded] at stored
      rw [decryptEncodedString_verified C self readable status garbage text.val error decoded stored
        verified]
      exact .accepted frame decoded verified
    · obtain ⟨e, refused⟩ := decryptEncodedString_unverified C self readable status garbage text.val
        error stored (fun frame decoded verified => accepts ⟨frame, decoded, verified⟩)
      rw [refused]
      exact .refused e (fun reading => reading.length readable) accepts
  · have never : ¬ AcceptsText C self text.val := by
      rintro ⟨frame, _, verified⟩
      exact readable verified.readable
    rcases decryptEncodedString_long C self readable status garbage text.val error with
      ⟨reading, fault, raised⟩ | ⟨notOver, e, refused⟩
    · rw [raised]
      exact .overRead fault reading never
    · rw [refused]
      exact .refused e notOver never

/-- A registration is all or nothing exactly when the cryptor does not fail on an accepted key, and
there was no key before a refused one. Where the process ends, there is no outcome. -/
theorem setDeviceID_allOrNothing_iff (status : CryptorStatus) (garbage : UInt8)
    (deviceID : Option NSString) (deviceKey : Stored UInt16) (error : ErrorPointer) :
    (∀ next set error', self.setDeviceID C status garbage deviceID (some deviceKey.val) error =
        .ok (next, set, error') →
          AllOrNothing C self deviceID deviceKey.val error next set error') ↔
      (AcceptsText C self deviceKey.val → status.succeeds = true) ∧
      (¬ AcceptsText C self deviceKey.val →
        ¬ OverReads C self ((Base64.decode (repadded deviceKey.val)).getD []) →
        self.deviceKey = none) := by
  have decrypted := decryptEncodedString_decrypted C self status garbage deviceKey (some none)
  unfold setDeviceID
  generalize self.decryptEncodedString C status garbage (some deviceKey.val) (some none) = result
    at decrypted
  cases decrypted with
  | overRead fault reading refused =>
      refine iff_of_true ?_
        ⟨fun accepts => absurd accepts refused, fun _ notOver => absurd reading notOver⟩
      intro next set error' returned
      cases returned
  | refused e notOver refused =>
      constructor
      · intro contract
        refine ⟨fun accepts => absurd accepts refused, fun _ _ => ?_⟩
        exact ((contract _ _ _ rfl).failed rfl).2.2.1.symm
      · rintro ⟨_, absent⟩ next set error' returned
        have before := absent refused notOver
        cases returned
        refine ⟨fun _ => ⟨⟨e, rfl⟩, rfl, before.symm, ?_⟩, fun set => by cases set⟩
        intro request
        rw [← before]
  | accepted frame decoded verified =>
      have accepts : AcceptsText C self deviceKey.val := ⟨frame, decoded, verified⟩
      constructor
      · intro contract
        refine ⟨fun _ => ?_, fun refused => absurd accepts refused⟩
        obtain ⟨_, _, _, key⟩ := (contract _ _ _ rfl).registered rfl
        cases succeeds : status.succeeds with
        | true => rfl
        | false =>
            rw [succeeds] at key
            cases key
      · rintro ⟨succeeds, _⟩ next set error' returned
        rw [succeeds accepts] at returned
        cases returned
        exact ⟨fun set => (by cases set), fun _ => ⟨rfl, frame, decoded, rfl⟩⟩

/-- A key of two bytes is registered. -/
def registeredCrypto : LMApiaryDeviceCrypto :=
  { musicCrypto with deviceID := some (literal "id"), deviceKey := some [0x68, 0x69] }

theorem length_take_padded (data : NSData) : ((data ++ dataWithLength 20).take 20).length = 20 := by
  rw [List.length_take, List.length_append, dataWithLength, List.length_replicate]
  omega

/-- Digests that begin with their key or text. -/
def readableCommonCrypto : CommonCrypto where
  sha1 data := ⟨(data ++ dataWithLength 20).take 20, length_take_padded data⟩
  hmacSHA1 key data := ⟨(key ++ data ++ dataWithLength 20).take 20, length_take_padded (key ++ data)⟩
  keystream _ _ _ := 0
  behind := ⟨[], stored_nil⟩

/-- A text of no bytes is refused, which takes the key away and changes the header. With the
cryptor failing, an accepted key is registered as `nil`. -/
theorem registeredCrypto_loses_key :
    (∃ next e, registeredCrypto.setDeviceID readableCommonCrypto .success 0 (some (literal "new"))
        (some []) (some none) = .ok (next, false, some (some e)) ∧
      next.deviceKey = none ∧ registeredCrypto.deviceKey = some [0x68, 0x69] ∧
      (next.signURLRequest readableCommonCrypto ⟨[], "POST", none, fun _ => none⟩).1.headers
          "X-Goog-Device-Auth" ≠
        (registeredCrypto.signURLRequest readableCommonCrypto
          ⟨[], "POST", none, fun _ => none⟩).1.headers "X-Goog-Device-Auth") ∧
      ∃ next, registeredCrypto.setDeviceID frameCommonCrypto ⟨false, true⟩ 0 (some (literal "new"))
        (some (literal "AM7QvmEBAgMEBQYHCGcgIPFunw==")) (some none) = .ok (next, true, some none) ∧
      next.deviceKey = none :=
  ⟨⟨_, _, rfl, rfl, rfl, by decide⟩, _, rfl, rfl⟩

end LMApiaryDeviceCrypto
end LeptosMusic
