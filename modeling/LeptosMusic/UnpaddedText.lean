import LeptosMusic.DeviceCryptoContract

/-!
# Texts without their padding

The sign path strips the pad characters from what it encodes. `decryptEncodedString:` puts
`length % 4` of them back, which is what was stripped unless that was a single one.
-/
namespace LeptosMusic

/-- Trimming takes off the pad characters behind a text that has none. -/
theorem stringByTrimming_padded {string : NSString} {unit : UInt16} (clean : unit ∉ string)
    (n : Nat) : stringByTrimming (string ++ List.replicate n unit) unit = string := by
  have tail : ∀ u ∈ List.replicate n unit, (u == unit) = true := by
    intro u member
    rw [List.eq_of_mem_replicate member]
    exact beq_self_eq_true unit
  cases string with
  | nil =>
      have gone : (List.replicate n unit).dropWhile (· == unit) = [] := by
        rw [List.dropWhile_replicate, beq_self_eq_true, if_pos rfl]
      rw [stringByTrimming, List.nil_append, gone]
      rfl
  | cons u rest =>
      have headOther : (u == unit) = false := beq_false_of_ne fun same => clean (same ▸ List.mem_cons_self)
      have lastOther : (u :: rest).reverse.head? ≠ some unit := by
        intro last
        exact clean (List.mem_reverse.mp (List.mem_of_mem_head? last))
      rw [stringByTrimming, List.cons_append, List.dropWhile_cons_of_neg (by simp [headOther]),
        ← List.cons_append, List.reverse_append, List.reverse_replicate,
        List.dropWhile_append_of_pos tail, List.dropWhile_beq_eq_self_of_head?_ne lastOther,
        List.reverse_reverse]

theorem stringByTrimming_encode (bytes : NSData) :
    stringByTrimming (Base64.encode bytes) Base64.pad = Base64.unpadded bytes := by
  rw [Base64.encode_eq_unpadded]
  exact stringByTrimming_padded (Base64.pad_notMem_unpadded bytes) _

namespace LMApiaryDeviceCrypto

theorem repadded_encode (bytes : NSData) :
    Base64.decode (repadded (Base64.encode bytes)) = some bytes := by
  rw [repadded, Base64.encode_length_mod, List.replicate_zero, List.append_nil, Base64.decode_encode]

/-- One or no group of symbols short of the padding is completed rightly. -/
theorem repadded_unpadded {bytes : NSData} (whole : bytes.length % 3 ≠ 2) :
    repadded (Base64.unpadded bytes) = Base64.encode bytes := by
  have groups := Nat.div_add_mod bytes.length 3
  have missing : (Base64.unpadded bytes).length % 4 = (3 - bytes.length % 3) % 3 := by
    rw [Base64.unpadded_length]
    have remainder : bytes.length % 3 = 0 ∨ bytes.length % 3 = 1 := by omega
    rcases remainder with remainder | remainder <;> rw [remainder] at groups ⊢ <;> omega
  rw [repadded, missing, Base64.encode_eq_unpadded]

/-- Where one pad character was stripped, three are put back, and nothing is decoded. -/
theorem repadded_unpadded_none {bytes : NSData} (short : bytes.length % 3 = 2) :
    Base64.decode (repadded (Base64.unpadded bytes)) = none := by
  cases decoded : Base64.decode (repadded (Base64.unpadded bytes)) with
  | none => rfl
  | some other =>
      have length := Base64.decode_length_mod decoded
      rw [repadded, List.length_append, List.length_replicate, Base64.unpadded_length] at length
      omega

/-- A valid frame is decrypted from its padded text. From the text without padding it is
decrypted alike exactly when its length is not two more than a multiple of three. -/
theorem decryptEncodedString_unpadded_iff (C : CommonCrypto) {projectKey : NSData} {hmacLength : Nat}
    (long : 0x10 ≤ projectKey.length) (short : hmacLength ≤ 20) {crypto : LMApiaryDeviceCrypto}
    (created : CreatedWith C projectKey hmacLength crypto) (frame : Stored UInt8)
    (accepted : Accepts C crypto frame.val) (garbage : UInt8) (error : ErrorPointer) :
    crypto.decryptEncodedString C .success garbage (some (Base64.encode frame.val)) error =
        .ok (some (crypto.plainText C frame.val), error) ∧
      (crypto.decryptEncodedString C .success garbage
          (some (stringByTrimming (Base64.encode frame.val) Base64.pad)) error =
        .ok (some (crypto.plainText C frame.val), error) ↔ frame.val.length % 3 ≠ 2) := by
  have bound : crypto.hmacLength ≤ 20 := (created.keys long).2.2 ▸ short
  have stored : frame.val.length < 2 ^ 63 := by
    have := frame.property
    omega
  have accepts {text : NSString} (decoded : Base64.decode (repadded text) = some frame.val) :
      crypto.decryptEncodedString C .success garbage (some text) error =
        .ok (some (crypto.plainText C frame.val), error) :=
    decryptEncodedString_accepted C crypto bound .success garbage text error decoded stored accepted
  refine ⟨accepts (repadded_encode frame.val), ?_⟩
  rw [stringByTrimming_encode]
  constructor
  · intro same partial_group
    have undecoded := repadded_unpadded_none partial_group
    obtain ⟨e, refused⟩ := decryptEncodedString_refused C crypto bound .success garbage
      (Base64.unpadded frame.val) error (by rw [undecoded]; exact Nat.two_pow_pos 63)
      (fun other decoded => by rw [undecoded] at decoded; cases decoded)
    rw [refused] at same
    cases same
  · intro whole
    apply accepts
    rw [repadded_unpadded whole, Base64.decode_encode]

theorem decrypt_unpadded_hi :
    musicCrypto.decryptEncodedString frameCommonCrypto .success 0
        (some (Base64.encode hiFrame.val)) (some none) = .ok (some [0x68, 0x69], some none) ∧
      (musicCrypto.decryptEncodedString frameCommonCrypto .success 0
          (some (stringByTrimming (Base64.encode hiFrame.val) Base64.pad)) (some none) =
        .ok (some [0x68, 0x69], some none) ↔ hiFrame.val.length % 3 ≠ 2) :=
  decryptEncodedString_unpadded_iff frameCommonCrypto (by decide) (by decide) musicCrypto_created
    hiFrame ⟨by decide, by decide, by decide, by decide⟩ 0 (some none)

/-- The digests that CommonCrypto gives for the frame of no bytes. -/
def emptyFrameCommonCrypto : CommonCrypto where
  sha1 := frameCommonCrypto.sha1
  hmacSHA1 _ _ := ⟨[245, 55, 18, 208, 148, 78, 126, 8, 39, 212, 99, 46, 11, 161, 20, 23, 252,
    105, 136, 205], rfl⟩
  keystream := frameCommonCrypto.keystream
  behind := frameCommonCrypto.behind

def emptyFrame : NSData := [0, 206, 208, 190, 97, 1, 2, 3, 4, 5, 6, 7, 8, 245, 55, 18, 208]

/-- The text of the frame of no bytes ends in one pad character, and is refused without it. -/
theorem decrypt_unpadded_empty :
    CreatedWith emptyFrameCommonCrypto musicProjectKey 4 musicCrypto ∧
      Accepts emptyFrameCommonCrypto musicCrypto emptyFrame ∧
      Base64.encode emptyFrame = literal "AM7QvmEBAgMEBQYHCPU3EtA=" ∧
      musicCrypto.decryptEncodedString emptyFrameCommonCrypto .success 0
        (some (literal "AM7QvmEBAgMEBQYHCPU3EtA=")) (some none) = .ok (some [], some none) ∧
      musicCrypto.decryptEncodedString emptyFrameCommonCrypto .success 0
        (some (literal "AM7QvmEBAgMEBQYHCPU3EtA")) (some none) =
          .ok (none, some (some (netCryptoErrorWithMessage
            "Could not determine initializion vector"))) :=
  ⟨.init rfl, ⟨by decide, by decide, by decide, by decide⟩, by decide, rfl, rfl⟩

end LMApiaryDeviceCrypto
end LeptosMusic
