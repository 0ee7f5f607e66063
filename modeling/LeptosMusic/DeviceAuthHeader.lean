import LeptosMusic.UnpaddedText

/-!
# Reading the device authorization back

`signURLRequest:error:` joins a device ID of any characters and two tokens with commas. The
tokens have fixed lengths and come last, so the value is read from its end.
-/
namespace LeptosMusic

/-- The last `n` units of a text, split off. -/
def splitLast (n : Nat) (text : NSString) : NSString × NSString :=
  text.splitAt (text.length - n)

theorem splitLast_append (front : NSString) {back : NSString} {n : Nat} (length : back.length = n) :
    splitLast n (front ++ back) = (front, back) := by
  rw [splitLast, List.splitAt_eq, List.length_append, length, Nat.add_sub_cancel, List.take_left,
    List.drop_left]

/-- The device ID, the URL token and the content token of a header value. -/
def readDeviceAuth (value : NSString) : Option (NSString × NSString × NSString) :=
  let (value, contentToken) := splitLast 34 value
  let (value, contentName) := splitLast 9 value
  let (value, urlToken) := splitLast 12 value
  let (value, dataName) := splitLast 6 value
  let (idName, deviceID) := value.splitAt 10
  if idName = literal "device_id=" ∧ dataName = literal ",data=" ∧
      contentName = literal ",content=" then
    some (deviceID, urlToken, contentToken)
  else none

theorem readDeviceAuth_joined (deviceID : NSString) {urlToken contentToken : NSString}
    (url : urlToken.length = 12) (content : contentToken.length = 34) :
    readDeviceAuth (literal "device_id=" ++ deviceID ++ literal ",data=" ++ urlToken ++
        literal ",content=" ++ contentToken) = some (deviceID, urlToken, contentToken) := by
  have id : (literal "device_id=" ++ deviceID).splitAt 10 = (literal "device_id=", deviceID) := by
    rw [List.splitAt_eq]
    exact Prod.ext (List.take_left' rfl) (List.drop_left' rfl)
  simp only [readDeviceAuth, splitLast_append _ content, splitLast_append _ url,
    splitLast_append _ (show (literal ",content=").length = 9 from rfl),
    splitLast_append _ (show (literal ",data=").length = 6 from rfl), id, and_self, if_true]

namespace LMApiaryDeviceCrypto

variable (C : CommonCrypto) (self : LMApiaryDeviceCrypto)

/-- What a token stands for: a zero byte, the mark of the device key and the MAC. -/
def tag (data : NSData) (hmacLength : Nat) : NSData :=
  [0] ++ (C.sha1 (self.deviceKey.getD [])).val.take 4 ++
    (C.hmacSHA1 (self.deviceKey.getD []) data).val.take hmacLength

def urlTag (url : NSData) : NSData := self.tag C (url ++ [0]) 4

def contentTag (httpBody : Option NSData) : NSData := self.tag C (httpBody.getD []) 20

/-- The digests are longer than what is taken of them. -/
theorem tag_length (data : NSData) {hmacLength : Nat} (short : hmacLength ≤ 20) :
    (self.tag C data hmacLength).length = 5 + hmacLength := by
  have key := (C.sha1 (self.deviceKey.getD [])).property
  have mac := (C.hmacSHA1 (self.deviceKey.getD []) data).property
  simp only [tag, List.length_append, List.length_take, List.length_singleton, key, mac]
  omega

theorem signData_url (url : NSData) :
    self.signData C (some url) true 4 = Base64.unpadded (self.urlTag C url) :=
  stringByTrimming_encode _

theorem signData_content (httpBody : Option NSData) :
    self.signData C httpBody false 20 = Base64.unpadded (self.contentTag C httpBody) :=
  stringByTrimming_encode _

theorem urlToken_length (url : NSData) : (self.signData C (some url) true 4).length = 12 := by
  rw [signData_url, Base64.unpadded_length, urlTag, tag_length C self _ (by decide)]

theorem contentToken_length (httpBody : Option NSData) :
    (self.signData C httpBody false 20).length = 34 := by
  rw [signData_content, Base64.unpadded_length, contentTag, tag_length C self _ (by decide)]

/-- A token, completed and decoded, is its tag. -/
theorem decode_unpadded (bytes : NSData) :
    Base64.decode (Base64.completed (Base64.unpadded bytes)) = some bytes := by
  rw [Base64.completed_unpadded, Base64.decode_encode]

theorem readDeviceAuth_compoundValue (url : NSData) (httpBody : Option NSData) :
    readDeviceAuth (self.compoundValue C url httpBody) =
      some (printed self.deviceID, self.signData C (some url) true 4,
        self.signData C httpBody false 20) :=
  readDeviceAuth_joined _ (urlToken_length C self url) (contentToken_length C self httpBody)

/-- Equal values carry equal tokens, and a token has one tag. -/
theorem compoundValue_injective {other : LMApiaryDeviceCrypto} {url url' : NSData}
    {httpBody httpBody' : Option NSData}
    (same : self.compoundValue C url httpBody = other.compoundValue C url' httpBody') :
    printed self.deviceID = printed other.deviceID ∧ self.urlTag C url = other.urlTag C url' ∧
      self.contentTag C httpBody = other.contentTag C httpBody' := by
  have read := congrArg readDeviceAuth same
  rw [readDeviceAuth_compoundValue, readDeviceAuth_compoundValue] at read
  obtain ⟨ids, urls, contents⟩ : _ ∧ _ ∧ _ := by simpa using read
  rw [signData_url, signData_url] at urls
  rw [signData_content, signData_content] at contents
  refine ⟨ids, ?_, ?_⟩
  · have decoded := congrArg (fun token => Base64.decode (Base64.completed token)) urls
    simpa only [decode_unpadded, Option.some.injEq] using decoded
  · have decoded := congrArg (fun token => Base64.decode (Base64.completed token)) contents
    simpa only [decode_unpadded, Option.some.injEq] using decoded

/-- The value is read back from its end whatever the device ID holds, both tokens decode to
their tags, and requests with equal values agree in all three parts. -/
theorem signURLRequest_unambiguous (deviceID : NSString) (request : NSMutableURLRequest) :
    let signer := { self with deviceID := some deviceID }
    ∃ value urlToken contentToken,
      (signer.signURLRequest C request).1.headers "X-Goog-Device-Auth" = some value ∧
      readDeviceAuth value = some (deviceID, urlToken, contentToken) ∧
      Base64.pad ∉ urlToken ∧ urlToken.length = 12 ∧
      Base64.pad ∉ contentToken ∧ contentToken.length = 34 ∧
      Base64.decode (Base64.completed urlToken) = some (self.urlTag C request.url) ∧
      (self.urlTag C request.url).length = 9 ∧
      Base64.decode (Base64.completed contentToken) = some (self.contentTag C request.httpBody) ∧
      (self.contentTag C request.httpBody).length = 25 ∧
      ∀ (other : LMApiaryDeviceCrypto) (otherID : NSString) (second : NSMutableURLRequest),
        ({ other with deviceID := some otherID }.signURLRequest C second).1.headers
            "X-Goog-Device-Auth" = some value →
          otherID = deviceID ∧ other.urlTag C second.url = self.urlTag C request.url ∧
            other.contentTag C second.httpBody = self.contentTag C request.httpBody := by
  intro signer
  refine ⟨signer.compoundValue C request.url request.httpBody, signer.signData C (some request.url)
    true 4, signer.signData C request.httpBody false 20, request.setValue_same _ _,
    readDeviceAuth_compoundValue C signer _ _, ?_, urlToken_length C signer _, ?_,
    contentToken_length C signer _, ?_, tag_length C self _ (by decide), ?_,
    tag_length C self _ (by decide), ?_⟩
  · rw [signData_url]
    exact Base64.pad_notMem_unpadded _
  · rw [signData_content]
    exact Base64.pad_notMem_unpadded _
  · rw [signData_url, decode_unpadded]
    rfl
  · rw [signData_content, decode_unpadded]
    rfl
  · intro other otherID second sent
    rw [signURLRequest, NSMutableURLRequest.setValue_same, Option.some.injEq] at sent
    exact compoundValue_injective C { other with deviceID := some otherID } sent

/-- No body and an empty body are signed alike, under a device ID that looks like a token. -/
theorem signURLRequest_emptyBody :
    let signer := { musicCrypto with deviceID := some (literal "id,data=AA,content=") }
    let request : NSMutableURLRequest := ⟨[0x68, 0x74, 0x74, 0x70], "POST", none, fun _ => none⟩
    (signer.signURLRequest frameCommonCrypto request).1.headers "X-Goog-Device-Auth" =
        (signer.signURLRequest frameCommonCrypto { request with httpBody := some [] }).1.headers
          "X-Goog-Device-Auth" ∧
      musicCrypto.contentTag frameCommonCrypto none =
        musicCrypto.contentTag frameCommonCrypto (some []) := by
  intro signer request
  obtain ⟨value, _, _, signed, _, _, _, _, _, _, _, _, _, unambiguous⟩ :=
    signURLRequest_unambiguous frameCommonCrypto musicCrypto (literal "id,data=AA,content=")
      { request with httpBody := some [] }
  have alike : (signer.signURLRequest frameCommonCrypto request).1.headers "X-Goog-Device-Auth" =
      (signer.signURLRequest frameCommonCrypto { request with httpBody := some [] }).1.headers
        "X-Goog-Device-Auth" := rfl
  exact ⟨alike, (unambiguous musicCrypto _ request (alike.trans signed)).2.2⟩

end LMApiaryDeviceCrypto
end LeptosMusic
