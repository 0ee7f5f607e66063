import LeptosMusic.Relaunches
import Mathlib.Logic.Equiv.List

/-!
# One device for an installation

A device that has been registered is archived, and comes back from its archive at each launch. So all
requests of an installation are signed for the same device, however often the app is launched, unless
a process has signed for a device and ends before it has archived it.
-/
namespace LeptosMusic
open Runs (Along Always Outcome)

inductive CodedObject where
  | string (text : NSString)
  | data (bytes : NSData)

def CodedObject.text : CodedObject → Option NSString
  | .string text => some text
  | .data _ => none

def CodedObject.bytes : CodedObject → Option NSData
  | .string _ => none
  | .data bytes => some bytes

/-- What has been encoded for each key. -/
structure NSCoder where
  objects : String → Option CodedObject
  integers : String → Int

namespace NSCoder

def empty : NSCoder := ⟨fun _ => none, fun _ => 0⟩

def encodeObject (coder : NSCoder) (object : Option CodedObject) (key : String) : NSCoder :=
  { coder with objects := Function.update coder.objects key object }

def encodeInteger (coder : NSCoder) (value : Int) (key : String) : NSCoder :=
  { coder with integers := Function.update coder.integers key value }

end NSCoder

def kYTApiaryDeviceCryptoDeviceIdKey : String := "kYTApiaryDeviceCryptoDeviceIdKey"
def kYTApiaryDeviceCryptoDeviceKeyKey : String := "kYTApiaryDeviceCryptoDeviceKeyKey"
def kYTDeviceCryptoProjectKeyKey : String := "kYTDeviceCryptoProjectKeyKey"
def kYTDeviceCryptoHMACKeyKey : String := "kYTDeviceCryptoHMACKeyKey"
def kYTDeviceCryptoHMACLengthKey : String := "kYTDeviceCryptoHMACLengthKey"

namespace LMApiaryDeviceCrypto

def initWithCoder (aDecoder : NSCoder) : LMApiaryDeviceCrypto where
  deviceID := aDecoder.objects kYTApiaryDeviceCryptoDeviceIdKey >>= CodedObject.text
  deviceKey := aDecoder.objects kYTApiaryDeviceCryptoDeviceKeyKey >>= CodedObject.bytes
  projectKey := aDecoder.objects kYTDeviceCryptoProjectKeyKey >>= CodedObject.bytes
  hmacKey := aDecoder.objects kYTDeviceCryptoHMACKeyKey >>= CodedObject.bytes
  hmacLength := nsUInteger (aDecoder.integers kYTDeviceCryptoHMACLengthKey)

def encodeWithCoder (self : LMApiaryDeviceCrypto) (aCoder : NSCoder) : NSCoder :=
  let aCoder := aCoder.encodeObject (self.deviceID.map .string) kYTApiaryDeviceCryptoDeviceIdKey
  let aCoder := aCoder.encodeObject (self.deviceKey.map .data) kYTApiaryDeviceCryptoDeviceKeyKey
  let aCoder := aCoder.encodeObject (self.projectKey.map .data) kYTDeviceCryptoProjectKeyKey
  let aCoder := aCoder.encodeObject (self.hmacKey.map .data) kYTDeviceCryptoHMACKeyKey
  aCoder.encodeInteger (nsInteger self.hmacLength) kYTDeviceCryptoHMACLengthKey

theorem text_of_map (string : Option NSString) :
    (string.map CodedObject.string >>= CodedObject.text) = string := by
  cases string <;> rfl

theorem bytes_of_map (data : Option NSData) :
    (data.map CodedObject.data >>= CodedObject.bytes) = data := by
  cases data <;> rfl

theorem nsUInteger_nsInteger {n : Nat} (fits : n < 2 ^ 64) : nsUInteger (nsInteger n) = n := by
  have same : (n : Int).bmod (2 ^ 64) % (2 ^ 64 : Nat) = n % (2 ^ 64 : Nat) := Int.bmod_emod
  rw [nsUInteger, nsInteger]
  omega

/-- Decoding gives back what was encoded, whatever else the coder holds. -/
theorem initWithCoder_encodeWithCoder {self : LMApiaryDeviceCrypto} (fits : self.hmacLength < 2 ^ 64)
    (coder : NSCoder) : initWithCoder (self.encodeWithCoder coder) = self := by
  obtain ⟨deviceID, deviceKey, projectKey, hmacKey, hmacLength⟩ := self
  have length : nsUInteger (nsInteger hmacLength) = hmacLength := nsUInteger_nsInteger fits
  simp [initWithCoder, encodeWithCoder, NSCoder.encodeObject, NSCoder.encodeInteger,
    kYTApiaryDeviceCryptoDeviceIdKey, kYTApiaryDeviceCryptoDeviceKeyKey,
    kYTDeviceCryptoProjectKeyKey, kYTDeviceCryptoHMACKeyKey, text_of_map, bytes_of_map, length]

theorem hmacLength_initWithProjectKey {projectKey : NSData} {hmacLength : Nat}
    {crypto : LMApiaryDeviceCrypto} (made : initWithProjectKey projectKey hmacLength = .ok crypto) :
    crypto.hmacLength = hmacLength := by
  unfold initWithProjectKey at made
  dsimp only at made
  split_ifs at made
  · obtain ⟨key, _, made⟩ := bind_eq_ok made
    obtain ⟨hmacKey, _, made⟩ := bind_eq_ok made
    cases made
    rfl
  · cases made
    rfl

theorem hmacLength_setDeviceID {C : CommonCrypto} {self crypto : LMApiaryDeviceCrypto}
    {status : CryptorStatus} {garbage : UInt8} {deviceID deviceKey : Option NSString}
    {error error' : ErrorPointer} {done : Bool}
    (handled : self.setDeviceID C status garbage deviceID deviceKey error =
      .ok (crypto, done, error')) : crypto.hmacLength = self.hmacLength := by
  unfold setDeviceID at handled
  obtain ⟨⟨key, derefError⟩, _, handled⟩ := bind_eq_ok handled
  rcases derefError with _ | _ | derefError <;> cases handled <;> rfl

end LMApiaryDeviceCrypto

variable (P : Platform)

/-- What `NSKeyedArchiver` and `NSKeyedUnarchiver` promise, of objects whose length is an
`NSUInteger`. -/
structure Archives : Prop where
  archived : ∀ crypto : LMApiaryDeviceCrypto, crypto.hmacLength < 2 ^ 64 →
    ∃ data, P.archivedData crypto = some data ∧ P.unarchivedObject data =
      .ok (some (.initWithCoder (crypto.encodeWithCoder .empty)))

/-- The request is signed for this device. -/
def SignedFor (device : Option LMApiaryDeviceCrypto) (request : NSMutableURLRequest) : Prop :=
  ∃ crypto ∈ device, request.headers "X-Goog-Device-Auth" =
    some (crypto.compoundValue P.commonCrypto request.url request.httpBody)

variable {P} {device : Option LMApiaryDeviceCrypto}

theorem SignedFor.setValue {request : NSMutableURLRequest} (signed : SignedFor P device request)
    (value : NSString) {field : String} (other : "X-Goog-Device-Auth" ≠ field) :
    SignedFor P device (request.setValue value field) := by
  obtain ⟨crypto, own, header⟩ := signed
  exact ⟨crypto, own, (request.setValue_other value other).trans header⟩

/-- One device signs one request in one way. -/
theorem SignedFor.headers_eq {request request' : NSMutableURLRequest}
    (signed : SignedFor P device request) (signed' : SignedFor P device request')
    (url : request.url = request'.url) (httpBody : request.httpBody = request'.httpBody) :
    request.headers "X-Goog-Device-Auth" = request'.headers "X-Goog-Device-Auth" := by
  obtain ⟨crypto, own, header⟩ := signed
  obtain ⟨crypto', own', header'⟩ := signed'
  obtain rfl : crypto = crypto' := Option.mem_unique own own'
  rw [header, header', url, httpBody]

/-- The device that the manager signs for. -/
def LMRequestCryptoManager.signer (self : LMRequestCryptoManager) : Option LMApiaryDeviceCrypto :=
  if self.ready then self._crypto else none

/-- The tokens have keys of their own in the defaults. -/
theorem generalTokenResponse_archive {tokenManager tokenManager' : LMAccessTokenManager}
    {defaults defaults' : NSUserDefaults} {now : Int} {jsonResponse : JSONObject}
    (handled : tokenManager.generalTokenResponse P.tokens defaults now jsonResponse =
      .ok (tokenManager', defaults')) :
    defaults'.dataForKey LMRequestCryptoManagerApiaryUserDefaultsKey =
      defaults.dataForKey LMRequestCryptoManagerApiaryUserDefaultsKey := by
  unfold LMAccessTokenManager.generalTokenResponse at handled
  obtain ⟨expiresIn, _, handled⟩ := bind_eq_ok handled
  obtain ⟨accessToken, _, handled⟩ := bind_eq_ok handled
  obtain ⟨dataStore, _, handled⟩ := bind_eq_ok handled
  obtain ⟨authTypeObject, _, handled⟩ := bind_eq_ok handled
  cases handled
  rw [NSUserDefaults.dataForKey, NSUserDefaults.setObject_other _ _ (by decide),
    NSUserDefaults.setObject_other _ _ (by decide), NSUserDefaults.dataForKey]

theorem issueTokenResponse_archive {tokenManager tokenManager' : LMAccessTokenManager}
    {defaults defaults' : NSUserDefaults} {now : Int} {jsonResponse : JSONObject}
    (handled : tokenManager.issueTokenResponse P.tokens defaults now jsonResponse =
      .ok (tokenManager', defaults')) :
    defaults'.dataForKey LMRequestCryptoManagerApiaryUserDefaultsKey =
      defaults.dataForKey LMRequestCryptoManagerApiaryUserDefaultsKey := by
  unfold LMAccessTokenManager.issueTokenResponse at handled
  obtain ⟨expiresIn, _, handled⟩ := bind_eq_ok handled
  obtain ⟨accessToken, _, handled⟩ := bind_eq_ok handled
  obtain ⟨dataStore, _, handled⟩ := bind_eq_ok handled
  cases handled
  rw [NSUserDefaults.dataForKey, NSUserDefaults.setObject_other _ _ (by decide),
    NSUserDefaults.dataForKey]

theorem dataForKey_setObject (defaults : NSUserDefaults) (data : NSData) (key : String) :
    (defaults.setObject (some (.data data)) key).dataForKey key = some data := by
  rw [NSUserDefaults.dataForKey, NSUserDefaults.setObject_same]

def NoArchive (defaults : NSUserDefaults) : Prop :=
  defaults.dataForKey LMRequestCryptoManagerApiaryUserDefaultsKey = none

variable (P) in
def InArchive (defaults : NSUserDefaults) (crypto : LMApiaryDeviceCrypto) : Prop :=
  ∃ data, defaults.dataForKey LMRequestCryptoManagerApiaryUserDefaultsKey = some data ∧
    P.unarchivedObject data = .ok (some crypto)

/-- The length of its tags can be encoded. -/
def Encodes (crypto : LMApiaryDeviceCrypto) : Prop := crypto.hmacLength < 2 ^ 64

namespace SessionThreads
variable {Message : Type} {C : Nat → ResponseClass Message} {s t : SessionThreads Message}

variable (P) in
/-- A registered device is in the archive, or on its way there. -/
structure Archived (s : SessionThreads Message) : Prop where
  registered : s.app.cryptoManager.ready = true → ∃ crypto,
    s.app.cryptoManager._crypto = some crypto ∧
      (InArchive P s.app.defaults crypto ∨ .archive ∈ s.queue ∧ NoArchive s.app.defaults)
  unregistered : s.app.cryptoManager.ready = false → NoArchive s.app.defaults ∧
    (.archive ∈ s.queue → s.queue.head? = some .writeReady)
  follows : .writeReady ∈ s.queue → .archive ∈ s.queue

variable (P) in
/-- All that is signed is signed for the device of the manager, which is kept. -/
structure Kept (s : SessionThreads Message) : Prop where
  signed : Backed .crypto (fun request _ => SignedFor P s.app.cryptoManager.signer request) s
  manages : Manages Encodes Encodes s
  archived : Archived P s

theorem provides_signedFor (ready : s.app.cryptoManager.ready = true →
      ∃ crypto, s.app.cryptoManager._crypto = some crypto ∧ Encodes crypto) :
    Provides P .crypto (fun request _ => SignedFor P s.app.cryptoManager.signer request) s.app where
  userAgent request _ signed := signed.setValue _ (by decide)
  signs isReady request _ _ := by
    obtain ⟨crypto, own, _⟩ := ready isReady
    rw [LMRequestCryptoManager.signURLRequest, if_pos isReady, own]
    refine ⟨crypto, ?_, NSMutableURLRequest.setValue_same _ _ _⟩
    rw [LMRequestCryptoManager.signer, if_pos isReady, own]
    rfl
  authorizes _ request _ signed := (signed.resolve_right (by decide)).setValue _ (by decide)

theorem grants_encodes (s : SessionThreads Message) : Grants P Encodes Encodes s := by
  rintro status garbage reply _ ⟨own, stored, encodes⟩ crypto result
  cases reply with
  | failed | notJSON | array => cases result
  | object parsedTree =>
      simp only [registrationResult, stored] at result
      split at result
      · cases result
      · next device done error handled =>
          obtain ⟨rfl, _⟩ := Prod.mk.inj (Except.ok.inj result)
          obtain ⟨deviceKey, _, handled⟩ := bind_eq_ok handled
          refine ⟨device, rfl, ?_⟩
          rw [Encodes, LMApiaryDeviceCrypto.hmacLength_setDeviceID handled]
          exact encodes

theorem signer_of_same (crypto : t.app.cryptoManager._crypto = s.app.cryptoManager._crypto)
    (ready : t.app.cryptoManager.ready = s.app.cryptoManager.ready) :
    t.app.cryptoManager.signer = s.app.cryptoManager.signer := by
  rw [LMRequestCryptoManager.signer, LMRequestCryptoManager.signer, crypto, ready]

theorem signer_unready (unready : s.app.cryptoManager.ready = false) :
    s.app.cryptoManager.signer = none := by
  rw [LMRequestCryptoManager.signer, unready]
  rfl

/-- A manager that signs goes on to sign for the same device. -/
theorem Kept.signer (kept : Kept P s) {step : QueueStep} {rest next : List QueueStep}
    (front : s.queue = step :: rest) (ran : s.execQueue P C step = .ok (t, next)) :
    s.app.cryptoManager.signer = none ∨
      t.app.cryptoManager.signer = s.app.cryptoManager.signer := by
  cases step with
  | session k own =>
      obtain ⟨⟨u, later⟩, executed, same⟩ := map_eq_ok ran
      cases same
      have leaves := execSession_leaves executed
      exact .inr (signer_of_same leaves.crypto leaves.ready)
  | registered status garbage reply =>
      have answered := kept.manages.answered status garbage reply (front ▸ List.mem_cons_self)
      exact .inl (signer_unready answered.1)
  | writeReady =>
      have writes := kept.manages.writes (front ▸ List.mem_cons_self)
      exact .inl (signer_unready writes.1)
  | enumerateReadyCallbacks | archive | taskResponse =>
      cases ran
      exact .inr rfl
  | callNext callbacks count =>
      cases callbacks with
      | nil =>
          cases ran
          exact .inr rfl
      | cons i callbacks =>
          simp only [SessionThreads.execQueue] at ran
          split_ifs at ran
          cases ran
          exact .inr rfl
  | tokenResponse request reply =>
      simp only [SessionThreads.execQueue] at ran
      cases reply with
      | failed | notJSON =>
          cases ran
          exact .inr rfl
      | array => cases ran
      | object jsonResponse =>
          cases request <;>
            obtain ⟨⟨tokenManager, defaults⟩, _, same⟩ := map_eq_ok ran <;> cases same <;>
              exact .inr rfl

/-- Steps that leave the manager and the archive alone, and do not change what is to be written. -/
theorem Archived.frame (archived : Archived P s)
    (crypto : t.app.cryptoManager._crypto = s.app.cryptoManager._crypto)
    (ready : t.app.cryptoManager.ready = s.app.cryptoManager.ready)
    (archive : t.app.defaults.dataForKey LMRequestCryptoManagerApiaryUserDefaultsKey =
      s.app.defaults.dataForKey LMRequestCryptoManagerApiaryUserDefaultsKey)
    (queue : .archive ∈ t.queue ↔ .archive ∈ s.queue)
    (writes : .writeReady ∈ t.queue → .writeReady ∈ s.queue)
    (head : s.queue.head? = some .writeReady → t.queue.head? = some .writeReady) :
    Archived P t := by
  constructor
  · intro isReady
    obtain ⟨device, own, kept⟩ := archived.registered (ready ▸ isReady)
    refine ⟨device, crypto.trans own, ?_⟩
    rw [InArchive, NoArchive, archive, queue]
    exact kept
  · intro unready
    obtain ⟨none, first⟩ := archived.unregistered (ready ▸ unready)
    exact ⟨archive.trans none, fun member => head (first (queue.mp member))⟩
  · exact fun member => queue.mpr (archived.follows (writes member))

theorem Archived.execQueue (archived : Archived P s) (archives : Archives P)
    (manages : Manages Encodes Encodes s) (accounted : Accounted s) {step : QueueStep}
    {rest next : List QueueStep} (front : s.queue = step :: rest)
    (ran : s.execQueue P C step = .ok (t, next)) : Archived P { t with queue := next ++ rest } := by
  -- what is neither the write of `ready` nor the archive has not come between the two
  have between (notReady : step ≠ .writeReady) (unready : s.app.cryptoManager.ready = false) :
      .archive ∉ s.queue := by
    intro member
    have first := (archived.unregistered unready).2 member
    rw [front] at first
    exact notReady (Option.some.inj first)
  have later {other : QueueStep} (member : other ∈ rest) : other ∈ s.queue :=
    front ▸ List.mem_cons_of_mem _ member
  have quiet (notArchive : step ≠ .archive) (notReady : step ≠ .writeReady) (none : .archive ∉ next)
      (none' : .writeReady ∉ next) :
      (.archive ∈ next ++ rest ↔ .archive ∈ s.queue) ∧
        (.writeReady ∈ next ++ rest → .writeReady ∈ s.queue) ∧
          (s.queue.head? = some .writeReady → (next ++ rest).head? = some .writeReady) := by
    refine ⟨?_, fun member => later ((List.mem_append.mp member).resolve_left none'), fun first => ?_⟩
    · rw [front, List.mem_append, or_iff_right none, List.mem_cons, or_iff_right notArchive.symm]
    · rw [front] at first
      exact absurd (Option.some.inj first) notReady
  cases step with
  | session k own =>
      obtain ⟨⟨u, sessionSteps⟩, executed, same⟩ := map_eq_ok ran
      cases same
      have leaves := execSession_leaves executed
      obtain ⟨queue, writes, head⟩ := quiet (by simp) (by simp) (by simp) (by simp)
      exact archived.frame leaves.crypto leaves.ready (by rw [leaves.defaults]) queue writes head
  | registered status garbage reply =>
      obtain ⟨_, apart⟩ := accounted.alone front rfl
      obtain ⟨unready, _⟩ := manages.answered status garbage reply (front ▸ List.mem_cons_self)
      have none := (archived.unregistered unready).1
      obtain ⟨⟨crypto, error⟩, _, same⟩ := map_eq_ok ran
      cases error with
      | some error =>
          cases same
          refine ⟨fun ready => ?_, fun _ => ⟨none, fun member => ?_⟩, fun member => ?_⟩
          · cases unready.symm.trans ready
          · exact absurd (later member) (between (by simp) unready)
          · cases apart _ member
      | none =>
          cases same
          refine ⟨fun ready => ?_, fun _ => ⟨none, fun _ => rfl⟩, fun _ => ?_⟩
          · cases unready.symm.trans ready
          · exact List.mem_cons_of_mem _ List.mem_cons_self
  | writeReady =>
      cases ran
      obtain ⟨_, apart⟩ := accounted.alone front rfl
      obtain ⟨unready, crypto, own, _⟩ := manages.writes (front ▸ List.mem_cons_self)
      have member := archived.follows (front ▸ List.mem_cons_self)
      rw [front, List.mem_cons] at member
      have member := member.resolve_left (by simp)
      refine ⟨fun _ => ⟨crypto, own, .inr ⟨List.mem_cons_of_mem _ member, ?_⟩⟩, fun absurd => ?_,
        fun _ => List.mem_cons_of_mem _ member⟩
      · exact (archived.unregistered unready).1
      · cases absurd
  | archive =>
      cases ran
      cases ready : s.app.cryptoManager.ready with
      | false => exact absurd (front ▸ List.mem_cons_self) (between (by simp) ready)
      | true =>
          obtain ⟨crypto, own, encodes⟩ := manages.ready ready
          obtain ⟨data, made, decoded⟩ := archives.archived crypto encodes
          rw [LMApiaryDeviceCrypto.initWithCoder_encodeWithCoder encodes] at decoded
          refine ⟨fun _ => ⟨crypto, own, .inl ⟨data, ?_, decoded⟩⟩, fun unready => ?_, fun member => ?_⟩
          · rw [own, Option.bind_some, made]
            exact dataForKey_setObject ..
          · cases ready.symm.trans unready
          · cases ready.symm.trans (manages.writes (later member)).1
  | enumerateReadyCallbacks | taskResponse =>
      cases ran
      obtain ⟨queue, writes, head⟩ := quiet (by simp) (by simp) (by simp) (by simp)
      exact archived.frame rfl rfl rfl queue writes head
  | callNext callbacks count =>
      cases callbacks with
      | nil =>
          cases ran
          obtain ⟨queue, writes, head⟩ := quiet (by simp) (by simp) (by simp) (by simp)
          exact archived.frame rfl rfl rfl queue writes head
      | cons i callbacks =>
          simp only [SessionThreads.execQueue] at ran
          split_ifs at ran
          cases ran
          obtain ⟨queue, writes, head⟩ := quiet (by simp) (by simp) (by simp) (by simp)
          exact archived.frame rfl rfl rfl queue writes head
  | tokenResponse request reply =>
      simp only [SessionThreads.execQueue] at ran
      cases reply with
      | failed | notJSON =>
          cases ran
          obtain ⟨queue, writes, head⟩ := quiet (by simp) (by simp) (by simp) (by simp)
          exact archived.frame rfl rfl rfl queue writes head
      | array => cases ran
      | object jsonResponse =>
          cases request with
          | general refreshToken k =>
              obtain ⟨⟨tokenManager, defaults⟩, handled, same⟩ := map_eq_ok ran
              cases same
              obtain ⟨queue, writes, head⟩ := quiet (by simp) (by simp) (by simp) (by simp)
              exact archived.frame rfl rfl (generalTokenResponse_archive handled) queue writes head
          | issueToken authorization k =>
              obtain ⟨⟨tokenManager, defaults⟩, handled, same⟩ := map_eq_ok ran
              cases same
              obtain ⟨queue, writes, head⟩ := quiet (by simp) (by simp) (by simp) (by simp)
              exact archived.frame rfl rfl (issueTokenResponse_archive handled) queue writes head

theorem Archived.preserve (archived : Archived P s) (archives : Archives P)
    (manages : Manages Encodes Encodes s) (accounted : Accounted s) {a : Action}
    (moved : Moved P C s a t) : Archived P t := by
  cases moved with
  | stays => exact archived
  | setsRefreshToken | waits | creates | completes =>
      exact archived.frame rfl rfl rfl Iff.rfl id id
  | @caller k step rest next u front ran =>
      have leaves := execSession_leaves ran
      have frame := (accounted.caller_move front ran).frame
      have same := frame.queue
      refine archived.frame leaves.crypto leaves.ready ?_ ?_ (fun member => ?_) fun first => ?_
      · exact congrArg (NSUserDefaults.dataForKey · _) leaves.defaults
      · change _ ∈ u.queue ↔ _
        rw [same]
      · exact same ▸ member
      · exact same.symm ▸ first
  | queue front ran => exact archived.execQueue archives manages accounted front ran
  | registrationReply free | tokenReply free | taskReply free =>
      refine archived.frame rfl rfl rfl ?_ (fun member => ?_) (fun first => ?_)
      · rw [free]
        simp
      · simp at member
      · rw [free] at first
        cases first

theorem Backed.mono {R R' : NSMutableURLRequest → Option Authorization → Prop} {light : Light}
    (backed : Backed light R s) (weaker : ∀ request authorization, R request authorization →
      R' request authorization) : Backed light R' s where
  lights i session found green := weaker _ _ (backed.lights i session found green)
  started task member := weaker _ _ (backed.started task member)
  awaited i awaits session found := weaker _ _ (backed.awaited i awaits session found)

theorem Kept.preserve (kept : Kept P s) (archives : Archives P) (accounted : Accounted s) {a : Action}
    (moved : Moved P C s a t) : Kept P t where
  signed := by
    have signed := kept.signed.preserve accounted (provides_signedFor kept.manages.ready)
      (fun other => by cases other) moved
    have signer : s.app.cryptoManager.signer = none ∨
        t.app.cryptoManager.signer = s.app.cryptoManager.signer := by
      cases moved with
      | stays | setsRefreshToken | waits | creates | completes | registrationReply | tokenReply
      | taskReply => exact .inr rfl
      | caller front ran =>
          have leaves := execSession_leaves ran
          exact .inr (signer_of_same leaves.crypto leaves.ready)
      | queue front ran =>
          have signer := kept.signer front ran
          exact signer
    refine signed.mono fun request _ own => ?_
    rcases signer with none | same
    · obtain ⟨_, absurd, _⟩ := none ▸ own
      cases absurd
    · exact same.symm ▸ own
  manages := kept.manages.preserve accounted (fun _ => grants_encodes s) moved
  archived := kept.archived.preserve archives kept.manages accounted moved

theorem Kept.setDefaults (kept : Kept P s) {defaults : NSUserDefaults}
    (same : defaults.dataForKey LMRequestCryptoManagerApiaryUserDefaultsKey =
      s.app.defaults.dataForKey LMRequestCryptoManagerApiaryUserDefaultsKey) :
    Kept P { s with app := { s.app with defaults := defaults } } where
  signed := kept.signed.frame rfl rfl fun _ => id
  manages := kept.manages.frame rfl rfl id fun _ member _ => member
  archived := kept.archived.frame rfl rfl same Iff.rfl id id

end SessionThreads

/-- The archive is still to be written. -/
def QueueStep.archives : QueueStep → Bool
  | archive => true
  | _ => false

namespace Installation
open SessionThreads (Accounted Backed Manages Kept Archived launched)
variable {Message : Type} {C : Nat → ResponseClass Message} {s : Installation Message}

/-- A process does not end between its first task and the archive, which nobody else writes. -/
def undisturbed (s : Installation Message) : Action → Bool
  | .launch => !s.process.queue.any QueueStep.archives || s.process.app.started.isEmpty
  | .setObject _ key => key ≠ LMRequestCryptoManagerApiaryUserDefaultsKey
  | .thread _ => true

variable (P) in
structure Held (s : Installation Message) : Prop where
  accounted : s.running = true → Accounted s.process
  kept : Kept P s.process

/-- Nothing is left of a process but its tasks and the defaults. -/
theorem kept_launched {app : InnerTube} (sessions : app.sessions = [])
    (started : ∀ task ∈ app.started, SignedFor P app.cryptoManager.signer task.urlRequest)
    (ready : app.cryptoManager.ready = true → app.registering = false ∧ ∃ crypto,
      app.cryptoManager._crypto = some crypto ∧ Encodes crypto ∧ InArchive P app.defaults crypto)
    (unready : app.cryptoManager.ready = false → NoArchive app.defaults ∧
      (app.registering = true → ∃ crypto, app.cryptoManager._crypto = some crypto ∧ Encodes crypto)) :
    Kept P (launched app : SessionThreads Message) where
  signed := by
    refine ⟨fun i session found => ?_, started, fun i awaits => ?_⟩
    · change app.sessions[i]? = _ at found
      rw [sessions] at found
      cases found
    · rcases awaits with member | member <;> cases member
  manages := by
    refine ⟨fun isReady => ?_, fun waiting => ?_, fun _ _ _ member => (by cases member),
      fun member => (by cases member)⟩
    · obtain ⟨_, crypto, own, encodes, _⟩ := ready isReady
      exact ⟨crypto, own, encodes⟩
    · have waiting : app.registering = true := waiting
      cases isReady : app.cryptoManager.ready with
      | true => cases waiting.symm.trans (ready isReady).1
      | false => exact ⟨isReady, (unready isReady).2 waiting⟩
  archived := by
    refine ⟨fun isReady => ?_, fun isUnready => ⟨(unready isUnready).1, fun member => (by cases member)⟩,
      fun member => (by cases member)⟩
    obtain ⟨_, crypto, own, _, stored⟩ := ready isReady
    exact ⟨crypto, own, .inl stored⟩

/-- The device is in the archive, or no task was ever started. -/
theorem Held.stored_or_fresh (held : s.Held P) (undisturbed : s.undisturbed .launch = true) :
    (∃ crypto, s.process.app.cryptoManager.signer = some crypto ∧ Encodes crypto ∧
      InArchive P s.process.app.defaults crypto) ∨
    NoArchive s.process.app.defaults ∧ s.process.app.started = [] := by
  obtain ⟨signed, manages, archived⟩ := held.kept
  cases ready : s.process.app.cryptoManager.ready with
  | true =>
      obtain ⟨crypto, own, encodes⟩ := manages.ready ready
      obtain ⟨_, same, stored | ⟨pending, none⟩⟩ := archived.registered ready
      · obtain rfl := Option.some.inj (own.symm.trans same)
        refine .inl ⟨crypto, ?_, encodes, stored⟩
        rw [LMRequestCryptoManager.signer, if_pos ready, own]
      · have waits : s.process.queue.any QueueStep.archives = true :=
          List.any_eq_true.mpr ⟨_, pending, rfl⟩
        refine .inr ⟨none, ?_⟩
        simpa [Installation.undisturbed, waits] using undisturbed
  | false =>
      refine .inr ⟨(archived.unregistered ready).1, List.eq_nil_iff_forall_not_mem.mpr ?_⟩
      intro task member
      obtain ⟨_, absurd, _⟩ := signed.started task member
      rw [SessionThreads.signer_unready ready] at absurd
      cases absurd

theorem Held.launch (held : s.Held P) (undisturbed : s.undisturbed .launch = true) :
    (s.launch P).Held P := by
  refine ⟨fun running => ?_, ?_⟩
  · change (s.process.app.launch P).finished = true at running
    cases outcome : s.process.app.launch P with
    | raised fault app =>
        rw [outcome] at running
        cases running
    | done app =>
        have accounted : Accounted (launched app : SessionThreads Message) :=
          SessionThreads.accounted_launched outcome
        rw [Installation.launch, outcome]
        exact accounted
  · change Kept P (launched (s.process.app.launch P).state)
    obtain ⟨started, sessions, _⟩ := launch_keeps P s.process.app
    rcases held.stored_or_fresh undisturbed with ⟨crypto, own, encodes, data, stored, decoded⟩ |
      ⟨none, fresh⟩
    · have signed := held.kept.signed.started
      refine kept_launched sessions ?_ ?_ ?_ <;>
        simp only [InnerTube.launch, stored, decoded, Outcome.state_done]
      · intro task member
        exact own ▸ signed task member
      · exact fun _ => ⟨trivial, crypto, rfl, encodes, data, stored, decoded⟩
      · exact fun absurd => by cases absurd
    · refine kept_launched sessions (fun task member => ?_) ?_ ?_
      · rw [started, fresh] at member
        cases member
      · rw [NoArchive] at none
        simp only [InnerTube.launch, none]
        split <;> exact fun absurd => by cases absurd
      · have nothing := none
        rw [NoArchive] at none
        simp only [InnerTube.launch, none]
        split
        · next crypto made =>
            refine fun _ => ⟨nothing, fun _ => ⟨crypto, rfl, ?_⟩⟩
            have length := LMApiaryDeviceCrypto.hmacLength_initWithProjectKey made
            rw [Encodes]
            omega
        · exact fun _ => ⟨nothing, fun absurd => by cases absurd⟩

theorem Held.step {a : Action} (held : s.Held P) (archives : Archives P)
    (undisturbed : s.undisturbed a = true) : (s.step P C a).state.Held P := by
  cases a with
  | launch => exact held.launch undisturbed
  | setObject object key =>
      have other : LMRequestCryptoManagerApiaryUserDefaultsKey ≠ key :=
        (of_decide_eq_true undisturbed).symm
      refine ⟨fun running => (held.accounted running).setDefaults _, held.kept.setDefaults ?_⟩
      rw [NSUserDefaults.dataForKey, NSUserDefaults.setObject_other _ _ other, NSUserDefaults.dataForKey]
  | thread action =>
      simp only [Installation.step]
      split_ifs with running
      · have accounted := held.accounted running
        have moved := SessionThreads.moved P C s.process action
        exact ⟨fun _ => accounted.preserve moved, held.kept.preserve archives accounted moved⟩
      · exact held

theorem held_new {defaults : NSUserDefaults} (fresh : NoArchive defaults) (now : Int) :
    (new defaults now : Installation Message).Held P where
  accounted running := by cases running
  kept := kept_launched rfl (fun _ none => by cases none) (fun ready => by cases ready)
    fun _ => ⟨fresh, fun absurd => by cases absurd⟩

variable (P) in
/-- Some device has signed every task. -/
def OneDevice (s : Installation Message) : Prop :=
  ∃ device : Option LMApiaryDeviceCrypto, ∀ task ∈ s.process.app.started,
    SignedFor P device task.urlRequest

/-- From the installation on, over any number of processes and all interleavings of their threads: as
long as nobody else writes the archive, and no process ends between its first task and the archive, all
tasks that are ever started are signed for one device. -/
theorem oneDevice_of_undisturbed (P : Platform) (C : Nat → ResponseClass Message)
    (archives : Archives P) {defaults : NSUserDefaults} (fresh : NoArchive defaults) (now : Int)
    {actions : List Action} (undisturbed : Along (step P C) (fun s a => s.undisturbed a = true)
      (new defaults now) actions) :
    Always (step P C) (OneDevice P) (new defaults now) actions := by
  refine Runs.always_of_along (I := Held P) ?_ ?_ (held_new fresh now) undisturbed
  · intro s a held undisturbed
    exact held.step archives undisturbed
  · intro s held
    exact ⟨s.process.app.cryptoManager.signer, held.kept.signed.started⟩

end Installation

namespace InnerTube

/-- The server registers another device. -/
def otherRegistration : JSONObject
  | "id" => some (.string (literal "other"))
  | "key" => some (.string (literal "AAAAAAAAAAAAAAAAAAAAAAAA"))
  | _ => none

def cryptoNumbers (crypto : LMApiaryDeviceCrypto) :
    Option (List Nat) × Option (List Nat) × Option (List Nat) × Option (List Nat) × Nat :=
  (crypto.deviceID.map (·.map UInt16.toNat), crypto.deviceKey.map (·.map UInt8.toNat),
    crypto.projectKey.map (·.map UInt8.toNat), crypto.hmacKey.map (·.map UInt8.toNat), crypto.hmacLength)

def cryptoOfNumbers :
    Option (List Nat) × Option (List Nat) × Option (List Nat) × Option (List Nat) × Nat →
      LMApiaryDeviceCrypto
  | (deviceID, deviceKey, projectKey, hmacKey, hmacLength) =>
      ⟨deviceID.map (·.map UInt16.ofNat), deviceKey.map (·.map UInt8.ofNat),
        projectKey.map (·.map UInt8.ofNat), hmacKey.map (·.map UInt8.ofNat), hmacLength⟩

theorem cryptoOfNumbers_cryptoNumbers (crypto : LMApiaryDeviceCrypto) :
    cryptoOfNumbers (cryptoNumbers crypto) = crypto := by
  obtain ⟨deviceID, deviceKey, projectKey, hmacKey, hmacLength⟩ := crypto
  simp [cryptoNumbers, cryptoOfNumbers, Function.comp_def]

/-- An archive has as many bytes as the code of its object. -/
def countingPlatform : Platform where
  commonCrypto := zeroPlatform.commonCrypto
  archivedData crypto :=
    some (List.replicate (Encodable.encode (cryptoNumbers crypto)) 0)
  unarchivedObject data := .ok ((Encodable.decode data.length).map cryptoOfNumbers)
  tokens := zeroPlatform.tokens
  userAgent := zeroPlatform.userAgent
  privateGoogleAccessToken := zeroPlatform.privateGoogleAccessToken

theorem archives_countingPlatform : Archives countingPlatform where
  archived crypto fits := by
    refine ⟨_, rfl, ?_⟩
    change Except.ok ((Encodable.decode (List.replicate _ _).length).map cryptoOfNumbers) = _
    rw [List.length_replicate, Encodable.encodek, Option.map_some, cryptoOfNumbers_cryptoNumbers,
      LMApiaryDeviceCrypto.initWithCoder_encodeWithCoder fits]

end InnerTube

namespace Installation

theorem twoLaunches_oneDevice :
    Always (step InnerTube.countingPlatform SessionThreads.rawResponse)
      (OneDevice InnerTube.countingPlatform) (new (fun _ => none) 0) twoLaunches :=
  oneDevice_of_undisturbed InnerTube.countingPlatform SessionThreads.rawResponse
    InnerTube.archives_countingPlatform (show NoArchive fun _ => none from rfl) 0 (by
      have first : Along (step InnerTube.countingPlatform SessionThreads.rawResponse)
          (fun s a => s.undisturbed a = true) (new (fun _ => none) 0)
          (.launch :: threads SessionThreads.firstRequest) := by decide +kernel
      have archived : (run InnerTube.countingPlatform SessionThreads.rawResponse
          (new (fun _ => none) 0)
            (.launch :: threads SessionThreads.firstRequest)).state.process.queue.any
              QueueStep.archives = false := by decide +kernel
      refine first.append fun t finished =>
        ⟨?_, fun _ _ => Runs.along_of_forall (fun a member s => ?_) _⟩
      · have finished : run InnerTube.countingPlatform SessionThreads.rawResponse (new (fun _ => none) 0)
            (.launch :: threads SessionThreads.firstRequest) = .done t := finished
        rw [finished] at archived
        exact congrArg (!· || _) archived
      · obtain ⟨action, _, rfl⟩ := List.mem_map.mp member
        rfl)

/-- A session at a first launch, whose request is signed and sent while the archive is pending. -/
def signsUnarchived (registration : JSONObject) : List Action :=
  .launch :: threads ([.sessionWithRequest InnerTube.searchRequest, .complete 0] ++
    List.replicate 7 (.caller 0) ++ [.registrationReply .success 0 (.object registration)] ++
    List.replicate 7 .queue)

/-- A process that ends there has signed for a device that the next process does not know. -/
theorem not_oneDevice_signsUnarchived :
    ¬ Always (step InnerTube.zeroPlatform SessionThreads.rawResponse) (OneDevice InnerTube.zeroPlatform)
      (new SessionThreads.tokenDefaults 0)
      (signsUnarchived InnerTube.registrationObject ++ signsUnarchived InnerTube.otherRegistration) := by
  intro always
  obtain ⟨device, signed⟩ := always.last
  obtain ⟨first, second, started, url, httpBody, differ⟩ : ∃ first second,
      (run InnerTube.zeroPlatform SessionThreads.rawResponse (new SessionThreads.tokenDefaults 0)
        (signsUnarchived InnerTube.registrationObject ++
          signsUnarchived InnerTube.otherRegistration)).state.process.app.started = [first, second] ∧
        first.urlRequest.url = second.urlRequest.url ∧
          first.urlRequest.httpBody = second.urlRequest.httpBody ∧
            first.urlRequest.headers "X-Goog-Device-Auth" ≠
              second.urlRequest.headers "X-Goog-Device-Auth" :=
    ⟨_, _, rfl, rfl, rfl, by decide⟩
  have both : ∀ task ∈ [first, second], SignedFor InnerTube.zeroPlatform device task.urlRequest :=
    started ▸ signed
  exact differ ((both first (by simp)).headers_eq (both second (by simp)) url httpBody)

end Installation
end LeptosMusic
