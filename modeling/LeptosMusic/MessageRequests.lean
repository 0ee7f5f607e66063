import LeptosMusic.AnyMessage
import LeptosMusic.SingleSend

/-!
# Requests for messages

`completeRequestWithCompletion:` puts the data of a message into a request, and its completion gets
the message that is parsed from the response. In between are the threads of the sessions.
-/
namespace LeptosMusic
open Runs (Along Always Outcome)

def GPBCodedInputStreamErrorCode.rawValue : GPBCodedInputStreamErrorCode → Int
  | .invalidSize => -100
  | .subsectionLimitReached => -101
  | .invalidSubsectionLimit => -102
  | .invalidTag => -103
  | .invalidUTF8 => -104
  | .invalidVarInt => -105
  | .recursionDepthExceeded => -106

def GPBErrorReasonKey : String := "Reason"

/-- `userInfo` is left out for a reason without a character. -/
def reasonInfo (reason : Option String) : List (String × String) :=
  ((reason.filter fun reason => !reason.isEmpty).map fun reason => (GPBErrorReasonKey, reason)).toList

/-- The reasons of Foundation's own exceptions are a parameter. A read outside the data is no
exception. -/
def errorFromException (foundationReason : ParseException → Option String) :
    ParseException → Option NSError
  | .codedInputStream code reason =>
      some ⟨"GPBCodedInputStreamErrorDomain", code.rawValue, reasonInfo reason, none⟩
  | .badAccess => none
  | .outOfFuel => none
  | exception => some ⟨"GPBMessageErrorDomain", -100, reasonInfo (foundationReason exception), none⟩

namespace GPBMessage

variable {Class : Type} (foundationReason : ParseException → Option String)
  (classes : Class → GPBDescriptor Class) (messageClass : Class)

/-- `none` where the process ends. -/
def parseFromData (data : NSData) : Option (Except NSError (GPBMessage Class)) :=
  match mergeFromData classes messageClass init data with
  | .ok message => some (.ok message)
  | .error exception => (errorFromException foundationReason exception).map .error

end GPBMessage

/-- The response class is this message class. -/
def ResponseClass.Parses {Class : Type} (C : ResponseClass (GPBMessage Class))
    (foundationReason : ParseException → Option String) (classes : Class → GPBDescriptor Class)
    (messageClass : Class) : Prop :=
  ∀ data outcome, GPBMessage.parseFromData foundationReason classes messageClass data = some outcome →
    C.parseFromData data = outcome

namespace SessionThreads
variable {Message : Type} {P : Platform} {C : Nat → ResponseClass Message}
  {s t : SessionThreads Message}

/-- The errors that a session has reported itself. -/
def reported (s : SessionThreads Message) (i : Nat) : List NSError :=
  (s.app.sessions[i]?).elim [] LMInnerTubeSession.completions

/-- What the completion of a request may have been called with, when `R` holds of all replies. -/
def Explained (C : Nat → ResponseClass Message) (R : Nat → Option NSData → Option NSError → Prop)
    (s : SessionThreads Message) (i : Nat) (result : RequestResult Message) : Prop :=
  (∃ data error, R i data error ∧ result = (C i).completionBlock data error) ∨
    ∃ error ∈ s.reported i, result = (none, some error)

/-- Of the replies that are taken up, `R` holds. -/
def Answers (R : Nat → Option NSData → Option NSError → Prop) (s : SessionThreads Message) :
    Action → Prop
  | .taskReply k data error => ∀ i ∈ s.tasks[k]?, R i data error
  | _ => True

/-- All results are explained, and the replies that are being handled are in order. -/
structure Replied (C : Nat → ResponseClass Message)
    (R : Nat → Option NSData → Option NSError → Prop)
    (s : SessionThreads Message) : Prop where
  accounted : Accounted s
  results : ∀ i, ∀ result ∈ s.results i, Explained C R s i result
  responses : ∀ i data error, .taskResponse i data error ∈ s.queue → R i data error

variable {R : Nat → Option NSData → Option NSError → Prop} {k : Nat}

theorem Explained.mono {i : Nat} {result : RequestResult Message} (explained : Explained C R s i result)
    (more : s.reported i ⊆ t.reported i) : Explained C R t i result := by
  rcases explained with reply | ⟨error, member, same⟩
  · exact .inl reply
  · exact .inr ⟨error, more member, same⟩

theorem reported_modify {change : LMInnerTubeSession → LMInnerTubeSession}
    (more : ∀ session, session.completions ⊆ (change session).completions) (k i : Nat) :
    s.reported i ⊆ (s.modify k change).reported i := by
  rw [reported, reported, sessions_modify]
  split_ifs with same
  · cases s.app.sessions[i]? with
    | none => exact List.Subset.refl []
    | some session => exact more session
  · exact List.Subset.refl _

theorem mem_results_finish {i : Nat} {data : Option NSData} {error : Option NSError}
    {result : RequestResult Message} (member : result ∈ (s.finish C k data error).results i) :
    result ∈ s.results i ∨ k = i ∧ result = (C i).completionBlock data error := by
  change result ∈ Function.update s.results k _ i at member
  by_cases same : k = i
  · rw [same, Function.update_self] at member
    rcases List.mem_append.mp member with old | new
    · exact .inl old
    · subst same
      exact .inr ⟨rfl, List.mem_singleton.mp new⟩
  · rw [Function.update_of_ne (Ne.symm same)] at member
    exact .inl member

theorem mem_reported (present : k < s.app.sessions.length) (error : NSError) :
    error ∈ (s.modify k fun session => session._callCompletionWithError error).reported k := by
  rw [reported, sessions_modify, if_pos rfl, List.getElem?_eq_getElem present]
  exact List.mem_append_right _ List.mem_cons_self

theorem SessionMove.explained {step : SessionStep} {next : List SessionStep}
    (move : SessionMove C s k step t next) (enabled : Enabled s k step)
    (results : ∀ i, ∀ result ∈ s.results i, Explained C R s i result) (i : Nat)
    (result : RequestResult Message) (member : result ∈ t.results i) : Explained C R t i result := by
  cases move with
  | reads | addsCallback | asks => exact results i result member
  | prepares replaces test keeps =>
      refine (results i result member).mono (reported_modify (fun session => ?_) k i)
      rw [keeps.completions]
      exact List.Subset.refl _
  | writesCrypto | writesAccess =>
      refine (results i result member).mono (reported_modify ?_ k i)
      exact fun session => List.Subset.refl session.completions
  | starts green =>
      refine (results i result member).mono ?_
      rw [reported, reported, sessions_start]
      exact List.Subset.refl _
  | reports error =>
      rcases mem_results_finish member with old | ⟨rfl, rfl⟩
      · exact (results i result old).mono
          (reported_modify (fun session => List.subset_append_left session.completions _) k i)
      · exact .inr ⟨error, mem_reported (enabled.present Nat.one_pos) error, rfl⟩

theorem QueueMove.explained {step : QueueStep} {next : List QueueStep}
    (move : QueueMove P C s step t next) (enabled : QueueEnabled s step)
    (response : ∀ i data error, step = .taskResponse i data error → R i data error)
    (results : ∀ i, ∀ result ∈ s.results i, Explained C R s i result) (i : Nat)
    (result : RequestResult Message) (member : result ∈ t.results i) : Explained C R t i result := by
  cases move with
  | session move => exact move.explained (enabled.session _ _ rfl) results i result member
  | registers | refuses | readies | enumerates | called | calls | archives | answers =>
      exact results i result member
  | responds =>
      rcases mem_results_finish member with old | ⟨rfl, rfl⟩
      · exact results i result old
      · exact .inl ⟨_, _, response _ _ _ rfl, rfl⟩

/-- Only a reply brings a response. -/
theorem QueueMove.no_response {step : QueueStep} {next : List QueueStep}
    (move : QueueMove P C s step t next) (i : Nat) (data : Option NSData) (error : Option NSError) :
    .taskResponse i data error ∉ next := by
  intro member
  cases move with
  | session =>
      obtain ⟨_, _, absurd⟩ := List.mem_map.mp member
      cases absurd
  | registers | readies | enumerates | calls | answers => simp at member
  | refuses | called | archives | responds => cases member

theorem Replied.preserve (replied : Replied C R s) {a : Action} (moved : Moved P C s a t)
    (answers : Answers R s a) : Replied C R t := by
  have accounted := replied.accounted
  refine ⟨accounted.preserve moved, ?_, ?_⟩
  · intro i result member
    cases moved with
    | stays | setsRefreshToken | waits | completes | registrationReply | tokenReply | taskReply =>
        exact replied.results i result member
    | creates request =>
        have same := read_created (fun found => found.elim [] LMInnerTubeSession.completions)
          (.initWithRequest request) rfl s.app.sessions i
        refine (replied.results i result member).mono fun error inside => ?_
        change error ∈ (s.app.sessions ++ [.initWithRequest request])[i]?.elim [] _
        rwa [same]
    | caller front ran =>
        exact (accounted.caller_move front ran).explained (accounted.caller_enabled front)
          replied.results i result member
    | queue front ran =>
        refine (accounted.queue_move front ran).explained (accounted.queue_enabled front) ?_
          replied.results i result member
        rintro j data error rfl
        exact replied.responses j data error (front ▸ List.mem_cons_self)
  · intro i data error member
    cases moved with
    | stays | setsRefreshToken | waits | creates | completes =>
        exact replied.responses i data error member
    | caller front ran =>
        have queue := (accounted.caller_move front ran).frame.queue
        exact replied.responses i data error (queue ▸ member)
    | queue front ran =>
        rcases List.mem_append.mp member with new | old
        · exact absurd new ((accounted.queue_move front ran).no_response i data error)
        · exact replied.responses i data error (front ▸ List.mem_cons_of_mem _ old)
    | registrationReply | tokenReply => simp at member
    | taskReply free found =>
        obtain ⟨rfl, rfl, rfl⟩ := QueueStep.taskResponse.inj (List.mem_singleton.mp member)
        exact answers _ found

theorem replied_launched {before app : InnerTube} (launch : before.launch P = .done app) :
    Replied C R (launched app) where
  accounted := accounted_launched launch
  results _ _ member := by cases member
  responses _ _ _ member := by cases member

/-- In every interleaving, what holds of all replies explains all results. -/
theorem explained_of_answers {before app : InnerTube} (launch : before.launch P = .done app)
    {actions : List Action} (answers : Along (step P C) (Answers R) (launched app) actions) :
    Always (step P C) (fun s => ∀ i, ∀ result ∈ s.results i, Explained C R s i result) (launched app)
      actions := by
  refine Runs.always_of_along ?_ (fun s replied => replied.results) (replied_launched launch) answers
  intro s a replied answers
  exact replied.preserve (moved P C s a) answers

section
open GPBMessage (ProperMessage)
open GPBCodedInputStreamState (kDefaultRecursionLimit)
variable {Class : Type} {foundationReason : ParseException → Option String}
  {classes : Class → GPBDescriptor Class} {messageClass : Class} {responseClass : Nat → Class}
  {C : ResponseClass (GPBMessage Class)} {response : Nat → ResponseClass (GPBMessage Class)}

/-- The server answers request `i` with the data of this message, unless the network fails. -/
inductive AnsweredWith (network : NSError → Prop) (answer : Nat → GPBMessage Class) (i : Nat) :
    Option NSData → Option NSError → Prop where
  | failed (data : Option NSData) {error : NSError} (fails : network error) :
      AnsweredWith network answer i data (some error)
  | answered {data : NSData} (encoded : (answer i).data = some data) :
      AnsweredWith network answer i (some data) none

/-- A completion gets the answer to its own request, or an error of the network or of the session.
The answer is the message that was sent, unless a text in it begins with a byte order mark. -/
def Delivered (classes : Class → GPBDescriptor Class) (responseClass : Nat → Class)
    (network : NSError → Prop) (answer : Nat → GPBMessage Class)
    (s : SessionThreads (GPBMessage Class)) : Prop :=
  ∀ i, ∀ result ∈ s.results i,
    (∃ message, result = (some message, none) ∧
      ProperMessage classes kDefaultRecursionLimit (responseClass i) message ∧
        ((answer i).Unmarked → message = answer i)) ∨
      ∃ error, result = (none, some error) ∧ (network error ∨ error ∈ s.reported i)

theorem completionBlock_data (parses : C.Parses foundationReason classes messageClass)
    {sent : GPBMessage Class}
    (proper : ProperMessage classes kDefaultRecursionLimit messageClass sent)
    (small : sent.serializedSize < 2 ^ 31) {data : NSData} (encoded : sent.data = some data) :
    ∃ message, C.completionBlock (some data) none = (some message, none) ∧
      ProperMessage classes kDefaultRecursionLimit messageClass message ∧
        (sent.Unmarked → message = sent) := by
  obtain rfl : sent.encoding = data :=
    Option.some.inj ((GPBMessage.data_small small).symm.trans encoded)
  obtain ⟨message, parsed, properMessage, same⟩ := GPBMessage.mergeFromData_encoding proper small
  have outcome : GPBMessage.parseFromData foundationReason classes messageClass sent.encoding =
      some (.ok message) := by rw [GPBMessage.parseFromData, parsed]
  refine ⟨message, ?_, properMessage, same⟩
  rw [ResponseClass.completionBlock, parses _ _ outcome]

theorem launch_newDevice : newDevice.launch InnerTube.zeroPlatform = .done newApp := rfl

/-- Each request asks for a message of the sample's class. -/
def sampleResponse (_ : Nat) : ResponseClass (GPBMessage Bool) where
  parseFromData data := (GPBMessage.parseFromData (fun _ => none) GPBMessage.sampleClasses false
    data).getD (.error notReadyError)
  JSONObjectWithData _ := none

theorem parses_sampleResponse (i : Nat) :
    (sampleResponse i).Parses (fun _ => none) GPBMessage.sampleClasses false := by
  intro data outcome parsed
  exact congrArg (·.getD (.error notReadyError)) parsed

/-- One request, answered with the sample. -/
def sampleExchange (request : NSMutableURLRequest) : List Action :=
  [.sessionWithRequest request, .complete 0] ++ List.replicate 5 (.caller 0) ++
    [.registrationReply .success 0 (.object InnerTube.registrationObject)] ++
    List.replicate 9 .queue ++ [.tokenReply 0 (.object InnerTube.generalObject), .queue, .queue,
      .tokenReply 0 (.object InnerTube.issueTokenObject)] ++ List.replicate 4 .queue ++
    [.taskReply 0 (some GPBMessage.sampleMessage.encoding) none, .queue]

theorem answers_sampleExchange
    (reply : ∀ i, R i (some GPBMessage.sampleMessage.encoding) none) (request : NSMutableURLRequest)
    (s : SessionThreads (GPBMessage Class)) :
    Along (step P response) (Answers R) s (sampleExchange request) := by
  refine Runs.along_of_forall (fun a member s => ?_) s
  cases a with
  | taskReply k data error =>
      simp only [sampleExchange, List.mem_append, List.mem_cons, List.mem_replicate, reduceCtorEq,
        and_false, List.not_mem_nil, or_false, false_or, Action.taskReply.injEq] at member
      obtain ⟨_, rfl, rfl⟩ := member
      exact fun i _ => reply i
  | _ => trivial

/-- The process outlives the parsing of these bytes. -/
structure Survived (foundationReason : ParseException → Option String)
    (classes : Class → GPBDescriptor Class) (messageClass : Class) (bytes : NSData) : Prop where
  small : bytes.length < 2 ^ 62
  returns : (GPBMessage.parseFromData foundationReason classes messageClass bytes).isSome = true

theorem survived_of_no_strings (noStrings : ¬ GPBMessage.HasType classes .string) {bytes : NSData}
    (small : bytes.length < 2 ^ 62) : Survived foundationReason classes messageClass bytes := by
  refine ⟨small, ?_⟩
  have lands := GPBMessage.mergeFromData_lands small
    (GPBMessage.proper_init classes kDefaultRecursionLimit messageClass)
  rw [GPBMessage.parseFromData]
  cases outcome : GPBMessage.mergeFromData classes messageClass .init bytes with
  | ok message => rfl
  | error e =>
      rw [outcome] at lands
      rcases lands with (⟨code, reason, rfl⟩ | rfl) | ⟨_, strings⟩
      · rfl
      · rfl
      · exact absurd strings noStrings

theorem completionBlock_proper (parses : C.Parses foundationReason classes messageClass)
    {data : Option NSData}
    (survived : ∀ bytes ∈ data, Survived foundationReason classes messageClass bytes)
    {error : Option NSError} {message : GPBMessage Class}
    (got : (C.completionBlock data error).1 = some message) :
    ProperMessage classes kDefaultRecursionLimit messageClass message := by
  cases error with
  | some error => cases got
  | none =>
      cases data with
      | none => cases got
      | some bytes =>
          obtain ⟨small, returns⟩ := survived bytes rfl
          have lands := GPBMessage.mergeFromData_lands small
            (GPBMessage.proper_init classes kDefaultRecursionLimit messageClass)
          obtain ⟨outcome, parsed⟩ := Option.isSome_iff_exists.mp returns
          have same := parses bytes outcome parsed
          rw [GPBMessage.parseFromData] at parsed
          rw [ResponseClass.completionBlock, same] at got
          cases merged : GPBMessage.mergeFromData classes messageClass .init bytes with
          | ok set =>
              rw [merged] at lands parsed
              obtain rfl := Option.some.inj parsed
              obtain rfl := Option.some.inj got
              exact lands
          | error e =>
              rw [merged] at parsed
              obtain ⟨raised, _, rfl⟩ := Option.map_eq_some_iff.mp parsed
              dsimp only at got
              split at got <;> cases got

/-- Whatever bytes come as responses, in every interleaving: the message that a completion gets is one
of its response class, with all invariants. -/
theorem proper_of_survived {before app : InnerTube} (launch : before.launch P = .done app)
    (parses : ∀ i, (response i).Parses foundationReason classes (responseClass i))
    {actions : List Action} (answers : Along (step P response) (Answers fun i data _ =>
      ∀ bytes ∈ data, Survived foundationReason classes (responseClass i) bytes) (launched app)
        actions) :
    Always (step P response) (fun s => ∀ i, ∀ result ∈ s.results i, ∀ message ∈ result.1,
      ProperMessage classes kDefaultRecursionLimit (responseClass i) message) (launched app)
        actions := by
  refine fun front isFront => ?_
  have explained := explained_of_answers launch answers front isFront
  intro i result member message got
  rcases explained i result member with ⟨data, error, survived, rfl⟩ | ⟨error, _, rfl⟩
  · exact completionBlock_proper (parses i) survived got
  · cases got

theorem proper_sampleExchange :
    Always (step InnerTube.zeroPlatform sampleResponse) (fun s => ∀ i, ∀ result ∈ s.results i,
      ∀ message ∈ result.1, ProperMessage GPBMessage.sampleClasses kDefaultRecursionLimit false message)
      (launched newApp) (sampleExchange InnerTube.searchRequest) := by
  refine proper_of_survived launch_newDevice
    parses_sampleResponse (answers_sampleExchange (fun _ bytes same => ?_) _ _)
  obtain rfl := Option.some.inj same
  have length := GPBMessage.encoding_length GPBMessage.serializedSize_sampleMessage
  have small := GPBMessage.serializedSize_sampleMessage
  obtain ⟨_, parsed, _⟩ := GPBMessage.mergeFromData_encoding GPBMessage.proper_sampleMessage small
  refine ⟨by omega, ?_⟩
  rw [GPBMessage.parseFromData, parsed]
  rfl

end

/-- Neither signing nor authorizing changes this of a request. -/
structure SameContent (request request' : NSMutableURLRequest) : Prop where
  url : request'.url = request.url
  httpMethod : request'.httpMethod = request.httpMethod
  httpBody : request'.httpBody = request.httpBody
  contentLength : request'.headers "Content-Length" = request.headers "Content-Length"
  contentType : request'.headers "Content-Type" = request.headers "Content-Type"

theorem SameContent.refl (request : NSMutableURLRequest) : SameContent request request :=
  ⟨rfl, rfl, rfl, rfl, rfl⟩

theorem SameContent.trans {request request' request'' : NSMutableURLRequest}
    (first : SameContent request request') (second : SameContent request' request'') :
    SameContent request request'' where
  url := second.url.trans first.url
  httpMethod := second.httpMethod.trans first.httpMethod
  httpBody := second.httpBody.trans first.httpBody
  contentLength := second.contentLength.trans first.contentLength
  contentType := second.contentType.trans first.contentType

theorem sameContent_setValue (request : NSMutableURLRequest) (value : NSString) {field : String}
    (notLength : "Content-Length" ≠ field) (notType : "Content-Type" ≠ field) :
    SameContent request (request.setValue value field) where
  url := rfl
  httpMethod := rfl
  httpBody := rfl
  contentLength := request.setValue_other value notLength
  contentType := request.setValue_other value notType

theorem sameContent_sign (cryptoManager : LMRequestCryptoManager) (request : NSMutableURLRequest) :
    SameContent request (cryptoManager.signURLRequest P request).1 := by
  rw [LMRequestCryptoManager.signURLRequest]
  split_ifs
  · cases cryptoManager._crypto with
    | none => exact .refl request
    | some crypto => exact sameContent_setValue request _ (by decide) (by decide)
  · exact .refl request

/-- What the sessions and their tasks still have of the requests they were made with; the process
may have started `earlier` ones before. -/
structure Carry (original : Nat → NSMutableURLRequest) (earlier : List StartedTask)
    (s : SessionThreads Message) : Prop where
  sessions : ∀ i session, s.app.sessions[i]? = some session →
    SameContent (original i) session.urlRequest
  started : ∀ task ∈ s.app.started, task ∈ earlier ∨
    ∃ i < s.app.sessions.length, SameContent (original i) task.urlRequest

variable {original : Nat → NSMutableURLRequest} {earlier : List StartedTask}

theorem Carry.modify (carry : Carry original earlier s)
    {change : LMInnerTubeSession → LMInnerTubeSession}
    (same : ∀ session, SameContent session.urlRequest (change session).urlRequest) (k : Nat) :
    Carry original earlier (s.modify k change) := by
  constructor
  · intro i session found
    rw [sessions_modify] at found
    split_ifs at found with here
    · obtain ⟨before, stored, rfl⟩ := Option.map_eq_some_iff.mp found
      exact (carry.sessions i before stored).trans (same before)
    · exact carry.sessions i session found
  · rw [length_modify]
    intro task member
    refine carry.started task ?_
    change task ∈ (s.app.atSession k _).started at member
    rw [InnerTube.atSession] at member
    cases found : s.app.sessions[k]? with
    | none => rwa [found] at member
    | some session =>
        rw [found] at member
        rcases List.mem_append.mp member with old | none
        · exact old
        · cases none

theorem Carry.start (carry : Carry original earlier s) (k : Nat) :
    Carry original earlier (s.start k) := by
  constructor
  · rw [sessions_start]
    exact carry.sessions
  · rw [sessions_start]
    intro task member
    change task ∈ (s.app.atSession k _).started at member
    rw [InnerTube.atSession] at member
    cases found : s.app.sessions[k]? with
    | none =>
        rw [found] at member
        exact carry.started task member
    | some session =>
        rw [found] at member
        rcases List.mem_append.mp member with old | new
        · exact carry.started task old
        · have inside := (List.getElem?_eq_some_iff.mp found).1
          rw [LMInnerTubeSession._testAndExecute] at new
          split_ifs at new
          · obtain rfl := List.mem_singleton.mp new
            exact .inr ⟨k, inside, carry.sessions k session found⟩
          · cases new

theorem Carry.frame (carry : Carry original earlier s) (sessions : t.app.sessions = s.app.sessions)
    (started : t.app.started = s.app.started) : Carry original earlier t where
  sessions := sessions ▸ carry.sessions
  started := by
    rw [started, sessions]
    exact carry.started

theorem Carry.execSession (carry : Carry original earlier s) {step : SessionStep}
    {next : List SessionStep} (ran : s.execSession P C k step = .ok (t, next)) : Carry original earlier t := by
  cases step with
  | setUserAgent =>
      cases ran
      exact carry.modify (fun session =>
        sameContent_setValue session.urlRequest _ (by decide) (by decide)) k
  | readReady =>
      simp only [SessionThreads.execSession] at ran
      split_ifs at ran <;> cases ran <;> exact carry
  | addReadyCallback =>
      cases ran
      exact carry.frame rfl rfl
  | sign =>
      simp only [SessionThreads.execSession] at ran
      split at ran <;> cases ran <;>
        exact carry.modify (fun session => sameContent_sign _ session.urlRequest) k
  | writeCryptoGreenLight | writeAccessGreenLight =>
      cases ran
      refine carry.modify ?_ k
      exact fun session => .refl session.urlRequest
  | readPrivateAccess =>
      simp only [SessionThreads.execSession] at ran
      split at ran <;> cases ran <;> exact carry
  | authorize =>
      cases ran
      exact carry.modify (fun session =>
        sameContent_setValue session.urlRequest _ (by decide) (by decide)) k
  | updatePrivateAccessToken =>
      simp only [SessionThreads.execSession] at ran
      split at ran
      · rename_i app sent
        cases ran
        obtain ⟨request, _, rfl⟩ := updatePrivate_asks sent
        exact carry.frame rfl rfl
      · cases ran
  | callCompletion error =>
      cases ran
      have reported : Carry original earlier (s.modify k (·._callCompletionWithError error)) := by
        refine carry.modify ?_ k
        exact fun session => .refl session.urlRequest
      exact reported.frame rfl rfl
  | testAndExecute =>
      simp only [SessionThreads.execSession] at ran
      split_ifs at ran <;> cases ran
      · exact carry.start k
      · exact carry

theorem Carry.execQueue (carry : Carry original earlier s) {step : QueueStep} {next : List QueueStep}
    (ran : s.execQueue P C step = .ok (t, next)) : Carry original earlier t := by
  cases step with
  | session i own =>
      obtain ⟨⟨u, later⟩, executed, same⟩ := map_eq_ok ran
      cases same
      exact carry.execSession executed
  | registered status garbage reply =>
      obtain ⟨⟨crypto, error⟩, _, same⟩ := map_eq_ok ran
      cases error <;> cases same <;> exact carry.frame rfl rfl
  | writeReady | archive | enumerateReadyCallbacks =>
      cases ran
      exact carry.frame rfl rfl
  | callNext rest count =>
      cases rest with
      | nil =>
          cases ran
          exact carry
      | cons i rest =>
          simp only [SessionThreads.execQueue] at ran
          split_ifs at ran
          cases ran
          exact carry
  | tokenResponse request reply =>
      simp only [SessionThreads.execQueue] at ran
      cases reply with
      | failed | notJSON =>
          cases ran
          exact carry
      | array => cases ran
      | object jsonResponse =>
          cases request <;>
            obtain ⟨⟨tokenManager, defaults⟩, _, same⟩ := map_eq_ok ran <;> cases same <;>
              exact carry.frame rfl rfl
  | taskResponse i data error =>
      cases ran
      exact carry.frame rfl rfl

/-- Requests are made in the order of `original`. -/
def Makes (original : Nat → NSMutableURLRequest) (s : SessionThreads Message) : Action → Prop
  | .sessionWithRequest request => request = original s.app.sessions.length
  | _ => True

theorem Carry.preserve (carry : Carry original earlier s) {a : Action} (moved : Moved P C s a t)
    (makes : Makes original s a) : Carry original earlier t := by
  cases moved with
  | stays | setsRefreshToken | waits | completes | registrationReply | tokenReply | taskReply =>
      exact carry.frame rfl rfl
  | creates request =>
      obtain rfl : request = original s.app.sessions.length := makes
      constructor
      · intro i session found
        change (s.app.sessions ++ [_])[i]? = some session at found
        rcases Nat.lt_trichotomy i s.app.sessions.length with inside | rfl | beyond
        · rw [List.getElem?_append_left inside] at found
          exact carry.sessions i session found
        · rw [List.getElem?_concat_length] at found
          cases found
          exact .refl _
        · rw [List.getElem?_eq_none (by rw [List.length_append]; exact beyond)] at found
          cases found
      · intro task member
        rcases carry.started task member with old | ⟨i, inside, same⟩
        · exact .inl old
        · refine .inr ⟨i, ?_, same⟩
          change i < (s.app.sessions ++ [_]).length
          rw [List.length_append]
          exact Nat.lt_add_right _ inside
  | caller front ran => exact (carry.execSession ran).frame rfl rfl
  | queue front ran => exact (carry.execQueue ran).frame rfl rfl

end SessionThreads

/-- What `completeRequestWithCompletion:` sends. -/
structure LMInnerTubeRequest (Class : Type) where
  URL : NSData
  message : GPBMessage Class

namespace LMInnerTubeRequest
open GPBMessage (ProperMessage mergeFromData)
open GPBCodedInputStreamState (kDefaultRecursionLimit)
variable {Class : Type} {classes : Class → GPBDescriptor Class} {messageClass : Class}

def request (self : LMInnerTubeRequest Class) : NSMutableURLRequest :=
  let messageData := self.message.data
  let request : NSMutableURLRequest :=
    { url := self.URL, httpMethod := "POST", httpBody := messageData, headers := fun _ => none }
  let length := (messageData.map List.length).getD 0
  (request.setValue (literal (toString length)) "Content-Length").setValue
    (literal "application/x-protobuf") "Content-Type"

/-- The request posts this message: a parser of the class makes a message of the body, and this one
unless a text begins with a byte order mark. -/
structure Posts (classes : Class → GPBDescriptor Class) (messageClass : Class)
    (asked : LMInnerTubeRequest Class) (request : NSMutableURLRequest) : Prop where
  url : request.url = asked.URL
  httpMethod : request.httpMethod = "POST"
  contentType : request.headers "Content-Type" = some (literal "application/x-protobuf")
  body : ∃ data message, request.httpBody = some data ∧
    request.headers "Content-Length" = some (literal (toString data.length)) ∧
      mergeFromData classes messageClass .init data = .ok message ∧
        ProperMessage classes kDefaultRecursionLimit messageClass message ∧
          (asked.message.Unmarked → message = asked.message)

theorem posts_request (self : LMInnerTubeRequest Class)
    (proper : ProperMessage classes kDefaultRecursionLimit messageClass self.message)
    (small : self.message.serializedSize < 2 ^ 31) : Posts classes messageClass self self.request where
  url := rfl
  httpMethod := rfl
  contentType := NSMutableURLRequest.setValue_same ..
  body := by
    have encoded := GPBMessage.data_small small
    obtain ⟨message, parsed⟩ := GPBMessage.mergeFromData_encoding proper small
    refine ⟨self.message.encoding, message, encoded, ?_, parsed⟩
    rw [request, NSMutableURLRequest.setValue_other _ _ (by decide),
      NSMutableURLRequest.setValue_same, encoded]
    rfl

theorem Posts.sameContent {asked : LMInnerTubeRequest Class} {request request' : NSMutableURLRequest}
    (posts : Posts classes messageClass asked request)
    (same : SessionThreads.SameContent request request') :
    Posts classes messageClass asked request' where
  url := same.url.trans posts.url
  httpMethod := same.httpMethod.trans posts.httpMethod
  contentType := same.contentType.trans posts.contentType
  body := by
    obtain ⟨data, message, body, length, parsed⟩ := posts.body
    exact ⟨data, message, same.httpBody.trans body, same.contentLength.trans length, parsed⟩

end LMInnerTubeRequest

namespace SessionThreads
open GPBMessage (ProperMessage)
open GPBCodedInputStreamState (kDefaultRecursionLimit)
open LMInnerTubeRequest (Posts)
variable {Message Class : Type} {P : Platform} {C : Nat → ResponseClass Message}
  {classes : Class → GPBDescriptor Class} {requestClass : Nat → Class}
  {requests : Nat → LMInnerTubeRequest Class}

/-- Every task that is started is that of a request, whose message is in its body. -/
def Posted (classes : Class → GPBDescriptor Class) (requestClass : Nat → Class)
    (requests : Nat → LMInnerTubeRequest Class) (earlier : List StartedTask)
    (s : SessionThreads Message) : Prop :=
  ∀ task ∈ s.app.started, task ∈ earlier ∨
    ∃ i < s.app.sessions.length, Posts classes (requestClass i) (requests i) task.urlRequest

theorem carry_launched {before app : InnerTube} (launch : before.launch P = .done app)
    (original : Nat → NSMutableURLRequest) :
    Carry original app.started (launched app : SessionThreads Message) where
  sessions i session found := by
    rw [launched, (launch_fresh launch).1] at found
    cases found
  started _ member := .inl member

/-- The sample is asked for with itself. -/
def sampleRequest : LMInnerTubeRequest Bool where
  URL := InnerTube.searchRequest.url
  message := GPBMessage.sampleMessage

end SessionThreads
end LeptosMusic
