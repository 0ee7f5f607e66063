import LeptosMusic.SessionMoves

/-!
# The ledger of the sessions

What holds in every state of every run: a session whose `complete` was called has one source for
each light at most, and whatever was started or reported is either on its way to the completion or
has reached it.
-/
namespace LeptosMusic
open Runs (Outcome)
open Weights
namespace SessionThreads
variable {Message : Type} {P : Platform} {C : Nat → ResponseClass Message}
  {s t : SessionThreads Message} {k : Nat} {step : SessionStep} {next : List SessionStep}

/-- What happens in one step. A thread that raises leaves everything as it is. -/
inductive Moved (P : Platform) (C : Nat → ResponseClass Message) (s : SessionThreads Message) :
    Action → SessionThreads Message → Prop where
  | stays {a : Action} : Moved P C s a s
  | setsRefreshToken (refreshToken : Option NSString) : Moved P C s (.setRefreshToken refreshToken)
      { s with app := { s.app with tokenManager := s.app.tokenManager.setRefreshToken refreshToken } }
  | waits (seconds : Nat) : Moved P C s (.wait seconds)
      { s with app := { s.app with now := s.app.now + seconds } }
  | creates (request : NSMutableURLRequest) : Moved P C s (.sessionWithRequest request)
      { s with app := { s.app with sessions := s.app.sessions ++ [.initWithRequest request] } }
  | completes {k : Nat} (present : k < s.app.sessions.length) (fresh : s.called k = false) :
      Moved P C s (.complete k) { s with
        called := Function.update s.called k true
        callers := Function.update s.callers k completeSteps }
  | caller {k : Nat} {step : SessionStep} {rest next : List SessionStep} {t : SessionThreads Message}
      (front : s.callers k = step :: rest) (ran : s.execSession P C k step = .ok (t, next)) :
      Moved P C s (.caller k) { t with callers := Function.update t.callers k (next ++ rest) }
  | queue {step : QueueStep} {rest next : List QueueStep} {t : SessionThreads Message}
      (front : s.queue = step :: rest) (ran : s.execQueue P C step = .ok (t, next)) :
      Moved P C s .queue { t with queue := next ++ rest }
  | registrationReply {status : CryptorStatus} {garbage : UInt8} {reply : URLReply} (free : s.queue = [])
      (registering : s.app.registering = true) : Moved P C s (.registrationReply status garbage reply)
        { s with
          app := { s.app with registering := false }
          queue := [.registered status garbage reply] }
  | tokenReply {n : Nat} {request : TokenRequest} {reply : URLReply} (free : s.queue = [])
      (found : s.app.tokenRequests[n]? = some request) :
      Moved P C s (.tokenReply n reply)
        { s with
          app := { s.app with tokenRequests := s.app.tokenRequests.eraseIdx n }
          queue := [.tokenResponse request reply] }
  | taskReply {n k : Nat} {data : Option NSData} {error : Option NSError} (free : s.queue = [])
      (found : s.tasks[n]? = some k) :
      Moved P C s (.taskReply n data error)
        { s with tasks := s.tasks.eraseIdx n, queue := [.taskResponse k data error] }

theorem moved (P : Platform) (C : Nat → ResponseClass Message) (s : SessionThreads Message) (a : Action) :
    Moved P C s a (s.step P C a).state := by
  cases a with
  | sessionWithRequest request => exact .creates request
  | complete k =>
      simp only [SessionThreads.step]
      split_ifs with fresh
      · exact .completes fresh.1 fresh.2
      · exact .stays
  | caller k =>
      simp only [SessionThreads.step, stepCaller]
      cases front : s.callers k with
      | nil => exact .stays
      | cons step rest =>
          cases ran : s.execSession P C k step with
          | error fault =>
              simp only [ran]
              exact .stays
          | ok result =>
              simp only [ran]
              exact .caller front ran
  | queue =>
      simp only [SessionThreads.step, stepQueue]
      cases front : s.queue with
      | nil => exact .stays
      | cons step rest =>
          cases ran : s.execQueue P C step with
          | error fault =>
              simp only [ran]
              exact .stays
          | ok result =>
              simp only [ran]
              exact .queue front ran
  | registrationReply status garbage reply =>
      simp only [SessionThreads.step]
      split_ifs with awaited
      · exact .registrationReply awaited.1 awaited.2
      · exact .stays
  | tokenReply n reply =>
      simp only [SessionThreads.step]
      split
      · next request free found => exact .tokenReply free found
      · exact .stays
  | taskReply n data error =>
      simp only [SessionThreads.step]
      split
      · next k free found => exact .taskReply free found
      · exact .stays
  | setRefreshToken refreshToken => exact .setsRefreshToken refreshToken
  | wait seconds => exact .waits seconds

/-- The accounts in balance. -/
structure Accounted (s : SessionThreads Message) : Prop where
  present : ∀ i, s.called i = true → i < s.app.sessions.length
  idle : ∀ i, s.called i = false → s.callers i = []
  callersReady : ∀ i, ∀ step ∈ s.callers i, step.needsReady = true →
    s.app.cryptoManager.ready = true
  queueReady : ∀ step ∈ s.queue, step.needsReady = true → s.app.cryptoManager.ready = true
  walk : s.walkAccount ≤ 1
  crypto : ∀ i, s.cryptoAccount i ≤ (s.called i).toNat
  access : ∀ i, s.accessAccount i = (s.called i).toNat
  settled : ∀ i, (s.results i).length + s.responses i = s.starts i + s.errors i
  tested : ∀ i, s.lightsGreen i = true → 1 ≤ s.starts i + s.pendingTests i

theorem Accounted.called_of_source (accounted : Accounted s) {k : Nat}
    (source : 0 < s.cryptoAccount k + s.accessAccount k) : s.called k = true := by
  have crypto := accounted.crypto k
  have access := accounted.access k
  cases called : s.called k with
  | true => rfl
  | false =>
      rw [called] at crypto access
      change _ ≤ 0 at crypto
      change _ = 0 at access
      omega

/-- What an account counts leaves no room for the light itself. -/
theorem Accounted.dark (accounted : Accounted s) (k : Nat) :
    (s.uncalled k + weigh SessionStep.cryptoSource (s.callers k) +
        weigh (QueueStep.cryptoSource k) s.queue ≥ 1 → s.cryptoLight k = false) ∧
      (s.errors k + weigh (own ·.session k 1) s.app.tokenRequests +
        weigh SessionStep.accessSource (s.callers k) + weigh (QueueStep.accessSource k) s.queue ≥ 1 →
          s.accessLight k = false) := by
  have crypto := accounted.crypto k
  have access := accounted.access k
  have bound := Bool.toNat_le (s.called k)
  unfold cryptoAccount cryptoCore at crypto
  unfold accessAccount accessCore at access
  constructor
  · intro source
    apply Bool.eq_false_iff.mpr
    intro green
    rw [green] at crypto
    change 1 + _ + _ + _ ≤ _ at crypto
    omega
  · intro source
    apply Bool.eq_false_iff.mpr
    intro green
    rw [green] at access
    change 1 + _ + _ + _ + _ = _ at access
    omega

theorem Accounted.caller_enabled (accounted : Accounted s) {rest : List SessionStep}
    (front : s.callers k = step :: rest) : Enabled s k step := by
  obtain ⟨cryptoDark, accessDark⟩ := accounted.dark k
  have crypto : weigh SessionStep.cryptoSource (s.callers k) =
      step.cryptoSource + weigh SessionStep.cryptoSource rest := by
    rw [front, weigh_cons]
  have access : weigh SessionStep.accessSource (s.callers k) =
      step.accessSource + weigh SessionStep.accessSource rest := by
    rw [front, weigh_cons]
  refine ⟨fun source => ?_, ?_, ?_⟩
  · apply accounted.present
    apply accounted.called_of_source
    unfold cryptoAccount accessAccount
    omega
  · rintro rfl
    apply cryptoDark
    rw [crypto]
    change _ + (1 + _) + _ ≥ 1
    omega
  · rintro rfl
    apply accessDark
    rw [access]
    change _ + (1 + _) + _ ≥ 1
    omega

theorem Accounted.queue_enabled (accounted : Accounted s) {step : QueueStep} {rest : List QueueStep}
    (front : s.queue = step :: rest) : QueueEnabled s step := by
  constructor
  · rintro k own rfl
    obtain ⟨cryptoDark, accessDark⟩ := accounted.dark k
    have crypto : weigh (QueueStep.cryptoSource k) s.queue =
        own.cryptoSource + weigh (QueueStep.cryptoSource k) rest := by
      rw [front, weigh_cons, QueueStep.cryptoSource, own_self]
    have access : weigh (QueueStep.accessSource k) s.queue =
        own.accessSource + weigh (QueueStep.accessSource k) rest := by
      rw [front, weigh_cons, QueueStep.accessSource, own_self]
    refine ⟨fun source => ?_, ?_, ?_⟩
    · apply accounted.present
      apply accounted.called_of_source
      unfold cryptoAccount accessAccount
      omega
    · rintro rfl
      apply cryptoDark
      rw [crypto]
      change _ + (1 + _) ≥ 1
      omega
    · rintro rfl
      apply accessDark
      rw [access]
      change _ + (1 + _) ≥ 1
      omega
  · intro source
    have walk := accounted.walk
    unfold walkAccount at walk
    rw [front, weigh_cons] at walk
    apply Bool.eq_false_iff.mpr
    intro walked
    rw [walked] at walk
    change _ + 1 + _ ≤ 1 at walk
    omega

section
variable {a : Action}

theorem Accounted.caller_move (accounted : Accounted s) {rest : List SessionStep}
    (front : s.callers k = step :: rest) (ran : s.execSession P C k step = .ok (t, next)) :
    SessionMove C s k step t next :=
  sessionMove ran (accounted.callersReady k step (front ▸ List.mem_cons_self))

theorem Accounted.queue_move (accounted : Accounted s) {step : QueueStep}
    {rest next : List QueueStep} (front : s.queue = step :: rest)
    (ran : s.execQueue P C step = .ok (t, next)) : QueueMove P C s step t next :=
  queueMove ran (accounted.queueReady step (front ▸ List.mem_cons_self))

theorem Accounted.preserve_present (accounted : Accounted s) (moved : Moved P C s a t) (i : Nat)
    (called : t.called i = true) : i < t.app.sessions.length := by
  cases moved with
  | stays | setsRefreshToken | waits | registrationReply | tokenReply | taskReply =>
      exact accounted.present i called
  | creates request =>
      have inside := accounted.present i called
      change i < (s.app.sessions ++ [_]).length
      rw [List.length_append]
      omega
  | @completes k present fresh =>
      by_cases same : k = i
      · exact same ▸ present
      · change Function.update s.called k true i = true at called
        rw [Function.update_of_ne (Ne.symm same)] at called
        exact accounted.present i called
  | @caller k step rest next u front ran =>
      have frame := (accounted.caller_move front ran).frame
      change u.called i = true at called
      rw [frame.called] at called
      exact Nat.lt_of_lt_of_eq (accounted.present i called) frame.length.symm
  | @queue step rest next u front ran =>
      have frame := (accounted.queue_move front ran).frame
      change u.called i = true at called
      rw [frame.called] at called
      exact Nat.lt_of_lt_of_eq (accounted.present i called) frame.length.symm

theorem Accounted.preserve_idle (accounted : Accounted s) (moved : Moved P C s a t) (i : Nat)
    (fresh : t.called i = false) : t.callers i = [] := by
  cases moved with
  | stays | setsRefreshToken | waits | creates | registrationReply | tokenReply | taskReply =>
      exact accounted.idle i fresh
  | @completes k present uncalled =>
      change Function.update s.called k true i = false at fresh
      by_cases same : k = i
      · rw [same, Function.update_self] at fresh
        cases fresh
      · rw [Function.update_of_ne (Ne.symm same)] at fresh
        exact (Function.update_of_ne (Ne.symm same) ..).trans (accounted.idle i fresh)
  | @caller k step rest next u front ran =>
      have frame := (accounted.caller_move front ran).frame
      change u.called i = false at fresh
      rw [frame.called] at fresh
      have none := accounted.idle i fresh
      have other : i ≠ k := by
        rintro rfl
        rw [front] at none
        cases none
      exact (Function.update_of_ne other ..).trans (frame.callers ▸ none)
  | @queue step rest next u front ran =>
      have frame := (accounted.queue_move front ran).frame
      change u.called i = false at fresh
      rw [frame.called] at fresh
      exact frame.callers ▸ accounted.idle i fresh

theorem Accounted.preserve_callersReady (accounted : Accounted s) (moved : Moved P C s a t) (i : Nat)
    (step : SessionStep) (member : step ∈ t.callers i) (needs : step.needsReady = true) :
    t.app.cryptoManager.ready = true := by
  cases moved with
  | stays | setsRefreshToken | waits | creates | registrationReply | tokenReply | taskReply =>
      exact accounted.callersReady i step member needs
  | @completes k present fresh =>
      by_cases same : k = i
      · subst same
        change step ∈ Function.update s.callers k completeSteps k at member
        rw [Function.update_self] at member
        simp only [completeSteps, List.mem_cons, List.not_mem_nil, or_false] at member
        rcases member with rfl | rfl | rfl <;> cases needs
      · change step ∈ Function.update s.callers k completeSteps i at member
        rw [Function.update_of_ne (Ne.symm same)] at member
        exact accounted.callersReady i step member needs
  | @caller k first rest next u front ran =>
      have move := accounted.caller_move front ran
      change step ∈ Function.update u.callers k (next ++ rest) i at member
      apply move.frame.ready
      by_cases same : k = i
      · subst same
        rw [Function.update_self] at member
        rcases List.mem_append.mp member with new | old
        · exact move.needsReady step new needs
        · exact accounted.callersReady k step (front ▸ List.mem_cons_of_mem _ old) needs
      · rw [Function.update_of_ne (Ne.symm same), move.frame.callers] at member
        exact accounted.callersReady i step member needs
  | @queue first rest next u front ran =>
      have frame := (accounted.queue_move front ran).frame
      change step ∈ u.callers i at member
      rw [frame.callers] at member
      exact frame.ready (accounted.callersReady i step member needs)

theorem Accounted.preserve_queueReady (accounted : Accounted s) (moved : Moved P C s a t)
    (step : QueueStep) (member : step ∈ t.queue) (needs : step.needsReady = true) :
    t.app.cryptoManager.ready = true := by
  cases moved with
  | stays | setsRefreshToken | waits | creates | completes =>
      exact accounted.queueReady step member needs
  | registrationReply | tokenReply | taskReply =>
      rw [List.mem_singleton.mp member] at needs
      cases needs
  | @caller k first rest next u front ran =>
      have frame := (accounted.caller_move front ran).frame
      change step ∈ u.queue at member
      rw [frame.queue] at member
      exact frame.ready (accounted.queueReady step member needs)
  | @queue first rest next u front ran =>
      have move := accounted.queue_move front ran
      rcases List.mem_append.mp member with new | old
      · exact move.needsReady (accounted.queueReady first (front ▸ List.mem_cons_self)) step new needs
      · exact move.frame.ready
          (accounted.queueReady step (front ▸ List.mem_cons_of_mem _ old) needs)

/-- A new session adds nothing to what is read of the others. -/
theorem read_created {α : Type} (read : Option LMInnerTubeSession → α) (new : LMInnerTubeSession)
    (same : read (some new) = read none) (sessions : List LMInnerTubeSession) (i : Nat) :
    read (sessions ++ [new])[i]? = read sessions[i]? := by
  rcases Nat.lt_trichotomy i sessions.length with inside | last | beyond
  · rw [List.getElem?_append_left inside]
  · rw [last, List.getElem?_concat_length, List.getElem?_eq_none (Nat.le_refl _), same]
  · rw [List.getElem?_eq_none (by rw [List.length_append]; exact beyond),
      List.getElem?_eq_none (Nat.le_of_lt beyond)]

/-- The step of a session that a thread takes next. -/
def nextStep (s : SessionThreads Message) : Action → Option (Nat × SessionStep)
  | .caller k => (s.callers k).head?.map fun step => (k, step)
  | .queue =>
      match s.queue.head? with
      | some (.session k step) => some (k, step)
      | _ => none
  | _ => none

/-- No callback is added that will not be called. -/
def AddsInTime (s : SessionThreads Message) (a : Action) : Prop :=
  ∀ k step, s.nextStep a = some (k, step) → s.InTime step

theorem nextStep_caller {rest : List SessionStep} (front : s.callers k = step :: rest) :
    s.nextStep (.caller k) = some (k, step) := by
  simp only [nextStep, front, List.head?_cons, Option.map_some]

theorem nextStep_queue {rest : List QueueStep} (front : s.queue = .session k step :: rest) :
    s.nextStep .queue = some (k, step) := by
  simp only [nextStep, front, List.head?_cons]

/-- The step that an action takes of a registration reply is one that goes on to the callbacks. -/
def Accepted (P : Platform) (s : SessionThreads Message) (a : Action) : Prop :=
  a = .queue → ∀ status garbage reply, s.queue.head? = some (.registered status garbage reply) →
    ∀ crypto error, s.registrationResult P status garbage reply ≠ .ok (crypto, some error)

theorem Accounted.moved_walk (accounted : Accounted s) (moved : Moved P C s a t) :
    ∃ lost, t.walkAccount + lost = s.walkAccount ∧ (Accepted P s a → lost = 0) := by
  cases moved with
  | stays | setsRefreshToken | waits | creates | completes => exact ⟨0, rfl, fun _ => rfl⟩
  | registrationReply free registering =>
      refine ⟨0, ?_, fun _ => rfl⟩
      rw [walkAccount, walkAccount, free, registering]
      change 0 + s.walked.toNat + 1 + 0 = 1 + s.walked.toNat + 0
      omega
  | tokenReply free _ | taskReply free _ =>
      refine ⟨0, ?_, fun _ => rfl⟩
      rw [walkAccount, walkAccount, free]
      rfl
  | @caller k step rest next u front ran =>
      have move := accounted.caller_move front ran
      refine ⟨0, ?_, fun _ => rfl⟩
      change u.app.registering.toNat + u.walked.toNat + weigh _ u.queue = _
      rw [move.walk.1, move.walk.2, move.frame.queue]
      rfl
  | @queue step rest next u front ran =>
      have move := accounted.queue_move front ran
      obtain ⟨lost, kept, accepted⟩ := move.walk (accounted.queue_enabled front)
      refine ⟨lost, ?_, fun admitted => accepted ?_⟩
      · change u.app.registering.toNat + u.walked.toNat + weigh _ (next ++ rest) + lost =
          s.app.registering.toNat + s.walked.toNat + weigh _ s.queue
        rw [front, weigh_append, weigh_cons]
        omega
      · rintro status garbage reply rfl
        exact admitted rfl status garbage reply (by rw [front]; rfl)

theorem Accounted.fresh (accounted : Accounted s) (fresh : s.called k = false) :
    s.cryptoAccount k = 0 ∧ s.accessAccount k = 0 := by
  have crypto := accounted.crypto k
  have access := accounted.access k
  rw [fresh] at crypto access
  exact ⟨Nat.le_zero.mp crypto, access⟩

theorem Accounted.moved_crypto (accounted : Accounted s) (moved : Moved P C s a t) (i : Nat) :
    ∃ lost, t.cryptoAccount i + lost + (s.called i).toNat = s.cryptoAccount i + (t.called i).toNat ∧
      (s.AddsInTime a → lost = 0) := by
  cases moved with
  | stays | setsRefreshToken | waits => exact ⟨0, rfl, fun _ => rfl⟩
  | creates request =>
      refine ⟨0, ?_, fun _ => rfl⟩
      have light := read_created (fun found => found.any fun session => session.cryptoGreenLight)
        (.initWithRequest request) rfl s.app.sessions i
      change (Option.any _ _).toNat + s.uncalled i + _ + _ + _ = (s.cryptoLight i).toNat + _ + _ + _ + _
      rw [light]
      rfl
  | @completes k present fresh =>
      refine ⟨0, ?_, fun _ => rfl⟩
      change s.cryptoCore i + weigh _ (Function.update s.callers k completeSteps i) + weigh _ s.queue +
        0 + (s.called i).toNat = _ + (Function.update s.called k true i).toNat
      by_cases same : k = i
      · subst same
        have none := (accounted.fresh fresh).1
        rw [none, Function.update_self, Function.update_self, fresh]
        unfold cryptoAccount at none
        change _ + 1 + _ + 0 + 0 = 0 + 1
        omega
      · rw [Function.update_of_ne (Ne.symm same), Function.update_of_ne (Ne.symm same)]
        rfl
  | registrationReply free _ | tokenReply free _ | taskReply free _ =>
      refine ⟨0, ?_, fun _ => rfl⟩
      rw [cryptoAccount, cryptoAccount, free]
      rfl
  | @caller k step rest next u front ran =>
      have move := accounted.caller_move front ran
      obtain ⟨lost, kept, inTime⟩ := move.crypto (accounted.caller_enabled front) i
      have work := weigh_update SessionStep.cryptoSource front next i
      refine ⟨lost, ?_, fun admitted => inTime (admitted k step (nextStep_caller front))⟩
      change u.cryptoCore i + weigh _ (Function.update u.callers k (next ++ rest) i) + weigh _ u.queue +
        lost + (s.called i).toNat = s.cryptoCore i + weigh _ (s.callers i) + weigh _ s.queue +
          (u.called i).toNat
      rw [move.frame.callers, move.frame.queue, move.frame.called]
      omega
  | @queue step rest next u front ran =>
      have move := accounted.queue_move front ran
      obtain ⟨lost, kept, inTime⟩ := move.crypto (accounted.queue_enabled front) i
      refine ⟨lost, ?_, fun admitted => inTime ?_⟩
      · change u.cryptoCore i + weigh _ (u.callers i) + weigh _ (next ++ rest) + lost +
          (s.called i).toNat = s.cryptoCore i + weigh _ (s.callers i) + weigh _ s.queue +
            (u.called i).toNat
        rw [move.frame.callers, move.frame.called, front, weigh_append, weigh_cons]
        omega
      · rintro k own rfl
        exact admitted k own (nextStep_queue front)

theorem Accounted.moved_access (accounted : Accounted s) (moved : Moved P C s a t) (i : Nat) :
    t.accessAccount i + (s.called i).toNat = s.accessAccount i + (t.called i).toNat := by
  cases moved with
  | stays | setsRefreshToken | waits => rfl
  | creates request =>
      have light := read_created (fun found => found.any fun session => session.accessGreenLight)
        (.initWithRequest request) rfl s.app.sessions i
      have reported := read_created
        (fun found => (found.map fun session => session.completions.length).getD 0)
        (.initWithRequest request) rfl s.app.sessions i
      change (Option.any _ _).toNat + Option.getD _ _ + _ + _ + _ + _ = _
      rw [light, reported]
      rfl
  | @completes k present fresh =>
      change s.accessCore i + weigh _ (Function.update s.callers k completeSteps i) + weigh _ s.queue +
        (s.called i).toNat = _ + (Function.update s.called k true i).toNat
      by_cases same : k = i
      · subst same
        have none := (accounted.fresh fresh).2
        rw [none, Function.update_self, Function.update_self, fresh]
        unfold accessAccount at none
        change _ + 1 + _ + 0 = 0 + 1
        omega
      · rw [Function.update_of_ne (Ne.symm same), Function.update_of_ne (Ne.symm same)]
        rfl
  | registrationReply free _ | taskReply free _ =>
      rw [accessAccount, accessAccount, free]
      rfl
  | @tokenReply n request reply free found =>
      have taken := weigh_eraseIdx (own ·.session i 1) found
      change (s.accessLight i).toNat + s.errors i + weigh _ (s.app.tokenRequests.eraseIdx n) +
        weigh _ (s.callers i) + (own request.session i 1 + 0) + (s.called i).toNat =
          (s.accessLight i).toNat + s.errors i + weigh _ s.app.tokenRequests + weigh _ (s.callers i) +
            weigh _ s.queue + (s.called i).toNat
      rw [free, weigh_nil]
      omega
  | @caller k step rest next u front ran =>
      have move := accounted.caller_move front ran
      have kept := move.access (accounted.caller_enabled front) i
      have work := weigh_update SessionStep.accessSource front next i
      change u.accessCore i + weigh _ (Function.update u.callers k (next ++ rest) i) + weigh _ u.queue +
        (s.called i).toNat = s.accessCore i + weigh _ (s.callers i) + weigh _ s.queue +
          (u.called i).toNat
      rw [move.frame.callers, move.frame.queue, move.frame.called]
      omega
  | @queue step rest next u front ran =>
      have move := accounted.queue_move front ran
      have kept := move.access (accounted.queue_enabled front) i
      change u.accessCore i + weigh _ (u.callers i) + weigh _ (next ++ rest) + (s.called i).toNat =
        s.accessCore i + weigh _ (s.callers i) + weigh _ s.queue + (u.called i).toNat
      rw [move.frame.callers, move.frame.called, front, weigh_append, weigh_cons]
      omega

theorem Accounted.moved_settled (accounted : Accounted s) (moved : Moved P C s a t) (i : Nat) :
    (t.results i).length + t.responses i + s.starts i + s.errors i =
      (s.results i).length + s.responses i + t.starts i + t.errors i := by
  cases moved with
  | stays | setsRefreshToken | waits | completes => rfl
  | creates request =>
      have reported := read_created
        (fun found => (found.map fun session => session.completions.length).getD 0)
        (.initWithRequest request) rfl s.app.sessions i
      change _ = _ + _ + _ + Option.getD _ _
      rw [reported]
      rfl
  | registrationReply free _ | tokenReply free _ =>
      rw [responses, responses, free]
      rfl
  | @taskReply n k data error free found =>
      have taken := weigh_eraseIdx (own · i 1) found
      change (s.results i).length + (weigh _ (s.tasks.eraseIdx n) + (own k i 1 + 0)) + _ + _ =
        (s.results i).length + (weigh _ s.tasks + weigh _ s.queue) + s.starts i + s.errors i
      rw [free, weigh_nil]
      omega
  | @caller k step rest next u front ran =>
      have move := accounted.caller_move front ran
      have kept := move.settled (accounted.caller_enabled front) i
      change (u.results i).length + (weigh _ u.tasks + weigh _ u.queue) + _ + _ =
        (s.results i).length + (weigh _ s.tasks + weigh _ s.queue) + u.starts i + u.errors i
      rw [move.frame.queue]
      omega
  | @queue step rest next u front ran =>
      have kept := (accounted.queue_move front ran).settled (accounted.queue_enabled front) i
      change (u.results i).length + (weigh _ u.tasks + weigh _ (next ++ rest)) + _ + _ =
        (s.results i).length + (weigh _ s.tasks + weigh _ s.queue) + u.starts i + u.errors i
      rw [front, weigh_append, weigh_cons]
      omega

theorem Accounted.moved_results (accounted : Accounted s) (moved : Moved P C s a t) (i : Nat) :
    ∀ result ∈ t.results i, result ∈ s.results i ∨
      ∃ data error, result = (C i).completionBlock data error := by
  cases moved with
  | stays | setsRefreshToken | waits | creates | completes | registrationReply | tokenReply | taskReply =>
      exact fun _ => .inl
  | caller front ran => exact (accounted.caller_move front ran).results i
  | queue front ran => exact (accounted.queue_move front ran).results i

/-- What a step of the app does to starts, lights and the tests to come. -/
inductive TestMove (s t : SessionThreads Message) (a : Action) : Prop where
  | quiet (starts : t.starts = s.starts) (lights : ∀ i, t.lightsGreen i = s.lightsGreen i)
      (tests : ∀ i, t.pendingTests i = s.pendingTests i)
  | steps (k : Nat) (step : SessionStep) (later : Nat) (taken : s.nextStep a = some (k, step))
      (tested : Tested s t k step later)
      (tests : ∀ i, t.pendingTests i + own k i step.test = s.pendingTests i + own k i later)

theorem QueueMove.tested {step : QueueStep} {next : List QueueStep}
    (move : QueueMove P C s step t next) (enabled : QueueEnabled s step) :
    (∃ k own later, step = .session k own ∧ Tested s t k own later ∧
        ∀ i, weigh (QueueStep.test i) next = Weights.own k i later) ∨
      t.starts = s.starts ∧ (∀ i, t.lightsGreen i = s.lightsGreen i) ∧
        ∀ i, step.test i = 0 ∧ weigh (QueueStep.test i) next = 0 := by
  cases move with
  | @session k own t next move =>
      refine .inl ⟨k, own, _, rfl, move.tested (enabled.session k own rfl), fun i => ?_⟩
      exact weigh_lifted SessionStep.test k i next fun _ => rfl
  | calls =>
      refine .inr ⟨rfl, fun _ => rfl, fun i => ⟨rfl, ?_⟩⟩
      simp only [weigh_cons, weigh_nil, QueueStep.test, SessionStep.test, own_zero]
  | answers tokenManager defaults replaces =>
      refine .inr ⟨rfl, fun _ => rfl, fun i => ⟨rfl, ?_⟩⟩
      simp only [weigh_cons, weigh_nil, QueueStep.test, replaces.2.2.1, own_zero]
  | registers | refuses | readies | enumerates | called | archives | responds =>
      exact .inr ⟨rfl, fun _ => rfl, fun _ => ⟨rfl, rfl⟩⟩

theorem Tested.after {later : Nat} (tested : Tested s t k step later)
    (callers : Nat → List SessionStep) (queue : List QueueStep) :
    Tested s { t with callers := callers, queue := queue } k step later := by
  cases tested with
  | apart starts lights dark none => exact .apart starts lights dark none
  | writes write dark starts lights one => exact .writes write dark starts lights one
  | starts test green starts lights none => exact .starts test green starts lights none

theorem Accounted.testMove (accounted : Accounted s) (moved : Moved P C s a t) : TestMove s t a := by
  cases moved with
  | stays | setsRefreshToken | waits => exact .quiet rfl (fun _ => rfl) fun _ => rfl
  | creates request =>
      refine .quiet rfl (fun i => ?_) fun _ => rfl
      exact read_created (fun found => found.any fun session =>
        session.cryptoGreenLight && session.accessGreenLight) (.initWithRequest request) rfl
        s.app.sessions i
  | @completes k present fresh =>
      refine .quiet rfl (fun _ => rfl) fun i => ?_
      change weigh _ (Function.update s.callers k completeSteps i) + weigh _ s.queue =
        weigh _ (s.callers i) + weigh _ s.queue
      by_cases same : k = i
      · subst same
        rw [Function.update_self, accounted.idle k fresh]
        rfl
      · rw [Function.update_of_ne (Ne.symm same)]
  | registrationReply free _ | tokenReply free _ | taskReply free _ =>
      refine .quiet rfl (fun _ => rfl) fun i => ?_
      rw [pendingTests, pendingTests, free]
      rfl
  | @caller k step rest next u front ran =>
      have move := accounted.caller_move front ran
      have tested := move.tested (accounted.caller_enabled front)
      refine .steps k step _ (nextStep_caller front) (tested.after _ u.queue) fun i => ?_
      have work := weigh_update SessionStep.test front next i
      change weigh _ (Function.update u.callers k (next ++ rest) i) + weigh _ u.queue + _ =
        weigh _ (s.callers i) + weigh _ s.queue + _
      rw [move.frame.callers, move.frame.queue]
      omega
  | @queue step rest next u front ran =>
      have move := accounted.queue_move front ran
      rcases move.tested (accounted.queue_enabled front) with ⟨k, own, later, rfl, tested, tests⟩ | ⟨starts, lights, tests⟩
      · refine .steps k own later (nextStep_queue front) (tested.after u.callers _) fun i => ?_
        have work := tests i
        change weigh _ (u.callers i) + weigh _ (next ++ rest) + _ =
          weigh _ (s.callers i) + weigh _ s.queue + _
        rw [move.frame.callers, front, weigh_append, weigh_cons, work, QueueStep.test]
        omega
      · refine .quiet starts lights fun i => ?_
        obtain ⟨taken, left⟩ := tests i
        change weigh _ (u.callers i) + weigh _ (next ++ rest) =
          weigh _ (s.callers i) + weigh _ s.queue
        rw [move.frame.callers, front, weigh_append, weigh_cons, taken, left]

theorem test_of_writesLight (write : step.writesLight = true) : step.test = 0 := by
  cases step with
  | testAndExecute => cases write
  | _ => rfl

theorem Accounted.preserve_tested (accounted : Accounted s) (moved : Moved P C s a t) (i : Nat)
    (green : t.lightsGreen i = true) : 1 ≤ t.starts i + t.pendingTests i := by
  have before := accounted.tested i
  cases accounted.testMove moved with
  | quiet starts lights tests =>
      rw [starts, tests i]
      exact before (lights i ▸ green)
  | steps k step later taken tested tests =>
      have tests := tests i
      cases tested with
      | apart starts lights dark none =>
          rw [lights i] at green
          have enough := before green
          have kept : own k i step.test = 0 := by
            rcases dark with dark | dark
            · rw [dark, own_zero]
            · apply own_of_ne
              rintro rfl
              rw [green] at dark
              cases dark
          rw [starts]
          rw [kept] at tests
          omega
      | writes write dark starts lights one =>
          have untested := test_of_writesLight write
          rw [untested, own_zero, one] at tests
          rw [starts]
          by_cases same : k = i
          · rw [same, own_self] at tests
            omega
          · rw [own_of_ne same] at tests
            rw [lights i same] at green
            have enough := before green
            omega
      | starts test own starts lights none =>
          have enough := before (lights i ▸ green)
          have counted := starts i
          rw [none, own_zero, test] at tests
          change _ + Weights.own k i 1 = _ at tests
          omega

theorem Accounted.preserve (accounted : Accounted s) (moved : Moved P C s a t) : Accounted t where
  present := accounted.preserve_present moved
  idle := accounted.preserve_idle moved
  callersReady := accounted.preserve_callersReady moved
  queueReady := accounted.preserve_queueReady moved
  walk := by
    obtain ⟨lost, walk, _⟩ := accounted.moved_walk moved
    have before := accounted.walk
    omega
  crypto i := by
    obtain ⟨lost, crypto, _⟩ := accounted.moved_crypto moved i
    have before := accounted.crypto i
    omega
  access i := by
    have access := accounted.moved_access moved i
    have before := accounted.access i
    omega
  settled i := by
    have settled := accounted.moved_settled moved i
    have before := accounted.settled i
    omega
  tested := accounted.preserve_tested moved

end

/-- A launch leaves no session, and either a manager that is ready or a registration on its way. -/
theorem launch_fresh {before app : InnerTube} (launch : before.launch P = .done app) :
    app.sessions = [] ∧ app.tokenRequests = [] ∧
      (app.cryptoManager.ready = true ∧ app.registering = false ∨
        app.cryptoManager.ready = false ∧ app.cryptoManager._readyCallbacks = some [] ∧
          app.registering = true) := by
  simp only [InnerTube.launch] at launch
  split at launch
  · split at launch <;> cases launch
    exact ⟨rfl, rfl, .inl ⟨rfl, rfl⟩⟩
  · split at launch <;> cases launch
    exact ⟨rfl, rfl, .inr ⟨rfl, rfl, rfl⟩⟩

theorem accounted_launched {before app : InnerTube} (launch : before.launch P = .done app) :
    Accounted (launched app : SessionThreads Message) := by
  obtain ⟨sessions, tokenRequests, manager⟩ := launch_fresh launch
  have light (i : Nat) (read : LMInnerTubeSession → Bool) :
      ((launched app : SessionThreads Message).app.sessions[i]?).any read = false := by
    rw [launched, sessions]
    rfl
  have reported (i : Nat) : (launched app : SessionThreads Message).errors i = 0 := by
    rw [errors, launched, sessions]
    rfl
  have waiting (i : Nat) : (launched app : SessionThreads Message).uncalled i = 0 := by
    rw [uncalled, launched]
    rcases manager with ⟨ready, _⟩ | ⟨ready, callbacks, _⟩
    · rw [ready]
      rfl
    · rw [ready, callbacks]
      rfl
  refine ⟨fun i called => (by cases called), fun _ _ => rfl, fun _ _ member => (by cases member),
    fun _ member => (by cases member), ?_, fun i => ?_, fun i => ?_, fun i => ?_, fun i green => ?_⟩
  · change app.registering.toNat + app.cryptoManager.ready.toNat + 0 ≤ 1
    rcases manager with ⟨ready, registering⟩ | ⟨ready, _, registering⟩ <;>
      rw [ready, registering] <;> decide
  · change (Option.any _ _).toNat + SessionThreads.uncalled _ i + 0 + 0 ≤ 0
    rw [light, waiting]
    rfl
  · change (Option.any _ _).toNat + SessionThreads.errors _ i + weigh _ app.tokenRequests + 0 + 0 = 0
    rw [light, reported, tokenRequests]
    rfl
  · change 0 + 0 = 0 + SessionThreads.errors _ i
    rw [reported]
  · rw [lightsGreen, light] at green
    cases green

end SessionThreads
end LeptosMusic
