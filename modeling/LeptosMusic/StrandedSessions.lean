import LeptosMusic.SingleSend

/-!
# Sessions that wait for the registration

A session that reads `ready` as `NO` adds a ready callback in a later step. The callbacks are called
once, when the registration has set `ready`, and never when the registration fails.
-/
namespace LeptosMusic
open Runs (Along Always Outcome)
open Weights

def SessionStep.addsCallback : SessionStep → Bool
  | addReadyCallback => true
  | _ => false

namespace SessionThreads
variable {Message : Type}

/-- No thread is inside a method, and no reply or block is on its way. -/
structure Quiescent (s : SessionThreads Message) : Prop where
  callers : ∀ i, s.callers i = []
  queue : s.queue = []
  registering : s.app.registering = false
  tokenRequests : s.app.tokenRequests = []
  tasks : s.tasks = []

/-- When nothing is left to happen, every session that was completed has had its completion called,
and has been signed. -/
def NoneStranded (s : SessionThreads Message) : Prop :=
  s.Quiescent → ∀ i, s.called i = true → s.results i ≠ [] ∧ s.cryptoLight i = true

/-- The ready callbacks are still to be called. -/
def Awaited (s : SessionThreads Message) : Prop :=
  s.app.registering = true ∨ 0 < weigh QueueStep.walkSource s.queue
  deriving Decidable

/-- The step is that of a registration reply that fails. -/
def refusesRegistration (P : Platform) (s : SessionThreads Message) : Action → Bool
  | .queue =>
      match s.queue.head? with
      | some (.registered status garbage reply) =>
          match s.registrationResult P status garbage reply with
          | .ok (_, some _) => true
          | _ => false
      | _ => false
  | _ => false

/-- A ready callback is added while they are still to be called, and a registration fails when
there is none. -/
def Wakes (P : Platform) (s : SessionThreads Message) (a : Action) : Prop :=
  (∀ taken ∈ s.nextStep a, taken.2.addsCallback = true → s.Awaited) ∧
    (s.refusesRegistration P a = true → s.app.cryptoManager._readyCallbacks.getD [] = [])
  deriving Decidable

/-- Whoever waits will be woken. -/
structure Woken (s : SessionThreads Message) : Prop where
  accounted : Accounted s
  array : s.walked = false → s.app.cryptoManager._readyCallbacks.isSome = true
  called : ∀ i, s.called i = true → 1 ≤ s.cryptoAccount i
  waiting : ¬ s.Awaited → ∀ i, s.uncalled i = 0

variable {P : Platform} {C : Nat → ResponseClass Message} {s t : SessionThreads Message} {k : Nat}

theorem Accounted.unwalked (accounted : Accounted s) (awaited : s.Awaited) : s.walked = false := by
  have walk := accounted.walk
  unfold walkAccount at walk
  apply Bool.eq_false_iff.mpr
  intro walked
  rw [walked] at walk
  change _ + 1 + _ ≤ 1 at walk
  rcases awaited with registering | queued
  · rw [registering] at walk
    change 1 + 1 + _ ≤ 1 at walk
    omega
  · omega

theorem Woken.noneStranded (woken : Woken s) : NoneStranded s := by
  intro quiet i called
  have accounted := woken.accounted
  have crypto := woken.called i called
  have access := accounted.access i
  have settled := accounted.settled i
  have tested := accounted.tested i
  have idle : ¬ s.Awaited := by
    rintro (registering | queued)
    · rw [quiet.registering] at registering
      cases registering
    · rw [quiet.queue] at queued
      cases queued
  rw [cryptoAccount, cryptoCore, woken.waiting idle i, quiet.callers i, quiet.queue] at crypto
  rw [accessAccount, accessCore, quiet.callers i, quiet.queue, quiet.tokenRequests, called] at access
  rw [responses, quiet.tasks, quiet.queue] at settled
  rw [pendingTests, quiet.callers i, quiet.queue, lightsGreen_eq] at tested
  change 1 ≤ (s.cryptoLight i).toNat + 0 + 0 + 0 at crypto
  change (s.accessLight i).toNat + s.errors i + 0 + 0 + 0 = 1 at access
  change (s.results i).length + (0 + 0) = _ at settled
  have signed : s.cryptoLight i = true := by
    cases light : s.cryptoLight i with
    | true => rfl
    | false =>
        rw [light] at crypto
        cases crypto
  refine ⟨?_, signed⟩
  intro unanswered
  rw [unanswered] at settled
  change 0 + (0 + 0) = _ at settled
  cases light : s.accessLight i with
  | true =>
      have started : 1 ≤ s.starts i + (0 + 0) := tested (by rw [signed, light]; rfl)
      omega
  | false =>
      rw [light] at access
      change 0 + s.errors i + 0 + 0 + 0 = 1 at access
      omega

section
variable {step : SessionStep} {next : List SessionStep} {a : Action}

theorem cryptoManager_modify (s : SessionThreads Message)
    (change : LMInnerTubeSession → LMInnerTubeSession) (k : Nat) :
    (s.modify k change).app.cryptoManager = s.app.cryptoManager :=
  InnerTube.atSession_cryptoManager ..

theorem SessionMove.callbacks (move : SessionMove C s k step t next) :
    (s.app.cryptoManager._readyCallbacks.isSome = true →
        t.app.cryptoManager._readyCallbacks.isSome = true) ∧
      (step.addsCallback = true ∨ ∀ i, t.uncalled i = s.uncalled i) := by
  cases move with
  | reads | asks => exact ⟨id, .inr fun _ => rfl⟩
  | prepares | writesCrypto | writesAccess =>
      rw [cryptoManager_modify]
      exact ⟨id, .inr fun i => uncalled_modify s _ k i⟩
  | reports error =>
      refine ⟨?_, .inr fun i => uncalled_modify s _ k i⟩
      change _ → (s.modify k _).app.cryptoManager._readyCallbacks.isSome = true
      rw [cryptoManager_modify]
      exact id
  | starts green =>
      refine ⟨?_, .inr fun i => uncalled_start s k i⟩
      change _ → (s.app.atSession k _).cryptoManager._readyCallbacks.isSome = true
      rw [InnerTube.atSession_cryptoManager]
      exact id
  | addsCallback =>
      refine ⟨fun array => ?_, .inl rfl⟩
      exact Option.isSome_map.trans array

theorem QueueMove.callbacks {step : QueueStep} {next : List QueueStep}
    (move : QueueMove P C s step t next) :
    (s.app.cryptoManager._readyCallbacks.isSome = true →
        t.app.cryptoManager._readyCallbacks.isSome = true) ∧ (t.walked = false → s.walked = false) := by
  cases move with
  | session move => exact ⟨move.callbacks.1, fun unwalked => move.walk.1 ▸ unwalked⟩
  | enumerates => exact ⟨id, fun unwalked => by cases unwalked⟩
  | registers | refuses | readies | called | calls | archives | answers | responds =>
      exact ⟨id, id⟩

theorem uncalled_eq_zero (empty : s.app.cryptoManager._readyCallbacks.getD [] = []) (i : Nat) :
    s.uncalled i = 0 := by
  rw [uncalled, empty]
  exact ite_self _

/-- What a step on the queue leaves of the callbacks that wait: they are still to be called, there
is none, or nothing has changed for them. -/
theorem QueueMove.waiting {step : QueueStep} {rest next : List QueueStep}
    (move : QueueMove P C s step t next) (front : s.queue = step :: rest)
    (wakes : Wakes P s .queue) :
    0 < weigh QueueStep.walkSource next ∨ (∀ i, t.uncalled i = 0) ∨
      step.walkSource = 0 ∧ t.app.registering = s.app.registering ∧
        (s.Awaited ∨ ∀ i, t.uncalled i = s.uncalled i) := by
  cases move with
  | @session k own t next move =>
      refine .inr (.inr ⟨rfl, move.walk.2, ?_⟩)
      rcases move.callbacks.2 with adds | same
      · exact .inl (wakes.1 (k, own) (nextStep_queue front) adds)
      · exact .inr same
  | registers | readies => exact .inl (Nat.succ_pos _)
  | @refuses status garbage reply crypto error refused =>
      refine .inr (.inl fun i => uncalled_eq_zero (wakes.2 ?_) i)
      simp only [refusesRegistration, front, List.head?_cons, refused]
  | enumerates => exact .inr (.inl fun _ => rfl)
  | called | calls | archives | answers | responds =>
      exact .inr (.inr ⟨rfl, rfl, .inr fun _ => rfl⟩)

theorem Woken.preserve_array (woken : Woken s) (moved : Moved P C s a t)
    (unwalked : t.walked = false) : t.app.cryptoManager._readyCallbacks.isSome = true := by
  have accounted := woken.accounted
  cases moved with
  | stays | setsRefreshToken | waits | creates | completes | registrationReply | tokenReply | taskReply =>
      exact woken.array unwalked
  | @caller k step rest next u front ran =>
      have move := accounted.caller_move front ran
      exact move.callbacks.1 (woken.array (move.walk.1 ▸ unwalked))
  | @queue step rest next u front ran =>
      have callbacks := (accounted.queue_move front ran).callbacks
      exact callbacks.1 (woken.array (callbacks.2 unwalked))

theorem Woken.preserve_called (woken : Woken s) (moved : Moved P C s a t) (wakes : Wakes P s a)
    (i : Nat) (called : t.called i = true) : 1 ≤ t.cryptoAccount i := by
  have accounted := woken.accounted
  obtain ⟨lost, kept, inTime⟩ := accounted.moved_crypto moved i
  have before := woken.called i
  have inTime : lost = 0 := by
    apply inTime
    rintro k step taken rfl
    have awaited := wakes.1 (k, .addReadyCallback) taken rfl
    have unwalked := accounted.unwalked awaited
    exact ⟨unwalked, woken.array unwalked⟩
  rw [inTime, called] at kept
  change _ + 0 + _ = _ + 1 at kept
  cases known : s.called i with
  | true =>
      have enough := before known
      rw [known] at kept
      change _ + 0 + 1 = _ + 1 at kept
      omega
  | false =>
      rw [known] at kept
      change _ + 0 + 0 = _ + 1 at kept
      omega

theorem Woken.preserve_waiting (woken : Woken s) (moved : Moved P C s a t) (wakes : Wakes P s a)
    (idle : ¬ t.Awaited) (i : Nat) : t.uncalled i = 0 := by
  have accounted := woken.accounted
  cases moved with
  | stays | setsRefreshToken | waits | creates | completes => exact woken.waiting idle i
  | registrationReply => exact absurd (.inr (Nat.succ_pos 0)) idle
  | tokenReply free _ | taskReply free _ =>
      apply woken.waiting
      rintro (registering | queued)
      · exact idle (.inl registering)
      · rw [free] at queued
        cases queued
  | @caller k step rest next u front ran =>
      have move := accounted.caller_move front ran
      have same : s.Awaited → Awaited { u with
          callers := Function.update u.callers k (next ++ rest) } := by
        rintro (registering | queued)
        · exact .inl (move.walk.2.trans registering)
        · exact .inr (move.frame.queue ▸ queued)
      rcases move.callbacks.2 with adds | kept
      · exact absurd (same (wakes.1 (k, step) (nextStep_caller front) adds)) idle
      · exact (kept i).trans (woken.waiting (fun awaited => idle (same awaited)) i)
  | @queue step rest next u front ran =>
      have move := accounted.queue_move front ran
      rcases move.waiting front wakes with ahead | none | ⟨apart, registering, kept⟩
      · refine absurd (.inr ?_) idle
        change 0 < weigh _ (next ++ rest)
        rw [weigh_append]
        omega
      · exact none i
      · have same : s.Awaited → Awaited { u with queue := next ++ rest } := by
          rintro (awaited | queued)
          · exact .inl (registering.trans awaited)
          · rw [front, weigh_cons, apart] at queued
            refine .inr ?_
            change 0 < weigh _ (next ++ rest)
            rw [weigh_append]
            omega
        rcases kept with awaited | kept
        · exact absurd (same awaited) idle
        · exact (kept i).trans (woken.waiting (fun awaited => idle (same awaited)) i)

theorem Woken.preserve (woken : Woken s) (moved : Moved P C s a t) (wakes : Wakes P s a) :
    Woken t where
  accounted := woken.accounted.preserve moved
  array := woken.preserve_array moved
  called := woken.preserve_called moved wakes
  waiting := woken.preserve_waiting moved wakes

end

theorem woken_launched {before app : InnerTube} (launch : before.launch P = .done app) :
    Woken (launched app : SessionThreads Message) := by
  obtain ⟨_, _, manager⟩ := launch_fresh launch
  refine ⟨accounted_launched launch, fun unwalked => ?_, fun _ called => (by cases called),
    fun idle i => ?_⟩
  · rcases manager with ⟨ready, _⟩ | ⟨_, callbacks, _⟩
    · rw [launched, ready] at unwalked
      cases unwalked
    · rw [launched, callbacks]
      rfl
  · rcases manager with ⟨ready, _⟩ | ⟨_, _, registering⟩
    · rw [uncalled, launched, ready]
      rfl
    · exact absurd (.inl registering) idle

/-- After any launch, in every interleaving in which a ready callback is only added while the
callbacks are still to be called, and a registration only fails when nobody waits for it, no session
is stranded. -/
theorem noneStranded_of_wakes (P : Platform) (C : Nat → ResponseClass Message) {before app : InnerTube}
    (launch : before.launch P = .done app) (actions : List Action)
    (wakes : Along (step P C) (Wakes P) (launched app) actions) :
    Always (step P C) NoneStranded (launched app) actions := by
  refine Runs.always_of_along (I := Woken) (Q := NoneStranded) ?_ ?_ (woken_launched launch) wakes
  · intro s a woken wakes
    exact woken.preserve (moved P C s a) wakes
  · intro s woken
    exact woken.noneStranded

theorem firstRequest_noneStranded :
    Always (step InnerTube.zeroPlatform rawResponse) NoneStranded (launched newApp) firstRequest :=
  noneStranded_of_wakes InnerTube.zeroPlatform rawResponse
    (rfl : newDevice.launch InnerTube.zeroPlatform = .done newApp) firstRequest (by decide)

/-- Both token replies, and what follows them when a light is still missing. -/
def tokensGranted : List Action :=
  [.tokenReply 0 (.object InnerTube.generalObject), .queue, .queue,
    .tokenReply 0 (.object InnerTube.issueTokenObject)] ++ List.replicate 4 .queue

/-- The session reads `ready`, the registration calls the callbacks, and then the session adds its
own. -/
def callbackTooLate : List Action :=
  [.sessionWithRequest InnerTube.searchRequest, .complete 0, .caller 0, .caller 0,
    .registrationReply .success 0 (.object InnerTube.registrationObject)] ++
    List.replicate 5 .queue ++ List.replicate 3 (.caller 0) ++ tokensGranted

/-- The registration fails while the session waits for it. -/
def registrationFailed : List Action :=
  [.sessionWithRequest InnerTube.searchRequest, .complete 0] ++ List.replicate 5 (.caller 0) ++
    [.registrationReply .success 0 (.failed ⟨"NSURLErrorDomain", -1009, [], none⟩), .queue] ++
    tokensGranted

/-- Nothing is left to happen, and the completion of the session was never called. -/
def Stranded (actions : List Action) : Prop :=
  ∃ s, run InnerTube.zeroPlatform rawResponse (launched newApp) actions = .done s ∧ s.Quiescent ∧
    s.called 0 = true ∧ s.results 0 = [] ∧ s.cryptoLight 0 = false

theorem stranded_by_lateCallback_and_failure :
    newDevice.launch InnerTube.zeroPlatform = .done newApp ∧
      Stranded callbackTooLate ∧ Stranded registrationFailed := by
  refine ⟨rfl, ⟨_, rfl, ⟨?_, rfl, rfl, rfl, rfl⟩, rfl, rfl, rfl⟩,
    ⟨_, rfl, ⟨?_, rfl, rfl, rfl, rfl⟩, rfl, rfl, rfl⟩⟩
  · intro i
    cases i <;> rfl
  · intro i
    cases i <;> rfl

end SessionThreads
end LeptosMusic
