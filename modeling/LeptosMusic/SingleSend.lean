import LeptosMusic.RequestGate
import LeptosMusic.SessionLedger

/-!
# One task and one completion for each request

Each setter of a light writes it and then tests both. Of two setters on two threads, both can write
before either tests.
-/
namespace LeptosMusic
open Runs (Along Always Outcome)

/-- A completion gets a message or an error, and not both. -/
theorem ResponseClass.completionBlock_exclusive {Message : Type} (C : ResponseClass Message)
    (data : Option NSData) (error : Option NSError) :
    (C.completionBlock data error).1.isSome ≠ (C.completionBlock data error).2.isSome := by
  unfold completionBlock
  cases error with
  | some error => exact Bool.noConfusion
  | none =>
      cases data with
      | none => exact Bool.noConfusion
      | some data =>
          dsimp only
          cases C.parseFromData data with
          | ok message => exact Bool.noConfusion
          | error error => cases C.JSONObjectWithData data <;> exact Bool.noConfusion

namespace SessionThreads
variable {Message : Type}

/-- No session has started a second task, and no completion was called twice, or with both a
message and an error, or with neither. -/
structure SendsOnce (s : SessionThreads Message) : Prop where
  starts : ∀ i, s.starts i ≤ 1
  once : ∀ i, (s.results i).length ≤ 1
  exclusive : ∀ i, ∀ result ∈ s.results i, result.1.isSome ≠ result.2.isSome

/-- No light is written while another write of the session has its test still to come. -/
def WritesApart (s : SessionThreads Message) (a : Action) : Prop :=
  ∀ taken ∈ s.nextStep a, taken.2.writesLight = true → s.pendingTests taken.1 = 0
  deriving Decidable

/-- Both lights are green for one test at most, which starts the task. -/
structure Single (s : SessionThreads Message) : Prop where
  accounted : Accounted s
  dark : ∀ i, s.lightsGreen i = false → s.starts i = 0
  green : ∀ i, s.lightsGreen i = true → s.starts i + s.pendingTests i ≤ 1
  exclusive : ∀ i, ∀ result ∈ s.results i, result.1.isSome ≠ result.2.isSome

variable {P : Platform} {C : Nat → ResponseClass Message} {s : SessionThreads Message}

theorem Single.sendsOnce (single : Single s) : SendsOnce s := by
  have starts (i : Nat) : s.starts i ≤ 1 := by
    cases lights : s.lightsGreen i with
    | true =>
        have green := single.green i lights
        omega
    | false =>
        rw [single.dark i lights]
        exact Nat.zero_le 1
  refine ⟨starts, fun i => ?_, single.exclusive⟩
  have settled := single.accounted.settled i
  have access := single.accounted.access i
  have called := Bool.toNat_le (s.called i)
  have started := starts i
  unfold accessAccount accessCore at access
  -- an error of the session's own leaves the access light dark
  cases light : s.accessLight i with
  | true =>
      rw [light] at access
      change 1 + _ + _ + _ + _ = _ at access
      omega
  | false =>
      have lights : s.lightsGreen i = false := by
        rw [lightsGreen_eq, light, Bool.and_false]
      have none := single.dark i lights
      omega

theorem Single.step (single : Single s) {a : Action} (apart : WritesApart s a) :
    Single (s.step P C a).state := by
  have accounted := single.accounted
  have moved := moved P C s a
  refine ⟨accounted.preserve moved, fun i dark => ?_, fun i green => ?_, fun i result member => ?_⟩
  · cases accounted.testMove moved with
    | quiet starts lights tests =>
        rw [starts]
        exact single.dark i (lights i ▸ dark)
    | steps k step later taken tested tests =>
        cases tested with
        | apart starts lights =>
            rw [starts]
            exact single.dark i (lights i ▸ dark)
        | writes write unlit starts lights =>
            rw [starts]
            by_cases same : k = i
            · exact single.dark i (same ▸ unlit)
            · exact single.dark i (lights i same ▸ dark)
        | starts test green starts lights =>
            rw [lights i] at dark
            have other : k ≠ i := by
              rintro rfl
              rw [green] at dark
              cases dark
            rw [starts i, Weights.own_of_ne other]
            exact single.dark i dark
  · cases accounted.testMove moved with
    | quiet starts lights tests =>
        rw [starts, tests i]
        exact single.green i (lights i ▸ green)
    | steps k step later taken tested tests =>
        have counted := tests i
        cases tested with
        | apart starts lights dark none =>
            have before := single.green i (lights i ▸ green)
            rw [none, Weights.own_zero] at counted
            rw [starts]
            omega
        | writes write unlit starts lights one =>
            rw [starts]
            by_cases same : k = i
            · -- the first write whose test is to come
              subst same
              have first := apart _ taken write
              have unsent := single.dark k unlit
              rw [one, Weights.own_self, Weights.own_self] at counted
              change s.pendingTests k = 0 at first
              omega
            · have before := single.green i (lights i same ▸ green)
              rw [Weights.own_of_ne same, Weights.own_of_ne same] at counted
              omega
        | starts test lit starts lights none =>
            have before := single.green i (lights i ▸ green)
            have sent := starts i
            rw [none, Weights.own_zero, test] at counted
            change _ + Weights.own k i 1 = _ at counted
            omega
  · rcases accounted.moved_results moved i result member with old | ⟨data, error, rfl⟩
    · exact single.exclusive i result old
    · exact (C _).completionBlock_exclusive data error

theorem single_launched {before app : InnerTube} (launch : before.launch P = .done app) :
    Single (launched app : SessionThreads Message) := by
  have accounted : Accounted (launched app : SessionThreads Message) := accounted_launched launch
  refine ⟨accounted, fun _ _ => rfl, fun _ _ => Nat.zero_le 1, fun _ _ member => by cases member⟩

/-- After any launch, in every interleaving of the threads of any number of sessions that keeps
their writes apart, no session starts two tasks and no completion is called twice. -/
theorem sendsOnce_of_writesApart (P : Platform) (C : Nat → ResponseClass Message) {before app : InnerTube}
    (launch : before.launch P = .done app) (actions : List Action)
    (apart : Along (step P C) WritesApart (launched app) actions) :
    Always (step P C) SendsOnce (launched app) actions := by
  refine Runs.always_of_along (I := Single) (Q := SendsOnce) ?_ ?_ (single_launched launch) apart
  · intro s a single apart
    exact single.step apart
  · intro s single
    exact single.sendsOnce

/-- Each response is its own message. -/
def rawResponse (_ : Nat) : ResponseClass NSData where
  parseFromData data := .ok data
  JSONObjectWithData _ := none

/-- The caller's thread and the registration take turns; the tokens come last. -/
def firstRequest : List Action :=
  [.sessionWithRequest InnerTube.searchRequest, .complete 0] ++ List.replicate 5 (.caller 0) ++
    [.registrationReply .success 0 (.object InnerTube.registrationObject)] ++
    List.replicate 9 .queue ++ [.tokenReply 0 (.object InnerTube.generalObject), .queue, .queue,
      .tokenReply 0 (.object InnerTube.issueTokenObject)] ++ List.replicate 4 .queue ++
    [.taskReply 0 (some [8, 1]) none, .queue]

def newDevice : InnerTube := InnerTube.off (fun _ => none) 0

/-- The app after a first launch on a new device. -/
def newApp : InnerTube := (newDevice.launch InnerTube.zeroPlatform).state

theorem firstRequest_sendsOnce :
    Always (step InnerTube.zeroPlatform rawResponse) SendsOnce (launched newApp) firstRequest ∧
      (run InnerTube.zeroPlatform rawResponse (launched newApp) firstRequest).state.results 0 =
        [(some [8, 1], none)] :=
  ⟨sendsOnce_of_writesApart InnerTube.zeroPlatform rawResponse
    (rfl : newDevice.launch InnerTube.zeroPlatform = .done newApp) firstRequest (by decide), rfl⟩

/-- The defaults with a token that lasts for an hour. -/
def tokenDefaults : NSUserDefaults :=
  NSUserDefaults.setObject (fun _ => none)
    (some (.data [0x10, 0xe, 0, 0, 0, 0, 0, 0, 0x79, 0x61, 0x32, 0x39]))
    LMAccessTokenManagerPrivateAccessUserDefaultsKey

def signedInApp : InnerTube :=
  ((InnerTube.off tokenDefaults 0).launch InnerTube.zeroPlatform).state

/-- The caller writes its light, the queue writes the other one, and then both test. -/
def bothWrite : List Action :=
  [.sessionWithRequest InnerTube.searchRequest, .complete 0] ++ List.replicate 6 (.caller 0) ++
    [.registrationReply .success 0 (.object InnerTube.registrationObject)] ++
    List.replicate 6 .queue ++ [.caller 0] ++ List.replicate 3 .queue ++
    [.taskReply 0 (some [8, 1]) none, .queue, .taskReply 0 (some [8, 1]) none, .queue]

theorem bothWrite_sends_twice :
    (InnerTube.off tokenDefaults 0).launch InnerTube.zeroPlatform = .done signedInApp ∧
      (run InnerTube.zeroPlatform rawResponse (launched signedInApp) bothWrite).finished = true ∧
      (run InnerTube.zeroPlatform rawResponse (launched signedInApp) bothWrite).state.results 0 =
        [(some [8, 1], none), (some [8, 1], none)] ∧
      ¬ Always (step InnerTube.zeroPlatform rawResponse) SendsOnce (launched signedInApp) bothWrite := by
  refine ⟨rfl, rfl, rfl, ?_⟩
  intro always
  have twice : (run InnerTube.zeroPlatform rawResponse (launched signedInApp) bothWrite).state.starts
      0 = 2 := rfl
  have once := always.last.starts 0
  exact absurd (twice ▸ once) (by decide)

end SessionThreads
end LeptosMusic
