import LeptosMusic.SessionAccounts

/-!
# What a step of a thread moves between the accounts

One law for each account, over the steps of a session and over those of the queue. Only a ready
callback that is added too late, and a registration that is refused, take something away.
-/
namespace LeptosMusic
open Runs (Outcome)
open Weights
namespace SessionThreads
variable {Message : Type} {P : Platform} {C : Nat → ResponseClass Message}
  {s t : SessionThreads Message} {k : Nat} {step : SessionStep} {next : List SessionStep}

/-- What a thread relies on when it takes a step of session `k`. -/
structure Enabled (s : SessionThreads Message) (k : Nat) (step : SessionStep) : Prop where
  present : 0 < step.cryptoSource + step.accessSource → k < s.app.sessions.length
  cryptoDark : step = .writeCryptoGreenLight → s.cryptoLight k = false
  accessDark : step = .writeAccessGreenLight → s.accessLight k = false

/-- The callback will be among those that the enumeration finds. -/
def InTime (s : SessionThreads Message) (step : SessionStep) : Prop :=
  step = .addReadyCallback →
    s.walked = false ∧ s.app.cryptoManager._readyCallbacks.isSome = true

section
variable (s) (change : LMInnerTubeSession → LMInnerTubeSession)

theorem cryptoLight_kept
    (kept : ∀ session, (change session).cryptoGreenLight = session.cryptoGreenLight) (k i : Nat) :
    (s.modify k change).cryptoLight i = s.cryptoLight i := by
  rw [cryptoLight_modify]
  simp only [kept]
  exact ite_self _

theorem accessLight_kept
    (kept : ∀ session, (change session).accessGreenLight = session.accessGreenLight) (k i : Nat) :
    (s.modify k change).accessLight i = s.accessLight i := by
  rw [accessLight_modify]
  simp only [kept]
  exact ite_self _

theorem errors_kept (kept : ∀ session, (change session).completions = session.completions)
    (k i : Nat) : (s.modify k change).errors i = s.errors i := by
  rw [errors_modify]
  simp only [kept]
  exact ite_self _

@[simp] theorem uncalled_modify (k i : Nat) :
    (s.modify k change).uncalled i = s.uncalled i := by
  simp only [uncalled, modify, InnerTube.atSession_cryptoManager]

@[simp] theorem tokenRequests_modify (k : Nat) :
    (s.modify k change).app.tokenRequests = s.app.tokenRequests :=
  InnerTube.atSession_tokenRequests ..

end

theorem lights_start (s : SessionThreads Message) (k i : Nat) :
    (s.start k).cryptoLight i = s.cryptoLight i ∧ (s.start k).accessLight i = s.accessLight i ∧
      (s.start k).errors i = s.errors i := by
  simp only [cryptoLight, accessLight, errors, sessions_start, and_self]

@[simp] theorem uncalled_start (s : SessionThreads Message) (k i : Nat) :
    (s.start k).uncalled i = s.uncalled i := by
  simp only [uncalled, start, InnerTube.atSession_cryptoManager]

@[simp] theorem tokenRequests_start (s : SessionThreads Message) (k : Nat) :
    (s.start k).app.tokenRequests = s.app.tokenRequests :=
  InnerTube.atSession_tokenRequests ..

theorem length_finish (s : SessionThreads Message) (C : Nat → ResponseClass Message) (k i : Nat)
    (data : Option NSData) (error : Option NSError) :
    ((s.finish C k data error).results i).length = (s.results i).length + own k i 1 :=
  length_update_append ..

theorem results_finish (s : SessionThreads Message) (C : Nat → ResponseClass Message) (k i : Nat)
    (data : Option NSData) (error : Option NSError) :
    ∀ result ∈ (s.finish C k data error).results i, result ∈ s.results i ∨
      ∃ data error, result = (C i).completionBlock data error := by
  intro result member
  change result ∈ Function.update s.results k _ i at member
  by_cases same : k = i
  · rw [same, Function.update_self] at member
    rcases List.mem_append.mp member with old | new
    · exact .inl old
    · exact .inr ⟨data, error, List.mem_singleton.mp new⟩
  · rw [Function.update_of_ne (Ne.symm same)] at member
    exact .inl member

theorem starts_start (s : SessionThreads Message) (k i : Nat) :
    (s.start k).starts i = s.starts i + own k i 1 :=
  update_add ..

theorem uncalled_addReadyCallback (s : SessionThreads Message) (k i : Nat) :
    ∃ lost, ({ s with app := { s.app with
      cryptoManager := s.app.cryptoManager.addReadyCallback k } } : SessionThreads Message).uncalled i +
        lost = s.uncalled i + own k i 1 ∧ (s.InTime .addReadyCallback → lost = 0) := by
  simp only [uncalled, LMRequestCryptoManager.addReadyCallback]
  cases walked : s.walked with
  | true =>
      refine ⟨own k i 1, rfl, fun inTime => ?_⟩
      rw [(inTime rfl).1] at walked
      cases walked
  | false =>
      cases callbacks : s.app.cryptoManager._readyCallbacks with
      | none =>
          refine ⟨own k i 1, rfl, fun inTime => ?_⟩
          have array := (inTime rfl).2
          rw [callbacks] at array
          cases array
      | some callbacks =>
          refine ⟨0, ?_, fun _ => rfl⟩
          simp

theorem cryptoLight_write (present : k < s.app.sessions.length) (dark : s.cryptoLight k = false)
    (i : Nat) : ((s.modify k fun session => { session with cryptoGreenLight := true }).cryptoLight
        i).toNat = (s.cryptoLight i).toNat + own k i 1 := by
  rw [cryptoLight_modify]
  by_cases same : k = i
  · subst same
    rw [if_pos rfl, dark, List.getElem?_eq_getElem present, own_self]
    rfl
  · rw [if_neg same, own_of_ne same]
    rfl

theorem accessLight_write (present : k < s.app.sessions.length) (dark : s.accessLight k = false)
    (i : Nat) : ((s.modify k fun session => { session with accessGreenLight := true }).accessLight
        i).toNat = (s.accessLight i).toNat + own k i 1 := by
  rw [accessLight_modify]
  by_cases same : k = i
  · subst same
    rw [if_pos rfl, dark, List.getElem?_eq_getElem present, own_self]
    rfl
  · rw [if_neg same, own_of_ne same]
    rfl

theorem errors_report (present : k < s.app.sessions.length) (error : NSError) (i : Nat) :
    (s.modify k fun session => session._callCompletionWithError error).errors i =
      s.errors i + own k i 1 := by
  rw [errors_modify]
  by_cases same : k = i
  · subst same
    rw [if_pos rfl, errors, List.getElem?_eq_getElem present, own_self]
    exact List.length_append
  · rw [if_neg same, own_of_ne same]
    rfl

theorem SessionMove.crypto (move : SessionMove C s k step t next) (enabled : Enabled s k step)
    (i : Nat) : ∃ lost, t.cryptoCore i + own k i (weigh SessionStep.cryptoSource next) + lost =
        s.cryptoCore i + own k i step.cryptoSource ∧ (s.InTime step → lost = 0) := by
  cases move with
  | reads replaces =>
      exact ⟨0, by rw [replaces.cryptoSource, Nat.add_zero], fun _ => rfl⟩
  | prepares replaces test keeps =>
      refine ⟨0, ?_, fun _ => rfl⟩
      rw [replaces.cryptoSource, cryptoCore, cryptoLight_kept s _ keeps.cryptoGreenLight,
        uncalled_modify]
      rfl
  | addsCallback =>
      obtain ⟨lost, moved, inTime⟩ := uncalled_addReadyCallback s k i
      refine ⟨lost, ?_, inTime⟩
      change (s.cryptoLight i).toNat + _ + own k i 0 + lost =
        (s.cryptoLight i).toNat + s.uncalled i + own k i 1
      rw [own_zero]
      omega
  | writesCrypto =>
      refine ⟨0, ?_, fun _ => rfl⟩
      rw [cryptoCore, cryptoLight_write (enabled.present (Nat.succ_pos _)) (enabled.cryptoDark rfl),
        uncalled_modify]
      change (s.cryptoLight i).toNat + own k i 1 + s.uncalled i + own k i 0 + 0 =
        (s.cryptoLight i).toNat + s.uncalled i + own k i 1
      rw [own_zero]
      omega
  | writesAccess =>
      refine ⟨0, ?_, fun _ => rfl⟩
      rw [cryptoCore, cryptoLight_kept s _ (by intro _; rfl), uncalled_modify]
      rfl
  | asks own => exact ⟨0, rfl, fun _ => rfl⟩
  | reports error =>
      refine ⟨0, ?_, fun _ => rfl⟩
      change ((s.modify k _).cryptoLight i).toNat + (s.modify k _).uncalled i + own k i 0 + 0 = _
      rw [cryptoLight_kept s _ (by intro _; rfl), uncalled_modify]
      rfl
  | starts green =>
      refine ⟨0, ?_, fun _ => rfl⟩
      obtain ⟨light, _, _⟩ := lights_start s k i
      rw [cryptoCore, light, uncalled_start]
      rfl

theorem SessionMove.access (move : SessionMove C s k step t next) (enabled : Enabled s k step)
    (i : Nat) : t.accessCore i + own k i (weigh SessionStep.accessSource next) =
        s.accessCore i + own k i step.accessSource := by
  cases move with
  | reads replaces => rw [replaces.accessSource]
  | prepares replaces test keeps =>
      rw [replaces.accessSource, accessCore, accessLight_kept s _ keeps.accessGreenLight,
        errors_kept s _ keeps.completions, tokenRequests_modify]
      rfl
  | addsCallback => rfl
  | writesCrypto =>
      rw [accessCore, accessLight_kept s _ (by intro _; rfl), errors_kept s _ (by intro _; rfl),
        tokenRequests_modify]
      rfl
  | writesAccess =>
      rw [accessCore, accessLight_write (enabled.present (Nat.succ_pos _)) (enabled.accessDark rfl),
        errors_kept s _ (by intro _; rfl), tokenRequests_modify]
      change _ + own k i 0 = (s.accessLight i).toNat + s.errors i +
        weigh (own ·.session i 1) s.app.tokenRequests + own k i 1
      rw [own_zero]
      omega
  | asks asked =>
      subst asked
      change (s.accessLight i).toNat + s.errors i + weigh _ (s.app.tokenRequests ++ [_]) + own _ i 0 =
        (s.accessLight i).toNat + s.errors i + weigh _ s.app.tokenRequests + own _ i 1
      rw [weigh_append, weigh_cons, weigh_nil, own_zero]
      omega
  | reports error =>
      change ((s.modify k _).accessLight i).toNat + (s.modify k _).errors i +
        weigh _ (s.modify k _).app.tokenRequests + own k i 0 = _
      rw [accessLight_kept s _ (by intro _; rfl), tokenRequests_modify,
        errors_report (enabled.present (Nat.succ_pos _)), own_zero]
      change _ = (s.accessLight i).toNat + s.errors i +
        weigh (own ·.session i 1) s.app.tokenRequests + own k i 1
      omega
  | starts green =>
      obtain ⟨_, light, reported⟩ := lights_start s k i
      rw [accessCore, light, reported, tokenRequests_start]
      rfl

/-- Whatever the completion has been called with was started or reported. -/
theorem SessionMove.settled (move : SessionMove C s k step t next) (enabled : Enabled s k step)
    (i : Nat) : (t.results i).length + weigh (own · i 1) t.tasks + s.starts i + s.errors i =
        (s.results i).length + weigh (own · i 1) s.tasks + t.starts i + t.errors i := by
  cases move with
  | reads => rfl
  | prepares replaces test keeps =>
      rw [errors_kept s _ keeps.completions]
      rfl
  | addsCallback => rfl
  | writesCrypto =>
      rw [errors_kept s _ (by intro _; rfl)]
      rfl
  | writesAccess =>
      rw [errors_kept s _ (by intro _; rfl)]
      rfl
  | asks => rfl
  | reports error =>
      change ((finish C _ k none (some error)).results i).length + weigh (own · i 1) s.tasks +
        s.starts i + s.errors i = (s.results i).length + weigh (own · i 1) s.tasks + s.starts i +
          (s.modify k _).errors i
      rw [length_finish, errors_report (enabled.present (Nat.succ_pos _))]
      change (s.results i).length + own k i 1 + _ + _ + _ = _
      omega
  | starts green =>
      obtain ⟨_, _, reported⟩ := lights_start s k i
      change (s.results i).length + weigh (own · i 1) (s.tasks ++ [k]) + s.starts i + s.errors i =
        (s.results i).length + weigh (own · i 1) s.tasks + (s.start k).starts i + (s.start k).errors i
      rw [reported, starts_start, weigh_append, weigh_cons, weigh_nil]
      omega

/-- How a step is related to the tests of both lights; `later` is the number of tests to come. -/
inductive Tested (s t : SessionThreads Message) (k : Nat) (step : SessionStep) (later : Nat) :
    Prop where
  | apart (starts : t.starts = s.starts) (lights : ∀ i, t.lightsGreen i = s.lightsGreen i)
      (dark : step.test = 0 ∨ s.lightsGreen k = false) (none : later = 0)
  | writes (write : step.writesLight = true) (dark : s.lightsGreen k = false)
      (starts : t.starts = s.starts) (lights : ∀ i, k ≠ i → t.lightsGreen i = s.lightsGreen i)
      (one : later = 1)
  | starts (test : step = .testAndExecute) (green : s.lightsGreen k = true)
      (starts : ∀ i, t.starts i = s.starts i + own k i 1)
      (lights : ∀ i, t.lightsGreen i = s.lightsGreen i) (none : later = 0)

theorem lightsGreen_modify_other {change : LMInnerTubeSession → LMInnerTubeSession} {i : Nat}
    (other : k ≠ i) : (s.modify k change).lightsGreen i = s.lightsGreen i := by
  rw [lightsGreen, sessions_modify, if_neg other]
  rfl

theorem lightsGreen_kept (s : SessionThreads Message)
    (change : LMInnerTubeSession → LMInnerTubeSession)
    (crypto : ∀ session, (change session).cryptoGreenLight = session.cryptoGreenLight)
    (access : ∀ session, (change session).accessGreenLight = session.accessGreenLight) (k i : Nat) :
    (s.modify k change).lightsGreen i = s.lightsGreen i := by
  rw [lightsGreen_eq, cryptoLight_kept s change crypto, accessLight_kept s change access,
    lightsGreen_eq]

theorem Enabled.dark (enabled : Enabled s k step) (write : step.writesLight = true) :
    s.lightsGreen k = false := by
  rw [lightsGreen_eq]
  cases step with
  | writeCryptoGreenLight => rw [enabled.cryptoDark rfl, Bool.false_and]
  | writeAccessGreenLight => rw [enabled.accessDark rfl, Bool.and_false]
  | _ => cases write

theorem SessionMove.tested (move : SessionMove C s k step t next) (enabled : Enabled s k step) :
    Tested s t k step (weigh SessionStep.test next) := by
  cases move with
  | reads replaces dark =>
      refine .apart rfl (fun _ => rfl) ?_ replaces.test
      cases step with
      | testAndExecute => exact .inr (dark rfl)
      | _ => exact .inl rfl
  | prepares replaces test keeps =>
      exact .apart rfl (lightsGreen_kept s _ keeps.cryptoGreenLight keeps.accessGreenLight k)
        (.inl test) replaces.test
  | addsCallback => exact .apart rfl (fun _ => rfl) (.inl rfl) rfl
  | writesCrypto | writesAccess =>
      exact .writes rfl (enabled.dark rfl) rfl (fun _ => lightsGreen_modify_other) rfl
  | asks => exact .apart rfl (fun _ => rfl) (.inl rfl) rfl
  | reports error =>
      refine .apart rfl (fun i => ?_) (.inl rfl) rfl
      change (s.modify k _).lightsGreen i = s.lightsGreen i
      exact lightsGreen_kept s _ (by intro _; rfl) (by intro _; rfl) k i
  | starts green =>
      refine .starts rfl green (starts_start s k) (fun i => ?_) rfl
      rw [lightsGreen, sessions_start]
      rfl

theorem SessionMove.results (move : SessionMove C s k step t next) (i : Nat) :
    ∀ result ∈ t.results i, result ∈ s.results i ∨
      ∃ data error, result = (C i).completionBlock data error := by
  cases move with
  | reports error => exact results_finish _ C k i none (some error)
  | reads | prepares | addsCallback | writesCrypto | writesAccess | asks | starts =>
      exact fun _ => .inl

/-- What no step of a thread touches. -/
structure Frame (s t : SessionThreads Message) : Prop where
  called : t.called = s.called
  callers : t.callers = s.callers
  queue : t.queue = s.queue
  length : t.app.sessions.length = s.app.sessions.length
  ready : s.app.cryptoManager.ready = true → t.app.cryptoManager.ready = true

theorem SessionMove.frame (move : SessionMove C s k step t next) : Frame s t := by
  cases move with
  | reads => exact ⟨rfl, rfl, rfl, rfl, id⟩
  | prepares | writesCrypto | writesAccess | reports =>
      refine ⟨rfl, rfl, rfl, length_modify .., ?_⟩
      change _ → (s.app.atSession k _).cryptoManager.ready = true
      rw [InnerTube.atSession_cryptoManager]
      exact id
  | addsCallback => exact ⟨rfl, rfl, rfl, rfl, id⟩
  | asks => exact ⟨rfl, rfl, rfl, rfl, id⟩
  | starts =>
      refine ⟨rfl, rfl, rfl, congrArg List.length (sessions_start s k), ?_⟩
      change _ → (s.app.atSession k _).cryptoManager.ready = true
      rw [InnerTube.atSession_cryptoManager]
      exact id

theorem SessionMove.walk (move : SessionMove C s k step t next) :
    t.walked = s.walked ∧ t.app.registering = s.app.registering := by
  cases move with
  | reads | addsCallback | asks => exact ⟨rfl, rfl⟩
  | prepares | writesCrypto | writesAccess | reports | starts =>
      exact ⟨rfl, InnerTube.atSession_registering ..⟩

theorem SessionMove.needsReady (move : SessionMove C s k step t next) :
    ∀ later ∈ next, later.needsReady = true → s.app.cryptoManager.ready = true := by
  cases move with
  | reads replaces => exact replaces.needsReady
  | prepares replaces => exact replaces.needsReady
  | writesCrypto | writesAccess =>
      intro later member needs
      rw [List.mem_singleton.mp member] at needs
      cases needs
  | addsCallback | asks | reports | starts =>
      intro later member
      cases member

section
variable {step : QueueStep} {next : List QueueStep}

/-- A session's step on the queue may be taken, and the ready callbacks are enumerated once. -/
structure QueueEnabled (s : SessionThreads Message) (step : QueueStep) : Prop where
  session : ∀ k own, step = .session k own → Enabled s k own
  unwalked : 0 < step.walkSource → s.walked = false

def QueueInTime (s : SessionThreads Message) (step : QueueStep) : Prop :=
  ∀ k own, step = .session k own → s.InTime own

theorem weigh_lifted (weight : SessionStep → Nat) (k i : Nat) (steps : List SessionStep)
    {queued : QueueStep → Nat} (lift : ∀ own, queued (.session k own) = Weights.own k i (weight own)) :
    weigh queued (steps.map (.session k)) = own k i (weigh weight steps) := by
  rw [weigh_map, ← weigh_own]
  congr 1
  funext own
  exact lift own

theorem QueueMove.crypto (move : QueueMove P C s step t next) (enabled : QueueEnabled s step)
    (i : Nat) : ∃ lost, t.cryptoCore i + weigh (QueueStep.cryptoSource i) next + lost =
        s.cryptoCore i + step.cryptoSource i ∧ (s.QueueInTime step → lost = 0) := by
  cases move with
  | @session k own t next move =>
      rw [weigh_lifted SessionStep.cryptoSource k i next fun _ => rfl]
      obtain ⟨lost, moved, inTime⟩ := move.crypto (enabled.session k own rfl) i
      exact ⟨lost, moved, fun late => inTime (late k own rfl)⟩
  | registers | refuses | readies | called | archives | responds => exact ⟨0, rfl, fun _ => rfl⟩
  | enumerates =>
      refine ⟨0, ?_, fun _ => rfl⟩
      have waiting : s.uncalled i =
          weigh (own · i 1) (s.app.cryptoManager._readyCallbacks.getD []) := by
        rw [uncalled, enabled.unwalked (Nat.succ_pos 0)]
        rfl
      change (s.cryptoLight i).toNat + 0 + weigh (QueueStep.cryptoSource i) [_] + 0 =
        (s.cryptoLight i).toNat + s.uncalled i + 0
      rw [waiting, weigh_cons, weigh_nil]
      rfl
  | @calls k rest count =>
      refine ⟨0, ?_, fun _ => rfl⟩
      change _ + weigh (QueueStep.cryptoSource i) _ + 0 = _ + weigh (own · i 1) (k :: rest)
      simp only [weigh_cons, weigh_nil, QueueStep.cryptoSource, SessionStep.cryptoSource]
      omega
  | answers tokenManager defaults replaces =>
      refine ⟨0, ?_, fun _ => rfl⟩
      simp only [weigh_cons, weigh_nil, QueueStep.cryptoSource, replaces.2.1, own_zero]
      rfl

theorem QueueMove.access (move : QueueMove P C s step t next) (enabled : QueueEnabled s step)
    (i : Nat) : t.accessCore i + weigh (QueueStep.accessSource i) next =
        s.accessCore i + step.accessSource i := by
  cases move with
  | @session k own t next move =>
      rw [weigh_lifted SessionStep.accessSource k i next fun _ => rfl]
      exact move.access (enabled.session k own rfl) i
  | registers | refuses | readies | enumerates | called | archives | responds => rfl
  | calls =>
      simp only [weigh_cons, weigh_nil, QueueStep.accessSource, SessionStep.accessSource, own_zero]
  | answers tokenManager defaults replaces =>
      have source := replaces.1
      simp only [weigh_cons, weigh_nil, Nat.add_zero] at source
      simp only [weigh_cons, weigh_nil, QueueStep.accessSource, source]
      rfl

theorem QueueMove.settled (move : QueueMove P C s step t next) (enabled : QueueEnabled s step)
    (i : Nat) : (t.results i).length + weigh (own · i 1) t.tasks + weigh (QueueStep.response i) next +
        s.starts i + s.errors i = (s.results i).length + weigh (own · i 1) s.tasks +
          step.response i + t.starts i + t.errors i := by
  cases move with
  | @session k own t next move =>
      have moved := move.settled (enabled.session k own rfl) i
      have none : weigh (QueueStep.response i) (next.map (.session k)) = 0 := by
        rw [weigh_map]
        exact weigh_zero next
      rw [none]
      change _ = _ + _ + 0 + _ + _
      omega
  | registers | refuses | readies | enumerates | called | calls | archives | answers => rfl
  | @responds k data error =>
      rw [length_finish]
      change _ + weigh (own · i 1) s.tasks + 0 + s.starts i + s.errors i =
        _ + weigh (own · i 1) s.tasks + own k i 1 + s.starts i + s.errors i
      omega

theorem QueueMove.results (move : QueueMove P C s step t next) (i : Nat) :
    ∀ result ∈ t.results i, result ∈ s.results i ∨
      ∃ data error, result = (C i).completionBlock data error := by
  cases move with
  | session move => exact move.results i
  | @responds k data error => exact results_finish s C k i data error
  | registers | refuses | readies | enumerates | called | calls | archives | answers =>
      exact fun _ => .inl

theorem QueueMove.frame (move : QueueMove P C s step t next) : Frame s t := by
  cases move with
  | session move => exact move.frame
  | readies => exact ⟨rfl, rfl, rfl, rfl, fun _ => rfl⟩
  | registers | refuses | enumerates | called | calls | archives | answers | responds =>
      exact ⟨rfl, rfl, rfl, rfl, id⟩

/-- The enumeration of the ready callbacks is ahead until it begins, or is given up. -/
theorem QueueMove.walk (move : QueueMove P C s step t next) (enabled : QueueEnabled s step) :
    ∃ lost, t.app.registering.toNat + t.walked.toNat + weigh QueueStep.walkSource next + lost =
        s.app.registering.toNat + s.walked.toNat + step.walkSource ∧
      ((∀ status garbage reply, step = .registered status garbage reply → ∀ crypto error,
        s.registrationResult P status garbage reply ≠ .ok (crypto, some error)) → lost = 0) := by
  cases move with
  | @session k own t next move =>
      have none : weigh QueueStep.walkSource (next.map (.session k)) = 0 := by
        rw [weigh_map]
        exact weigh_zero next
      rw [none, move.walk.1, move.walk.2]
      exact ⟨0, rfl, fun _ => rfl⟩
  | refuses refused =>
      exact ⟨1, rfl, fun accepted => absurd refused (accepted _ _ _ rfl _ _)⟩
  | enumerates =>
      refine ⟨0, ?_, fun _ => rfl⟩
      rw [enabled.unwalked (Nat.succ_pos 0)]
      rfl
  | registers | readies | called | calls | archives | answers | responds =>
      exact ⟨0, rfl, fun _ => rfl⟩

theorem QueueMove.needsReady (move : QueueMove P C s step t next)
    (signed : step.needsReady = true → s.app.cryptoManager.ready = true) :
    ∀ later ∈ next, later.needsReady = true → t.app.cryptoManager.ready = true := by
  cases move with
  | @session k own t next move =>
      intro later member needs
      obtain ⟨own, inside, rfl⟩ := List.mem_map.mp member
      exact move.frame.ready (move.needsReady own inside needs)
  | registers =>
      intro later member needs
      rcases List.mem_cons.mp member with rfl | member
      · cases needs
      · rw [List.mem_singleton.mp member] at needs
        cases needs
  | readies => exact fun _ _ _ => rfl
  | enumerates | calls => exact fun _ _ _ => signed rfl
  | answers tokenManager defaults replaces =>
      intro later member needs
      rw [List.mem_singleton.mp member, QueueStep.needsReady, replaces.2.2.2] at needs
      cases needs
  | refuses | called | archives | responds =>
      intro later member
      cases member

end

end SessionThreads
end LeptosMusic
