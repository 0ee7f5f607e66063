import LeptosMusic.Navigation
import LeptosMusic.PageMerge

/-!
# The previous-track command

The setter of the target index writes whether the command is enabled from the index it was asked
for, also when it refuses that index.
-/
namespace LeptosMusic
namespace Player
open Runs (Along Always)
open SubscriptStore (FillsUp filled)

/-- The end of this item is the end of the one that is played. -/
def endsCurrent (s : Player) (object : Option AVPlayerItem) : Prop :=
  object = s.currentModule.bind fun module => module.playerItem s.visualType

instance (s : Player) (object : Option AVPlayerItem) : Decidable (s.endsCurrent object) :=
  inferInstanceAs (Decidable (object = _))

/-- The index that an action hands to `setTargetPlayingIndex:`. -/
def assigned (s : Player) : Action → Option Nat
  | .setPlaylist playlist => playlist.map fun _ => 0
  | .next => some (s.targetPlayingIndex + 1)
  | .previous => if s.targetPlayingIndex ≠ 0 then some (s.targetPlayingIndex - 1) else none
  | .playerItemDidPlayToEnd object =>
      if s.endsCurrent object then some (s.targetPlayingIndex + 1) else none
  | .endTimeReached => s.playerEndObserver.bind fun module =>
      if s.endsCurrent module.dshPlayerItem then some (s.targetPlayingIndex + 1) else none
  | _ => none

/-- The ways to the setter. -/
inductive Assignment (s : Player) (a : Action) (target : Nat) : Prop where
  | selects (playlist : YTIWatchPlaylistEndpoint) : a = .setPlaylist (some playlist) → target = 0 →
      s.step a = (s.emptied playlist).setTargetPlayingIndex target → Assignment s a target
  | advances : target = s.targetPlayingIndex + 1 → s.delivered a = none →
      s.step a = s.setTargetPlayingIndex target → Assignment s a target
  | returns : s.targetPlayingIndex ≠ 0 → target = s.targetPlayingIndex - 1 → s.delivered a = none →
      s.step a = s.setTargetPlayingIndex target → Assignment s a target

theorem playToEnd_advances {s : Player} {object : Option AVPlayerItem} (ends : s.endsCurrent object) :
    s.playerItemDidPlayToEnd object = s.setTargetPlayingIndex (s.targetPlayingIndex + 1) :=
  if_pos ends

theorem playToEnd_ignored {s : Player} {object : Option AVPlayerItem}
    (other : ¬ s.endsCurrent object) : s.playerItemDidPlayToEnd object = .done s := if_neg other

theorem assigned_assignment {s : Player} {a : Action} {target : Nat}
    (calls : s.assigned a = some target) : Assignment s a target := by
  cases a with
  | setPlaylist playlist =>
      cases playlist with
      | none => cases calls
      | some playlist =>
          cases calls
          exact .selects playlist rfl rfl rfl
  | next =>
      cases calls
      exact .advances rfl rfl rfl
  | previous =>
      simp only [assigned] at calls
      split_ifs at calls with back
      cases calls
      exact .returns back rfl rfl (if_pos back)
  | playerItemDidPlayToEnd object =>
      simp only [assigned] at calls
      split_ifs at calls with ends
      cases calls
      exact .advances rfl rfl (playToEnd_advances ends)
  | endTimeReached =>
      obtain ⟨module, observed, calls⟩ := Option.bind_eq_some_iff.mp calls
      split_ifs at calls with ends
      cases calls
      refine .advances rfl rfl ?_
      simp only [step, observed]
      exact playToEnd_advances ends
  | play | pause | togglePlayPause | playerStops | updateForPreferenceChange | watchReply |
      playerReply | runMainQueue | wait => cases calls

/-- The action brings the response to a watch request. -/
def Action.isWatchReply : Action → Bool
  | .watchReply _ _ => true
  | _ => false

/-- What the setter reads and writes stays as it is. -/
structure Untargeted (s t : Player) : Prop where
  target : t.targetPlayingIndex = s.targetPlayingIndex
  enabled : t.previousTrackEnabled = s.previousTrackEnabled
  endpoints : t.endpoints = s.endpoints
  requests : t.watchRequests = s.watchRequests

theorem Untargeted.refl (s : Player) : Untargeted s s := ⟨rfl, rfl, rfl, rfl⟩

theorem step_untargeted {s : Player} {a : Action} (calls : s.assigned a = none)
    (other : a.isWatchReply = false) : ∃ t, s.step a = .done t ∧ Untargeted s t := by
  cases a with
  | setPlaylist playlist =>
      cases playlist with
      | none => exact ⟨s, rfl, .refl s⟩
      | some playlist => cases calls
  | next => cases calls
  | previous =>
      simp only [assigned] at calls
      split_ifs at calls with back
      exact ⟨s, if_neg back, .refl s⟩
  | playerItemDidPlayToEnd object =>
      simp only [assigned] at calls
      split_ifs at calls with ends
      exact ⟨s, playToEnd_ignored ends, .refl s⟩
  | endTimeReached =>
      simp only [assigned] at calls
      simp only [step]
      cases observed : s.playerEndObserver with
      | none => exact ⟨s, rfl, .refl s⟩
      | some module =>
          rw [observed, Option.bind_some] at calls
          split_ifs at calls with ends
          exact ⟨s, playToEnd_ignored ends, .refl s⟩
  | togglePlayPause =>
      refine ⟨s.togglePlayPause, rfl, ?_⟩
      unfold togglePlayPause
      split_ifs <;> exact ⟨rfl, rfl, rfl, rfl⟩
  | watchReply i reply => cases other
  | playerReply i reply =>
      simp only [step]
      split
      · refine ⟨_, rfl, ?_⟩
        cases reply with
        | error => exact ⟨rfl, rfl, rfl, rfl⟩
        | response response =>
            simp only [playerResponse]
            split_ifs <;> exact ⟨rfl, rfl, rfl, rfl⟩
      · exact ⟨s, rfl, .refl s⟩
  | runMainQueue =>
      simp only [step]
      split
      · exact ⟨_, rfl, rfl, rfl, rfl, rfl⟩
      · exact ⟨s, rfl, .refl s⟩
  | play | pause | playerStops | updateForPreferenceChange | wait =>
      exact ⟨_, rfl, rfl, rfl, rfl, rfl⟩

/-- What the setter writes is not touched by any other action. -/
theorem step_unassigned {s : Player} {a : Action} (calls : s.assigned a = none) :
    (s.step a).state.targetPlayingIndex = s.targetPlayingIndex ∧
      (s.step a).state.previousTrackEnabled = s.previousTrackEnabled := by
  cases other : a.isWatchReply with
  | false =>
      obtain ⟨t, taken, same⟩ := step_untargeted calls other
      rw [taken]
      exact ⟨same.target, same.enabled⟩
  | true =>
      cases a with
      | watchReply i reply =>
          cases found : s.watchRequests[i]? with
          | none =>
              simp only [step, found]
              exact ⟨rfl, rfl⟩
          | some request =>
              cases reply with
              | error =>
                  simp only [step, found]
                  exact ⟨rfl, rfl⟩
              | message page =>
                  rw [step_page found]
                  split
                  · next endpoints _ =>
                      rw [(startFetch_fetched (s.paged i request page endpoints)).frame]
                      exact ⟨rfl, rfl⟩
                  · exact ⟨rfl, rfl⟩
      | _ => cases other

/-- No subscript is reached out of range, since an accepted index is in the list if there is one. -/
theorem setTarget_done (s : Player) (target : Nat) :
    ∃ t, s.setTargetPlayingIndex target = .done t := by
  have finished := @setTarget_finished s target fun accepted loaded =>
    Nat.lt_of_succ_lt (acceptsTarget_bound accepted loaded)
  cases ran : s.setTargetPlayingIndex target with
  | done t => exact ⟨t, rfl⟩
  | raised fault t =>
      rw [ran] at finished
      cases finished

theorem setTarget_enabled (s : Player) (target : Nat) :
    (s.setTargetPlayingIndex target).state.previousTrackEnabled = decide (target ≠ 0) := by
  obtain ⟨t, ran⟩ := setTarget_done s target
  rw [ran]
  unfold setTargetPlayingIndex at ran
  dsimp only at ran
  split_ifs at ran with accepted
  · cases moved : ({ s with targetPlayingIndex := target } : Player).startFetchForCurrentItem.andThen
        fun self => self.extendPlaylist target with
    | done u =>
        rw [moved] at ran
        cases ran
        rfl
    | raised fault u =>
        rw [moved] at ran
        cases ran
  · cases ran
    rfl

theorem setTarget_endpoints (s : Player) (target : Nat) :
    (s.setTargetPlayingIndex target).state.endpoints = s.endpoints :=
  (setTarget_navigated s target).endpoints

/-- The command is enabled exactly when the index is not the first, which is when `previous`
moves it. -/
structure PreviousInStep (s : Player) : Prop where
  enabled : s.previousTrackEnabled = true ↔ 0 < s.targetPlayingIndex
  moves : 0 < s.targetPlayingIndex ↔
    (s.step .previous).state.targetPlayingIndex ≠ s.targetPlayingIndex

/-- The index before the target passes the guard of the setter. -/
def CanReturn (s : Player) : Prop :=
  s.targetPlayingIndex ≠ 0 → s.acceptsTarget (s.targetPlayingIndex - 1) = true

theorem step_previous_moves_iff (s : Player) :
    (0 < s.targetPlayingIndex ↔
      (s.step .previous).state.targetPlayingIndex ≠ s.targetPlayingIndex) ↔ s.CanReturn := by
  unfold CanReturn
  simp only [step, previous]
  by_cases back : s.targetPlayingIndex ≠ 0
  · rw [if_pos back, setTarget_target]
    split_ifs with accepted
    · exact iff_of_true (iff_of_true (Nat.pos_of_ne_zero back) (by omega)) fun _ => accepted
    · refine iff_of_false ?_ fun returns => accepted (returns back)
      exact fun same => same.mp (Nat.pos_of_ne_zero back) rfl
  · rw [if_neg back]
    exact iff_of_true (iff_of_false (by omega) fun moved => moved rfl) fun later => absurd later back

theorem previousInStep_iff (s : Player) : s.PreviousInStep ↔
    (s.previousTrackEnabled = true ↔ 0 < s.targetPlayingIndex) ∧ s.CanReturn := by
  rw [← step_previous_moves_iff]
  exact ⟨fun inStep => ⟨inStep.enabled, inStep.moves⟩, fun both => ⟨both.1, both.2⟩⟩

/-- At the first item no advance is asked for that the guard refuses. -/
def AdvanceAccepted (s : Player) (a : Action) : Prop :=
  s.targetPlayingIndex = 0 → s.assigned a = some 1 → s.acceptsTarget 1 = true
  deriving Decidable

/-- A page that can be stored does not leave the target behind the end of a list. -/
def PageHoldsTarget (s : Player) (a : Action) : Prop :=
  ∀ d ∈ s.delivered a, FillsUp 0 (indices d.page) → s.targetPlayingIndex ≠ 0 →
    s.targetPlayingIndex - 1 < nsUInteger ((s.count + filled 0 (indices d.page) : Nat) - 1)
  deriving Decidable

/-- A step that keeps the command in step with the index. -/
def KeepsPrevious (s : Player) (a : Action) : Prop := s.AdvanceAccepted a ∧ s.PageHoldsTarget a
  deriving Decidable

/-- In a list that an array can hold the guard refuses the second index when there are one or
two items. -/
theorem advanceAccepted_iff {s : Player} {a : Action} (counted : s.count < 2 ^ 64) :
    s.AdvanceAccepted a ↔
      (s.targetPlayingIndex = 0 → s.assigned a = some 1 → s.count ≠ 1 ∧ s.count ≠ 2) := by
  have guard : s.acceptsTarget 1 = true ↔ s.count ≠ 1 ∧ s.count ≠ 2 := by
    rw [acceptsTarget_iff, nsUInteger]
    omega
  unfold AdvanceAccepted
  rw [guard]

/-- There the target is behind the end when the page leaves some items and not enough. -/
theorem pageHoldsTarget_iff {s : Player} {a : Action} (addressed : s.targetPlayingIndex < 2 ^ 64 - 1)
    (counted : ∀ d ∈ s.delivered a, s.count + filled 0 (indices d.page) < 2 ^ 64) :
    s.PageHoldsTarget a ↔ ∀ d ∈ s.delivered a, FillsUp 0 (indices d.page) →
      s.count + filled 0 (indices d.page) = 0 ∨
        s.targetPlayingIndex < s.count + filled 0 (indices d.page) := by
  unfold PageHoldsTarget
  refine forall₃_congr fun d delivery fills => ?_
  have total := counted d delivery
  generalize s.count + filled 0 (indices d.page) = n at total
  rw [nsUInteger]
  constructor
  · intro holds
    by_cases first : s.targetPlayingIndex = 0
    · omega
    · have inside := holds first
      omega
  · intro holds later
    omega

theorem pageHoldsTarget_none {s : Player} {a : Action} (silent : s.delivered a = none) :
    s.PageHoldsTarget a := by
  intro d delivery
  rw [silent] at delivery
  cases delivery

/-- After an accepted index everything agrees. -/
theorem setTarget_accepted_inStep {s : Player} {target : Nat}
    (accepted : s.acceptsTarget target = true) :
    (s.setTargetPlayingIndex target).state.PreviousInStep := by
  have enabled := setTarget_enabled s target
  have moved := setTarget_target s target
  have endpoints := setTarget_endpoints s target
  rw [accepted, if_pos rfl] at moved
  generalize (s.setTargetPlayingIndex target).state = t at enabled moved endpoints
  have count : t.count = s.count := congrArg List.length endpoints
  rw [previousInStep_iff, CanReturn, enabled, moved]
  refine ⟨by rw [decide_eq_true_iff]; omega, fun later => ?_⟩
  rw [acceptsTarget_iff] at accepted ⊢
  rw [count]
  omega

/-- After a refused one the command is enabled as if it had been accepted. -/
theorem setTarget_refused_inStep {s : Player} {target : Nat} (inStep : s.PreviousInStep)
    (refused : s.acceptsTarget target = false) :
    (s.setTargetPlayingIndex target).state.PreviousInStep ↔
      (target ≠ 0 ↔ 0 < s.targetPlayingIndex) := by
  have enabled := setTarget_enabled s target
  have kept := setTarget_target s target
  have endpoints := setTarget_endpoints s target
  rw [refused, if_neg Bool.false_ne_true] at kept
  generalize (s.setTargetPlayingIndex target).state = t at enabled kept endpoints
  have count : t.count = s.count := congrArg List.length endpoints
  have returns := ((previousInStep_iff s).mp inStep).2
  have returns' : t.CanReturn := by
    unfold CanReturn
    rw [kept, acceptsTarget_iff, count, ← acceptsTarget_iff]
    exact returns
  rw [previousInStep_iff, enabled, kept, decide_eq_true_iff, and_iff_left returns']

theorem step_assigned_iff {s : Player} {a : Action} {target : Nat} (inStep : s.PreviousInStep)
    (calls : s.assigned a = some target) :
    (s.step a).state.PreviousInStep ↔ s.AdvanceAccepted a := by
  have returns := ((previousInStep_iff s).mp inStep).2
  unfold AdvanceAccepted
  rw [calls, Option.some.injEq]
  cases assigned_assignment calls with
  | selects playlist select first taken =>
      subst first
      have accepted : (s.emptied playlist).acceptsTarget 0 = true := rfl
      rw [taken]
      exact iff_of_true (setTarget_accepted_inStep accepted) nofun
  | advances next silent taken =>
      subst next
      rw [taken]
      cases accepted : s.acceptsTarget (s.targetPlayingIndex + 1) with
      | true =>
          refine iff_of_true (setTarget_accepted_inStep accepted) fun first _ => ?_
          rwa [first] at accepted
      | false =>
          rw [setTarget_refused_inStep inStep accepted]
          constructor
          · intro same first
            rw [first] at same
            exact absurd (same.mp (Nat.succ_ne_zero 0)) (Nat.lt_irrefl 0)
          · intro takes
            refine iff_of_true (Nat.succ_ne_zero _) (Nat.pos_of_ne_zero fun first => ?_)
            have passes := takes first (by rw [first])
            rw [first, passes] at accepted
            cases accepted
  | returns later back silent taken =>
      subst back
      rw [taken]
      exact iff_of_true (setTarget_accepted_inStep (returns later)) fun first => absurd first later

theorem step_unassigned_iff {s : Player} {a : Action} (inStep : s.PreviousInStep)
    (calls : s.assigned a = none) : (s.step a).state.PreviousInStep ↔ s.PageHoldsTarget a := by
  obtain ⟨enabled, returns⟩ := (previousInStep_iff s).mp inStep
  obtain ⟨sameTarget, sameEnabled⟩ := step_unassigned calls
  have listing := step_listing s a
  generalize (s.step a).state = t at sameTarget sameEnabled listing
  rw [previousInStep_iff, CanReturn, sameEnabled, sameTarget, and_iff_right enabled,
    acceptsTarget_iff, count_eq]
  cases listing with
  | kept unstored endpoints _ _ =>
      rw [endpoints, ← count_eq, ← acceptsTarget_iff]
      refine iff_of_true returns fun d delivery fills => ?_
      rw [← storeRenderers_isSome_iff s, unstored d delivery] at fills
      cases fills
  | cleared playlist select _ _ =>
      subst select
      cases calls
  | stored d delivery stored _ _ =>
      have fills : FillsUp 0 (indices d.page) := by
        rw [← storeRenderers_isSome_iff s, stored]
        rfl
      unfold PageHoldsTarget
      rw [storeRenderers_length stored, forall_delivered delivery]
      exact ⟨fun holds _ => holds, fun holds => holds fills⟩

theorem step_inStep_iff {s : Player} {a : Action} (inStep : s.PreviousInStep) :
    (s.step a).state.PreviousInStep ↔ s.KeepsPrevious a := by
  unfold KeepsPrevious
  cases calls : s.assigned a with
  | none =>
      rw [step_unassigned_iff inStep calls]
      refine ⟨fun holds => ⟨fun _ one => ?_, holds⟩, fun both => both.2⟩
      rw [calls] at one
      cases one
  | some target =>
      have silent : s.delivered a = none := by
        cases assigned_assignment calls with
        | selects playlist select _ _ =>
            subst select
            rfl
        | advances _ silent _ => exact silent
        | returns _ _ silent _ => exact silent
      rw [step_assigned_iff inStep calls]
      exact ⟨fun accepted => ⟨accepted, pageHoldsTarget_none silent⟩, fun both => both.1⟩

/-- Nothing has been asked for yet. -/
structure Untouched (s : Player) : Prop where
  target : s.targetPlayingIndex = 0
  count : s.count = 0
  requests : s.watchRequests = []

theorem Untouched.stays {s : Player} {a : Action} (untouched : s.Untouched)
    (calls : s.assigned a = none) : ∃ t, s.step a = .done t ∧ t.Untouched := by
  cases other : a.isWatchReply with
  | false =>
      obtain ⟨t, taken, same⟩ := step_untargeted calls other
      exact ⟨t, taken, same.target.trans untouched.target,
        (congrArg List.length same.endpoints).trans untouched.count,
        same.requests.trans untouched.requests⟩
  | true =>
      cases a with
      | watchReply i reply =>
          refine ⟨s, ?_, untouched⟩
          simp only [step, untouched.requests, List.getElem?_nil]
      | _ => cases other

theorem Untouched.before {s : Player} {before : List Action} (untouched : s.Untouched)
    (unassigned : Along step (fun s a => s.assigned a = none) s before) :
    ∃ t, run s before = .done t ∧ t.Untouched := by
  induction before generalizing s with
  | nil => exact ⟨s, rfl, untouched⟩
  | cons a before ih =>
      obtain ⟨t, taken, untouched'⟩ := untouched.stays unassigned.1
      obtain ⟨u, ran, last⟩ := ih untouched' (unassigned.2 t taken)
      refine ⟨u, ?_, last⟩
      rw [Player.run, Runs.run_cons, taken]
      exact ran

/-- Without items the guard lets the first index through. -/
theorem Untouched.first {s : Player} {a : Action} (untouched : s.Untouched)
    (assigns : (s.assigned a).isSome) : ∃ t, s.step a = .done t ∧ t.PreviousInStep := by
  obtain ⟨target, calls⟩ := Option.isSome_iff_exists.mp assigns
  cases assigned_assignment calls with
  | selects playlist _ first taken =>
      obtain ⟨t, ran⟩ := setTarget_done (s.emptied playlist) target
      have accepted : (s.emptied playlist).acceptsTarget target = true := by
        rw [first]
        rfl
      have inStep := setTarget_accepted_inStep accepted
      rw [ran] at inStep
      exact ⟨t, taken.trans ran, inStep⟩
  | advances next _ taken =>
      obtain ⟨t, ran⟩ := setTarget_done s target
      have accepted : s.acceptsTarget target = true := by
        rw [next, acceptsTarget_iff, untouched.count, untouched.target]
        decide
      have inStep := setTarget_accepted_inStep accepted
      rw [ran] at inStep
      exact ⟨t, taken.trans ran, inStep⟩
  | returns later _ _ _ => exact absurd untouched.target later

/-- From the first assignment on the command is in step with the index exactly in the runs in
which no advance from the first item is refused and no page leaves the target behind the list. -/
theorem previousInStep_always_iff (now : Int) (visualType : LMPreferencesVisualizerType)
    (before : List Action) (first : Action) (rest : List Action)
    (unassigned : Along step (fun s a => s.assigned a = none) (init now visualType) before)
    (assigns : ((run (init now visualType) before).state.assigned first).isSome) :
    ∃ s, run (init now visualType) (before ++ [first]) = .done s ∧
      (Always step PreviousInStep s rest ↔ Along step KeepsPrevious s rest) := by
  have untouched : (init now visualType).Untouched := ⟨rfl, rfl, rfl⟩
  obtain ⟨u, ran, untouched'⟩ := untouched.before unassigned
  rw [ran] at assigns
  obtain ⟨s, taken, inStep⟩ := untouched'.first assigns
  refine ⟨s, ?_, ?_⟩
  · change Runs.run step _ _ = _
    rw [Runs.run_append]
    change (run _ before).andThen _ = _
    rw [ran, Runs.Outcome.done_andThen, Runs.run_cons, taken]
    rfl
  · exact Runs.always_iff_along (fun _ _ inStep _ keeps => (step_inStep_iff inStep).mpr keeps)
      (fun _ inStep => inStep)
      (fun _ _ inStep _ drifts keeps => drifts ((step_inStep_iff inStep).mp keeps)) inStep
      (Runs.along_true step s rest)

/-- Four items, and the third one asked for and left again. -/
def thirdAndBack : List Action :=
  [.watchReply 0 (.message (numbered (tracks [1, 2, 3, 4]))), .next, .next, .previous, .previous]

theorem previousInStep_thirdAndBack :
    ∃ s, run (init 0 .video) ([] ++ [.setPlaylist (some ⟨[1], [], 0⟩)]) = .done s ∧
      Always step PreviousInStep s thirdAndBack := by
  obtain ⟨s, ran, inStep_iff⟩ := previousInStep_always_iff 0 .video []
    (.setPlaylist (some ⟨[1], [], 0⟩)) thirdAndBack trivial rfl
  refine ⟨s, ran, inStep_iff.mpr ?_⟩
  cases ran
  decide

/-- Two items, and the second one asked for. -/
def secondOfTwo : List Action :=
  [.watchReply 0 (.message (numbered (tracks [1, 2]))), .next]

/-- The second of two items is refused, and the command is enabled at the first. -/
theorem previousTrack_refused :
    (run (init 0 .video) (.setPlaylist (some ⟨[1], [], 0⟩) :: secondOfTwo)).finished = true ∧
      ¬ (run (init 0 .video) (.setPlaylist (some ⟨[1], [], 0⟩) :: secondOfTwo)).state.PreviousInStep := by
  refine ⟨by decide, fun inStep => ?_⟩
  have first : (run (init 0 .video)
      (.setPlaylist (some ⟨[1], [], 0⟩) :: secondOfTwo)).state.targetPlayingIndex = 0 := by decide
  have later := inStep.enabled.mp (by decide)
  rw [first] at later
  exact absurd later (Nat.lt_irrefl 0)

end Player
end LeptosMusic
