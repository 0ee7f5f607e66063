import LeptosMusic.PlayerSteps

/-!
# The rate to resume with

`pause` saves the rate that the player has at that moment, and `play` sets the saved one.
-/
namespace LeptosMusic
namespace Player
open Runs (Along Always)

/-- Playback can be started by every method that is meant to start it. -/
structure Resumable (s : Player) : Prop where
  playbackRate : s.playbackRate ≠ 0
  plays : s.play.player.rate ≠ 0
  toggles : s.player.rate = 0 → s.togglePlayPause.player.rate ≠ 0
  assigns : ∀ module, (s.setCurrentModule module).player.rate ≠ 0 ∧
    (s.setCurrentModule module).player.currentItem = module.playerItem s.visualType

/-- `pause` finds the player running. -/
def PausesRunning (s : Player) (a : Action) : Prop := a = .pause → s.player.rate ≠ 0
  deriving Decidable

theorem togglePlayPause_stopped {s : Player} (stopped : s.player.rate = 0) :
    s.togglePlayPause = s.play := by
  rw [togglePlayPause, stopped]
  exact if_pos (by decide)

theorem resumable_iff_rate (s : Player) : s.Resumable ↔ s.playbackRate ≠ 0 := by
  constructor
  · exact Resumable.playbackRate
  · intro nonzero
    refine ⟨nonzero, nonzero, ?_, fun module => ⟨nonzero, rfl⟩⟩
    intro stopped
    rw [togglePlayPause_stopped stopped]
    exact nonzero

theorem togglePlayPause_rate {s : Player} (nonzero : s.playbackRate ≠ 0) :
    s.togglePlayPause.playbackRate ≠ 0 := by
  unfold togglePlayPause
  split_ifs with slow
  · exact nonzero
  · intro saved
    apply slow
    have stopped : s.player.rate = 0 := saved
    rw [stopped]
    decide

theorem Fetched.playbackRate {s t : Player} (fetch : Fetched s t) :
    t.playbackRate = s.playbackRate := by rw [fetch.frame]

theorem Navigated.playbackRate {s t : Player} {target : Nat} (move : Navigated s target t) :
    t.playbackRate = s.playbackRate := by
  cases move with
  | refused _ frame => rw [frame]
  | moved u _ fetch frame _ =>
      rw [frame]
      exact fetch.playbackRate

theorem playToEnd_playbackRate (s : Player) (item : Option AVPlayerItem) :
    (s.playerItemDidPlayToEnd item).state.playbackRate = s.playbackRate := by
  unfold playerItemDidPlayToEnd
  split_ifs
  · exact (setTarget_navigated s _).playbackRate
  · rfl

/-- Only the two methods that pause write the saved rate. -/
theorem step_playbackRate (s : Player) {a : Action} (notPause : a ≠ .pause)
    (notToggle : a ≠ .togglePlayPause) : (s.step a).state.playbackRate = s.playbackRate := by
  cases a with
  | setPlaylist playlist =>
      cases playlist with
      | none => rfl
      | some playlist => exact (setTarget_navigated (s.emptied playlist) 0).playbackRate
  | next => exact (setTarget_navigated s _).playbackRate
  | previous =>
      simp only [step, previous]
      split_ifs
      · exact (setTarget_navigated s _).playbackRate
      · rfl
  | pause => exact absurd rfl notPause
  | togglePlayPause => exact absurd rfl notToggle
  | playerItemDidPlayToEnd item => exact playToEnd_playbackRate s item
  | endTimeReached =>
      simp only [step]
      split
      · exact playToEnd_playbackRate s _
      · rfl
  | watchReply i reply =>
      simp only [step]
      split
      · next request found =>
          cases reply with
          | error => rfl
          | message page =>
              unfold watchResponse _preprocessInnerPlaylist
              dsimp only
              split
              · exact (startFetch_fetched _).playbackRate
              · rfl
      · rfl
  | playerReply i reply =>
      simp only [step]
      split
      · next module found =>
          cases reply with
          | error => rfl
          | response response =>
              simp only [playerResponse, Runs.Outcome.state_done]
              split_ifs <;> rfl
      · rfl
  | runMainQueue =>
      simp only [step]
      split <;> rfl
  | _ => rfl

/-- A rate of zero is saved by `pause` alone, when the player has stopped. -/
theorem step_playbackRate_ne_zero {s : Player} (nonzero : s.playbackRate ≠ 0) (a : Action) :
    (s.step a).state.playbackRate ≠ 0 ↔ s.PausesRunning a := by
  by_cases pause : a = .pause
  · subst pause
    constructor
    · intro saved _
      exact saved
    · intro running
      exact running rfl
  · have admitted : s.PausesRunning a := fun same => absurd same pause
    refine iff_of_true ?_ admitted
    by_cases toggle : a = .togglePlayPause
    · subst toggle
      exact togglePlayPause_rate nonzero
    · rw [step_playbackRate s pause toggle]
      exact nonzero

/-- From `init`, playback can be started in every state of a run exactly when `pause` is only
sent to a running player. -/
theorem resumable_iff_pauses (now : Int) (visualType : LMPreferencesVisualizerType)
    (actions : List Action) :
    Always step Resumable (init now visualType) actions ↔
      Along step PausesRunning (init now visualType) actions := by
  apply Runs.always_iff_along (I := fun s => s.playbackRate ≠ 0) (E := fun _ _ => True)
  · intro s a nonzero _ running
    exact (step_playbackRate_ne_zero nonzero a).mpr running
  · intro s nonzero
    exact (resumable_iff_rate s).mpr nonzero
  · intro s a nonzero _ stopped resumable
    exact stopped ((step_playbackRate_ne_zero nonzero a).mp resumable.playbackRate)
  · exact (by decide : (1 : Rat) ≠ 0)
  · exact Runs.along_true step _ _

/-- A track plays to its end, and `pause` is sent to the stopped player. -/
def pausedAtEndRun : List Action :=
  [.setPlaylist (some ⟨[1], [], 0⟩), .watchReply 0 (.message (numbered (tracks [11, 12, 13]))),
    .playerReply 0 (.response ⟨180000, 21600⟩), .runMainQueue, .playerStops, .pause]

/-- Neither `play` nor `togglePlayPause` nor the next track starts the player again. -/
theorem pausedAtEnd_not_resumable :
    (run (init 0 .video) (pausedAtEndRun.take 4)).state.player.rate = 1 ∧
      (run (init 0 .video) pausedAtEndRun).finished = true ∧
      ¬ (run (init 0 .video) pausedAtEndRun).state.Resumable ∧
      (run (init 0 .video) (pausedAtEndRun ++ [.play])).state.player.rate = 0 ∧
      (run (init 0 .video) (pausedAtEndRun ++ [.togglePlayPause])).state.player.rate = 0 ∧
      (run (init 0 .video) (pausedAtEndRun ++ [.next, .playerReply 0 (.response ⟨180000, 21600⟩),
        .runMainQueue])).state.player = ⟨0, some ⟨1, .hls⟩⟩ := by
  refine ⟨by decide, by decide, ?_, by decide, by decide, by decide⟩
  intro resumable
  exact absurd resumable.playbackRate (by decide)

end Player
end LeptosMusic
