import LeptosMusic.PlayerSteps

/-!
# Restarts of the current item

What can assign `currentModule` again while the target index and the playlist stay.
-/
namespace LeptosMusic
namespace Player
open Runs (Along Always)

/-- `currentModule` is a valid module for the endpoint at the target index. -/
def Playing (s : Player) : Prop :=
  ∃ module ∈ s.currentModule, module.isValid s.now s.visualType = true ∧
    s.endpoints[s.targetPlayingIndex]? = some module.watchEndpoint
  deriving Decidable

def Steady (s : Player) (a : Action) : Prop :=
  (s.step a).state.targetPlayingIndex = s.targetPlayingIndex ∧
    (s.step a).state.selections = s.selections
  deriving Decidable

/-- Since `s`, nothing has been assigned to `currentModule`, and nothing waits to be. -/
structure Undisturbed (s t : Player) : Prop where
  current : t.currentModule = s.currentModule
  assignments : t.assignments = s.assignments
  mainQueue : t.mainQueue = []

/-- No player response is for the target index, and no page comes while the prefetch slot
holds a valid module for it. -/
def Quiet (s : Player) (a : Action) : Prop :=
  (∀ module ∈ s.answered a, module.watchEndpoint.index ≠ s.targetPlayingIndex) ∧
  (∀ d ∈ s.delivered a, (storeRenderers s.count s.endpoints d.page).isSome → s.prefetched = none)
  deriving Decidable

theorem Playing.loaded {s : Player} (playing : s.Playing) : 0 < s.count := by
  obtain ⟨module, _, _, found⟩ := playing
  obtain ⟨inside, _⟩ := List.getElem?_eq_some_iff.mp found
  exact Nat.zero_lt_of_lt inside

theorem Silent.quiet {s : Player} {a : Action} (silent : s.Silent a) : s.Quiet a := by
  obtain ⟨noPage, noResponse, _⟩ := silent
  constructor
  · intro module answer
    rw [noResponse] at answer
    cases answer
  · intro d delivery
    rw [noPage] at delivery
    cases delivery

/-- With items loaded, a fetch queues a block exactly when the prefetch slot has a hit. -/
theorem queuedByFetch_eq_nil {s : Player} (loaded : 0 < s.count) :
    s.queuedByFetch = [] ↔ s.prefetched = none := by
  unfold queuedByFetch
  rw [if_neg loaded.ne', List.map_eq_nil_iff, Option.toList_eq_nil_iff]

/-- A steady navigation was refused: an accepted one moves the target index. -/
theorem Navigated.steady {s t : Player} {target : Nat} (move : Navigated s target t)
    (moves : target ≠ s.targetPlayingIndex)
    (same : t.targetPlayingIndex = s.targetPlayingIndex) :
    t = { s with previousTrackEnabled := t.previousTrackEnabled } := by
  cases move with
  | refused _ frame => exact frame
  | moved u _ fetch frame _ =>
      rw [frame, fetch.frame] at same
      exact absurd same moves

/-- One steady step disturbs nothing exactly when it is quiet. -/
theorem undisturbed_step {s t : Player} {a : Action} (calm : Undisturbed s t)
    (loaded : 0 < t.count) (steady : t.Steady a) :
    Undisturbed s (t.step a).state ↔ t.Quiet a := by
  have change := step_change t a
  obtain ⟨target, selections⟩ := steady
  generalize (t.step a).state = u at change target selections
  have holds : ∀ {u : Player}, u.currentModule = t.currentModule → u.assignments = t.assignments →
      u.mainQueue = t.mainQueue → Undisturbed s u := fun current assignments mainQueue =>
    ⟨current.trans calm.current, assignments.trans calm.assignments, mainQueue.trans calm.mainQueue⟩
  cases change with
  | idle _ _ silent frame =>
      have after : Undisturbed s u := holds (by rw [frame]) (by rw [frame]) (by rw [frame])
      exact iff_of_true after silent.quiet
  | navigate _ _ silent moves move =>
      have frame := move.steady moves target
      have after : Undisturbed s u := holds (by rw [frame]) (by rw [frame]) (by rw [frame])
      exact iff_of_true after silent.quiet
  | select playlist _ move =>
      have later : u.selections = t.selections + 1 := move.same.selections
      omega
  | watchError i request found =>
      refine iff_of_true (holds rfl rfl rfl) ⟨?_, ?_⟩
      · intro module answer; cases answer
      · intro d delivery; cases delivery
  | pageOutOfRange i request page found stored =>
      refine iff_of_true (holds rfl rfl rfl) ⟨?_, ?_⟩
      · intro module answer; cases answer
      · intro d delivery fits
        rw [delivered_eq found] at delivery
        cases delivery
        rw [stored] at fits
        cases fits
  | page i request page endpoints _ found stored fetch =>
      have filled : 0 < (t.paged i request page endpoints).count :=
        Nat.lt_of_lt_of_le loaded (storeRenderers_placed stored).kept.length_le
      have noHit := queuedByFetch_eq_nil filled
      have queue : u.mainQueue = (t.paged i request page endpoints).queuedByFetch := by
        rw [fetch.mainQueue]
        exact (congrArg (· ++ _) calm.mainQueue).trans (List.nil_append _)
      constructor
      · intro after
        refine ⟨?_, ?_⟩
        · intro module answer
          cases answer
        · intro d _ _
          exact noHit.mp (queue.symm.trans after.mainQueue)
      · intro quiet
        have empty : t.prefetched = none :=
          quiet.2 _ (delivered_eq found page) (by rw [stored]; rfl)
        refine ⟨?_, ?_, ?_⟩
        · rw [fetch.frame]
          exact calm.current
        · rw [fetch.frame]
          exact calm.assignments
        · rw [queue]
          exact noHit.mpr empty
  | playerDropped i module reply found dropped =>
      refine iff_of_true (holds rfl rfl rfl) ⟨?_, fun d delivery => by cases delivery⟩
      intro other answer
      rcases dropped with rfl | ⟨notCurrent, _⟩
      · cases answer
      · cases reply with
        | error => cases answer
        | response response =>
            rw [answered, found] at answer
            cases answer
            exact notCurrent
  | playerCurrent i module response found current =>
      apply iff_of_false
      · intro after
        exact List.append_ne_nil_of_right_ne_nil _ (List.cons_ne_nil _ _) after.mainQueue
      · intro quiet
        exact quiet.1 module found current
  | playerPrefetched i module response found following =>
      refine iff_of_true (holds rfl rfl rfl) ⟨?_, fun d delivery => by cases delivery⟩
      intro other answer
      rw [answered, found] at answer
      cases answer
      omega
  | assign block rest queue =>
      have empty := calm.mainQueue
      rw [queue] at empty
      cases empty

/-- A run that leaves the target index and the playlist alone, from a state that plays the
target's item, assigns nothing and queues nothing exactly when the queue was empty and all
its steps are quiet. -/
theorem undisturbed_iff_quiet {s : Player} {actions : List Action} (playing : s.Playing)
    (steady : Along step Steady s actions) :
    Always step (Undisturbed s) s actions ↔ s.mainQueue = [] ∧ Along step Quiet s actions := by
  have exactly (empty : s.mainQueue = []) :
      Always step (Undisturbed s) s actions ↔ Along step Quiet s actions := by
    refine Runs.always_iff_along (I := fun t => Undisturbed s t ∧ 0 < t.count) ?_ ?_ ?_
      ⟨⟨rfl, rfl, empty⟩, playing.loaded⟩ steady
    · rintro t a ⟨calm, loaded⟩ same quiet
      have grown := (endpoints_step same.2).length_le
      exact ⟨(undisturbed_step calm loaded same).mpr quiet, Nat.lt_of_lt_of_le loaded grown⟩
    · intro t inv
      exact inv.1
    · rintro t a ⟨calm, loaded⟩ same disturbed
      exact mt (undisturbed_step calm loaded same).mp disturbed
  constructor
  · intro always
    have empty := always.start.mainQueue
    exact ⟨empty, (exactly empty).mp always⟩
  · rintro ⟨empty, quiet⟩
    exact (exactly empty).mpr quiet

/-- The second track plays; both requests for it were sent before. -/
def secondTrack : Player :=
  (run (init 0 .video)
    [.setPlaylist (some ⟨[1], [], 0⟩), .watchReply 0 (.message (numbered (tracks [11, 12, 13]))),
      .next, .playerReply 1 (.response ⟨180, 3600⟩), .runMainQueue]).state

/-- An extension page and the response for the next track leave the second track alone. -/
theorem secondTrack_undisturbed :
    Always step (Undisturbed secondTrack) secondTrack
      [.watchReply 0 (.message (numbered (tracks [14]))), .playerReply 2 (.response ⟨200, 3600⟩)] :=
  (undisturbed_iff_quiet (by decide) (by decide)).mpr ⟨by decide, by decide⟩

/-- The second of two responses for the target assigns `currentModule` again. -/
theorem secondTrack_restarts :
    secondTrack.Playing ∧ secondTrack.mainQueue = [] ∧
      Along step Steady secondTrack [.playerReply 1 (.response ⟨180, 3600⟩), .runMainQueue] ∧
      secondTrack.assignments.length = 1 ∧
      (run secondTrack
        [.playerReply 1 (.response ⟨180, 3600⟩), .runMainQueue]).state.assignments.length = 2 := by
  decide

end Player
end LeptosMusic
