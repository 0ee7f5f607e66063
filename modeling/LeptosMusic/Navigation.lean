import LeptosMusic.TargetIndex

/-!
# Going through a loaded playlist

The guard of the target index leaves room for the item behind it, so that the last item is
never the target of a playlist with more than one.
-/
namespace LeptosMusic
namespace Player
open Runs (Along)

/-- No playlist is selected, and no page brings more of this one. -/
def Settled (s : Player) (a : Action) : Prop :=
  a.selects = false ∧ ∀ d ∈ s.delivered a, indexed d.page = []
  deriving Decidable

/-- One press moves the target index by one, as far as the list goes. -/
structure Covers (s : Player) (a : Action) : Prop where
  finished : a = .next ∨ a = .previous → (s.step a).finished = true
  next : a = .next → (s.step a).state.targetPlayingIndex =
    if s.targetPlayingIndex + 1 < s.count then s.targetPlayingIndex + 1 else s.targetPlayingIndex
  previous : a = .previous → (s.step a).state.targetPlayingIndex =
    if 0 < s.targetPlayingIndex then s.targetPlayingIndex - 1 else s.targetPlayingIndex
  inside : (s.step a).state.targetPlayingIndex < s.count
  kept : (s.step a).state.endpoints = s.endpoints

/-- `next` is not pressed at the item before the last one. -/
def LeavesLast (s : Player) (a : Action) : Prop := a = .next → s.targetPlayingIndex + 2 ≠ s.count
  deriving Decidable

/-- The list is one that an array can hold, and the target is in it. -/
structure Loaded (s : Player) : Prop where
  inside : s.targetPlayingIndex < s.count
  counted : s.count < 2 ^ 64

theorem Loaded.acceptsTarget {s : Player} (loaded : s.Loaded) (target : Nat) :
    s.acceptsTarget target = true ↔ target + 1 < s.count := by
  have inside := loaded.inside
  have counted := loaded.counted
  rw [acceptsTarget_iff, nsUInteger]
  omega

theorem setTarget_target (s : Player) (target : Nat) :
    (s.setTargetPlayingIndex target).state.targetPlayingIndex =
      if s.acceptsTarget target then target else s.targetPlayingIndex := by
  have move := setTarget_navigated s target
  generalize (s.setTargetPlayingIndex target).state = t at move
  cases move with
  | refused refused frame =>
      rw [frame, refused]
      rfl
  | moved u accepted fetch frame _ =>
      rw [frame, fetch.frame, accepted]
      rfl

theorem Loaded.setTarget_finished {s : Player} (loaded : s.Loaded) (target : Nat) :
    (s.setTargetPlayingIndex target).finished = true := by
  apply Player.setTarget_finished
  intro accepted _
  exact Nat.lt_of_succ_lt ((loaded.acceptsTarget target).mp accepted)

theorem step_press_finished {s : Player} {a : Action} (loaded : s.Loaded)
    (press : a = .next ∨ a = .previous) : (s.step a).finished = true := by
  rcases press with rfl | rfl
  · exact loaded.setTarget_finished _
  · simp only [step, previous]
    split_ifs
    · exact loaded.setTarget_finished _
    · rfl

theorem step_next_target {s : Player} (loaded : s.Loaded) :
    (s.step .next).state.targetPlayingIndex =
      if s.targetPlayingIndex + 2 < s.count then s.targetPlayingIndex + 1
      else s.targetPlayingIndex := by
  have moved := setTarget_target s (s.targetPlayingIndex + 1)
  rw [if_congr (loaded.acceptsTarget _) rfl rfl] at moved
  exact moved

theorem step_previous_target {s : Player} (loaded : s.Loaded) :
    (s.step .previous).state.targetPlayingIndex =
      if 0 < s.targetPlayingIndex then s.targetPlayingIndex - 1 else s.targetPlayingIndex := by
  simp only [step, previous]
  by_cases back : s.targetPlayingIndex ≠ 0
  · have inside := loaded.inside
    have accepted : s.acceptsTarget (s.targetPlayingIndex - 1) = true := by
      rw [loaded.acceptsTarget]
      omega
    rw [if_pos back, if_pos (Nat.pos_of_ne_zero back), setTarget_target, accepted]
    rfl
  · rw [if_neg back, if_neg (by omega)]
    rfl

/-- What is loaded stays as it is. -/
theorem Settled.endpoints {s : Player} {a : Action} (settled : s.Settled a) :
    (s.step a).state.endpoints = s.endpoints := by
  cases step_listing s a with
  | kept _ endpoints _ _ => exact endpoints
  | cleared playlist select _ _ =>
      subst select
      cases settled.1
  | stored d delivery stored _ _ =>
      rw [storeRenderers_nil (settled.2 d delivery)] at stored
      exact (Option.some.inj stored).symm

theorem step_target_inside {s : Player} {a : Action} (loaded : s.Loaded) (settled : s.Settled a) :
    (s.step a).state.targetPlayingIndex < s.count := by
  have inside := loaded.inside
  have change := step_change s a
  generalize (s.step a).state = t at change
  cases change with
  | idle _ _ _ frame =>
      rw [frame]
      exact inside
  | navigate _ _ _ _ move =>
      cases move with
      | refused _ frame =>
          rw [frame]
          exact inside
      | moved u accepted fetch frame _ =>
          have bound := (loaded.acceptsTarget _).mp accepted
          rw [frame, fetch.frame]
          exact Nat.lt_of_succ_lt bound
  | select playlist _ _ => cases settled.1
  | page i request page endpoints _ found stored fetch =>
      rw [fetch.frame]
      exact inside
  | watchError | pageOutOfRange | playerDropped | playerCurrent | playerPrefetched | assign =>
      exact inside

theorem Loaded.step {s : Player} {a : Action} (loaded : s.Loaded) (settled : s.Settled a) :
    (s.step a).state.Loaded := by
  have count : (s.step a).state.count = s.count := congrArg List.length settled.endpoints
  constructor
  · rw [count]
    exact step_target_inside loaded settled
  · rw [count]
    exact loaded.counted

theorem covers_iff {s : Player} {a : Action} (loaded : s.Loaded) (settled : s.Settled a) :
    s.Covers a ↔ s.LeavesLast a := by
  have inside := loaded.inside
  constructor
  · intro covers press last
    have moved := covers.next press
    subst press
    rw [step_next_target loaded, if_neg (by omega), if_pos (by omega)] at moved
    omega
  · intro leaves
    refine ⟨step_press_finished loaded, ?_, ?_, step_target_inside loaded settled, settled.endpoints⟩
    · intro press
      have notLast := leaves press
      subst press
      rw [step_next_target loaded]
      split_ifs <;> omega
    · intro press
      subst press
      exact step_previous_target loaded

theorem presses_target {s : Player} (loaded : s.Loaded)
    (notLast : s.targetPlayingIndex + 1 < s.count ∨ s.targetPlayingIndex = 0) (presses : Nat) :
    (run s (List.replicate presses .next)).state.targetPlayingIndex =
      min (s.targetPlayingIndex + presses) (s.count - 2) := by
  induction presses generalizing s with
  | zero =>
      rw [List.replicate_zero, run, Runs.run_nil, Runs.Outcome.state_done]
      omega
  | succ presses ih =>
      have settled : s.Settled .next := ⟨rfl, fun d delivery => by cases delivery⟩
      have target := step_next_target loaded
      have count : (s.step .next).state.count = s.count := congrArg List.length settled.endpoints
      have after := loaded.step settled
      have finished := step_press_finished loaded (.inl rfl)
      rw [List.replicate_succ, run, Runs.run_cons]
      cases taken : s.step .next with
      | raised fault t =>
          rw [taken] at finished
          cases finished
      | done t =>
          rw [taken, Runs.Outcome.state_done] at target count after
          rw [Runs.Outcome.done_andThen, ih after (by split_ifs at target <;> omega), count, target]
          split_ifs <;> omega

/-- From the first item, `next` alone leads to every item but the last of several. -/
theorem reached_iff {s : Player} (loaded : s.Loaded) (first : s.targetPlayingIndex = 0)
    {position : Nat} (inside : position < s.count) :
    (∃ presses, (run s (List.replicate presses .next)).state.targetPlayingIndex = position) ↔
      position + 1 < s.count ∨ s.count = 1 := by
  constructor
  · rintro ⟨presses, reached⟩
    rw [presses_target loaded (.inr first)] at reached
    omega
  · intro notLast
    refine ⟨position, ?_⟩
    rw [presses_target loaded (.inr first)]
    omega

/-- With a list loaded that nothing extends, every press of a run moves the target as far as the
list goes exactly when `next` is not pressed at the item before the last one. From the first item,
`next` leads to every item exactly when there is one only. -/
theorem covers_iff_leavesLast {s : Player} (inside : s.targetPlayingIndex < s.count)
    (counted : s.count < 2 ^ 64) (actions : List Action) (settled : Along step Settled s actions) :
    (Along step Covers s actions ↔ Along step LeavesLast s actions) ∧
      (s.targetPlayingIndex = 0 →
        ((∀ position < s.count, ∃ presses,
          (run s (List.replicate presses .next)).state.targetPlayingIndex = position) ↔
            s.count = 1)) := by
  have loaded : s.Loaded := ⟨inside, counted⟩
  constructor
  · apply Runs.along_iff_along (I := Loaded) _ _ loaded settled
    · intro t a loaded settled _
      exact loaded.step settled
    · intro t a loaded settled
      exact covers_iff loaded settled
  · intro first
    constructor
    · intro reached
      have last := (reached_iff loaded first (by omega)).mp (reached (s.count - 1) (by omega))
      omega
    · intro single position bound
      exact (reached_iff loaded first bound).mpr (.inr single)

def threeTracks : Player :=
  (run (init 0 .video) [.setPlaylist (some ⟨[1], [], 0⟩),
    .watchReply 0 (.message (numbered (tracks [11, 12, 13])))]).state

theorem threeTracks_covers :
    Along step Covers threeTracks [.next, .previous, .previous, .next] :=
  (covers_iff_leavesLast (by decide) (by decide) [.next, .previous, .previous, .next]
    (by decide)).1.mpr (by decide)

/-- The second press of `next` does not move to the last of three tracks. -/
theorem threeTracks_last_missed :
    threeTracks.count = 3 ∧ Along step Settled threeTracks [.next, .next] ∧
      (run threeTracks [.next]).state.targetPlayingIndex = 1 ∧
      (run threeTracks [.next, .next]).state.targetPlayingIndex = 1 ∧
      ¬ Along step Covers threeTracks [.next, .next] ∧
      ¬ ∃ presses, (run threeTracks (List.replicate presses .next)).state.targetPlayingIndex = 2 := by
  have loaded : threeTracks.Loaded := ⟨by decide, by decide⟩
  refine ⟨by decide, by decide, by decide, by decide, ?_, ?_⟩
  · rintro ⟨_, rest⟩
    have second := (rest _ rfl).1.next rfl
    exact absurd second (by decide)
  · intro reached
    exact absurd ((reached_iff loaded (by decide) (by decide)).mp reached) (by decide)

end Player
end LeptosMusic
