import LeptosMusic.PlayerSteps

/-!
# The target index and the list

The guard of the target index is about the items that are there when it moves. While there
are none it lets almost everything through; the first page has to make up for it.
-/
namespace LeptosMusic
namespace Player
open Runs (Along Always)

/-- The indexed renderers of a page carry the indices from 0 on, in some order. -/
def PageNumbered (s : Player) (a : Action) : Prop :=
  ∀ d ∈ s.delivered a,
    ((indexed d.page).map YTIWatchEndpoint.index).Perm (List.range (indexed d.page).length)
  deriving Decidable

/-- Whenever items were there to fetch from, the target index was one of theirs. -/
def FetchesInBounds (s : Player) : Prop := ∀ f ∈ s.fetches, 0 < f.count → f.target < f.count
  deriving Decidable

/-- The first items of a playlist include the one that is the target by then. -/
def FirstPageReaches (s : Player) (a : Action) : Prop :=
  ∀ d ∈ s.delivered a, (storeRenderers s.count s.endpoints d.page).isSome →
    s.count = 0 → indexed d.page ≠ [] → s.targetPlayingIndex < (indexed d.page).length
  deriving Decidable

structure Aimed (s : Player) : Prop where
  target : 0 < s.count → s.targetPlayingIndex < s.count
  fetches : s.FetchesInBounds

theorem aimed_init (now : Int) (visualType : LMPreferencesVisualizerType) :
    (init now visualType).Aimed := by
  constructor
  · intro loaded
    exact absurd loaded (Nat.lt_irrefl 0)
  · intro f member
    cases member

theorem fetchesInBounds_fetched {s t : Player} (before : s.FetchesInBounds) (fetch : Fetched s t) :
    t.FetchesInBounds ↔ (0 < s.count → s.targetPlayingIndex < s.count) := by
  unfold FetchesInBounds
  rw [fetch.fetches]
  constructor
  · intro after
    exact after ⟨s.count, s.targetPlayingIndex⟩ (by simp)
  · intro bound f member
    rcases List.mem_append.mp member with earlier | new
    · exact before f earlier
    · rw [List.mem_singleton] at new
      subst new
      exact bound

theorem Aimed.fetched {s t : Player} (aimed : s.Aimed) (fetch : Fetched s t) : t.Aimed := by
  refine ⟨?_, (fetchesInBounds_fetched aimed.fetches fetch).mpr aimed.target⟩
  have count : t.count = s.count := congrArg List.length fetch.endpoints
  have target : t.targetPlayingIndex = s.targetPlayingIndex := by rw [fetch.frame]
  rw [count, target]
  exact aimed.target

theorem Aimed.navigated {s t : Player} {target : Nat} (aimed : s.Aimed)
    (move : Navigated s target t) : t.Aimed := by
  cases move with
  | refused _ frame =>
      rw [frame]
      exact ⟨aimed.target, aimed.fetches⟩
  | moved u accepted fetch frame _ =>
      have moved : ({ s with targetPlayingIndex := target } : Player).Aimed := by
        refine ⟨?_, aimed.fetches⟩
        intro loaded
        exact Nat.lt_of_succ_lt (acceptsTarget_bound accepted loaded)
      have after := moved.fetched fetch
      rw [frame]
      exact ⟨after.target, after.fetches⟩

/-- A page keeps the target in the list unless it is the first and too short. -/
theorem paged_target_iff {s : Player} {i : Nat} {request : WatchRequest}
    {page : YTIPlaylistPanelRenderer} {endpoints : List YTIWatchEndpoint} (aimed : s.Aimed)
    (keys : ((indexed page).map YTIWatchEndpoint.index).Perm (List.range (indexed page).length))
    (stored : storeRenderers s.count s.endpoints page = some endpoints) :
    (0 < (s.paged i request page endpoints).count →
        s.targetPlayingIndex < (s.paged i request page endpoints).count) ↔
      (s.count = 0 → indexed page ≠ [] → s.targetPlayingIndex < (indexed page).length) := by
  rw [storeRenderers_eq] at stored
  have count : (s.paged i request page endpoints).count = s.count + (indexed page).length :=
    SubscriptStore.storeAll_length keys stored
  have bound := aimed.target
  rw [count, ← List.length_pos_iff]
  omega

theorem Aimed.step {s : Player} {a : Action} (aimed : s.Aimed) (numbered : s.PageNumbered a)
    (reaches : s.FirstPageReaches a) : (s.step a).state.Aimed := by
  have change := step_change s a
  generalize (s.step a).state = t at change
  cases change with
  | idle _ _ _ frame =>
      rw [frame]
      exact ⟨aimed.target, aimed.fetches⟩
  | navigate _ _ _ _ move => exact aimed.navigated move
  | select playlist _ move =>
      have empty : (s.emptied playlist).Aimed :=
        ⟨fun loaded => absurd loaded (Nat.lt_irrefl 0), aimed.fetches⟩
      exact empty.navigated move
  | watchError i request found => exact ⟨aimed.target, aimed.fetches⟩
  | pageOutOfRange i request page found _ => exact ⟨aimed.target, aimed.fetches⟩
  | page i request page endpoints _ found stored fetch =>
      have delivery := delivered_eq found page
      have bound := reaches _ delivery (by rw [stored]; rfl)
      have paged : (s.paged i request page endpoints).Aimed :=
        ⟨(paged_target_iff aimed (numbered _ delivery) stored).mpr bound, aimed.fetches⟩
      exact paged.fetched fetch
  | playerDropped i module reply found _ => exact ⟨aimed.target, aimed.fetches⟩
  | playerCurrent i module response found _ => exact ⟨aimed.target, aimed.fetches⟩
  | playerPrefetched i module response found _ => exact ⟨aimed.target, aimed.fetches⟩
  | assign block rest queue => exact ⟨aimed.target, aimed.fetches⟩

/-- A first page that is too short is fetched from out of bounds at once. -/
theorem not_fetchesInBounds_step {s : Player} {a : Action} (aimed : s.Aimed)
    (numbered : s.PageNumbered a) (short : ¬ s.FirstPageReaches a) :
    ¬ (s.step a).state.FetchesInBounds := by
  intro after
  apply short
  intro d delivery fits
  cases a with
  | watchReply i reply =>
      have change := step_change s (.watchReply i reply)
      generalize (s.step (.watchReply i reply)).state = t at change after
      cases change with
      | idle _ _ silent _ =>
          rw [silent.1] at delivery
          cases delivery
      | navigate _ _ silent _ _ =>
          rw [silent.1] at delivery
          cases delivery
      | watchError _ request found => cases delivery
      | pageOutOfRange _ request page found stored =>
          rw [delivered_eq found] at delivery
          cases delivery
          rw [stored] at fits
          cases fits
      | page _ request page endpoints _ found stored fetch =>
          have keys := numbered d delivery
          rw [delivered_eq found] at delivery
          cases delivery
          have before : (s.paged i request page endpoints).FetchesInBounds := aimed.fetches
          exact (paged_target_iff aimed keys stored).mp
            ((fetchesInBounds_fetched before fetch).mp after)
  | _ => cases delivery

theorem step_finished {s : Player} {a : Action} (aimed : s.Aimed) (numbered : s.PageNumbered a)
    (reaches : s.FirstPageReaches a) (fits : s.PageFits a) : (s.step a).finished = true := by
  have moves (target : Nat) : (s.setTargetPlayingIndex target).finished = true :=
    setTarget_finished fun accepted loaded =>
      Nat.lt_of_succ_lt (acceptsTarget_bound accepted loaded)
  have ends (item : Option AVPlayerItem) : (s.playerItemDidPlayToEnd item).finished = true := by
    unfold playerItemDidPlayToEnd
    split_ifs
    · exact moves _
    · rfl
  cases a with
  | setPlaylist playlist =>
      cases playlist with
      | none => rfl
      | some playlist =>
          have empty : ¬ 0 < (s.emptied playlist).count := Nat.lt_irrefl 0
          have finished : ((s.emptied playlist).setTargetPlayingIndex 0).finished = true :=
            setTarget_finished fun _ loaded => absurd loaded empty
          exact finished
  | next => exact moves _
  | previous =>
      simp only [Player.step, previous]
      split_ifs
      · exact moves _
      · rfl
  | playerItemDidPlayToEnd item => exact ends item
  | endTimeReached =>
      simp only [Player.step]
      split
      · exact ends _
      · rfl
  | watchReply i reply =>
      cases found : s.watchRequests[i]? with
      | none =>
          simp only [Player.step, found]
          rfl
      | some request =>
          cases reply with
          | error =>
              simp only [Player.step, found]
              rfl
          | message page =>
              have delivery := delivered_eq found page
              have bound := reaches _ delivery (fits _ delivery)
              obtain ⟨endpoints, stored⟩ := Option.isSome_iff_exists.mp (fits _ delivery)
              rw [step_page found, stored]
              exact startFetch_finished ((paged_target_iff aimed (numbered _ delivery) stored).mpr bound)
  | playerReply i reply =>
      simp only [Player.step]
      split <;> rfl
  | runMainQueue =>
      simp only [Player.step]
      split <;> rfl
  | _ => rfl

/-- Every fetch with items there has its target among them exactly when every first page reaches
the target; no subscript is then out of range but in merging a page whose indices do not fit. -/
theorem fetchesInBounds_iff (now : Int) (visualType : LMPreferencesVisualizerType)
    (actions : List Action) (numbered : Along step PageNumbered (init now visualType) actions) :
    (Always step FetchesInBounds (init now visualType) actions ↔
      Along step FirstPageReaches (init now visualType) actions) ∧
    (Along step FirstPageReaches (init now visualType) actions →
      Along step (fun s a => s.PageFits a → (s.step a).finished = true)
        (init now visualType) actions) := by
  have start := aimed_init now visualType
  constructor
  · exact Runs.always_iff_along (I := Aimed) (fun _ _ aimed count reaches => aimed.step count reaches)
      (fun _ aimed => aimed.fetches)
      (fun _ _ aimed count short => not_fetchesInBounds_step aimed count short) start numbered
  · intro reaches
    exact Runs.along_of_along (I := Aimed) (fun _ _ aimed both => aimed.step both.1 both.2)
      (fun _ _ aimed both => step_finished aimed both.1 both.2) start (numbered.and reaches)

/-- A page of three for a playlist whose first page was waited for, and one of two for a playlist
that was skipped into. -/
def reachedRun : List Action :=
  [.setPlaylist (some ⟨[1], [], 0⟩), .watchReply 0 (.message (numbered (tracks [11, 12, 13]))),
    .next, .setPlaylist (some ⟨[2], [], 0⟩), .next,
    .watchReply 1 (.message (numbered (tracks [21, 22])))]

theorem reachedRun_inBounds :
    Always step FetchesInBounds (init 0 .video) reachedRun ∧
      Along step (fun s a => s.PageFits a → (s.step a).finished = true) (init 0 .video) reachedRun :=
  ⟨(fetchesInBounds_iff 0 .video reachedRun (by decide)).1.mpr (by decide),
    (fetchesInBounds_iff 0 .video reachedRun (by decide)).2 (by decide)⟩

/-- `next` is pressed before the only page, of one track, arrives. -/
def skippedPastRun : List Action :=
  [.setPlaylist (some ⟨[1], [], 0⟩), .next, .watchReply 0 (.message (numbered (tracks [11])))]

theorem skippedPast_raises :
    Along step PageNumbered (init 0 .video) skippedPastRun ∧
      Along step PageFits (init 0 .video) skippedPastRun ∧
      ¬ (run (init 0 .video) skippedPastRun).state.FetchesInBounds ∧
      (run (init 0 .video) skippedPastRun).finished = false := by
  decide

end Player
end LeptosMusic
