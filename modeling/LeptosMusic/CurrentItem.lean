import LeptosMusic.PlayerSteps

/-!
# The current item

Modules wait for replies, in the prefetch slot and in blocks on the main queue. What a
module says about its place stays true while its playlist is selected; whether it may
become the current item depends on when its reply arrives and when its block runs.
-/
namespace LeptosMusic

/-- The module was made for the endpoint at the target index of that moment. -/
def Assigned.Agrees (a : Assigned) : Prop :=
  a.module.place = a.place ∧ a.endpoints[a.place.position]? = some a.module.watchEndpoint
  deriving Decidable

namespace Player
open Runs (Along Always)

def CurrentItemAgrees (s : Player) : Prop := ∀ a ∈ s.assignments, a.Agrees
  deriving Decidable

/-- A player response that the index test lets through is for the selected playlist and for
the place that the index names, and a block runs under the target it was queued under. -/
def Timely (s : Player) (a : Action) : Prop :=
  (∀ module ∈ s.answered a,
    module.watchEndpoint.index = s.targetPlayingIndex ∨
      module.watchEndpoint.index = s.targetPlayingIndex + 1 →
    module.place = s.place module.watchEndpoint.index) ∧
  (∀ block ∈ s.executed a, block.place = s.targetPlace)
  deriving Decidable

/-- If its playlist is still selected, the module's endpoint is where its place says. -/
def Known (s : Player) (module : LMVideoItemModule) : Prop :=
  module.place.selection ≤ s.selections ∧
    (module.place.selection = s.selections → s.MadeHere module)

theorem MadeHere.known {s : Player} {module : LMVideoItemModule} (h : s.MadeHere module) :
    s.Known module := ⟨h.1.le, fun _ => h⟩

theorem Known.mono {s t : Player} {module : LMVideoItemModule} (h : s.Known module)
    (same : t.selections = s.selections) (grown : s.endpoints <+: t.endpoints) :
    t.Known module := by
  refine ⟨same ▸ h.1, ?_⟩
  intro current
  exact (h.2 (current.trans same)).mono same grown

/-- A new selection makes no promise about older modules. -/
theorem Known.selected {s t : Player} {module : LMVideoItemModule} (h : s.Known module)
    (later : t.selections = s.selections + 1) : t.Known module := by
  have older := h.1
  exact ⟨by omega, fun current => by omega⟩

structure PlacesHold (s : Player) : Prop where
  requests : ∀ module ∈ s.playerRequests, s.Known module
  prefetch : ∀ module ∈ s.preemptiveFetch,
    s.MadeHere module ∧ module.place.position = module.watchEndpoint.index
  blocks : ∀ block ∈ s.mainQueue, s.Known block.module ∧ block.module.place = block.place
  assigned : s.CurrentItemAgrees

theorem placesHold_init (now : Int) (visualType : LMPreferencesVisualizerType) :
    (init now visualType).PlacesHold := by
  constructor
  · intro module member; cases member
  · intro module member; cases member
  · intro block member; cases member
  · intro a member; cases member

/-- A hit in the prefetch slot was made for the target's place. -/
theorem PlacesHold.prefetched {s : Player} (h : s.PlacesHold) {module : LMVideoItemModule}
    (hit : s.prefetched = some module) : s.MadeHere module ∧ module.place = s.targetPlace := by
  obtain ⟨slot, passes⟩ := Option.filter_eq_some_iff.mp hit
  obtain ⟨here, position⟩ := h.prefetch module slot
  simp only [Bool.and_eq_true, beq_iff_eq] at passes
  refine ⟨here, ?_⟩
  calc module.place = ⟨module.place.selection, module.place.position⟩ := rfl
    _ = s.targetPlace := by rw [here.1, position, passes.2]; rfl

theorem PlacesHold.queuedByFetch {s : Player} (h : s.PlacesHold) {block : AssignmentBlock}
    (member : block ∈ s.queuedByFetch) :
    s.Known block.module ∧ block.module.place = block.place := by
  unfold Player.queuedByFetch at member
  split_ifs at member
  · cases member
  · simp only [List.mem_map, Option.mem_toList] at member
    obtain ⟨module, hit, rfl⟩ := member
    obtain ⟨here, place⟩ := h.prefetched hit
    exact ⟨here.known, place⟩

theorem PlacesHold.fetched {s t : Player} (h : s.PlacesHold) (fetch : Fetched s t) :
    t.PlacesHold := by
  have selections := fetch.same.selections
  have grown : s.endpoints <+: t.endpoints := fetch.endpoints ▸ List.prefix_rfl
  constructor
  · intro module member
    rcases fetch.requests module member with earlier | here
    · exact (h.requests module earlier).mono selections grown
    · exact here.known.mono selections grown
  · intro module member
    have slot : t.preemptiveFetch = s.preemptiveFetch := by rw [fetch.frame]
    obtain ⟨here, position⟩ := h.prefetch module (slot ▸ member)
    exact ⟨here.mono selections grown, position⟩
  · intro block member
    rw [fetch.mainQueue, List.mem_append] at member
    rcases member with earlier | new
    · exact ⟨(h.blocks block earlier).1.mono selections grown, (h.blocks block earlier).2⟩
    · obtain ⟨known, place⟩ := h.queuedByFetch new
      exact ⟨known.mono selections grown, place⟩
  · have assignments : t.assignments = s.assignments := by rw [fetch.frame]
    unfold CurrentItemAgrees
    rw [assignments]
    exact h.assigned

theorem PlacesHold.navigated {s t : Player} {target : Nat} (h : s.PlacesHold)
    (move : Navigated s target t) : t.PlacesHold := by
  cases move with
  | refused _ frame =>
      rw [frame]
      exact ⟨h.requests, h.prefetch, h.blocks, h.assigned⟩
  | moved u _ fetch frame _ =>
      have aimed : ({ s with targetPlayingIndex := target } : Player).PlacesHold :=
        ⟨h.requests, h.prefetch, h.blocks, h.assigned⟩
      have after := aimed.fetched fetch
      rw [frame]
      exact ⟨after.requests, after.prefetch, after.blocks, after.assigned⟩

theorem PlacesHold.selected {s : Player} (h : s.PlacesHold) (playlist : YTIWatchPlaylistEndpoint) :
    (s.emptied playlist).PlacesHold := by
  constructor
  · intro module member
    exact (h.requests module member).selected rfl
  · intro module member
    cases member
  · intro block member
    exact ⟨(h.blocks block member).1.selected rfl, (h.blocks block member).2⟩
  · exact h.assigned

/-- Storing a page moves nothing that is already in the list. -/
theorem PlacesHold.paged {s : Player} (h : s.PlacesHold) (i : Nat) (request : WatchRequest)
    {page : YTIPlaylistPanelRenderer} {endpoints : List YTIWatchEndpoint}
    (stored : storeRenderers s.count s.endpoints page = some endpoints) :
    (s.paged i request page endpoints).PlacesHold := by
  have grown := (storeRenderers_placed stored).kept
  constructor
  · intro module member
    exact (h.requests module member).mono rfl grown
  · intro module member
    exact ⟨(h.prefetch module member).1.mono rfl grown, (h.prefetch module member).2⟩
  · intro block member
    exact ⟨(h.blocks block member).1.mono rfl grown, (h.blocks block member).2⟩
  · exact h.assigned

theorem PlacesHold.step {s : Player} {a : Action} (h : s.PlacesHold) (timely : s.Timely a) :
    (s.step a).state.PlacesHold := by
  have change := step_change s a
  generalize (s.step a).state = t at change
  cases change with
  | idle _ _ _ frame =>
      rw [frame]
      exact ⟨h.requests, h.prefetch, h.blocks, h.assigned⟩
  | navigate _ _ _ _ move => exact h.navigated move
  | select playlist _ move => exact (h.selected playlist).navigated move
  | watchError i request found => exact ⟨h.requests, h.prefetch, h.blocks, h.assigned⟩
  | pageOutOfRange i request page found stored =>
      exact ⟨h.requests, h.prefetch, h.blocks, h.assigned⟩
  | page i request page endpoints _ found stored fetch => exact (h.paged i request stored).fetched fetch
  | playerDropped i module reply found _ =>
      refine ⟨?_, h.prefetch, h.blocks, h.assigned⟩
      intro other member
      exact h.requests other (List.mem_of_mem_eraseIdx member)
  | playerCurrent i module response found current =>
      have place := timely.1 module found (.inl current)
      have known := h.requests module (List.mem_of_getElem? found)
      refine ⟨?_, h.prefetch, ?_, h.assigned⟩
      · intro other member
        exact h.requests other (List.mem_of_mem_eraseIdx member)
      · intro block member
        rcases List.mem_append.mp member with earlier | new
        · exact h.blocks block earlier
        · rw [List.mem_singleton] at new
          subst new
          exact ⟨known, by simpa [targetPlace, current] using place⟩
  | playerPrefetched i module response found following =>
      have place := timely.1 module found (.inr following)
      have known := h.requests module (List.mem_of_getElem? found)
      refine ⟨?_, ?_, h.blocks, h.assigned⟩
      · intro other member
        exact h.requests other (List.mem_of_mem_eraseIdx member)
      · intro other member
        cases member
        have selection : module.place.selection = s.selections := by rw [place]; rfl
        have position : module.place.position = module.watchEndpoint.index := by rw [place]; rfl
        exact ⟨known.2 selection, position⟩
  | assign block rest queue =>
      obtain ⟨known, place⟩ := h.blocks block (queue ▸ List.mem_cons_self)
      have target : block.place = s.targetPlace := timely.2 block (by rw [executed, queue]; rfl)
      refine ⟨h.requests, h.prefetch, ?_, ?_⟩
      · intro other member
        exact h.blocks other (queue ▸ List.mem_cons_of_mem block member)
      · intro a member
        rcases List.mem_append.mp member with earlier | new
        · exact h.assigned a earlier
        · rw [List.mem_singleton] at new
          subst new
          have here : block.module.place = s.targetPlace := place.trans target
          have found := (known.2 (by rw [here]; rfl)).2
          rw [here] at found
          exact ⟨here, found⟩

/-- In a run whose player responses and queued blocks are all timely, `currentModule` is only
ever assigned a module made for the endpoint at the target index. -/
theorem currentModule_agrees (now : Int) (visualType : LMPreferencesVisualizerType)
    (actions : List Action) (timely : Along step Timely (init now visualType) actions) :
    Always step CurrentItemAgrees (init now visualType) actions :=
  Runs.always_of_along (fun _ _ holds => holds.step) (fun _ holds => holds.assigned)
    (placesHold_init now visualType) timely

/-- Two tracks, each heard of before it is the target's turn. -/
def gaplessRun : List Action :=
  [.setPlaylist (some ⟨[1], [], 0⟩), .watchReply 0 (.message (numbered (tracks [11, 12, 13]))),
    .playerReply 0 (.response ⟨180, 3600⟩), .runMainQueue,
    .playerReply 0 (.response ⟨200, 3600⟩), .next, .runMainQueue]

theorem gaplessRun_agrees :
    Always step CurrentItemAgrees (init 0 .video) gaplessRun ∧
      (run (init 0 .video) gaplessRun).state.assignments.length = 2 :=
  ⟨currentModule_agrees 0 .video gaplessRun (by decide), by decide⟩

/-- The response for the first track of one playlist comes after another was selected. -/
def lateResponseRun : List Action :=
  [.setPlaylist (some ⟨[1], [], 0⟩), .watchReply 0 (.message (numbered (tracks [11, 12, 13]))),
    .setPlaylist (some ⟨[2], [], 0⟩), .watchReply 0 (.message (numbered (tracks [21, 22, 23]))),
    .playerReply 0 (.response ⟨180, 3600⟩), .runMainQueue]

theorem lateResponse_disagrees :
    ¬ Always step CurrentItemAgrees (init 0 .video) lateResponseRun := by
  intro agrees
  exact absurd agrees.last (by decide)

end Player
end LeptosMusic
