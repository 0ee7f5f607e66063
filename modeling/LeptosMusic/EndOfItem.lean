import LeptosMusic.PreviousTrack

/-!
# The ends of one item

The boundary observer posts the notification for the `dsh` item by itself, AVPlayer posts its own
one for the item it plays, and either comes again after a scrub. The handler compares the object
with the item of the current module, which stays until the next one has been fetched.
-/
namespace LeptosMusic
open Runs (Outcome Along Always)

namespace LMVideoItemModule

/-- The response has come, and the items tell the module. -/
structure Processed (module : LMVideoItemModule) : Prop where
  hls : module.hlsPlayerItem = some ⟨module.object, .hls⟩
  dsh : module.dshPlayerItem = some ⟨module.object, .dsh⟩

theorem processed_response (self : LMVideoItemModule) (now : Int) (playerResponse : YTIPlayerResponse) :
    (self._immediatePlayerResponseProcess now playerResponse).Processed := ⟨rfl, rfl⟩

theorem Processed.picked {module : LMVideoItemModule} (processed : module.Processed)
    (visualType : LMPreferencesVisualizerType) :
    ∃ item, module.playerItem visualType = some item ∧ item.module = module.object := by
  unfold playerItem
  split_ifs
  · exact ⟨_, processed.dsh, rfl⟩
  · exact ⟨_, processed.hls, rfl⟩

end LMVideoItemModule

namespace Player

/-- No module is kept or put on the main queue before its response. -/
structure AllProcessed (s : Player) : Prop where
  current : ∀ module ∈ s.currentModule, module.Processed
  prefetch : ∀ module ∈ s.preemptiveFetch, module.Processed
  blocks : ∀ block ∈ s.mainQueue, block.module.Processed

theorem allProcessed_init (now : Int) (visualType : LMPreferencesVisualizerType) :
    (init now visualType).AllProcessed where
  current module member := by cases member
  prefetch module member := by cases member
  blocks block member := by cases member

theorem AllProcessed.fetched {s t : Player} (processed : s.AllProcessed) (fetch : Fetched s t) :
    t.AllProcessed := by
  have current : t.currentModule = s.currentModule := by rw [fetch.frame]
  have prefetch : t.preemptiveFetch = s.preemptiveFetch := by rw [fetch.frame]
  refine ⟨current ▸ processed.current, prefetch ▸ processed.prefetch, fun block member => ?_⟩
  rw [fetch.mainQueue, List.mem_append] at member
  rcases member with earlier | new
  · exact processed.blocks block earlier
  · unfold queuedByFetch at new
    split_ifs at new
    · cases new
    · obtain ⟨module, hit, rfl⟩ := List.mem_map.mp new
      exact processed.prefetch module (Option.mem_filter_iff.mp (Option.mem_toList.mp hit)).1

theorem AllProcessed.navigated {s t : Player} {target : Nat} (processed : s.AllProcessed)
    (move : Navigated s target t) : t.AllProcessed := by
  cases move with
  | refused _ frame =>
      rw [frame]
      exact ⟨processed.current, processed.prefetch, processed.blocks⟩
  | moved u _ fetch frame _ =>
      have aimed : ({ s with targetPlayingIndex := target } : Player).AllProcessed :=
        ⟨processed.current, processed.prefetch, processed.blocks⟩
      have after := aimed.fetched fetch
      rw [frame]
      exact ⟨after.current, after.prefetch, after.blocks⟩

theorem AllProcessed.step {s : Player} (processed : s.AllProcessed) (a : Action) :
    (s.step a).state.AllProcessed := by
  have change := step_change s a
  generalize (s.step a).state = t at change
  have same : ∀ u : Player, u.currentModule = s.currentModule → u.preemptiveFetch = s.preemptiveFetch →
      u.mainQueue = s.mainQueue → u.AllProcessed := fun u current prefetch blocks =>
    ⟨current ▸ processed.current, prefetch ▸ processed.prefetch, blocks ▸ processed.blocks⟩
  cases change with
  | idle _ _ _ frame =>
      rw [frame]
      exact same _ rfl rfl rfl
  | navigate _ _ _ _ move => exact processed.navigated move
  | select playlist _ move =>
      have emptied : (s.emptied playlist).AllProcessed :=
        ⟨processed.current, fun _ member => (by cases member), processed.blocks⟩
      exact emptied.navigated move
  | watchError | pageOutOfRange | playerDropped => exact same _ rfl rfl rfl
  | page i request page endpoints _ _ _ fetch =>
      exact (same (s.paged i request page endpoints) rfl rfl rfl).fetched fetch
  | playerCurrent i module response _ _ =>
      refine ⟨processed.current, processed.prefetch, fun block member => ?_⟩
      rcases List.mem_append.mp member with earlier | new
      · exact processed.blocks block earlier
      · rw [List.mem_singleton.mp new]
        exact module.processed_response ..
  | playerPrefetched i module response _ _ =>
      refine ⟨processed.current, fun other member => ?_, processed.blocks⟩
      cases member
      exact module.processed_response ..
  | assign block rest queue =>
      refine ⟨fun module member => ?_, processed.prefetch, fun other member => ?_⟩
      · cases member
        exact processed.blocks block (queue ▸ List.mem_cons_self)
      · exact processed.blocks other (queue ▸ List.mem_cons_of_mem block member)

def Action.endsItem : Action → Bool
  | .playerItemDidPlayToEnd _ => true
  | .endTimeReached => true
  | _ => false

/-- The object of the notification that the action delivers, AVPlayer's or the boundary
observer's. -/
def notified (s : Player) : Action → Option AVPlayerItem
  | .playerItemDidPlayToEnd object => object
  | .endTimeReached => s.playerEndObserver.bind LMVideoItemModule.dshPlayerItem
  | _ => none

/-- The notification is for an item of the current module. -/
def reportsEnd (s : Player) (a : Action) : Bool :=
  (s.notified a).any fun item =>
    s.currentModule.any fun module => item.module == module.object

/-- The action puts another module in the place of the current one. -/
def replaces (s : Player) (a : Action) : Bool :=
  (s.executed a).any fun block =>
    s.currentModule.map LMVideoItemModule.object != some block.module.object

/-- The handler has moved the target for the current module. -/
def Advances (s : Player) (a : Action) (t : Player) : Prop :=
  a.endsItem = true ∧ s.currentModule.isSome = true ∧ t.targetPlayingIndex ≠ s.targetPlayingIndex
  deriving Decidable

theorem endsItem_assigned {s : Player} {a : Action} {target : Nat} (ends : a.endsItem = true)
    (calls : s.assigned a = some target) : s.endsCurrent (s.notified a) := by
  cases a with
  | playerItemDidPlayToEnd object =>
      simp only [assigned] at calls
      split_ifs at calls with named
      exact named
  | endTimeReached =>
      obtain ⟨module, observed, calls⟩ := Option.bind_eq_some_iff.mp calls
      split_ifs at calls with named
      rw [notified, observed]
      exact named
  | _ => cases ends

/-- The handler advances only for a notification of the current module. -/
theorem Advances.reports {s : Player} {a : Action} (processed : s.AllProcessed)
    (advances : s.Advances a (s.step a).state) : s.reportsEnd a = true := by
  obtain ⟨ends, playing, moved⟩ := advances
  obtain ⟨module, current⟩ := Option.isSome_iff_exists.mp playing
  cases calls : s.assigned a with
  | none => exact absurd (step_unassigned calls).1 moved
  | some target =>
      have named := endsItem_assigned ends calls
      obtain ⟨item, picked, own⟩ := (processed.current module current).picked s.visualType
      rw [endsCurrent, current, Option.bind_some, picked] at named
      simp [reportsEnd, named, current, own]

end Player

/-- The manager with what has become of its current module. -/
structure PlayedItem where
  player : Player
  /-- How often its ends have moved the target. -/
  advances : Nat
  /-- A notification for one of its items has been delivered. -/
  reported : Bool

namespace PlayedItem
open Player (numbered tracks)

inductive Event where
  | manager (action : Player.Action)
  | scrubToTimestamp (timestamp : Nat)

def init (now : Int) (visualType : LMPreferencesVisualizerType) : PlayedItem :=
  ⟨.init now visualType, 0, false⟩

/-- The count starts again with another module. -/
def after (s : PlayedItem) (a : Player.Action) (t : Player) : PlayedItem where
  player := t
  advances :=
    if s.player.replaces a then 0
    else if s.player.Advances a t then s.advances + 1 else s.advances
  reported := !s.player.replaces a && (s.reported || s.player.reportsEnd a)

/-- A seek moves the player's position only, after which any of the ends may come again. -/
def step (s : PlayedItem) : Event → Outcome Fault PlayedItem
  | .manager action => (s.player.step action).map (s.after action)
  | .scrubToTimestamp _ => .done s

/-- The notification is the first one for the items of the current module. -/
def ReportsOnce (s : PlayedItem) : Event → Prop
  | .manager action => s.player.reportsEnd action = true → s.reported = false
  | .scrubToTimestamp _ => True

instance (s : PlayedItem) : (e : Event) → Decidable (s.ReportsOnce e)
  | .manager action =>
      inferInstanceAs (Decidable (s.player.reportsEnd action = true → s.reported = false))
  | .scrubToTimestamp _ => .isTrue trivial

/-- No more advances than notifications. -/
structure Counted (s : PlayedItem) : Prop where
  processed : s.player.AllProcessed
  advances : s.advances ≤ s.reported.toNat

theorem Counted.bound {s : PlayedItem} (counted : s.Counted) : s.advances ≤ 1 :=
  counted.advances.trans s.reported.toNat_le

theorem step_manager_state (s : PlayedItem) (a : Player.Action) :
    (s.step (.manager a)).state = s.after a (s.player.step a).state :=
  Runs.Outcome.state_map _ _

theorem Counted.step {s : PlayedItem} {e : Event} (counted : s.Counted) (once : s.ReportsOnce e) :
    (s.step e).state.Counted := by
  cases e with
  | scrubToTimestamp timestamp => exact counted
  | manager a =>
      rw [step_manager_state]
      refine ⟨counted.processed.step a, ?_⟩
      have before := counted.advances
      rw [after]
      dsimp only
      cases replaced : s.player.replaces a with
      | true => exact Nat.zero_le _
      | false =>
          rw [if_neg Bool.false_ne_true, Bool.not_false, Bool.true_and]
          split_ifs with advances
          · have reports := advances.reports counted.processed
            rw [once reports] at before ⊢
            rw [reports]
            exact Nat.succ_le_succ before
          · cases reported : s.reported with
            | true =>
                rw [reported] at before
                exact before
            | false =>
                rw [reported] at before
                exact before.trans (Nat.zero_le _)

/-- In every run in which, between two assignments, at most one notification is for an item of the
current module, the handler advances at most once for each module. -/
theorem advances_of_reportsOnce (now : Int) (visualType : LMPreferencesVisualizerType)
    (events : List Event) (once : Along step ReportsOnce (init now visualType) events) :
    Always step (fun s => s.advances ≤ 1) (init now visualType) events :=
  Runs.always_of_along (fun _ _ counted once => Counted.step counted once)
    (fun _ counted => Counted.bound counted)
    ⟨Player.allProcessed_init now visualType, Nat.le_refl 0⟩ once

/-- Four items without video. The observer reports the end of the first one, AVPlayer that of the
second one. -/
def oneReportEach : List Event :=
  [.manager (.setPlaylist (some ⟨[1], [], 0⟩)),
    .manager (.watchReply 0 (.message (numbered (tracks [11, 12, 13, 14])))),
    .manager (.playerReply 0 (.response ⟨180, 3600⟩)), .manager .runMainQueue,
    .scrubToTimestamp 170, .manager .endTimeReached,
    .manager (.playerReply 0 (.response ⟨200, 3600⟩)), .manager .runMainQueue,
    .manager (.playerItemDidPlayToEnd (some ⟨1, .dsh⟩))]

theorem oneReportEach_advances :
    Always step (fun s => s.advances ≤ 1) (init 0 .metal) oneReportEach ∧
      (Runs.run step (init 0 .metal) oneReportEach).state.player.targetPlayingIndex = 2 :=
  ⟨advances_of_reportsOnce 0 .metal oneReportEach (by decide), by decide⟩

/-- Four items without video. The first one has been played to its end, which both the boundary
observer and AVPlayer report. -/
def bothReport : List Event :=
  [.manager (.setPlaylist (some ⟨[1], [], 0⟩)),
    .manager (.watchReply 0 (.message (numbered (tracks [11, 12, 13, 14])))),
    .manager (.playerReply 0 (.response ⟨180, 3600⟩)), .manager .runMainQueue,
    .manager .endTimeReached, .manager (.playerItemDidPlayToEnd (some ⟨0, .dsh⟩))]

theorem bothReport_skips :
    (Runs.run step (init 0 .metal) bothReport).finished = true ∧
      (Runs.run step (init 0 .metal) bothReport).state.player.targetPlayingIndex = 2 ∧
      ¬ Always step (fun s => s.advances ≤ 1) (init 0 .metal) bothReport := by
  refine ⟨by decide, by decide, fun always => ?_⟩
  exact absurd always.last (by decide)

end PlayedItem
end LeptosMusic
