import LeptosMusic.PlayerManager

/-!
# What a step of the player manager can do

`step_change` lists the possible effects of a step once, guards included. Properties of
runs are derived from it without unfolding the methods again.
-/
namespace LeptosMusic
open Runs (Outcome)
namespace Player

theorem count_eq (s : Player) : s.count = s.endpoints.length := rfl

theorem acceptsTarget_iff (s : Player) (target : Nat) :
    s.acceptsTarget target = true ↔ target < nsUInteger (s.count - 1) := decide_eq_true_iff

/-- With items loaded, an accepted target lies before the last of them. -/
theorem acceptsTarget_bound {s : Player} {target : Nat} (accepted : s.acceptsTarget target = true)
    (loaded : 0 < s.count) : target + 1 < s.count := by
  rw [acceptsTarget_iff, nsUInteger] at accepted
  omega

/-- The renderers of a page that carry an index. -/
def indexed (page : YTIPlaylistPanelRenderer) : List YTIWatchEndpoint :=
  page.filter fun watchEndpoint => watchEndpoint.hasIndex

def tracks (videoIds : List UInt16) : List YTIWatchEndpoint :=
  videoIds.map fun videoId => ⟨[videoId], [], [], false, 0⟩

/-- The tracks as one page, numbered from zero. -/
def numbered (tracks : List YTIWatchEndpoint) : YTIPlaylistPanelRenderer :=
  tracks.mapIdx fun i track => { track with hasIndex := true, index := i }

theorem storeRenderers_eq (offset : Nat) (endpoints : List YTIWatchEndpoint)
    (page : YTIPlaylistPanelRenderer) :
    storeRenderers offset endpoints page =
      SubscriptStore.storeAll YTIWatchEndpoint.index offset endpoints (indexed page) := by
  unfold indexed
  induction page generalizing endpoints with
  | nil => rfl
  | cons watchEndpoint rest ih =>
      by_cases indexed : watchEndpoint.hasIndex = true
      · rw [storeRenderers, if_pos indexed, List.filter_cons_of_pos indexed,
          SubscriptStore.storeAll]
        congr 1
        funext stored
        exact ih stored
      · rw [storeRenderers, if_neg indexed, List.filter_cons_of_neg indexed]
        exact ih endpoints

/-- Storing a page keeps what was there and puts every element behind it at its own index. -/
theorem storeRenderers_placed {s : Player} {page : YTIPlaylistPanelRenderer}
    {endpoints : List YTIWatchEndpoint}
    (stored : storeRenderers s.count s.endpoints page = some endpoints) :
    SubscriptStore.Placed YTIWatchEndpoint.index s.endpoints endpoints := by
  rw [storeRenderers_eq] at stored
  exact SubscriptStore.storeAll_placed stored

theorem storeRenderers_nil {s : Player} {page : YTIPlaylistPanelRenderer}
    (none_indexed : indexed page = []) :
    storeRenderers s.count s.endpoints page = some s.endpoints := by
  rw [storeRenderers_eq, none_indexed]
  rfl

/-- A page with an indexed renderer makes the list longer. -/
theorem count_lt_stored {s : Player} {page : YTIPlaylistPanelRenderer}
    {endpoints : List YTIWatchEndpoint} (some_indexed : indexed page ≠ [])
    (stored : storeRenderers s.count s.endpoints page = some endpoints) :
    s.count < endpoints.length := by
  rw [storeRenderers_eq] at stored
  exact SubscriptStore.lt_storeAll_length some_indexed stored

theorem indexed_numbered (tracks : List YTIWatchEndpoint) :
    indexed (numbered tracks) = numbered tracks := by
  rw [indexed, List.filter_eq_self]
  intro watchEndpoint member
  obtain ⟨i, inside, rfl⟩ := List.mem_mapIdx.mp member
  rfl

theorem map_index_numbered (tracks : List YTIWatchEndpoint) :
    (numbered tracks).map YTIWatchEndpoint.index = List.range' 0 (numbered tracks).length := by
  rw [← List.range_eq_range']
  apply List.ext_getElem
  · simp
  · intro i _ _
    simp [numbered]

/-- A page numbered from zero is appended. -/
theorem storeRenderers_numbered (s : Player) (tracks : List YTIWatchEndpoint) :
    storeRenderers s.count s.endpoints (numbered tracks) =
      some (s.endpoints ++ numbered tracks) := by
  rw [storeRenderers_eq, indexed_numbered]
  exact SubscriptStore.storeAll_append (map_index_numbered tracks) (Nat.zero_add s.count)

/-- The block that `startFetchForCurrentItem` puts on the main queue, if any. -/
def queuedByFetch (s : Player) : List AssignmentBlock :=
  if s.count = 0 then []
  else s.prefetched.toList.map fun module => ⟨module, s.targetPlace⟩

/-- The module was made for an endpoint of the current list. -/
def MadeHere (s : Player) (module : LMVideoItemModule) : Prop :=
  module.place.selection = s.selections ∧
    s.endpoints[module.place.position]? = some module.watchEndpoint

theorem MadeHere.mono {s t : Player} {module : LMVideoItemModule} (h : s.MadeHere module)
    (same : t.selections = s.selections) (grown : s.endpoints <+: t.endpoints) :
    t.MadeHere module := by
  obtain ⟨rest, grown⟩ := grown
  obtain ⟨inside, _⟩ := List.getElem?_eq_some_iff.mp h.2
  refine ⟨h.1.trans same.symm, ?_⟩
  rw [← grown, List.getElem?_append_left inside]
  exact h.2

structure Fetched (s t : Player) : Prop where
  frame : t = { s with
    fetches := t.fetches
    mainQueue := t.mainQueue
    playerRequests := t.playerRequests
    nextObject := t.nextObject }
  fetches : t.fetches = s.fetches ++ [⟨s.count, s.targetPlayingIndex⟩]
  mainQueue : t.mainQueue = s.mainQueue ++ s.queuedByFetch
  requests : ∀ module ∈ t.playerRequests, module ∈ s.playerRequests ∨ s.MadeHere module

/-- The effect of one `requestItemAt`, whether or not the subscript is in range. -/
structure Requested (s t : Player) : Prop where
  frame : t = { s with playerRequests := t.playerRequests, nextObject := t.nextObject }
  requests : ∀ module ∈ t.playerRequests, module ∈ s.playerRequests ∨ s.MadeHere module

theorem Requested.refl (s : Player) : Requested s s := ⟨rfl, fun _ h => .inl h⟩

theorem Requested.trans {s t u : Player} (first : Requested s t) (second : Requested t u) :
    Requested s u := by
  have frame := first.frame
  have frame' := second.frame
  have sameEndpoints : t.endpoints = s.endpoints := by rw [frame]; rfl
  have sameSelections : t.selections = s.selections := by rw [frame]
  refine ⟨?_, fun module member => ?_⟩
  · rw [frame', frame]
  · rcases second.requests module member with earlier | ⟨selection, found⟩
    · exact first.requests module earlier
    · exact .inr ⟨selection.trans sameSelections, sameEndpoints ▸ found⟩

/-- Only the list and its selection matter for what a module was made for. -/
theorem Requested.of_same {s s' t : Player} (requested : Requested s t)
    (requests : s.playerRequests = s'.playerRequests) (selections : s.selections = s'.selections)
    (endpoints : s.endpoints = s'.endpoints) :
    ∀ module ∈ t.playerRequests, module ∈ s'.playerRequests ∨ s'.MadeHere module := by
  intro module member
  rcases requested.requests module member with earlier | here
  · exact .inl (requests ▸ earlier)
  · exact .inr (here.mono selections.symm (endpoints ▸ List.prefix_rfl))

theorem requestItemAt_requested (s : Player) (position : Nat) :
    Requested s (s.requestItemAt position).state := by
  unfold requestItemAt
  split
  · next watchEndpoint found =>
      refine ⟨rfl, fun module member => ?_⟩
      rcases List.mem_append.mp member with earlier | new
      · exact .inl earlier
      · rw [List.mem_singleton] at new
        subst new
        exact .inr ⟨rfl, found⟩
  · exact Requested.refl s

theorem requestItemAt_finished {s : Player} {position : Nat} (h : position < s.count) :
    (s.requestItemAt position).finished = true := by
  unfold requestItemAt
  rw [List.getElem?_eq_getElem h]
  rfl

theorem fetchNextItem_requested (s : Player) : Requested s s.fetchNextItem.state := by
  unfold fetchNextItem
  dsimp only
  split_ifs
  · exact requestItemAt_requested s _
  · exact Requested.refl s

theorem fetchNextItem_finished (s : Player) : s.fetchNextItem.finished = true := by
  unfold fetchNextItem
  dsimp only
  split_ifs with more
  · exact requestItemAt_finished more
  · rfl

theorem startFetch_fetched (s : Player) : Fetched s s.startFetchForCurrentItem.state := by
  unfold startFetchForCurrentItem
  dsimp only
  set noted : Player := { s with fetches := s.fetches ++ [⟨s.count, s.targetPlayingIndex⟩] }
    with hnoted
  have sameCount : noted.count = s.count := rfl
  have samePrefetch : noted.prefetched = s.prefetched := rfl
  by_cases empty : s.count = 0
  · rw [if_neg (by rw [sameCount]; exact not_not.mpr empty)]
    exact ⟨rfl, rfl, by simp [queuedByFetch, empty, noted], fun module member => .inl member⟩
  · rw [if_pos (by rw [sameCount]; exact empty)]
    unfold fetchCurrentItem
    rw [samePrefetch]
    cases slot : s.prefetched with
    | some nextVideoModule =>
        have requested := fetchNextItem_requested (noted.dispatchAssignment nextVideoModule)
        have frame := requested.frame
        rw [Runs.Outcome.done_andThen]
        generalize (noted.dispatchAssignment nextVideoModule).fetchNextItem.state = t
          at requested frame ⊢
        refine ⟨?_, ?_, ?_, requested.of_same rfl rfl rfl⟩
        · rw [frame]; rfl
        · rw [frame]; rfl
        · rw [frame]
          simp [queuedByFetch, empty, slot, dispatchAssignment, targetPlace, place, noted]
    | none =>
        have first := requestItemAt_requested noted noted.targetPlayingIndex
        have requested : Requested noted
            ((noted.requestItemAt noted.targetPlayingIndex).andThen fetchNextItem).state :=
          Runs.Outcome.andThen_keeps first fun u h => h.trans (fetchNextItem_requested u)
        have frame := requested.frame
        dsimp only
        generalize ((noted.requestItemAt noted.targetPlayingIndex).andThen fetchNextItem).state = t
          at requested frame ⊢
        refine ⟨?_, ?_, ?_, requested.of_same rfl rfl rfl⟩
        · rw [frame]
        · rw [frame]
        · rw [frame]
          simp [queuedByFetch, slot, noted]

/-- The subscript is in range when the target is, and is not reached without items. -/
theorem startFetch_finished {s : Player} (bound : 0 < s.count → s.targetPlayingIndex < s.count) :
    s.startFetchForCurrentItem.finished = true := by
  unfold startFetchForCurrentItem
  dsimp only
  split_ifs with loaded
  · apply Runs.Outcome.andThen_finished
    · unfold fetchCurrentItem
      split
      · rfl
      · exact requestItemAt_finished (bound (Nat.pos_of_ne_zero loaded))
    · exact fetchNextItem_finished _
  · rfl

/-- The request that asks for the rest of the current playlist. -/
def extensionRequest (s : Player) : WatchRequest :=
  match s.playlist with
  | some playlist => ⟨⟨playlist.playlistId, playlist.params, s.count % 2 ^ 32⟩, s.selections⟩
  | none => ⟨⟨[], [], 0⟩, s.selections⟩

theorem extendPlaylist_eq (s : Player) (target : Nat) :
    s.extendPlaylist target = .done { s with watchRequests := s.watchRequests ++
      (if nsUInteger (s.count - target) < 5 then [s.extensionRequest] else []) } := by
  unfold extendPlaylist
  split_ifs
  · unfold _sendWatchRequestWithPlaylist extensionRequest
    cases s.playlist <;> rfl
  · simp

inductive Navigated (s : Player) (target : Nat) (t : Player) : Prop where
  | refused : s.acceptsTarget target = false →
      t = { s with previousTrackEnabled := t.previousTrackEnabled } → Navigated s target t
  | moved (u : Player) : s.acceptsTarget target = true →
      Fetched { s with targetPlayingIndex := target } u →
      t = { u with
        previousTrackEnabled := t.previousTrackEnabled
        watchRequests := t.watchRequests } →
      (∀ r ∈ t.watchRequests, r ∈ s.watchRequests ∨ r = s.extensionRequest) → Navigated s target t

theorem setTarget_navigated (s : Player) (target : Nat) :
    Navigated s target (s.setTargetPlayingIndex target).state := by
  unfold setTargetPlayingIndex
  dsimp only
  by_cases accepted : s.acceptsTarget target = true
  · rw [if_pos accepted]
    have fetched := startFetch_fetched { s with targetPlayingIndex := target }
    cases run : ({ s with targetPlayingIndex := target } : Player).startFetchForCurrentItem with
    | raised fault u =>
        rw [run] at fetched
        refine .moved u accepted fetched rfl fun r member => .inl ?_
        have frame := fetched.frame
        simp only [Runs.Outcome.raised_andThen, Runs.Outcome.state_raised] at frame member
        rw [frame] at member
        exact member
    | done u =>
        rw [run] at fetched
        refine .moved u accepted fetched ?_ ?_
        · simp [extendPlaylist_eq]
        · have frame := fetched.frame
          rw [Runs.Outcome.state_done] at frame
          intro r member
          simp only [Runs.Outcome.done_andThen, extendPlaylist_eq, Runs.Outcome.state_done,
            List.mem_append] at member
          rw [frame] at member
          rcases member with earlier | new
          · exact .inl earlier
          · split_ifs at new
            · exact .inr (List.mem_singleton.mp new)
            · cases new
  · rw [if_neg accepted]
    exact .refused (by simpa using accepted) rfl

theorem setTarget_finished {s : Player} {target : Nat}
    (bound : s.acceptsTarget target = true → 0 < s.count → target < s.count) :
    (s.setTargetPlayingIndex target).finished = true := by
  unfold setTargetPlayingIndex
  apply Runs.Outcome.andThen_finished
  · split_ifs with accepted
    · apply Runs.Outcome.andThen_finished
      · exact startFetch_finished (bound accepted)
      · rw [extendPlaylist_eq]
        rfl
    · rfl
  · rfl

/-- The watch response that an action hands to the manager. -/
def delivered (s : Player) : Action → Option Delivery
  | .watchReply i (.message page) => s.watchRequests[i]?.map fun request => ⟨request, page⟩
  | _ => none

/-- No subscript of `_preprocessInnerPlaylist:` is out of range. -/
def PageFits (s : Player) (a : Action) : Prop :=
  ∀ d ∈ s.delivered a, (storeRenderers s.count s.endpoints d.page).isSome
  deriving Decidable

/-- The module whose player response an action brings. -/
def answered (s : Player) : Action → Option LMVideoItemModule
  | .playerReply i (.response _) => s.playerRequests[i]?
  | _ => none

/-- The block that an action runs on the main queue. -/
def executed (s : Player) : Action → Option AssignmentBlock
  | .runMainQueue => s.mainQueue.head?
  | _ => none

/-- The action brings no reply and runs no block. -/
def Silent (s : Player) (a : Action) : Prop :=
  s.delivered a = none ∧ s.answered a = none ∧ s.executed a = none

/-- The playlist has just been selected, and nothing of it is there. -/
def emptied (s : Player) (playlist : YTIWatchPlaylistEndpoint) : Player :=
  { s with
    playlist := some playlist
    playlistEndpoints := none
    preemptiveFetch := none
    selections := s.selections + 1 }

/-- A watch response has been taken off the list of outstanding requests. -/
def received (s : Player) (i : Nat) (request : WatchRequest) (page : YTIPlaylistPanelRenderer) :
    Player :=
  { s with
    watchRequests := s.watchRequests.eraseIdx i
    deliveries := s.deliveries ++ [⟨request, page⟩] }

/-- The page of that response has been stored. -/
def paged (s : Player) (i : Nat) (request : WatchRequest) (page : YTIPlaylistPanelRenderer)
    (endpoints : List YTIWatchEndpoint) : Player :=
  { s.received i request page with playlistEndpoints := some endpoints }

/-- The target index that a navigating action asks for. -/
def requestedTarget (s : Player) : Action → Nat
  | .previous => s.targetPlayingIndex - 1
  | _ => s.targetPlayingIndex + 1

inductive Change (s : Player) : Action → Player → Prop where
  | idle (a : Action) (t : Player) :
      s.Silent a →
      t = { s with
        playbackRate := t.playbackRate
        player := t.player
        visualType := t.visualType
        now := t.now } → Change s a t
  | navigate (a : Action) (t : Player) :
      s.Silent a →
      s.requestedTarget a ≠ s.targetPlayingIndex →
      Navigated s (s.requestedTarget a) t → Change s a t
  | select (playlist : YTIWatchPlaylistEndpoint) (t : Player) :
      Navigated (s.emptied playlist) 0 t → Change s (.setPlaylist (some playlist)) t
  | watchError (i : Nat) (request : WatchRequest) :
      s.watchRequests[i]? = some request →
      Change s (.watchReply i .error) { s with watchRequests := s.watchRequests.eraseIdx i }
  | pageOutOfRange (i : Nat) (request : WatchRequest) (page : YTIPlaylistPanelRenderer) :
      s.watchRequests[i]? = some request →
      storeRenderers s.count s.endpoints page = none →
      Change s (.watchReply i (.message page)) (s.received i request page)
  | page (i : Nat) (request : WatchRequest) (page : YTIPlaylistPanelRenderer)
      (endpoints : List YTIWatchEndpoint) (t : Player) :
      s.watchRequests[i]? = some request →
      storeRenderers s.count s.endpoints page = some endpoints →
      Fetched (s.paged i request page endpoints) t →
      Change s (.watchReply i (.message page)) t
  | playerDropped (i : Nat) (module : LMVideoItemModule) (reply : PlayerReply) :
      s.playerRequests[i]? = some module →
      (reply = .error ∨ module.watchEndpoint.index ≠ s.targetPlayingIndex ∧
        module.watchEndpoint.index ≠ s.targetPlayingIndex + 1) →
      Change s (.playerReply i reply) { s with playerRequests := s.playerRequests.eraseIdx i }
  | playerCurrent (i : Nat) (module : LMVideoItemModule) (response : YTIPlayerResponse) :
      s.playerRequests[i]? = some module →
      module.watchEndpoint.index = s.targetPlayingIndex →
      Change s (.playerReply i (.response response)) { s with
        playerRequests := s.playerRequests.eraseIdx i
        mainQueue := s.mainQueue ++
          [⟨module._immediatePlayerResponseProcess s.now response, s.targetPlace⟩] }
  | playerPrefetched (i : Nat) (module : LMVideoItemModule) (response : YTIPlayerResponse) :
      s.playerRequests[i]? = some module →
      module.watchEndpoint.index = s.targetPlayingIndex + 1 →
      Change s (.playerReply i (.response response)) { s with
        playerRequests := s.playerRequests.eraseIdx i
        preemptiveFetch := some (module._immediatePlayerResponseProcess s.now response) }
  | assign (block : AssignmentBlock) (rest : List AssignmentBlock) :
      s.mainQueue = block :: rest →
      Change s .runMainQueue (({ s with mainQueue := rest }).setCurrentModule block.module)

theorem playToEnd_change (s : Player) (a : Action) (item : Option AVPlayerItem)
    (silent : s.Silent a) (target : s.requestedTarget a = s.targetPlayingIndex + 1) :
    Change s a (s.playerItemDidPlayToEnd item).state := by
  unfold playerItemDidPlayToEnd
  split_ifs
  · refine .navigate a _ silent (by omega) ?_
    rw [target]
    exact setTarget_navigated s _
  · exact .idle a s silent rfl

theorem step_page {s : Player} {i : Nat} {request : WatchRequest}
    (found : s.watchRequests[i]? = some request) (page : YTIPlaylistPanelRenderer) :
    s.step (.watchReply i (.message page)) =
      match storeRenderers s.count s.endpoints page with
      | some endpoints => (s.paged i request page endpoints).startFetchForCurrentItem
      | none => .raised .rangeException (s.received i request page) := by
  simp only [step, found]
  rfl

theorem watchReply_change {s : Player} {i : Nat} {request : WatchRequest}
    (found : s.watchRequests[i]? = some request) (reply : WatchReply) :
    Change s (.watchReply i reply) (s.step (.watchReply i reply)).state := by
  cases reply with
  | error =>
      simp only [step, found]
      exact .watchError i request found
  | message page =>
      rw [step_page found]
      cases stored : storeRenderers s.count s.endpoints page with
      | none => exact .pageOutOfRange i request page found stored
      | some endpoints => exact .page i request page endpoints _ found stored (startFetch_fetched _)

theorem playerReply_change (s : Player) (i : Nat) (module : LMVideoItemModule) (reply : PlayerReply)
    (found : s.playerRequests[i]? = some module) :
    Change s (.playerReply i reply) (({ s with
      playerRequests := s.playerRequests.eraseIdx i }).playerResponse module reply) := by
  cases reply with
  | error => exact .playerDropped i module .error found (.inl rfl)
  | response response =>
      simp only [playerResponse]
      split_ifs with current following
      · exact .playerCurrent i module response found current
      · exact .playerPrefetched i module response found following
      · exact .playerDropped i module _ found (.inr ⟨current, following⟩)

theorem step_change (s : Player) (a : Action) : Change s a (s.step a).state := by
  cases a with
  | setPlaylist playlist =>
      cases playlist with
      | none => exact .idle _ s ⟨rfl, rfl, rfl⟩ rfl
      | some playlist => exact .select playlist _ (setTarget_navigated _ 0)
  | next =>
      exact .navigate .next _ ⟨rfl, rfl, rfl⟩ (Nat.succ_ne_self _) (setTarget_navigated s _)
  | previous =>
      simp only [step, previous]
      split_ifs with back
      · have moves : s.targetPlayingIndex - 1 ≠ s.targetPlayingIndex := by omega
        exact .navigate .previous _ ⟨rfl, rfl, rfl⟩ moves (setTarget_navigated s _)
      · exact .idle _ s ⟨rfl, rfl, rfl⟩ rfl
  | play => exact .idle _ _ ⟨rfl, rfl, rfl⟩ rfl
  | pause => exact .idle _ _ ⟨rfl, rfl, rfl⟩ rfl
  | togglePlayPause =>
      simp only [step, togglePlayPause, Runs.Outcome.state_done]
      split_ifs <;> exact .idle _ _ ⟨rfl, rfl, rfl⟩ rfl
  | playerItemDidPlayToEnd item => exact playToEnd_change s _ item ⟨rfl, rfl, rfl⟩ rfl
  | endTimeReached =>
      simp only [step]
      split
      · exact playToEnd_change s _ _ ⟨rfl, rfl, rfl⟩ rfl
      · exact .idle _ s ⟨rfl, rfl, rfl⟩ rfl
  | playerStops => exact .idle _ _ ⟨rfl, rfl, rfl⟩ rfl
  | updateForPreferenceChange visualType => exact .idle _ _ ⟨rfl, rfl, rfl⟩ rfl
  | watchReply i reply =>
      cases found : s.watchRequests[i]? with
      | some request => exact watchReply_change found reply
      | none =>
          simp only [step, found]
          refine .idle _ s ⟨?_, rfl, rfl⟩ rfl
          cases reply with
          | error => rfl
          | message page => simp only [delivered, found, Option.map_none]
  | playerReply i reply =>
      simp only [step]
      split
      · next module found => exact playerReply_change s i module reply found
      · next missing =>
          refine .idle _ s ⟨rfl, ?_, rfl⟩ rfl
          cases reply with
          | error => rfl
          | response response => exact missing
  | runMainQueue =>
      simp only [step]
      split
      · next block rest found => exact .assign block rest found
      · next empty => exact .idle _ s ⟨rfl, rfl, by rw [executed, empty]; rfl⟩ rfl
  | wait seconds => exact .idle _ _ ⟨rfl, rfl, rfl⟩ rfl

theorem delivered_eq {s : Player} {i : Nat} {request : WatchRequest}
    (found : s.watchRequests[i]? = some request) (page : YTIPlaylistPanelRenderer) :
    s.delivered (.watchReply i (.message page)) = some ⟨request, page⟩ := by
  rw [delivered, found, Option.map_some]

/-- What is asked of every delivery of an action is asked of its only one. -/
theorem forall_delivered {s : Player} {a : Action} {d : Delivery} (delivery : s.delivered a = some d)
    {p : Delivery → Prop} : (∀ d' ∈ s.delivered a, p d') ↔ p d := by
  rw [delivery]
  constructor
  · intro all
    exact all d rfl
  · intro one d' member
    cases member
    exact one

/-- The step selects no playlist. -/
structure SameSelection (s t : Player) : Prop where
  playlist : t.playlist = s.playlist
  selections : t.selections = s.selections

theorem Fetched.endpoints {s t : Player} (fetch : Fetched s t) : t.endpoints = s.endpoints := by
  rw [fetch.frame]
  rfl

theorem Fetched.same {s t : Player} (fetch : Fetched s t) : SameSelection s t := by
  rw [fetch.frame]
  exact ⟨rfl, rfl⟩

theorem Navigated.endpoints {s t : Player} {target : Nat} (move : Navigated s target t) :
    t.endpoints = s.endpoints := by
  cases move with
  | refused _ frame =>
      rw [frame]
      rfl
  | moved u _ fetch frame _ =>
      rw [frame]
      exact fetch.endpoints

theorem Navigated.same {s t : Player} {target : Nat} (move : Navigated s target t) :
    SameSelection s t := by
  cases move with
  | refused _ frame =>
      rw [frame]
      exact ⟨rfl, rfl⟩
  | moved u _ fetch frame _ =>
      rw [frame]
      exact ⟨fetch.same.playlist, fetch.same.selections⟩

theorem Navigated.deliveries {s t : Player} {target : Nat} (move : Navigated s target t) :
    t.deliveries = s.deliveries := by
  cases move with
  | refused _ frame => rw [frame]
  | moved u _ fetch frame _ => rw [frame, fetch.frame]

/-- What a step does to the list. -/
inductive Listing (s : Player) (a : Action) (t : Player) : Prop where
  | kept : (∀ d ∈ s.delivered a, storeRenderers s.count s.endpoints d.page = none) →
      t.endpoints = s.endpoints → SameSelection s t → s.deliveries ⊆ t.deliveries → Listing s a t
  | cleared (playlist : YTIWatchPlaylistEndpoint) : a = .setPlaylist (some playlist) →
      t.endpoints = [] → t.selections = s.selections + 1 → Listing s a t
  | stored (d : Delivery) : s.delivered a = some d →
      storeRenderers s.count s.endpoints d.page = some t.endpoints → SameSelection s t →
      t.deliveries = s.deliveries ++ [d] → Listing s a t

theorem Listing.of_silent {s t : Player} {a : Action} (silent : s.delivered a = none)
    (endpoints : t.endpoints = s.endpoints) (same : SameSelection s t)
    (deliveries : t.deliveries = s.deliveries) : Listing s a t := by
  refine .kept ?_ endpoints same (by rw [deliveries]; exact List.Subset.refl _)
  intro d delivery
  rw [silent] at delivery
  cases delivery

theorem step_listing (s : Player) (a : Action) : Listing s a (s.step a).state := by
  have change := step_change s a
  generalize (s.step a).state = t at change
  cases change with
  | idle _ _ silent frame =>
      rw [frame]
      exact .of_silent silent.1 rfl ⟨rfl, rfl⟩ rfl
  | navigate _ _ silent _ move => exact .of_silent silent.1 move.endpoints move.same move.deliveries
  | select playlist _ move => exact .cleared playlist rfl move.endpoints move.same.selections
  | watchError i request found => exact .of_silent rfl rfl ⟨rfl, rfl⟩ rfl
  | pageOutOfRange i request page found stored =>
      refine .kept ?_ rfl ⟨rfl, rfl⟩ (List.subset_append_left _ _)
      intro d delivery
      rw [delivered_eq found] at delivery
      cases delivery
      exact stored
  | page i request page endpoints _ found stored fetch =>
      refine .stored ⟨request, page⟩ (delivered_eq found page) ?_ ?_ (by rw [fetch.frame]; rfl)
      · rw [fetch.endpoints]
        exact stored
      · exact ⟨fetch.same.playlist, fetch.same.selections⟩
  | playerDropped i module reply found _ => exact .of_silent rfl rfl ⟨rfl, rfl⟩ rfl
  | playerCurrent i module response found _ => exact .of_silent rfl rfl ⟨rfl, rfl⟩ rfl
  | playerPrefetched i module response found _ => exact .of_silent rfl rfl ⟨rfl, rfl⟩ rfl
  | assign block rest queue => exact .of_silent rfl rfl ⟨rfl, rfl⟩ rfl

/-- While no playlist is selected the list only grows at its end. -/
theorem endpoints_step {s : Player} {a : Action}
    (same : (s.step a).state.selections = s.selections) :
    s.endpoints <+: (s.step a).state.endpoints := by
  cases step_listing s a with
  | kept _ endpoints _ _ => rw [endpoints]
  | cleared _ _ _ later => omega
  | stored d _ stored _ _ => exact (storeRenderers_placed stored).kept

end Player
end LeptosMusic
