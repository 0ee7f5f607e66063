import Mathlib.Data.Rat.Defs
import LeptosMusic.Foundation
import LeptosMusic.Library.Runs
import LeptosMusic.Library.SubscriptStore

/-!
# LMCurrentPlayerManager

The player manager with its surroundings: the requests it has sent and not yet heard of,
the blocks it has put on the main queue, the player it drives and the clock. A method runs
as one step. Metadata for the system's now-playing display is left out.
-/
namespace LeptosMusic
open Runs (Outcome)

structure YTIWatchPlaylistEndpoint where
  playlistId : NSString
  params : NSString
  index : Nat
  deriving DecidableEq, Repr

structure YTIWatchEndpoint where
  videoId : NSString
  playlistId : NSString
  playerParams : NSString
  hasIndex : Bool
  index : Nat
  deriving DecidableEq, Repr

structure YTIWatchNextRequest where
  playlistId : NSString
  params : NSString
  playlistIndex : Nat
  deriving DecidableEq, Repr

/-- The watch endpoint of each renderer in `contentsArray`, in order. -/
abbrev YTIPlaylistPanelRenderer := List YTIWatchEndpoint

inductive LMPreferencesVisualizerType where
  | none
  | video
  | histogram
  | metal
  deriving DecidableEq, Repr

inductive PlayerStream where
  | hls
  | dsh
  deriving DecidableEq, Repr

/-- An `AVPlayerItem` is told apart by the module that made it and by its stream. -/
structure AVPlayerItem where
  module : Nat
  stream : PlayerStream
  deriving DecidableEq, Repr

structure YTIPlayerResponse where
  approxDurationMs : Nat
  expiresInSeconds : Int
  deriving DecidableEq, Repr

/-- A place in a playlist's list of endpoints; playlists are told apart by when they were
selected. -/
structure PlaylistPlace where
  selection : Nat
  position : Nat
  deriving DecidableEq, Repr

/-- `place` tells which endpoint the module was made for. -/
structure LMVideoItemModule where
  object : Nat
  place : PlaylistPlace
  watchEndpoint : YTIWatchEndpoint
  approximateDuration : Nat
  assetExpiry : Option Int
  hlsPlayerItem : Option AVPlayerItem
  dshPlayerItem : Option AVPlayerItem
  deriving DecidableEq, Repr

namespace LMVideoItemModule

def initWithWatchpoint (object : Nat) (place : PlaylistPlace) (watchpoint : YTIWatchEndpoint) :
    LMVideoItemModule :=
  ⟨object, place, watchpoint, 0, none, none, none⟩

def _immediatePlayerResponseProcess (self : LMVideoItemModule) (now : Int)
    (playerResponse : YTIPlayerResponse) : LMVideoItemModule :=
  { self with
    approximateDuration := playerResponse.approxDurationMs
    assetExpiry := some (now + playerResponse.expiresInSeconds)
    hlsPlayerItem := some ⟨self.object, .hls⟩
    dshPlayerItem := some ⟨self.object, .dsh⟩ }

@[simp] theorem place_immediatePlayerResponseProcess (self : LMVideoItemModule) (now : Int)
    (playerResponse : YTIPlayerResponse) :
    (self._immediatePlayerResponseProcess now playerResponse).place = self.place := rfl

def playerItem (self : LMVideoItemModule) (visualType : LMPreferencesVisualizerType) :
    Option AVPlayerItem :=
  if visualType ≠ .video then self.dshPlayerItem else self.hlsPlayerItem

def isValid (self : LMVideoItemModule) (now : Int) (visualType : LMPreferencesVisualizerType) :
    Bool :=
  (match self.assetExpiry with
    | none => false
    | some expiry => decide (now < expiry)) && (self.playerItem visualType).isSome

end LMVideoItemModule

structure AVPlayer where
  rate : Rat
  currentItem : Option AVPlayerItem
  deriving DecidableEq, Repr

/-- A watch request on its way; `selection` tells for which playlist it was sent. -/
structure WatchRequest where
  message : YTIWatchNextRequest
  selection : Nat
  deriving DecidableEq, Repr

/-- A block `weakself.currentModule = module` on the main queue; `place` is the target's at
the time it was put there. -/
structure AssignmentBlock where
  module : LMVideoItemModule
  place : PlaylistPlace
  deriving DecidableEq, Repr

/-- One run of `setCurrentModule:`, with the list and the target's place at that moment. -/
structure Assigned where
  module : LMVideoItemModule
  endpoints : List YTIWatchEndpoint
  place : PlaylistPlace
  deriving DecidableEq, Repr

/-- One run of `startFetchForCurrentItem`, with the count and target index of that moment. -/
structure Fetch where
  count : Nat
  target : Nat
  deriving DecidableEq, Repr

/-- One watch response handed to `_preprocessInnerPlaylist:`. -/
structure Delivery where
  request : WatchRequest
  page : YTIPlaylistPanelRenderer
  deriving DecidableEq, Repr

/-- The fields up to `playerEndObserver` are the object's own. `playerRequests` are the
modules that wait for their player response. No method reads the last four, nor the
`selection` and `place` kept with requests, modules and blocks: they record the history
that properties speak of. -/
structure Player where
  playlist : Option YTIWatchPlaylistEndpoint
  playlistEndpoints : Option (List YTIWatchEndpoint)
  preemptiveFetch : Option LMVideoItemModule
  targetPlayingIndex : Nat
  currentModule : Option LMVideoItemModule
  playbackRate : Rat
  playerEndObserver : Option LMVideoItemModule
  player : AVPlayer
  previousTrackEnabled : Bool
  visualType : LMPreferencesVisualizerType
  watchRequests : List WatchRequest
  playerRequests : List LMVideoItemModule
  mainQueue : List AssignmentBlock
  now : Int
  nextObject : Nat
  selections : Nat
  assignments : List Assigned
  fetches : List Fetch
  deliveries : List Delivery
  deriving DecidableEq, Repr

namespace Player

/-- The manager after `init`, at the given time and with the stored preference. -/
def init (now : Int) (visualType : LMPreferencesVisualizerType) : Player where
  playlist := none
  playlistEndpoints := none
  preemptiveFetch := none
  targetPlayingIndex := 0
  currentModule := none
  playbackRate := 1
  playerEndObserver := none
  player := ⟨0, none⟩
  previousTrackEnabled := true
  visualType := visualType
  watchRequests := []
  playerRequests := []
  mainQueue := []
  now := now
  nextObject := 0
  selections := 0
  assignments := []
  fetches := []
  deliveries := []

def endpoints (self : Player) : List YTIWatchEndpoint := self.playlistEndpoints.getD []

/-- `_playlistEndpoints.count`, zero for `nil` -/
def count (self : Player) : Nat := self.endpoints.length

def place (self : Player) (position : Nat) : PlaylistPlace := ⟨self.selections, position⟩

def targetPlace (self : Player) : PlaylistPlace := self.place self.targetPlayingIndex

def play (self : Player) : Player :=
  { self with player := { self.player with rate := self.playbackRate } }

def pause (self : Player) : Player :=
  { self with playbackRate := self.player.rate, player := { self.player with rate := 0 } }

def DBL_EPSILON : Rat := ⟨1, 4503599627370496, by decide, Nat.gcd_one_left _⟩

def togglePlayPause (self : Player) : Player :=
  if -DBL_EPSILON < self.player.rate ∧ self.player.rate < DBL_EPSILON then self.play
  else self.pause

def updateForPreferenceChange (self : Player) (visualType : LMPreferencesVisualizerType) : Player :=
  { self with
    visualType := visualType
    player := { self.player with
      currentItem := self.currentModule.bind fun module => module.playerItem visualType } }

def setCurrentModule (self : Player) (currentModule : LMVideoItemModule) : Player :=
  let self := { self with currentModule := some currentModule }
  let self := { self with
    player := { self.player with currentItem := currentModule.playerItem self.visualType } }
  let self := self.play
  { self with
    playerEndObserver := some currentModule
    assignments := self.assignments ++ [⟨currentModule, self.endpoints, self.targetPlace⟩] }

/-- `dispatch_async(dispatch_get_main_queue(), ^{ weakself.currentModule = module; })` -/
def dispatchAssignment (self : Player) (module : LMVideoItemModule) : Player :=
  { self with mainQueue := self.mainQueue ++ [⟨module, self.targetPlace⟩] }

def _sendPlayerRequestForEndpoint (self : Player) (watchEndpoint : YTIWatchEndpoint)
    (position : Nat) : Player :=
  { self with
    playerRequests := self.playerRequests ++
      [.initWithWatchpoint self.nextObject (self.place position) watchEndpoint]
    nextObject := self.nextObject + 1 }

def _sendWatchRequestWithPlaylist (self : Player) (endpoint : Option YTIWatchPlaylistEndpoint) :
    Player :=
  let endpoint := endpoint.getD ⟨[], [], 0⟩
  { self with watchRequests := self.watchRequests ++
      [⟨⟨endpoint.playlistId, endpoint.params, endpoint.index⟩, self.selections⟩] }

/-- `_playlistEndpoints[position]`, sent a player request for. -/
def requestItemAt (self : Player) (position : Nat) : Outcome Fault Player :=
  match self.endpoints[position]? with
  | some watchEndpoint => .done (self._sendPlayerRequestForEndpoint watchEndpoint position)
  | none => .raised .rangeException self

/-- The module in the prefetch slot, when it is valid and for the target index. -/
def prefetched (self : Player) : Option LMVideoItemModule :=
  self.preemptiveFetch.filter fun nextVideoModule =>
    nextVideoModule.isValid self.now self.visualType &&
      nextVideoModule.watchEndpoint.index == self.targetPlayingIndex

def fetchCurrentItem (self : Player) : Outcome Fault Player :=
  match self.prefetched with
  | some nextVideoModule => .done (self.dispatchAssignment nextVideoModule)
  | none => self.requestItemAt self.targetPlayingIndex

def fetchNextItem (self : Player) : Outcome Fault Player :=
  let nextIndex := self.targetPlayingIndex + 1
  if nextIndex < self.count then self.requestItemAt nextIndex else .done self

def startFetchForCurrentItem (self : Player) : Outcome Fault Player :=
  let self : Player := { self with fetches := self.fetches ++ [⟨self.count, self.targetPlayingIndex⟩] }
  if self.count ≠ 0 then self.fetchCurrentItem.andThen fetchNextItem else .done self

/-- The guard is an unsigned comparison with `_playlistEndpoints.count-1`. -/
def acceptsTarget (self : Player) (targetPlayingIndex : Nat) : Bool :=
  decide (targetPlayingIndex < nsUInteger (self.count - 1))

/-- Asks for the rest of the playlist when fewer than five items are left. -/
def extendPlaylist (self : Player) (targetPlayingIndex : Nat) : Outcome Fault Player :=
  if nsUInteger (self.count - targetPlayingIndex) < 5 then
    let playlistExtend := self.playlist.map fun playlist =>
      { playlist with index := self.count % 2 ^ 32 }
    .done (self._sendWatchRequestWithPlaylist playlistExtend)
  else .done self

/-- The command's `enabled` is the index as a `BOOL`, taken to be `bool` as on 64-bit platforms: no
index but zero is `NO`. -/
def setTargetPlayingIndex (self : Player) (targetPlayingIndex : Nat) : Outcome Fault Player :=
  let moved :=
    if self.acceptsTarget targetPlayingIndex then
      ({ self with targetPlayingIndex := targetPlayingIndex }).startFetchForCurrentItem.andThen
        fun self => self.extendPlaylist targetPlayingIndex
    else .done self
  moved.andThen fun self => .done { self with previousTrackEnabled := decide (targetPlayingIndex ≠ 0) }

def setPlaylist (self : Player) (playlist : Option YTIWatchPlaylistEndpoint) :
    Outcome Fault Player :=
  match playlist with
  | some playlist =>
      ({ self with
        playlist := some playlist
        playlistEndpoints := none
        preemptiveFetch := none
        selections := self.selections + 1 }).setTargetPlayingIndex 0
  | none => .done self

def next (self : Player) : Outcome Fault Player :=
  self.setTargetPlayingIndex (self.targetPlayingIndex + 1)

def previous (self : Player) : Outcome Fault Player :=
  if self.targetPlayingIndex ≠ 0 then self.setTargetPlayingIndex (self.targetPlayingIndex - 1)
  else .done self

/-- The handler of `AVPlayerItemDidPlayToEndTimeNotification`. -/
def playerItemDidPlayToEnd (self : Player) (object : Option AVPlayerItem) : Outcome Fault Player :=
  if object = self.currentModule.bind (fun module => module.playerItem self.visualType) then
    self.next
  else .done self

/-- The loop of `_preprocessInnerPlaylist:`; `none` is a range exception. -/
def storeRenderers (indexOffset : Nat) :
    List YTIWatchEndpoint → YTIPlaylistPanelRenderer → Option (List YTIWatchEndpoint)
  | endpoints, [] => some endpoints
  | endpoints, watchEndpoint :: rest =>
      if watchEndpoint.hasIndex then
        (SubscriptStore.store endpoints (watchEndpoint.index + indexOffset) watchEndpoint).bind
          fun endpoints => storeRenderers indexOffset endpoints rest
      else storeRenderers indexOffset endpoints rest

def _preprocessInnerPlaylist (self : Player) (innerPlaylist : YTIPlaylistPanelRenderer) :
    Outcome Fault Player :=
  match storeRenderers self.count self.endpoints innerPlaylist with
  | some endpoints =>
      ({ self with playlistEndpoints := some endpoints }).startFetchForCurrentItem
  | none => .raised .rangeException self

inductive WatchReply where
  | error
  | message (playlist : YTIPlaylistPanelRenderer)
  deriving DecidableEq, Repr

inductive PlayerReply where
  | error
  | response (response : YTIPlayerResponse)
  deriving DecidableEq, Repr

def watchResponse (self : Player) (request : WatchRequest) : WatchReply → Outcome Fault Player
  | .error => .done self
  | .message playlist =>
      let self : Player := { self with deliveries := self.deliveries ++ [⟨request, playlist⟩] }
      self._preprocessInnerPlaylist playlist

def playerResponse (self : Player) (module : LMVideoItemModule) : PlayerReply → Player
  | .error => self
  | .response response =>
      let module := module._immediatePlayerResponseProcess self.now response
      if module.watchEndpoint.index = self.targetPlayingIndex then self.dispatchAssignment module
      else if module.watchEndpoint.index = self.targetPlayingIndex + 1 then
        { self with preemptiveFetch := some module }
      else self

/-- What can happen to the manager. A reply names an outstanding request by its place in
the list, so replies come in any order and each at most once. -/
inductive Action where
  | setPlaylist (playlist : Option YTIWatchPlaylistEndpoint)
  | next
  | previous
  | play
  | pause
  | togglePlayPause
  | playerItemDidPlayToEnd (object : Option AVPlayerItem)
  | endTimeReached
  | playerStops
  | updateForPreferenceChange (visualType : LMPreferencesVisualizerType)
  | watchReply (request : Nat) (reply : WatchReply)
  | playerReply (request : Nat) (reply : PlayerReply)
  | runMainQueue
  | wait (seconds : Nat)
  deriving DecidableEq, Repr

def Action.selects : Action → Bool
  | .setPlaylist playlist => playlist.isSome
  | _ => false

def step (self : Player) : Action → Outcome Fault Player
  | .setPlaylist playlist => self.setPlaylist playlist
  | .next => self.next
  | .previous => self.previous
  | .play => .done self.play
  | .pause => .done self.pause
  | .togglePlayPause => .done self.togglePlayPause
  | .playerItemDidPlayToEnd object => self.playerItemDidPlayToEnd object
  | .endTimeReached =>
      match self.playerEndObserver with
      | some module => self.playerItemDidPlayToEnd module.dshPlayerItem
      | none => .done self
  | .playerStops => .done { self with player := { self.player with rate := 0 } }
  | .updateForPreferenceChange visualType => .done (self.updateForPreferenceChange visualType)
  | .watchReply i reply =>
      match self.watchRequests[i]? with
      | some request =>
          ({ self with watchRequests := self.watchRequests.eraseIdx i }).watchResponse request reply
      | none => .done self
  | .playerReply i reply =>
      match self.playerRequests[i]? with
      | some module =>
          .done (({ self with playerRequests := self.playerRequests.eraseIdx i }).playerResponse
            module reply)
      | none => .done self
  | .runMainQueue =>
      match self.mainQueue with
      | block :: rest => .done (({ self with mainQueue := rest }).setCurrentModule block.module)
      | [] => .done self
  | .wait seconds => .done { self with now := self.now + seconds }

/-- A run of the manager from a given state. -/
abbrev run (self : Player) (actions : List Action) : Outcome Fault Player :=
  Runs.run step self actions

end Player
end LeptosMusic
