import LeptosMusic.PlayerManager

/-!
# LMViewController

The two lists of playlists that the controller shows, with the table that asks for their rows,
the requests on their way and the main queue. A reply replaces a list at once, on the network
queue, and puts a block on the main queue that reloads the table.
-/
namespace LeptosMusic
open Runs (Outcome)

/-- A run of text; a text that is not set reads as empty. -/
structure YTIStringRun where
  text : Option NSString

/-- What the controller reads of a `watchPlaylistEndpoint`; no ID when it is not set. -/
structure WatchPlaylistMessage where
  playlistId : Option NSString
  params : NSString
  index : Nat

structure WatchMessage where
  playlistId : Option NSString
  params : NSString

/-- A message that is absent reads as one with nothing set. -/
structure YTICommand where
  watchPlaylistEndpoint : WatchPlaylistMessage
  watchEndpoint : WatchMessage

structure YTIMusicTwoRowItemRenderer where
  doubleTapNavigationEndpoint : YTICommand
  title : List YTIStringRun

structure YTICompactListItemRenderer where
  navigationEndpoint : YTICommand
  title : List YTIStringRun
  subTitle : List YTIStringRun

/-- The renderers by tab, by section of the tab and by place in the section. -/
abbrev YTIBrowseResponse := List (List (List YTIMusicTwoRowItemRenderer))

/-- The renderers by section and by place in the section. -/
abbrev YTISearchResponse := List (List YTICompactListItemRenderer)

structure LMPlaylistCellDataModel where
  title : Option NSString
  subTitle : Option NSString
  endpoint : YTIWatchPlaylistEndpoint
  deriving DecidableEq, Repr

/-- The playlist endpoint of a command, with the playlist of its video if that has one. -/
def playlistEndpoint (endpointSplit : YTICommand) : Option YTIWatchPlaylistEndpoint :=
  let playlistEndpoint := endpointSplit.watchPlaylistEndpoint
  let videoEndpoint := endpointSplit.watchEndpoint
  let playlistEndpoint : WatchPlaylistMessage :=
    match videoEndpoint.playlistId with
    | some playlistId =>
        { playlistEndpoint with playlistId := some playlistId, params := videoEndpoint.params }
    | none => playlistEndpoint
  playlistEndpoint.playlistId.map fun playlistId =>
    ⟨playlistId, playlistEndpoint.params, playlistEndpoint.index⟩

def browseModel (doubleRenderer : YTIMusicTwoRowItemRenderer) : Option LMPlaylistCellDataModel :=
  (playlistEndpoint doubleRenderer.doubleTapNavigationEndpoint).bind fun endpoint =>
    (doubleRenderer.title.head?.bind YTIStringRun.text).map fun text => ⟨some text, none, endpoint⟩

def searchModel (compactRenderer : YTICompactListItemRenderer) : Option LMPlaylistCellDataModel :=
  (playlistEndpoint compactRenderer.navigationEndpoint).map fun endpoint =>
    ⟨compactRenderer.title.head?.map fun run => run.text.getD [],
      compactRenderer.subTitle.head?.map fun run => run.text.getD [], endpoint⟩

def browsePlaylists (res : YTIBrowseResponse) : List LMPlaylistCellDataModel :=
  res.flatten.flatten.filterMap browseModel

def searchPlaylists (res : YTISearchResponse) : List LMPlaylistCellDataModel :=
  res.flatten.filterMap searchModel

inductive LMViewControllerTableViewSection where
  | searchBar
  | searchResults
  | playlists
  deriving DecidableEq, Repr

structure NSIndexPath where
  «section» : LMViewControllerTableViewSection
  row : Nat
  deriving DecidableEq, Repr

/-- A block on the main queue. -/
inductive ReloadBlock where
  | browse
  | search (number : Nat)
  deriving DecidableEq, Repr

/-- What the table has counted at the last reload of each section, and what its cells show. -/
structure UITableView where
  rows : LMViewControllerTableViewSection → Nat
  cells : NSIndexPath → Option LMPlaylistCellDataModel
  selected : Option NSIndexPath

/-- `playlists` are those handed to the player manager. The user's searches and clears are
counted; requests and blocks carry the number of theirs, and `replaced` tells which lists are
newer than the table. No method reads any of these. -/
structure LMViewController where
  _playlistModels : Option (List LMPlaylistCellDataModel)
  _searchModels : Option (List LMPlaylistCellDataModel)
  _currentUserSelectedPath : Option NSIndexPath
  shouldShowSearchResults : Bool
  showsSearchResultsButton : Bool
  playlistTableView : UITableView
  browseRequests : Nat
  searchRequests : List Nat
  mainQueue : List ReloadBlock
  playlists : List YTIWatchPlaylistEndpoint
  searches : Nat
  replaced : LMViewControllerTableViewSection → Bool

namespace LMViewController

/-- The controller before its view is loaded. -/
def init : LMViewController where
  _playlistModels := none
  _searchModels := none
  _currentUserSelectedPath := none
  shouldShowSearchResults := false
  showsSearchResultsButton := false
  playlistTableView := ⟨fun _ => 0, fun _ => none, none⟩
  browseRequests := 0
  searchRequests := []
  mainQueue := []
  playlists := []
  searches := 0
  replaced := fun _ => false

def workingArray (self : LMViewController) :
    LMViewControllerTableViewSection → Option (List LMPlaylistCellDataModel)
  | .searchBar => none
  | .searchResults => self._searchModels
  | .playlists => self._playlistModels

/-- A subscript of `nil` is `nil`. -/
def _playlistDataModelForIndexPath (self : LMViewController) (indexPath : NSIndexPath) :
    Except Fault (Option LMPlaylistCellDataModel) :=
  match self.workingArray indexPath.section with
  | none => .ok none
  | some workingArray =>
      match workingArray[indexPath.row]? with
      | some playlist => .ok (some playlist)
      | none => .error .rangeException

def numberOfRowsInSection (self : LMViewController) : LMViewControllerTableViewSection → Nat
  | .searchBar => if self._playlistModels.isSome then 1 else 0
  | .searchResults =>
      if self.shouldShowSearchResults then (self._searchModels.getD []).length else 0
  | .playlists => (self._playlistModels.getD []).length

/-- The section is counted anew, and its cells are gone until they are asked for again. -/
def reloadSection (self : LMViewController) («section» : LMViewControllerTableViewSection) :
    LMViewController :=
  let table := self.playlistTableView
  { self with
    playlistTableView := {
      rows := Function.update table.rows «section» (self.numberOfRowsInSection «section»)
      cells := fun path => if path.section = «section» then none else table.cells path
      selected := table.selected.filter fun path => path.section ≠ «section» }
    replaced := Function.update self.replaced «section» false }

theorem reloadSection_rows (self : LMViewController) («section» : LMViewControllerTableViewSection) :
    (self.reloadSection «section»).playlistTableView.rows =
      Function.update self.playlistTableView.rows «section» (self.numberOfRowsInSection «section») :=
  rfl

theorem reloadSection_cells (self : LMViewController) («section» : LMViewControllerTableViewSection)
    (path : NSIndexPath) : (self.reloadSection «section»).playlistTableView.cells path =
      if path.section = «section» then none else self.playlistTableView.cells path := rfl

theorem reloadSection_replaced (self : LMViewController)
    («section» : LMViewControllerTableViewSection) :
    (self.reloadSection «section»).replaced = Function.update self.replaced «section» false := rfl

def selectRow (self : LMViewController) (path : NSIndexPath) : LMViewController :=
  { self with playlistTableView := { self.playlistTableView with selected := some path } }

def setShouldShowSearchResults (self : LMViewController) (shouldShowSearchResults : Bool) :
    LMViewController :=
  let self := { self with shouldShowSearchResults := shouldShowSearchResults }
  let self := self.reloadSection .searchResults
  match self._currentUserSelectedPath with
  | some path =>
      if shouldShowSearchResults ∧ path.section = .searchResults then self.selectRow path else self
  | none => self

def cellForRowAtIndexPath (self : LMViewController) (indexPath : NSIndexPath) :
    Outcome Fault LMViewController :=
  match indexPath.section with
  | .searchBar => .done self
  | .searchResults | .playlists =>
      match self._playlistDataModelForIndexPath indexPath with
      | .error fault => .raised fault self
      | .ok playlist =>
          .done { self with playlistTableView := { self.playlistTableView with
            cells := Function.update self.playlistTableView.cells indexPath playlist } }

def didSelectRowAtIndexPath (self : LMViewController) (indexPath : NSIndexPath) :
    Outcome Fault LMViewController :=
  match self._playlistDataModelForIndexPath indexPath with
  | .error fault => .raised fault self
  | .ok playlist =>
      .done { self with
        playlists := self.playlists ++ (playlist.map LMPlaylistCellDataModel.endpoint).toList
        _currentUserSelectedPath := some indexPath
        playlistTableView := { self.playlistTableView with selected := some indexPath } }

def _fetchHomeTab (self : LMViewController) : LMViewController :=
  { self with browseRequests := self.browseRequests + 1 }

def _processBrowseResponse (self : LMViewController) (res : YTIBrowseResponse) :
    LMViewController :=
  { self with
    _playlistModels := some (browsePlaylists res)
    replaced := fun other => other = .playlists || self.replaced other
    mainQueue := self.mainQueue ++ [.browse] }

/-- `number` is that of the query; the method does not know it. -/
def _processSearchResponse (self : LMViewController) (number : Nat) (res : YTISearchResponse) :
    LMViewController :=
  { self with
    _searchModels := some (searchPlaylists res)
    _currentUserSelectedPath :=
      self._currentUserSelectedPath.filter fun path => path.section ≠ .searchResults
    replaced := fun other => other = .searchResults || self.replaced other
    mainQueue := self.mainQueue ++ [.search number] }

def _searchRequestForQuery (self : LMViewController) : LMViewController :=
  { self with searchRequests := self.searchRequests ++ [self.searches] }

def searchBarSearchButtonClicked (self : LMViewController) (query : NSString) : LMViewController :=
  let self := { self with searches := self.searches + 1 }
  if query.length ≠ 0 then self._searchRequestForQuery
  else
    let self := { self with _searchModels := none }
    let self := self.setShouldShowSearchResults false
    { self with showsSearchResultsButton := false }

def searchBarResultsListButtonClicked (self : LMViewController) : LMViewController :=
  self.setShouldShowSearchResults (!self.shouldShowSearchResults)

def runBlock (self : LMViewController) : ReloadBlock → LMViewController
  | .browse => (self.reloadSection .playlists).reloadSection .searchBar
  | .search _ =>
      let self := { self with showsSearchResultsButton := true }
      (self.setShouldShowSearchResults true).reloadSection .searchResults

/-- What can happen to the controller. A reply is a response or, as `none`, an error. Rows are
asked for and tapped when the table has counted them. -/
inductive Action where
  | viewDidLoad
  | browseReply (reply : Option YTIBrowseResponse)
  | searchBarSearchButtonClicked (query : NSString)
  | searchReply (request : Nat) (reply : Option YTISearchResponse)
  | searchBarResultsListButtonClicked
  | runMainQueue
  | cellForRowAtIndexPath (indexPath : NSIndexPath)
  | didSelectRowAtIndexPath (indexPath : NSIndexPath)

def step (self : LMViewController) : Action → Outcome Fault LMViewController
  | .viewDidLoad => .done self._fetchHomeTab
  | .browseReply reply =>
      if self.browseRequests = 0 then .done self
      else
        let self := { self with browseRequests := self.browseRequests - 1 }
        match reply with
        | some res => .done (self._processBrowseResponse res)
        | none => .done self
  | .searchBarSearchButtonClicked query => .done (self.searchBarSearchButtonClicked query)
  | .searchReply i reply =>
      match self.searchRequests[i]? with
      | some number =>
          let self := { self with searchRequests := self.searchRequests.eraseIdx i }
          match reply with
          | some res => .done (self._processSearchResponse number res)
          | none => .done self
      | none => .done self
  | .searchBarResultsListButtonClicked => .done self.searchBarResultsListButtonClicked
  | .runMainQueue =>
      match self.mainQueue with
      | block :: rest => .done (({ self with mainQueue := rest }).runBlock block)
      | [] => .done self
  | .cellForRowAtIndexPath indexPath =>
      if indexPath.row < self.playlistTableView.rows indexPath.section then
        self.cellForRowAtIndexPath indexPath
      else .done self
  | .didSelectRowAtIndexPath indexPath =>
      if indexPath.row < self.playlistTableView.rows indexPath.section then
        self.didSelectRowAtIndexPath indexPath
      else .done self

abbrev run (self : LMViewController) (actions : List Action) : Outcome Fault LMViewController :=
  Runs.run step self actions

end LMViewController
end LeptosMusic
