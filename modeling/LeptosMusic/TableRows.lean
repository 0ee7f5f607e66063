import LeptosMusic.ViewController

/-!
# Rows and models

The table keeps the counts of its last reload and the cells that it has been given since. A reply
replaces a list of models before the block that reloads its section has run.
-/
namespace LeptosMusic
namespace LMViewController
open Runs (Along)

/-- The models of a section, none for `nil`. -/
def models (self : LMViewController) (sec : LMViewControllerTableViewSection) :
    List LMPlaylistCellDataModel :=
  (self.workingArray sec).getD []

def rowCounted (self : LMViewController) (path : NSIndexPath) : Prop :=
  path.row < self.playlistTableView.rows path.section

/-- The search bar's row has no models behind it. -/
def RowBelow (self : LMViewController) (path : NSIndexPath) : Prop :=
  path.section ≠ .searchBar → path.row < (self.models path.section).length

instance (s : LMViewController) (path : NSIndexPath) : Decidable (s.rowCounted path) :=
  inferInstanceAs (Decidable (_ < _))

instance (s : LMViewController) (path : NSIndexPath) : Decidable (s.RowBelow path) :=
  inferInstanceAs (Decidable (_ → _))

/-- The models are asked for a row that they have, and a tap starts the playlist that the row
displays. -/
def InStep (s : LMViewController) : Action → Prop
  | .cellForRowAtIndexPath path => s.rowCounted path → s.RowBelow path
  | .didSelectRowAtIndexPath path => s.rowCounted path → s.RowBelow path ∧
      ∀ model ∈ s.playlistTableView.cells path,
        (s.step (.didSelectRowAtIndexPath path)).state.playlists = s.playlists ++ [model.endpoint]
  | _ => True

/-- While a section waits for its reload, none of its rows is asked for or tapped. -/
def AwaitsReload (s : LMViewController) : Action → Prop
  | .cellForRowAtIndexPath path => s.rowCounted path → s.replaced path.section = false
  | .didSelectRowAtIndexPath path => s.rowCounted path → s.replaced path.section = false
  | _ => True

/-- The section's rows and cells are those of its models. -/
structure MatchesAt (s : LMViewController) (sec : LMViewControllerTableViewSection) : Prop where
  rows : sec ≠ .searchBar →
    s.playlistTableView.rows sec ≤ (s.models sec).length
  cells : ∀ row model, s.playlistTableView.cells ⟨sec, row⟩ = some model →
    (s.models sec)[row]? = some model

/-- Every section that has not been replaced since its last reload matches. -/
def Matches (s : LMViewController) : Prop :=
  ∀ sec, s.replaced sec = false → s.MatchesAt sec

theorem numberOfRows_le (s : LMViewController) {sec : LMViewControllerTableViewSection}
    (listed : sec ≠ .searchBar) :
    s.numberOfRowsInSection sec ≤ (s.models sec).length := by
  cases sec with
  | searchBar => exact absurd rfl listed
  | searchResults =>
      simp only [numberOfRowsInSection]
      split_ifs
      · exact Nat.le_refl _
      · exact Nat.zero_le _
  | playlists => exact Nat.le_refl _

theorem reloadSection_matchesAt (s : LMViewController) (sec : LMViewControllerTableViewSection) :
    (s.reloadSection sec).MatchesAt sec where
  rows listed := by
    rw [reloadSection_rows, Function.update_self]
    exact s.numberOfRows_le listed
  cells row model shown := by
    rw [reloadSection_cells, if_pos rfl] at shown
    cases shown

theorem MatchesAt.reloadOther {s : LMViewController} {other sec : LMViewControllerTableViewSection}
    (different : other ≠ sec) (matching : s.MatchesAt other) : (s.reloadSection sec).MatchesAt other where
  rows listed := by
    rw [reloadSection_rows, Function.update_of_ne different]
    exact matching.rows listed
  cells row model shown := by
    rw [reloadSection_cells, if_neg different] at shown
    exact matching.cells row model shown

/-- A reload mends its own section and keeps the others. -/
theorem matches_reload {s : LMViewController} {sec : LMViewControllerTableViewSection}
    (others : ∀ other, other ≠ sec → s.replaced other = false → s.MatchesAt other) :
    (s.reloadSection sec).Matches := by
  intro other current
  by_cases same : other = sec
  · exact same ▸ s.reloadSection_matchesAt _
  · rw [reloadSection_replaced, Function.update_of_ne same] at current
    exact (others other same current).reloadOther same

/-- Nothing that the invariant reads has changed in the section. -/
theorem MatchesAt.congr {s t : LMViewController} {sec : LMViewControllerTableViewSection}
    (matching : s.MatchesAt sec) (table : t.playlistTableView.rows = s.playlistTableView.rows)
    (cells : t.playlistTableView.cells = s.playlistTableView.cells)
    (listed : t.models sec = s.models sec) : t.MatchesAt sec where
  rows := by
    rw [table, listed]
    exact matching.rows
  cells := by
    rw [cells, listed]
    exact matching.cells

theorem matches_setShouldShow {s : LMViewController} (shown : Bool)
    (others : ∀ other, other ≠ .searchResults → s.replaced other = false → s.MatchesAt other) :
    (s.setShouldShowSearchResults shown).Matches := by
  have reloaded : (({ s with shouldShowSearchResults := shown } :
      LMViewController).reloadSection .searchResults).Matches :=
    matches_reload fun other different current =>
      (others other different current).congr rfl rfl (by cases other <;> rfl)
  unfold setShouldShowSearchResults
  dsimp only
  split
  · split_ifs
    · exact fun other current => (reloaded other current).congr rfl rfl rfl
    · exact reloaded
  · exact reloaded

theorem matches_searchButton {s : LMViewController} (query : NSString) (matching : s.Matches) :
    (s.searchBarSearchButtonClicked query).Matches := by
  unfold searchBarSearchButtonClicked
  dsimp only
  split_ifs
  · exact fun other current => (matching other current).congr rfl rfl (by cases other <;> rfl)
  · have cleared : (({ s with searches := s.searches + 1, _searchModels := none } :
        LMViewController).setShouldShowSearchResults false).Matches :=
      matches_setShouldShow false fun other different current =>
        (matching other current).congr rfl rfl (by cases other <;> first | rfl | contradiction)
    exact fun other current => (cleared other current).congr rfl rfl (by cases other <;> rfl)

theorem matches_runBlock {s : LMViewController} (block : ReloadBlock) (matching : s.Matches) :
    (s.runBlock block).Matches := by
  cases block with
  | browse =>
      have playlists := @matches_reload s .playlists fun other _ => matching other
      exact matches_reload fun other _ => playlists other
  | search number =>
      have shown : (({ s with showsSearchResultsButton := true } :
          LMViewController).setShouldShowSearchResults true).Matches :=
        matches_setShouldShow true fun other _ current =>
          (matching other current).congr rfl rfl (by cases other <;> rfl)
      exact matches_reload fun other _ => shown other

/-- A reply changes one section only, which is marked. -/
theorem matches_replaced {s t : LMViewController} (sec : LMViewControllerTableViewSection)
    (matching : s.Matches) (marks : t.replaced = fun other => other = sec || s.replaced other)
    (table : t.playlistTableView = s.playlistTableView)
    (listed : ∀ other, other ≠ sec → t.models other = s.models other) : t.Matches := by
  intro other current
  rw [marks, Bool.or_eq_false_iff, decide_eq_false_iff_not] at current
  exact (matching other current.2).congr (by rw [table]) (by rw [table]) (listed other current.1)

/-- What the table is given is the model of the row, if there is one. -/
theorem playlistDataModel_eq {s : LMViewController} {path : NSIndexPath}
    {playlist : Option LMPlaylistCellDataModel}
    (given : s._playlistDataModelForIndexPath path = .ok playlist) :
    playlist = (s.models path.section)[path.row]? := by
  unfold _playlistDataModelForIndexPath at given
  unfold models
  cases listed : s.workingArray path.section with
  | none =>
      rw [listed] at given
      cases given
      rfl
  | some workingArray =>
      rw [listed] at given
      dsimp only at given
      cases found : workingArray[path.row]? with
      | none =>
          rw [found] at given
          cases given
      | some model =>
          rw [found] at given
          cases given
          exact found.symm

theorem playlistDataModel_below {s : LMViewController} {path : NSIndexPath}
    (below : s.RowBelow path) :
    s._playlistDataModelForIndexPath path = .ok (s.models path.section)[path.row]? := by
  unfold RowBelow models at below
  unfold _playlistDataModelForIndexPath models
  cases listed : s.workingArray path.section with
  | none => rfl
  | some workingArray =>
      have other : path.section ≠ .searchBar := by
        intro bar
        rw [bar] at listed
        cases listed
      have within := below other
      rw [listed, Option.getD_some] at within
      dsimp only [Option.getD_some]
      rw [List.getElem?_eq_getElem within]

theorem matches_cellForRow {s : LMViewController} (path : NSIndexPath) (matching : s.Matches) :
    (s.cellForRowAtIndexPath path).state.Matches := by
  have answered (playlist : Option LMPlaylistCellDataModel)
      (given : s._playlistDataModelForIndexPath path = .ok playlist) :
      ({ s with playlistTableView := { s.playlistTableView with
        cells := Function.update s.playlistTableView.cells path playlist } } :
          LMViewController).Matches := by
    intro other current
    refine ⟨(matching other current).rows, fun row model shown => ?_⟩
    dsimp only at shown
    by_cases asked : (⟨other, row⟩ : NSIndexPath) = path
    · subst asked
      rw [Function.update_self, playlistDataModel_eq given] at shown
      exact shown
    · rw [Function.update_of_ne asked] at shown
      exact (matching other current).cells row model shown
  unfold cellForRowAtIndexPath
  split
  · exact matching
  all_goals
    split
    · exact matching
    · next playlist given => exact answered playlist given

theorem matches_didSelectRow {s : LMViewController} (path : NSIndexPath) (matching : s.Matches) :
    (s.didSelectRowAtIndexPath path).state.Matches := by
  unfold didSelectRowAtIndexPath
  split
  · exact matching
  · exact fun other current => (matching other current).congr rfl rfl rfl

theorem step_matches {s : LMViewController} (a : Action) (matching : s.Matches) :
    (s.step a).state.Matches := by
  cases a with
  | viewDidLoad => exact fun other current => (matching other current).congr rfl rfl rfl
  | browseReply reply =>
      simp only [step]
      split_ifs
      · exact matching
      · cases reply with
        | none => exact fun other current => (matching other current).congr rfl rfl rfl
        | some res =>
            refine matches_replaced .playlists matching rfl rfl fun other different => ?_
            cases other <;> first | rfl | contradiction
  | searchBarSearchButtonClicked query => exact matches_searchButton query matching
  | searchReply i reply =>
      simp only [step]
      cases s.searchRequests[i]? with
      | none => exact matching
      | some number =>
          cases reply with
          | none => exact fun other current => (matching other current).congr rfl rfl rfl
          | some res =>
              refine matches_replaced .searchResults matching rfl rfl fun other different => ?_
              cases other <;> first | rfl | contradiction
  | searchBarResultsListButtonClicked => exact matches_setShouldShow _ fun other _ => matching other
  | runMainQueue =>
      simp only [step]
      cases s.mainQueue with
      | nil => exact matching
      | cons block rest =>
          refine matches_runBlock block ?_
          exact fun other current => (matching other current).congr rfl rfl rfl
  | cellForRowAtIndexPath path =>
      simp only [step]
      split_ifs
      · exact matches_cellForRow path matching
      · exact matching
  | didSelectRowAtIndexPath path =>
      simp only [step]
      split_ifs
      · exact matches_didSelectRow path matching
      · exact matching

/-- The rows of a section that matches are below its models. -/
theorem MatchesAt.below {s : LMViewController} {path : NSIndexPath}
    (matching : s.MatchesAt path.section) (counted : s.rowCounted path) : s.RowBelow path :=
  fun listed => Nat.lt_of_lt_of_le counted (matching.rows listed)

/-- A tap starts the playlist of the model that the row has now. -/
theorem tap_playlists {s : LMViewController} {path : NSIndexPath} (counted : s.rowCounted path)
    (below : s.RowBelow path) : (s.step (.didSelectRowAtIndexPath path)).state.playlists =
      s.playlists ++
        ((s.models path.section)[path.row]?.map LMPlaylistCellDataModel.endpoint).toList := by
  have taken : s.step (.didSelectRowAtIndexPath path) = s.didSelectRowAtIndexPath path :=
    if_pos counted
  rw [taken, didSelectRowAtIndexPath, playlistDataModel_below below]
  rfl

theorem inStep_of_awaitsReload {s : LMViewController} {a : Action} (matching : s.Matches)
    (awaits : s.AwaitsReload a) : s.InStep a := by
  cases a with
  | cellForRowAtIndexPath path =>
      exact fun counted => (matching path.section (awaits counted)).below counted
  | didSelectRowAtIndexPath path =>
      intro counted
      have matched := matching path.section (awaits counted)
      refine ⟨matched.below counted, fun model shown => ?_⟩
      rw [tap_playlists counted (matched.below counted), matched.cells path.row model shown]
      rfl
  | viewDidLoad | browseReply | searchBarSearchButtonClicked | searchReply |
      searchBarResultsListButtonClicked | runMainQueue => trivial

/-- Rows and models stay in step in every run in which, between a reply and the next reload of its
section, no counted row of that section is asked for or tapped. -/
theorem rowsInStep (actions : List Action) (awaits : Along step AwaitsReload init actions) :
    Along step InStep init actions := by
  have start : init.Matches := fun sec _ => ⟨fun _ => Nat.zero_le _, fun _ _ shown => by cases shown⟩
  exact Runs.along_of_along (fun _ a matching _ => step_matches a matching)
    (fun _ _ matching => inStep_of_awaitsReload matching) start awaits

instance (s : LMViewController) : (a : Action) → Decidable (s.AwaitsReload a)
  | .cellForRowAtIndexPath path | .didSelectRowAtIndexPath path =>
      inferInstanceAs (Decidable (s.rowCounted path → s.replaced path.section = false))
  | .viewDidLoad | .browseReply _ | .searchBarSearchButtonClicked _ | .searchReply _ _ |
      .searchBarResultsListButtonClicked | .runMainQueue => .isTrue trivial

instance (s : LMViewController) : (a : Action) → Decidable (s.InStep a)
  | .cellForRowAtIndexPath path => inferInstanceAs (Decidable (s.rowCounted path → s.RowBelow path))
  | .didSelectRowAtIndexPath path => inferInstanceAs (Decidable (s.rowCounted path → s.RowBelow path ∧
      ∀ model ∈ s.playlistTableView.cells path,
        (s.step (.didSelectRowAtIndexPath path)).state.playlists = s.playlists ++ [model.endpoint]))
  | .viewDidLoad | .browseReply _ | .searchBarSearchButtonClicked _ | .searchReply _ _ |
      .searchBarResultsListButtonClicked | .runMainQueue => .isTrue trivial

/-- A search result with this playlist. -/
def resultOf (playlistId : NSString) : YTICompactListItemRenderer where
  navigationEndpoint := ⟨⟨some playlistId, [], 0⟩, ⟨none, []⟩⟩
  title := [⟨some playlistId⟩]
  subTitle := []

/-- The first search brings two results, the second one a single result, which is shown once its
block has run. -/
def reloadedSearches : List Action :=
  [.viewDidLoad, .browseReply (some []), .runMainQueue,
    .searchBarSearchButtonClicked [115], .searchReply 0 (some [[resultOf [1], resultOf [2]]]),
    .runMainQueue, .cellForRowAtIndexPath ⟨.searchResults, 1⟩,
    .searchBarSearchButtonClicked [116], .searchReply 0 (some [[resultOf [3]]]), .runMainQueue,
    .cellForRowAtIndexPath ⟨.searchResults, 0⟩, .didSelectRowAtIndexPath ⟨.searchResults, 0⟩]

theorem reloadedSearches_inStep :
    Along step InStep init reloadedSearches ∧
      (run init reloadedSearches).state.playlists = [⟨[3], [], 0⟩] :=
  ⟨rowsInStep reloadedSearches (by decide), by decide⟩

/-- Two results are on the table when the reply to another search brings one. -/
def secondSearch : List Action :=
  [.viewDidLoad, .browseReply (some []), .runMainQueue,
    .searchBarSearchButtonClicked [115], .searchReply 0 (some [[resultOf [1], resultOf [2]]]),
    .runMainQueue, .cellForRowAtIndexPath ⟨.searchResults, 0⟩,
    .cellForRowAtIndexPath ⟨.searchResults, 1⟩,
    .searchBarSearchButtonClicked [116], .searchReply 0 (some [[resultOf [3]]])]

/-- The second row is asked for again and raises; a tap on the first row starts the new playlist
while the row displays the old one. -/
theorem secondSearch_breaks :
    ¬ Along step InStep init (secondSearch ++ [.cellForRowAtIndexPath ⟨.searchResults, 1⟩]) ∧
      (run init (secondSearch ++ [.cellForRowAtIndexPath ⟨.searchResults, 1⟩])).finished = false ∧
      ¬ Along step InStep init (secondSearch ++ [.didSelectRowAtIndexPath ⟨.searchResults, 0⟩]) ∧
      (run init (secondSearch ++ [.didSelectRowAtIndexPath ⟨.searchResults, 0⟩])).state.playlists =
        [⟨[3], [], 0⟩] := by
  refine ⟨by decide, by decide, by decide, by decide⟩

end LMViewController
end LeptosMusic
