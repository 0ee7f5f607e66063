import LeptosMusic.TableRows
import LeptosMusic.Library.LastWriter

/-!
# The latest search

Searches and clears are numbered as the user enters them. What each of them, its reply and the
block of the reply write to the results and to whether they are shown is stamped with the number.
-/
namespace LeptosMusic
open Runs (Outcome Along Always)
open LastWriter (Stamped)

namespace LMViewController

/-- What an action writes to `_searchModels`. -/
def searchModelsWrite (s : LMViewController) :
    Action → Option (Stamped Nat (Option (List LMPlaylistCellDataModel)))
  | .searchBarSearchButtonClicked query =>
      if query.length ≠ 0 then none else some ⟨s.searches + 1, none⟩
  | .searchReply i reply => s.searchRequests[i]?.bind fun number =>
      reply.map fun res => ⟨number, some (searchPlaylists res)⟩
  | _ => none

/-- What an action writes to `shouldShowSearchResults`. -/
def shouldShowWrite (s : LMViewController) : Action → Option (Stamped Nat Bool)
  | .searchBarSearchButtonClicked query =>
      if query.length ≠ 0 then none else some ⟨s.searches + 1, false⟩
  | .searchBarResultsListButtonClicked => some ⟨s.searches, !s.shouldShowSearchResults⟩
  | .runMainQueue =>
      match s.mainQueue with
      | .search number :: _ => some ⟨number, true⟩
      | _ => none
  | _ => none

/-- Neither the results nor the searches on their way change. -/
structure SameSearches (s t : LMViewController) : Prop where
  models : t._searchModels = s._searchModels
  searches : t.searches = s.searches
  requests : t.searchRequests = s.searchRequests
  queue : t.mainQueue = s.mainQueue

theorem setShouldShow_same (s : LMViewController) (shown : Bool) :
    SameSearches s (s.setShouldShowSearchResults shown) ∧
      (s.setShouldShowSearchResults shown).shouldShowSearchResults = shown := by
  unfold setShouldShowSearchResults
  dsimp only
  split
  · split_ifs
    · exact ⟨⟨rfl, rfl, rfl, rfl⟩, rfl⟩
    · exact ⟨⟨rfl, rfl, rfl, rfl⟩, rfl⟩
  · exact ⟨⟨rfl, rfl, rfl, rfl⟩, rfl⟩

theorem searchButton_enters {s : LMViewController} {query : NSString} (entered : query.length ≠ 0) :
    s.searchBarSearchButtonClicked query = { s with
      searches := s.searches + 1
      searchRequests := s.searchRequests ++ [s.searches + 1] } := if_pos entered

theorem searchButton_clears {s : LMViewController} {query : NSString} (empty : query.length = 0) :
    SameSearches { s with searches := s.searches + 1, _searchModels := none }
        (s.searchBarSearchButtonClicked query) ∧
      (s.searchBarSearchButtonClicked query).shouldShowSearchResults = false := by
  have cleared := setShouldShow_same
    { s with searches := s.searches + 1, _searchModels := none } false
  unfold searchBarSearchButtonClicked
  dsimp only
  rw [if_neg (not_not_intro empty)]
  exact ⟨⟨cleared.1.models, cleared.1.searches, cleared.1.requests, cleared.1.queue⟩, cleared.2⟩

theorem runBlock_search (s : LMViewController) (number : Nat) :
    SameSearches s (s.runBlock (.search number)) ∧
      (s.runBlock (.search number)).shouldShowSearchResults = true := by
  have shown := setShouldShow_same { s with showsSearchResultsButton := true } true
  exact ⟨⟨shown.1.models, shown.1.searches, shown.1.requests, shown.1.queue⟩, shown.2⟩

theorem cellForRow_same (s : LMViewController) (path : NSIndexPath) :
    SameSearches s (s.cellForRowAtIndexPath path).state ∧
      (s.cellForRowAtIndexPath path).state.shouldShowSearchResults = s.shouldShowSearchResults := by
  unfold cellForRowAtIndexPath
  split
  · exact ⟨⟨rfl, rfl, rfl, rfl⟩, rfl⟩
  all_goals
    split
    · exact ⟨⟨rfl, rfl, rfl, rfl⟩, rfl⟩
    · exact ⟨⟨rfl, rfl, rfl, rfl⟩, rfl⟩

theorem didSelectRow_same (s : LMViewController) (path : NSIndexPath) :
    SameSearches s (s.didSelectRowAtIndexPath path).state ∧
      (s.didSelectRowAtIndexPath path).state.shouldShowSearchResults =
        s.shouldShowSearchResults := by
  unfold didSelectRowAtIndexPath
  split
  · exact ⟨⟨rfl, rfl, rfl, rfl⟩, rfl⟩
  · exact ⟨⟨rfl, rfl, rfl, rfl⟩, rfl⟩

/-- The plain fields take every write as it arrives. -/
structure Overwrites (s : LMViewController) (a : Action) (t : LMViewController) : Prop where
  models : t._searchModels = Stamped.overwrite s._searchModels (s.searchModelsWrite a)
  shows : t.shouldShowSearchResults =
    Stamped.overwrite s.shouldShowSearchResults (s.shouldShowWrite a)

theorem step_overwrites (s : LMViewController) (a : Action) : Overwrites s a (s.step a).state := by
  cases a with
  | viewDidLoad => exact ⟨rfl, rfl⟩
  | browseReply reply =>
      simp only [step]
      split_ifs
      · exact ⟨rfl, rfl⟩
      · cases reply with
        | none => exact ⟨rfl, rfl⟩
        | some res => exact ⟨rfl, rfl⟩
  | searchBarSearchButtonClicked query =>
      simp only [step, Outcome.state_done]
      by_cases entered : query.length ≠ 0
      · rw [searchButton_enters entered]
        constructor
        · rw [searchModelsWrite, if_pos entered]
          rfl
        · rw [shouldShowWrite, if_pos entered]
          rfl
      · obtain ⟨same, hidden⟩ := searchButton_clears (s := s) (not_not.mp entered)
        constructor
        · rw [searchModelsWrite, if_neg entered]
          exact same.models
        · rw [shouldShowWrite, if_neg entered]
          exact hidden
  | searchReply i reply =>
      simp only [step]
      cases asked : s.searchRequests[i]? with
      | none =>
          refine ⟨?_, rfl⟩
          rw [searchModelsWrite, asked]
          rfl
      | some number =>
          cases reply with
          | none =>
              refine ⟨?_, rfl⟩
              rw [searchModelsWrite, asked]
              rfl
          | some res =>
              refine ⟨?_, rfl⟩
              rw [searchModelsWrite, asked]
              rfl
  | searchBarResultsListButtonClicked =>
      obtain ⟨same, toggled⟩ := s.setShouldShow_same (!s.shouldShowSearchResults)
      exact ⟨same.models, toggled⟩
  | runMainQueue =>
      simp only [step]
      cases queue : s.mainQueue with
      | nil =>
          refine ⟨rfl, ?_⟩
          rw [shouldShowWrite, queue]
          rfl
      | cons block rest =>
          cases block with
          | browse =>
              refine ⟨rfl, ?_⟩
              rw [shouldShowWrite, queue]
              rfl
          | search number =>
              obtain ⟨same, shown⟩ := runBlock_search { s with mainQueue := rest } number
              refine ⟨same.models, ?_⟩
              rw [shouldShowWrite, queue]
              exact shown
  | cellForRowAtIndexPath path =>
      obtain ⟨same, shown⟩ := s.cellForRow_same path
      simp only [step]
      split_ifs
      · exact ⟨same.models, shown⟩
      · exact ⟨rfl, rfl⟩
  | didSelectRowAtIndexPath path =>
      obtain ⟨same, shown⟩ := s.didSelectRow_same path
      simp only [step]
      split_ifs
      · exact ⟨same.models, shown⟩
      · exact ⟨rfl, rfl⟩

end LMViewController

/-- What the user did last about the results. -/
inductive LastSearch where
  | nothing
  /-- With the results once the reply has brought them. -/
  | searched (results : Option (List LMPlaylistCellDataModel))
  | cleared

/-- The controller with the newest writes and with what the user did last; `toggled` when the
results list has been toggled since. -/
structure SearchHistory where
  controller : LMViewController
  newest : Stamped Nat (Option (List LMPlaylistCellDataModel))
  shown : Stamped Nat Bool
  last : LastSearch
  toggled : Bool

namespace SearchHistory

def init : SearchHistory where
  controller := .init
  newest := ⟨0, none⟩
  shown := ⟨0, false⟩
  last := .nothing
  toggled := false

/-- The last action after this one; the reply to the last search brings its results. -/
def lastAfter (s : SearchHistory) : LMViewController.Action → LastSearch
  | .searchBarSearchButtonClicked query => if query.length ≠ 0 then .searched none else .cleared
  | .searchReply i (some res) =>
      if s.controller.searchRequests[i]? = some s.controller.searches then
        .searched (some (searchPlaylists res))
      else s.last
  | _ => s.last

def toggledAfter (s : SearchHistory) : LMViewController.Action → Bool
  | .searchBarSearchButtonClicked _ => false
  | .searchBarResultsListButtonClicked => true
  | _ => s.toggled

def after (s : SearchHistory) (a : LMViewController.Action) (t : LMViewController) :
    SearchHistory where
  controller := t
  newest := s.newest.receive (s.controller.searchModelsWrite a)
  shown := s.shown.receive (s.controller.shouldShowWrite a)
  last := s.lastAfter a
  toggled := s.toggledAfter a

def step (s : SearchHistory) (a : LMViewController.Action) : Outcome Fault SearchHistory :=
  (s.controller.step a).map (s.after a)

theorem step_state (s : SearchHistory) (a : LMViewController.Action) :
    (s.step a).state = s.after a (s.controller.step a).state := Outcome.state_map _ _

/-- No reply is outstanding, and the blocks of all replies have run. -/
def Quiet (s : SearchHistory) : Prop :=
  s.controller.searchRequests = [] ∧ ∀ number, .search number ∉ s.controller.mainQueue

/-- The fields reflect the last action, until the user toggles the list. -/
def ReflectsLast (s : SearchHistory) : Prop :=
  match s.last with
  | .nothing | .searched none => True
  | .searched (some results) => s.controller._searchModels = some results ∧
      (s.toggled = false → s.controller.shouldShowSearchResults = true)
  | .cleared => s.controller._searchModels = none ∧
      (s.toggled = false → s.controller.shouldShowSearchResults = false)

/-- Nothing older has overridden the newest writes, and in the end they are those of the last
action. The first two fields are asked of every state, more than that the last action wins once all
is quiet. -/
structure LatestWins (s : SearchHistory) : Prop where
  models : s.controller._searchModels = s.newest.value
  shows : s.controller.shouldShowSearchResults = s.shown.value
  reflects : s.Quiet → s.ReflectsLast

/-- The action writes nothing that is older than what is there, unless it is the same. -/
def WritesInOrder (s : SearchHistory) (a : LMViewController.Action) : Prop :=
  s.newest.InOrder (s.controller.searchModelsWrite a) ∧
    s.shown.InOrder (s.controller.shouldShowWrite a)

/-- What the newest writes are after the last action. -/
def LastWritten (s : SearchHistory) : Prop :=
  match s.last with
  | .nothing | .searched none => True
  | .searched (some results) => s.newest = ⟨s.controller.searches, some results⟩ ∧
      (.search s.controller.searches ∈ s.controller.mainQueue ∨
        (s.toggled = false → s.shown = ⟨s.controller.searches, true⟩))
  | .cleared => s.newest = ⟨s.controller.searches, none⟩ ∧
      .search s.controller.searches ∉ s.controller.mainQueue ∧
        (s.toggled = false → s.shown = ⟨s.controller.searches, false⟩)

/-- No number is above that of the last action. -/
structure Numbered (s : SearchHistory) : Prop where
  newest : s.newest.stamp ≤ s.controller.searches
  shown : s.shown.stamp ≤ s.controller.searches
  requests : ∀ number ∈ s.controller.searchRequests, number ≤ s.controller.searches
  blocks : ∀ number, .search number ∈ s.controller.mainQueue → number ≤ s.controller.searches
  last : s.LastWritten

theorem init_numbered : init.Numbered where
  newest := Nat.le_refl 0
  shown := Nat.le_refl 0
  requests := nofun
  blocks := nofun
  last := trivial

/-- A step that neither the user nor a search has caused. -/
theorem Numbered.unwritten {s : SearchHistory} {a : LMViewController.Action} (numbered : s.Numbered)
    (models : s.controller.searchModelsWrite a = none)
    (shows : s.controller.shouldShowWrite a = none)
    (last : s.lastAfter a = s.last) (toggled : s.toggledAfter a = s.toggled)
    (searches : (s.controller.step a).state.searches = s.controller.searches)
    (requests : (s.controller.step a).state.searchRequests ⊆ s.controller.searchRequests)
    (blocks : ∀ number, .search number ∈ (s.controller.step a).state.mainQueue ↔
      .search number ∈ s.controller.mainQueue) : (s.step a).state.Numbered := by
  rw [step_state, after, models, shows, last, toggled]
  constructor
  · simp only [searches]
    exact numbered.newest
  · simp only [searches]
    exact numbered.shown
  · simp only [searches]
    exact fun number waits => numbered.requests number (requests waits)
  · simp only [searches]
    exact fun number waits => numbered.blocks number ((blocks number).mp waits)
  · have written := numbered.last
    simp only [LastWritten, searches, blocks] at written ⊢
    exact written

theorem Numbered.entered {s : SearchHistory} {query : NSString} (numbered : s.Numbered)
    (entered : query.length ≠ 0) :
    (s.step (.searchBarSearchButtonClicked query)).state.Numbered := by
  rw [step_state]
  simp only [LMViewController.step, Outcome.state_done, LMViewController.searchButton_enters entered]
  have noModels : s.controller.searchModelsWrite (.searchBarSearchButtonClicked query) = none :=
    if_pos entered
  have noShow : s.controller.shouldShowWrite (.searchBarSearchButtonClicked query) = none :=
    if_pos entered
  constructor
  · simp only [after, noModels]
    exact Nat.le_succ_of_le numbered.newest
  · simp only [after, noShow]
    exact Nat.le_succ_of_le numbered.shown
  · intro number waits
    rcases List.mem_append.mp waits with earlier | this
    · exact Nat.le_succ_of_le (numbered.requests number earlier)
    · exact (List.mem_singleton.mp this).le
  · exact fun number waits => Nat.le_succ_of_le (numbered.blocks number waits)
  · simp only [LastWritten, after, lastAfter, if_pos entered]

theorem Numbered.cleared {s : SearchHistory} {query : NSString} (numbered : s.Numbered)
    (empty : query.length = 0) :
    (s.step (.searchBarSearchButtonClicked query)).state.Numbered := by
  obtain ⟨same, -⟩ := @LMViewController.searchButton_clears s.controller query empty
  have models : s.controller.searchModelsWrite (.searchBarSearchButtonClicked query) =
      some ⟨s.controller.searches + 1, none⟩ := if_neg (not_not_intro empty)
  have shows : s.controller.shouldShowWrite (.searchBarSearchButtonClicked query) =
      some ⟨s.controller.searches + 1, false⟩ := if_neg (not_not_intro empty)
  rw [step_state]
  simp only [LMViewController.step, Outcome.state_done]
  constructor
  · simp only [after, models, same.searches]
    exact Stamped.receive_stamp_le (Nat.le_succ_of_le numbered.newest) (by simp)
  · simp only [after, shows, same.searches]
    exact Stamped.receive_stamp_le (Nat.le_succ_of_le numbered.shown) (by simp)
  · simp only [after, same.searches, same.requests]
    exact fun number waits => Nat.le_succ_of_le (numbered.requests number waits)
  · simp only [after, same.searches, same.queue]
    exact fun number waits => Nat.le_succ_of_le (numbered.blocks number waits)
  · simp only [LastWritten, after, lastAfter, if_neg (not_not_intro empty), models, shows,
      same.searches, same.queue]
    refine ⟨Stamped.receive_newer (Nat.le_succ_of_le numbered.newest), fun waits => ?_, fun _ =>
      Stamped.receive_newer (Nat.le_succ_of_le numbered.shown)⟩
    exact absurd (numbered.blocks _ waits) (Nat.not_succ_le_self _)

theorem Numbered.replied {s : SearchHistory} {i number : Nat} {res : YTISearchResponse}
    (numbered : s.Numbered) (asked : s.controller.searchRequests[i]? = some number) :
    (s.step (.searchReply i (some res))).state.Numbered := by
  have bound : number ≤ s.controller.searches :=
    numbered.requests number (List.mem_of_getElem? asked)
  have models : s.controller.searchModelsWrite (.searchReply i (some res)) =
      some ⟨number, some (searchPlaylists res)⟩ := by
    rw [LMViewController.searchModelsWrite, asked]
    rfl
  have shows : s.controller.shouldShowWrite (.searchReply i (some res)) = none := rfl
  rw [step_state]
  simp only [LMViewController.step, asked, Outcome.state_done,
    LMViewController._processSearchResponse]
  constructor
  · simp only [after, models]
    exact Stamped.receive_stamp_le numbered.newest (by simpa using bound)
  · exact numbered.shown
  · exact fun number waits => numbered.requests number (List.mem_of_mem_eraseIdx waits)
  · intro block waits
    rcases List.mem_append.mp waits with earlier | this
    · exact numbered.blocks block earlier
    · cases List.mem_singleton.mp this
      exact bound
  · have written := numbered.last
    simp only [LastWritten, after, lastAfter, models, shows, asked, Option.some.injEq,
      List.mem_append, List.mem_singleton] at written ⊢
    by_cases last : number = s.controller.searches
    · subst last
      rw [if_pos rfl]
      exact ⟨Stamped.receive_newer numbered.newest, .inl (.inr rfl)⟩
    · have older : number < s.controller.searches := Nat.lt_of_le_of_ne bound last
      rw [if_neg last]
      cases before : s.last with
      | nothing => trivial
      | searched results =>
          rw [before] at written
          cases results with
          | none => trivial
          | some results =>
              obtain ⟨newest, shown⟩ := written
              refine ⟨?_, shown.imp .inl id⟩
              rw [newest]
              exact Stamped.receive_older older
      | cleared =>
          rw [before] at written
          obtain ⟨newest, ran, shown⟩ := written
          refine ⟨?_, fun waits => ?_, shown⟩
          · rw [newest]
            exact Stamped.receive_older older
          · rcases waits with earlier | this
            · exact ran earlier
            · exact last (ReloadBlock.search.inj this).symm

theorem Numbered.toggled {s : SearchHistory} (numbered : s.Numbered) :
    (s.step .searchBarResultsListButtonClicked).state.Numbered := by
  obtain ⟨same, -⟩ := s.controller.setShouldShow_same (!s.controller.shouldShowSearchResults)
  rw [step_state]
  simp only [LMViewController.step, Outcome.state_done,
    LMViewController.searchBarResultsListButtonClicked]
  constructor
  · simp only [after, same.searches]
    exact numbered.newest
  · simp only [after, same.searches, LMViewController.shouldShowWrite]
    exact Stamped.receive_stamp_le numbered.shown (by simp)
  · simp only [after, same.searches, same.requests]
    exact numbered.requests
  · simp only [after, same.searches, same.queue]
    exact numbered.blocks
  · have written := numbered.last
    simp only [LastWritten, after, lastAfter, toggledAfter, same.searches, same.queue] at written ⊢
    cases before : s.last with
    | nothing => trivial
    | searched results =>
        rw [before] at written
        cases results with
        | none => trivial
        | some results => exact ⟨written.1, .inr fun kept => absurd kept (by decide)⟩
    | cleared =>
        rw [before] at written
        exact ⟨written.1, written.2.1, fun kept => absurd kept (by decide)⟩

theorem Numbered.ran {s : SearchHistory} {number : Nat} {rest : List ReloadBlock}
    (numbered : s.Numbered) (queue : s.controller.mainQueue = .search number :: rest) :
    (s.step .runMainQueue).state.Numbered := by
  obtain ⟨same, -⟩ := LMViewController.runBlock_search { s.controller with mainQueue := rest } number
  have bound : number ≤ s.controller.searches := by
    refine numbered.blocks number ?_
    rw [queue]
    exact List.mem_cons_self
  have models : s.controller.searchModelsWrite .runMainQueue = none := rfl
  have shows : s.controller.shouldShowWrite .runMainQueue = some ⟨number, true⟩ := by
    rw [LMViewController.shouldShowWrite, queue]
  rw [step_state]
  simp only [LMViewController.step, queue, Outcome.state_done]
  constructor
  · simp only [after, same.searches]
    exact numbered.newest
  · simp only [after, same.searches, shows]
    exact Stamped.receive_stamp_le numbered.shown (by simpa using bound)
  · simp only [after, same.searches, same.requests]
    exact numbered.requests
  · simp only [after, same.searches, same.queue]
    intro block waits
    refine numbered.blocks block ?_
    rw [queue]
    exact List.mem_cons_of_mem _ waits
  · have written := numbered.last
    simp only [LastWritten, after, lastAfter, toggledAfter, models, shows, same.searches, same.queue,
      queue, List.mem_cons] at written ⊢
    cases before : s.last with
    | nothing => trivial
    | searched results =>
        rw [before] at written
        cases results with
        | none => trivial
        | some results =>
            obtain ⟨newest, shown⟩ := written
            refine ⟨newest, ?_⟩
            by_cases last : number = s.controller.searches
            · subst last
              exact .inr fun _ => Stamped.receive_newer numbered.shown
            · rcases shown with (first | later) | shown
              · exact absurd (ReloadBlock.search.inj first).symm last
              · exact .inl later
              · refine .inr fun kept => ?_
                rw [shown kept]
                exact Stamped.receive_older (Nat.lt_of_le_of_ne bound last)
    | cleared =>
        rw [before] at written
        obtain ⟨newest, ran, shown⟩ := written
        have last : number ≠ s.controller.searches := fun this => ran (.inl (this ▸ rfl))
        refine ⟨newest, fun waits => ran (.inr waits), fun kept => ?_⟩
        rw [shown kept]
        exact Stamped.receive_older (Nat.lt_of_le_of_ne bound last)

theorem Numbered.step {s : SearchHistory} (a : LMViewController.Action) (numbered : s.Numbered) :
    (s.step a).state.Numbered := by
  cases a with
  | viewDidLoad =>
      exact numbered.unwritten rfl rfl rfl rfl rfl (List.Subset.refl _) fun _ => Iff.rfl
  | browseReply reply =>
      apply numbered.unwritten rfl rfl rfl rfl
      all_goals
        simp only [LMViewController.step]
        split_ifs
        · simp
        · cases reply <;> simp [LMViewController._processBrowseResponse]
  | searchBarSearchButtonClicked query =>
      by_cases empty : query.length = 0
      · exact numbered.cleared empty
      · exact numbered.entered empty
  | searchReply i reply =>
      cases asked : s.controller.searchRequests[i]? with
      | none =>
          apply numbered.unwritten
          · simp [LMViewController.searchModelsWrite, asked]
          · rfl
          · cases reply <;> simp [lastAfter, asked]
          · rfl
          all_goals simp [LMViewController.step, asked]
      | some number =>
          cases reply with
          | some res => exact numbered.replied asked
          | none =>
              apply numbered.unwritten
              · simp [LMViewController.searchModelsWrite]
              · rfl
              · rfl
              · rfl
              all_goals simp [LMViewController.step, asked, List.eraseIdx_subset]
  | searchBarResultsListButtonClicked => exact numbered.toggled
  | runMainQueue =>
      cases queue : s.controller.mainQueue with
      | nil =>
          apply numbered.unwritten
          · rfl
          · simp [LMViewController.shouldShowWrite, queue]
          · rfl
          · rfl
          all_goals simp [LMViewController.step, queue]
      | cons block rest =>
          cases block with
          | search number => exact numbered.ran queue
          | browse =>
              apply numbered.unwritten
              · rfl
              · simp [LMViewController.shouldShowWrite, queue]
              · rfl
              · rfl
              all_goals simp [LMViewController.step, queue, LMViewController.runBlock,
                LMViewController.reloadSection]
  | cellForRowAtIndexPath path =>
      obtain ⟨same, -⟩ := s.controller.cellForRow_same path
      apply numbered.unwritten rfl rfl rfl rfl
      all_goals
        simp only [LMViewController.step]
        split_ifs
        · simp [same.searches, same.requests, same.queue]
        · simp
  | didSelectRowAtIndexPath path =>
      obtain ⟨same, -⟩ := s.controller.didSelectRow_same path
      apply numbered.unwritten rfl rfl rfl rfl
      all_goals
        simp only [LMViewController.step]
        split_ifs
        · simp [same.searches, same.requests, same.queue]
        · simp

/-- The plain fields hold the newest writes. -/
def Agrees (s : SearchHistory) : Prop :=
  s.controller._searchModels = s.newest.value ∧
    s.controller.shouldShowSearchResults = s.shown.value

theorem step_agrees_iff {s : SearchHistory} (a : LMViewController.Action) (agrees : s.Agrees) :
    (s.step a).state.Agrees ↔ s.WritesInOrder a := by
  have written := s.controller.step_overwrites a
  rw [step_state, Agrees, WritesInOrder, ← Stamped.overwrite_eq_iff, ← Stamped.overwrite_eq_iff,
    ← agrees.1, ← agrees.2, ← written.models, ← written.shows]
  exact Iff.rfl

/-- What the last action has written is there when no block is left to run. -/
theorem Numbered.reflects {s : SearchHistory} (numbered : s.Numbered) (agrees : s.Agrees)
    (quiet : s.Quiet) : s.ReflectsLast := by
  have written := numbered.last
  unfold LastWritten at written
  unfold ReflectsLast
  rw [agrees.1, agrees.2]
  cases last : s.last with
  | nothing => trivial
  | searched results =>
      rw [last] at written
      cases results with
      | none => trivial
      | some results =>
          obtain ⟨newest, shown⟩ := written
          refine ⟨congrArg Stamped.value newest, fun kept => ?_⟩
          exact congrArg Stamped.value ((shown.resolve_left (quiet.2 _)) kept)
  | cleared =>
      rw [last] at written
      obtain ⟨newest, -, shown⟩ := written
      exact ⟨congrArg Stamped.value newest, fun kept => congrArg Stamped.value (shown kept)⟩

/-- The latest search wins, in every state and not only in the end, in exactly the runs in which no
reply and no block writes anything else than what something newer has written before. -/
theorem latestWins_always_iff (actions : List LMViewController.Action) :
    Always step LatestWins init actions ↔ Along step WritesInOrder init actions := by
  apply Runs.always_iff_along (I := fun s => s.Numbered ∧ s.Agrees)
  · exact fun s a both _ inOrder => ⟨both.1.step a, (step_agrees_iff a both.2).mpr inOrder⟩
  · exact fun s both => ⟨both.2.1, both.2.2, both.1.reflects both.2⟩
  · exact fun s a both _ late wins => late ((step_agrees_iff a both.2).mp ⟨wins.models, wins.shows⟩)
  · exact ⟨init_numbered, rfl, rfl⟩
  · exact Runs.along_true step init actions

/-- Two searches are on their way, and the reply to the second one comes first. -/
def repliesSwapped : List LMViewController.Action :=
  [.viewDidLoad, .browseReply (some []), .runMainQueue,
    .searchBarSearchButtonClicked [115], .searchBarSearchButtonClicked [116],
    .searchReply 1 (some [[LMViewController.resultOf [2]]]),
    .searchReply 0 (some [[LMViewController.resultOf [1]]]), .runMainQueue, .runMainQueue]

/-- The reply comes after the user has cleared the search. -/
def replyAfterClear : List LMViewController.Action :=
  [.viewDidLoad, .browseReply (some []), .runMainQueue,
    .searchBarSearchButtonClicked [115], .searchBarSearchButtonClicked [],
    .searchReply 0 (some [[LMViewController.resultOf [1]]]), .runMainQueue]

theorem quiet_of_empty {s : SearchHistory} (requests : s.controller.searchRequests = [])
    (queue : s.controller.mainQueue = []) : s.Quiet :=
  ⟨requests, fun number waits => by simp [queue] at waits⟩

theorem olderReply_overrides :
    (Runs.run step init repliesSwapped).finished = true ∧
      (Runs.run step init repliesSwapped).state.Quiet ∧
      ¬ (Runs.run step init repliesSwapped).state.ReflectsLast ∧
      (Runs.run step init replyAfterClear).finished = true ∧
      (Runs.run step init replyAfterClear).state.Quiet ∧
      ¬ (Runs.run step init replyAfterClear).state.ReflectsLast ∧
      ¬ Always step LatestWins init repliesSwapped := by
  have quiet : (Runs.run step init repliesSwapped).state.Quiet :=
    quiet_of_empty (by decide) (by decide)
  have overridden : ¬ (Runs.run step init repliesSwapped).state.ReflectsLast := by
    rintro ⟨models, -⟩
    exact absurd models (by decide)
  have shown : ¬ (Runs.run step init replyAfterClear).state.ReflectsLast := by
    rintro ⟨models, -⟩
    exact absurd models (by decide)
  refine ⟨by decide, quiet, overridden, by decide, quiet_of_empty (by decide) (by decide), shown, ?_⟩
  exact fun wins => overridden (wins.last.reflects quiet)

end SearchHistory
end LeptosMusic
