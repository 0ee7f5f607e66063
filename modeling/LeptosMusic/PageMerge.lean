import LeptosMusic.TargetIndex

/-!
# Merging a page into the list

The renderers of a page are stored one by one at their indices behind the old items. A subscript
beyond the end of the array raises, so the order of the renderers and the gaps between their
indices decide, and in the end the fetch for the target index.
-/
namespace LeptosMusic
namespace Player
open SubscriptStore (FillsUp filled)

/-- The indices that a page brings, in the order of its renderers. -/
def indices (page : YTIPlaylistPanelRenderer) : List Nat :=
  (indexed page).map YTIWatchEndpoint.index

/-- The items behind the old ones: one for each index of the page, the last renderer that has
it, by increasing index. -/
structure Merged (page : YTIPlaylistPanelRenderer) (added : List YTIWatchEndpoint) : Prop where
  increasing : added.Pairwise fun earlier later => earlier.index < later.index
  complete : ∀ i ∈ indices page, ∃ entry ∈ added, entry.index = i
  latest : ∀ entry ∈ added,
    (indexed page).reverse.find? (fun renderer => renderer.index == entry.index) = some entry

/-- The merge raises nothing, keeps the old items where they are, and adds those of the page. -/
def MergesInto (s : Player) (page : YTIPlaylistPanelRenderer) : Prop :=
  ∃ t added, s._preprocessInnerPlaylist page = .done t ∧
    t.endpoints = s.endpoints ++ added ∧ Merged page added

theorem storeRenderers_isSome_iff (s : Player) (page : YTIPlaylistPanelRenderer) :
    (storeRenderers s.count s.endpoints page).isSome ↔ FillsUp 0 (indices page) := by
  rw [storeRenderers_eq]
  exact SubscriptStore.storeAll_isSome_iff (Nat.zero_add s.count).symm

theorem storeRenderers_length {s : Player} {page : YTIPlaylistPanelRenderer}
    {endpoints : List YTIWatchEndpoint}
    (stored : storeRenderers s.count s.endpoints page = some endpoints) :
    endpoints.length = s.count + filled 0 (indices page) := by
  rw [storeRenderers_eq] at stored
  rw [SubscriptStore.storeAll_length_eq (Nat.zero_add s.count).symm stored, Nat.add_comm]
  rfl

/-- Place `p` behind the old items holds the last renderer with index `p`. -/
theorem added_getElem? {s : Player} {page : YTIPlaylistPanelRenderer}
    {added : List YTIWatchEndpoint}
    (stored : storeRenderers s.count s.endpoints page = some (s.endpoints ++ added)) (p : Nat) :
    added[p]? = (indexed page).reverse.find? (fun renderer => renderer.index == p) := by
  rw [storeRenderers_eq] at stored
  have found := SubscriptStore.storeAll_getElem? stored (s.count + p)
  rw [count_eq, List.getElem?_append_right (Nat.le_add_right _ _), Nat.add_sub_cancel_left,
    List.getElem?_eq_none (Nat.le_add_right s.endpoints.length p), Option.or_none] at found
  rw [found]
  congr 1
  funext renderer
  rw [Nat.add_comm s.endpoints.length p]
  exact Bool.eq_iff_iff.mpr (by simp)

/-- Whatever could be stored is a merge. -/
theorem storeRenderers_merged {s : Player} {page : YTIPlaylistPanelRenderer}
    {endpoints : List YTIWatchEndpoint}
    (stored : storeRenderers s.count s.endpoints page = some endpoints) :
    ∃ added, endpoints = s.endpoints ++ added ∧ Merged page added := by
  have placed := storeRenderers_placed stored
  obtain ⟨added, rfl⟩ := placed.kept
  have place : ∀ (p : Nat) (entry : YTIWatchEndpoint), added[p]? = some entry → entry.index = p := by
    intro p entry found
    have behind : (s.endpoints ++ added)[s.endpoints.length + p]? = some entry := by
      rwa [List.getElem?_append_right (Nat.le_add_right _ _), Nat.add_sub_cancel_left]
    have index := placed.placed _ entry (Nat.le_add_right _ _) behind
    omega
  refine ⟨added, rfl, ?_, ?_, ?_⟩
  · rw [List.pairwise_iff_getElem]
    intro p q inP inQ before
    rw [place p _ (List.getElem?_eq_getElem inP), place q _ (List.getElem?_eq_getElem inQ)]
    exact before
  · intro i member
    obtain ⟨renderer, inPage, rfl⟩ := List.mem_map.mp member
    cases found : added[renderer.index]? with
    | none =>
        rw [added_getElem? stored, List.find?_eq_none] at found
        exact absurd (beq_self_eq_true _) (found renderer (List.mem_reverse.mpr inPage))
    | some entry => exact ⟨entry, List.mem_of_getElem? found, place _ entry found⟩
  · intro entry member
    obtain ⟨p, found⟩ := List.mem_iff_getElem?.mp member
    rw [place p entry found, ← added_getElem? stored, found]

theorem requestItemAt_finished_iff (s : Player) (position : Nat) :
    (s.requestItemAt position).finished = true ↔ position < s.count := by
  refine ⟨?_, requestItemAt_finished⟩
  intro finished
  rw [count_eq]
  by_contra beyond
  rw [requestItemAt, List.getElem?_eq_none (Nat.le_of_not_lt beyond)] at finished
  cases finished

theorem fetchCurrentItem_finished_iff (s : Player) :
    s.fetchCurrentItem.finished = true ↔ s.prefetched.isSome ∨ s.targetPlayingIndex < s.count := by
  unfold fetchCurrentItem
  cases s.prefetched with
  | some nextVideoModule => exact iff_of_true rfl (.inl rfl)
  | none => simp [requestItemAt_finished_iff]

/-- The fetch of the next item is guarded, that of the current one is not. -/
theorem startFetch_finished_iff (s : Player) :
    s.startFetchForCurrentItem.finished = true ↔
      s.count = 0 ∨ s.prefetched.isSome ∨ s.targetPlayingIndex < s.count := by
  unfold startFetchForCurrentItem
  dsimp only
  split_ifs with loaded
  · rw [Runs.Outcome.andThen_finished_iff fetchNextItem_finished, fetchCurrentItem_finished_iff]
    exact ⟨.inr, fun bound => bound.resolve_left loaded⟩
  · exact iff_of_true rfl (.inl (not_not.mp loaded))

theorem startFetch_endpoints (s : Player) : s.startFetchForCurrentItem.state.endpoints = s.endpoints :=
  (startFetch_fetched s).endpoints

/-- A page merges exactly when its indices fill the list up in the order in which they come,
each at most one above those before, and the target is prefetched or in the list, if there is
anything to fetch. -/
theorem preprocess_merges_iff (s : Player) (page : YTIPlaylistPanelRenderer) :
    MergesInto s page ↔ FillsUp 0 (indices page) ∧
      (s.count + filled 0 (indices page) = 0 ∨ s.prefetched.isSome ∨
        s.targetPlayingIndex < s.count + filled 0 (indices page)) := by
  rw [← storeRenderers_isSome_iff]
  unfold MergesInto _preprocessInnerPlaylist
  cases stored : storeRenderers s.count s.endpoints page with
  | none => exact iff_of_false (by rintro ⟨t, added, ⟨⟩, _⟩) (by rintro ⟨⟨⟩, _⟩)
  | some endpoints =>
      have length := storeRenderers_length stored
      obtain ⟨added, split, merged⟩ := storeRenderers_merged stored
      have fetch := startFetch_finished_iff { s with playlistEndpoints := some endpoints }
      have kept := startFetch_endpoints { s with playlistEndpoints := some endpoints }
      have count : ({ s with playlistEndpoints := some endpoints } : Player).count =
          s.count + filled 0 (indices page) := length
      rw [count] at fetch
      dsimp only
      constructor
      · rintro ⟨t, _, ran, _⟩
        rw [ran] at fetch
        exact ⟨rfl, fetch.mp rfl⟩
      · rintro ⟨_, bound⟩
        cases ran : ({ s with playlistEndpoints := some endpoints } : Player).startFetchForCurrentItem with
        | raised fault t =>
            rw [ran] at fetch
            exact absurd (fetch.mpr bound) nofun
        | done t =>
            rw [ran] at kept
            exact ⟨t, added, rfl, kept.trans split, merged⟩

/-- With items loaded the target is one of them in every run, so only the order counts. -/
theorem Aimed.merges_iff {s : Player} (aimed : s.Aimed) (loaded : 0 < s.count)
    (page : YTIPlaylistPanelRenderer) : MergesInto s page ↔ FillsUp 0 (indices page) := by
  rw [preprocess_merges_iff, and_iff_left]
  have target := aimed.target loaded
  exact .inr (.inr (by omega))

/-- The first page with its two renderers swapped. -/
def swappedPage : YTIPlaylistPanelRenderer :=
  [⟨[2], [], [], true, 1⟩, ⟨[1], [], [], true, 0⟩]

/-- The first page without its second item. -/
def gappedPage : YTIPlaylistPanelRenderer :=
  [⟨[1], [], [], true, 0⟩, ⟨[3], [], [], true, 2⟩]

/-- Neither page can be merged: each raises, one of them before anything is stored. -/
theorem preprocess_swapped :
    ¬ MergesInto (init 0 .video) swappedPage ∧ ¬ MergesInto (init 0 .video) gappedPage ∧
      (init 0 .video)._preprocessInnerPlaylist swappedPage =
        .raised .rangeException (init 0 .video) := by
  refine ⟨?_, ?_, rfl⟩
  · rintro ⟨t, added, ran, _⟩
    cases ran
  · rintro ⟨t, added, ran, _⟩
    cases ran

end Player
end LeptosMusic
