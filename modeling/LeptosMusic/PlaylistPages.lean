import Mathlib.Data.List.Nodup
import LeptosMusic.PlayerSteps

/-!
# Pages of a playlist

A page is merged behind the endpoints that are there when it arrives. Three things can be
expected of the list: that an endpoint's index is its position, that the endpoints come
from the selected playlist, and that they are its tracks in order, each once.
-/
namespace LeptosMusic
namespace Player
open Runs (Along Always)

/-- The indexed renderers of the page count up from `base`. -/
def CountsFrom (base : Nat) (page : YTIPlaylistPanelRenderer) : Prop :=
  (indexed page).map YTIWatchEndpoint.index = List.range' base (indexed page).length
  deriving Decidable

/-- The server numbers a page from zero or from the index that was asked for. -/
def PageCounts (s : Player) (a : Action) : Prop :=
  ∀ d ∈ s.delivered a,
    CountsFrom 0 d.page ∨ CountsFrom d.request.message.playlistIndex d.page
  deriving Decidable

def PositionsAgree (s : Player) : Prop :=
  ∀ p (watchEndpoint : YTIWatchEndpoint),
    s.endpoints[p]? = some watchEndpoint → watchEndpoint.index = p

/-- A player response for the endpoint at the target index is taken for the current item. -/
def AcceptsTarget (s : Player) : Prop :=
  ∀ i module response, s.playerRequests[i]? = some module → s.MadeHere module →
    module.place.position = s.targetPlayingIndex →
    (s.step (.playerReply i (.response response))).state.mainQueue = s.mainQueue ++
      [⟨module._immediatePlayerResponseProcess s.now response, s.targetPlace⟩]

/-- A page with indexed renderers comes while the list is empty, and counts from zero. -/
def FirstPageOnly (s : Player) (a : Action) : Prop :=
  ∀ d ∈ s.delivered a, indexed d.page ≠ [] → s.count = 0 ∧ CountsFrom 0 d.page
  deriving Decidable

theorem PositionsAgree.accepts {s : Player} (agree : s.PositionsAgree) : s.AcceptsTarget := by
  intro i module response found here target
  have index : module.watchEndpoint.index = s.targetPlayingIndex :=
    (agree _ _ here.2).trans target
  simp only [step, found, playerResponse, Runs.Outcome.state_done]
  exact congrArg mainQueue (if_pos index)

theorem storeRenderers_first {s : Player} {page : YTIPlaylistPanelRenderer}
    (empty : s.count = 0) (counts : CountsFrom 0 page) :
    storeRenderers s.count s.endpoints page = some (indexed page) := by
  have noEndpoints : s.endpoints = [] := List.length_eq_zero_iff.mp empty
  rw [storeRenderers_eq, empty, noEndpoints]
  exact SubscriptStore.storeAll_append counts rfl

/-- On an empty list a page that fits counts from zero, whatever was asked for. -/
theorem countsFrom_zero {s : Player} {page : YTIPlaylistPanelRenderer} {base : Nat}
    (empty : s.endpoints.length = 0) (some_indexed : indexed page ≠ []) (counts : CountsFrom base page)
    (fits : (storeRenderers s.count s.endpoints page).isSome) : CountsFrom 0 page := by
  obtain ⟨first, rest, split⟩ := List.exists_cons_of_ne_nil some_indexed
  have base_eq : first.index = base := by
    rw [CountsFrom, split, List.map_cons, List.length_cons, List.range'_succ,
      List.cons.injEq] at counts
    exact counts.1
  have base_zero : base = 0 := by
    by_contra positive
    rw [storeRenderers_eq, split, SubscriptStore.storeAll_beyond (by omega)] at fits
    cases fits
  rw [← base_zero]
  exact counts

/-- Merging a page keeps index and position together exactly when the page is the first one. -/
theorem positionsAgree_stored {s t : Player} {d : Delivery} (agree : s.PositionsAgree)
    (counts : CountsFrom 0 d.page ∨ CountsFrom d.request.message.playlistIndex d.page)
    (stored : storeRenderers s.count s.endpoints d.page = some t.endpoints) :
    t.PositionsAgree ↔ (indexed d.page ≠ [] → s.count = 0 ∧ CountsFrom 0 d.page) := by
  constructor
  · intro after some_indexed
    have longer := count_lt_stored some_indexed stored
    have found := List.getElem?_eq_getElem longer
    have placed := (storeRenderers_placed stored).placed _ _ (Nat.le_refl _) found
    have index_zero : t.endpoints[s.count].index = 0 := by omega
    have empty : s.count = 0 := (after _ _ found).symm.trans index_zero
    rcases counts with zero | asked
    · exact ⟨empty, zero⟩
    · exact ⟨empty, countsFrom_zero empty some_indexed asked (Option.isSome_of_eq_some stored)⟩
  · intro first
    by_cases none_indexed : indexed d.page = []
    · rw [storeRenderers_nil none_indexed, Option.some.injEq] at stored
      unfold PositionsAgree
      rw [← stored]
      exact agree
    · obtain ⟨empty, zero⟩ := first none_indexed
      rw [storeRenderers_first empty zero, Option.some.injEq] at stored
      unfold PositionsAgree
      rw [← stored]
      intro p watchEndpoint found
      have key : ((indexed d.page).map YTIWatchEndpoint.index)[p]? = some watchEndpoint.index := by
        rw [List.getElem?_map, show (indexed d.page)[p]? = some watchEndpoint from found,
          Option.map_some]
      rw [zero] at key
      obtain ⟨_, key⟩ := List.getElem?_eq_some_iff.mp key
      rw [List.getElem_range'] at key
      omega

theorem step_positionsAgree {s : Player} {a : Action} (agree : s.PositionsAgree)
    (counts : s.PageCounts a) :
    (s.PageFits a ∧ (s.step a).state.PositionsAgree) ↔ s.FirstPageOnly a := by
  cases step_listing s a with
  | kept outOfRange endpoints _ _ =>
      have after : (s.step a).state.PositionsAgree := by
        unfold PositionsAgree
        rw [endpoints]
        exact agree
      constructor
      · rintro ⟨fits, _⟩ d delivery
        have none_fits := fits d delivery
        rw [outOfRange d delivery] at none_fits
        cases none_fits
      · intro first
        refine ⟨?_, after⟩
        intro d delivery
        by_cases none_indexed : indexed d.page = []
        · rw [storeRenderers_nil none_indexed]
          rfl
        · obtain ⟨empty, zero⟩ := first d delivery none_indexed
          rw [storeRenderers_first empty zero]
          rfl
  | cleared playlist selects endpoints _ =>
      subst selects
      refine iff_of_true ⟨?_, ?_⟩ ?_
      · intro d delivery
        cases delivery
      · intro p watchEndpoint found
        rw [endpoints] at found
        cases found
      · intro d delivery
        cases delivery
  | stored d delivery stored _ _ =>
      have merged := positionsAgree_stored agree (counts d delivery) stored
      have fits : s.PageFits a := (forall_delivered delivery).mpr (Option.isSome_of_eq_some stored)
      have first : s.FirstPageOnly a ↔ (indexed d.page ≠ [] → s.count = 0 ∧ CountsFrom 0 d.page) :=
        forall_delivered delivery
      rw [first, ← merged]
      exact and_iff_right fits

/-- When pages count from zero or from the index that was asked for, every page is merged in
range with index and position in agreement, and the target's endpoint accepted, exactly in
the runs where only pages that come to an empty list carry indexed renderers. -/
theorem positions_agree_iff (now : Int) (visualType : LMPreferencesVisualizerType)
    (actions : List Action) (counts : Along step PageCounts (init now visualType) actions) :
    Along step (fun s a => s.PageFits a ∧ (s.step a).state.PositionsAgree ∧
        (s.step a).state.AcceptsTarget) (init now visualType) actions ↔
      Along step FirstPageOnly (init now visualType) actions := by
  have start : (init now visualType).PositionsAgree := by
    intro p watchEndpoint found
    cases found
  refine Runs.along_iff_along (I := PositionsAgree) ?_ ?_ start counts
  · intro s a agree counted first
    exact ((step_positionsAgree agree counted).mpr first).2
  · intro s a agree counted
    rw [← step_positionsAgree agree counted]
    constructor
    · rintro ⟨fits, after, _⟩
      exact ⟨fits, after⟩
    · rintro ⟨fits, after⟩
      exact ⟨fits, after, after.accepts⟩

/-- One page for each of two playlists, and an extension page without indices. -/
def firstPagesRun : List Action :=
  [.setPlaylist (some ⟨[1], [], 0⟩), .watchReply 0 (.message (numbered (tracks [11, 12, 13]))),
    .next, .watchReply 0 (.message (tracks [14])), .setPlaylist (some ⟨[2], [], 0⟩),
    .watchReply 0 (.message (numbered (tracks [21, 22])))]

theorem firstPagesRun_agrees :
    Along step (fun s a => s.PageFits a ∧ (s.step a).state.PositionsAgree ∧
      (s.step a).state.AcceptsTarget) (init 0 .video) firstPagesRun :=
  (positions_agree_iff 0 .video firstPagesRun (by decide)).mpr (by decide)

/-- The first track of an extension page keeps index 0 at position 3. -/
def extensionRun : List Action :=
  [.setPlaylist (some ⟨[1], [], 0⟩), .watchReply 0 (.message (numbered (tracks [11, 12, 13]))),
    .next, .watchReply 0 (.message (numbered (tracks [14])))]

theorem extension_disagrees :
    Along step PageCounts (init 0 .video) extensionRun ∧
      Along step PageFits (init 0 .video) extensionRun ∧
      ¬ (run (init 0 .video) extensionRun).state.PositionsAgree := by
  refine ⟨by decide, by decide, ?_⟩
  intro agree
  exact absurd (agree 3 _ rfl) (by decide)

/-- The request was sent for the playlist that is selected now. -/
def SentFor (s : Player) (request : WatchRequest) : Prop :=
  request.selection = s.selections ∧
    request.message.playlistId = (s.playlist.getD ⟨[], [], 0⟩).playlistId ∧
    request.message.params = (s.playlist.getD ⟨[], [], 0⟩).params

def FromSelected (s : Player) : Prop :=
  ∀ watchEndpoint ∈ s.endpoints,
    ∃ d ∈ s.deliveries, s.SentFor d.request ∧ watchEndpoint ∈ d.page

/-- A reply to a request for an earlier playlist leaves the list as it is. -/
def StaleIgnored (s : Player) (a : Action) : Prop :=
  ∀ d ∈ s.delivered a, d.request.selection ≠ s.selections →
    (s.step a).state.endpoints = s.endpoints

/-- No reply to a request for an earlier playlist carries an indexed renderer that fits. -/
def StaleEmpty (s : Player) (a : Action) : Prop :=
  ∀ d ∈ s.delivered a, (storeRenderers s.count s.endpoints d.page).isSome →
    indexed d.page = [] ∨ d.request.selection = s.selections
  deriving Decidable

/-- Requests on their way that claim to be for the selected playlist are. -/
def RequestsKnown (s : Player) : Prop :=
  ∀ request ∈ s.watchRequests, request.selection ≤ s.selections ∧
    (request.selection = s.selections → s.SentFor request)

theorem SentFor.mono {s t : Player} {request : WatchRequest} (sent : s.SentFor request)
    (same : SameSelection s t) : t.SentFor request := by
  unfold SentFor
  rw [same.selections, same.playlist]
  exact sent

theorem extensionRequest_sentFor (s : Player) : s.SentFor s.extensionRequest := by
  unfold SentFor extensionRequest
  cases s.playlist <;> exact ⟨rfl, rfl, rfl⟩

/-- Under one selection, new requests for its playlist keep the requests known. -/
theorem RequestsKnown.mono {s t : Player} (known : s.RequestsKnown)
    (same : SameSelection s t) (requests : ∀ request ∈ t.watchRequests,
      request ∈ s.watchRequests ∨ request = s.extensionRequest) : t.RequestsKnown := by
  intro request member
  rw [same.selections]
  rcases requests request member with earlier | rfl
  · obtain ⟨older, sent⟩ := known request earlier
    exact ⟨older, fun current => (sent current).mono same⟩
  · have sent := extensionRequest_sentFor s
    exact ⟨sent.1.le, fun _ => sent.mono same⟩

theorem RequestsKnown.navigated {s t : Player} {target : Nat} (known : s.RequestsKnown)
    (move : Navigated s target t) : t.RequestsKnown := by
  refine known.mono move.same ?_
  intro request member
  cases move with
  | refused _ frame =>
      rw [frame] at member
      exact .inl member
  | moved u _ fetch frame requests => exact requests request member

theorem RequestsKnown.step {s : Player} (known : s.RequestsKnown) (a : Action) :
    (s.step a).state.RequestsKnown := by
  have change := step_change s a
  generalize (s.step a).state = t at change
  cases change with
  | idle _ _ _ frame =>
      rw [frame]
      exact known
  | navigate _ _ _ _ move => exact known.navigated move
  | select playlist _ move =>
      refine RequestsKnown.navigated ?_ move
      intro request member
      have older := (known request member).1
      constructor
      · exact Nat.le_succ_of_le older
      · intro later
        exact absurd later (Nat.ne_of_lt (Nat.lt_succ_of_le older))
  | watchError i request found =>
      exact known.mono ⟨rfl, rfl⟩ fun other member => .inl (List.mem_of_mem_eraseIdx member)
  | pageOutOfRange i request page found _ =>
      exact known.mono ⟨rfl, rfl⟩ fun other member => .inl (List.mem_of_mem_eraseIdx member)
  | page i request page endpoints _ found _ fetch =>
      refine known.mono ⟨fetch.same.playlist, fetch.same.selections⟩ ?_
      intro other member
      rw [fetch.frame] at member
      exact .inl (List.mem_of_mem_eraseIdx member)
  | playerDropped i module reply found _ => exact known
  | playerCurrent i module response found _ => exact known
  | playerPrefetched i module response found _ => exact known
  | assign block rest queue => exact known

theorem FromSelected.mono {s t : Player} (sourced : s.FromSelected)
    (endpoints : t.endpoints = s.endpoints) (same : SameSelection s t)
    (deliveries : s.deliveries ⊆ t.deliveries) : t.FromSelected := by
  intro watchEndpoint member
  rw [endpoints] at member
  obtain ⟨d, earlier, sent, inPage⟩ := sourced watchEndpoint member
  exact ⟨d, deliveries earlier, sent.mono same, inPage⟩

/-- A delivered request was on its way. -/
theorem delivered_mem {s : Player} {a : Action} {d : Delivery} (delivery : s.delivered a = some d) :
    d.request ∈ s.watchRequests := by
  unfold delivered at delivery
  split at delivery
  · obtain ⟨request, found, rfl⟩ := Option.map_eq_some_iff.mp delivery
    exact List.mem_of_getElem? found
  · cases delivery

theorem step_fromSelected {s : Player} {a : Action} (known : s.RequestsKnown)
    (sourced : s.FromSelected) :
    ((s.step a).state.FromSelected ∧ s.StaleIgnored a) ↔ s.StaleEmpty a := by
  cases step_listing s a with
  | kept outOfRange endpoints same deliveries =>
      refine iff_of_true ⟨sourced.mono endpoints same deliveries, fun _ _ _ => endpoints⟩ ?_
      intro d delivery fits
      rw [outOfRange d delivery] at fits
      cases fits
  | cleared playlist selects endpoints _ =>
      subst selects
      refine iff_of_true ⟨?_, ?_⟩ ?_
      · intro watchEndpoint member
        rw [endpoints] at member
        cases member
      · intro d delivery
        cases delivery
      · intro d delivery
        cases delivery
  | stored d delivery stored same deliveries =>
      have ignored_iff : s.StaleIgnored a ↔ (d.request.selection ≠ s.selections →
          (s.step a).state.endpoints = s.endpoints) := forall_delivered delivery
      have empty_iff : s.StaleEmpty a ↔ ((storeRenderers s.count s.endpoints d.page).isSome →
          indexed d.page = [] ∨ d.request.selection = s.selections) := forall_delivered delivery
      rw [ignored_iff, empty_iff]
      constructor
      · rintro ⟨_, ignored⟩ _
        by_contra bad
        obtain ⟨some_indexed, stale⟩ := not_or.mp bad
        have longer := count_lt_stored some_indexed stored
        rw [ignored stale] at longer
        exact Nat.lt_irrefl _ longer
      · intro empty
        have admitted := empty (Option.isSome_of_eq_some stored)
        constructor
        · intro watchEndpoint member
          rw [storeRenderers_eq] at stored
          rcases SubscriptStore.mem_of_mem_storeAll stored member with old | new
          · obtain ⟨d', earlier, sent, inPage⟩ := sourced watchEndpoint old
            exact ⟨d', by rw [deliveries]; exact List.mem_append_left _ earlier, sent.mono same, inPage⟩
          · have inPage : watchEndpoint ∈ d.page := List.mem_of_mem_filter new
            have current := admitted.resolve_left (List.ne_nil_of_mem new)
            have sent := (known d.request (delivered_mem delivery)).2 current
            exact ⟨d, by rw [deliveries]; simp, sent.mono same, inPage⟩
        · intro stale
          have none_indexed := admitted.resolve_right stale
          rw [storeRenderers_nil none_indexed, Option.some.injEq] at stored
          exact stored.symm

/-- The list comes from the selected playlist at all times, and replies for earlier ones leave
it alone, exactly in the runs where those replies carry no indexed renderer that fits. -/
theorem fromSelected_iff (now : Int) (visualType : LMPreferencesVisualizerType)
    (actions : List Action) :
    Along step (fun s a => (s.step a).state.FromSelected ∧ s.StaleIgnored a)
        (init now visualType) actions ↔
      Along step StaleEmpty (init now visualType) actions := by
  refine Runs.along_iff_along (I := fun s => s.RequestsKnown ∧ s.FromSelected)
    ?_ ?_ ⟨?_, ?_⟩ (Runs.along_true step _ actions)
  · rintro s a ⟨known, sourced⟩ _ empty
    exact ⟨known.step a, ((step_fromSelected known sourced).mpr empty).1⟩
  · rintro s a ⟨known, sourced⟩ _
    exact step_fromSelected known sourced
  · intro request member
    cases member
  · intro watchEndpoint member
    cases member

/-- The page of one playlist comes after another was selected. -/
def latePageRun : List Action :=
  [.setPlaylist (some ⟨[1], [], 0⟩), .setPlaylist (some ⟨[2], [], 0⟩),
    .watchReply 0 (.message (numbered (tracks [11, 12, 13])))]

theorem latePage_disagrees :
    ¬ (run (init 0 .video) latePageRun).state.FromSelected := by
  intro sourced
  obtain ⟨d, member, sent, _⟩ := sourced _ List.mem_cons_self
  have only : (run (init 0 .video) latePageRun).state.deliveries.all
      (fun d => d.request.selection == 1) = true := by decide
  have selection := List.all_eq_true.mp only d member
  rw [sent.1] at selection
  exact absurd selection (by decide)

/-- Within one playlist the server answers a request for index `k` with the tracks from `k` on,
as many as it likes, numbered from zero. -/
def ServedFrom (tracks : List YTIWatchEndpoint) (s : Player) (a : Action) : Prop :=
  (∀ d ∈ s.delivered a, d.page =
    numbered ((tracks.drop d.request.message.playlistIndex).take d.page.length)) ∧
  a.selects = false
  deriving Decidable

/-- What is left of an endpoint without its number. -/
def unnumbered (watchEndpoint : YTIWatchEndpoint) : YTIWatchEndpoint :=
  { watchEndpoint with hasIndex := false, index := 0 }

def PrefixOf (tracks : List YTIWatchEndpoint) (s : Player) : Prop :=
  s.endpoints.map unnumbered <+: tracks.map unnumbered
  deriving Decidable

/-- A page that is not empty was asked for at the present end of the list. -/
def InTurn (s : Player) (a : Action) : Prop :=
  ∀ d ∈ s.delivered a, d.page ≠ [] → d.request.message.playlistIndex = s.count
  deriving Decidable

@[simp] theorem length_numbered (tracks : List YTIWatchEndpoint) :
    (numbered tracks).length = tracks.length := List.length_mapIdx

theorem unnumbered_numbered (tracks : List YTIWatchEndpoint) :
    (numbered tracks).map unnumbered = tracks.map unnumbered := by
  apply List.ext_getElem
  · simp
  · intro i _ _
    simp [numbered, unnumbered]

theorem append_slice_prefix {α : Type*} {all xs : List α} {k m : Nat} (before : xs <+: all)
    (inTurn : k = xs.length) : xs ++ (all.drop k).take m <+: all := by
  have cut := List.prefix_iff_eq_take.mp before
  have grown : xs ++ (all.drop k).take m = all.take (k + m) := by
    rw [List.take_add, inTurn, ← cut]
  rw [grown]
  exact List.take_prefix _ _

/-- Where no element repeats, a slice that continues a prefix starts at its end. -/
theorem inTurn_of_append_slice {α : Type*} {all xs : List α} {k m : Nat} (distinct : all.Nodup)
    (nonempty : (all.drop k).take m ≠ []) (after : xs ++ (all.drop k).take m <+: all) :
    k = xs.length := by
  have long := List.length_pos_iff.mpr nonempty
  have inside : k < all.length := by
    rw [List.length_take, List.length_drop] at long
    omega
  have shorter := after.length_le
  rw [List.length_append] at shorter
  have continued := after.getElem (i := xs.length) (by rw [List.length_append]; omega)
  rw [List.getElem_append_right (Nat.le_refl _)] at continued
  simp only [List.getElem_take, List.getElem_drop, Nat.sub_self, Nat.add_zero] at continued
  exact distinct.getElem_inj_iff.mp continued

theorem endpoints_served {s t : Player} {tracks : List YTIWatchEndpoint} {d : Delivery} {k m : Nat}
    (served : d.page = numbered ((tracks.drop k).take m))
    (stored : storeRenderers s.count s.endpoints d.page = some t.endpoints) :
    t.endpoints.map unnumbered =
      s.endpoints.map unnumbered ++ ((tracks.map unnumbered).drop k).take m := by
  rw [served, storeRenderers_numbered, Option.some.injEq] at stored
  rw [← stored, List.map_append, unnumbered_numbered, List.map_take, List.map_drop]

theorem PrefixOf.step {tracks : List YTIWatchEndpoint} {s : Player} {a : Action}
    (before : s.PrefixOf tracks) (served : s.ServedFrom tracks a) (inTurn : s.InTurn a) :
    (s.step a).state.PrefixOf tracks := by
  unfold PrefixOf at before ⊢
  cases step_listing s a with
  | kept _ endpoints _ _ =>
      rw [endpoints]
      exact before
  | cleared playlist selects _ _ =>
      rw [selects] at served
      cases served.2
  | stored d delivery stored _ _ =>
      have page := served.1 d delivery
      by_cases empty : d.page = []
      · rw [empty, storeRenderers_nil rfl, Option.some.injEq] at stored
        rw [← stored]
        exact before
      · rw [endpoints_served page stored]
        exact append_slice_prefix before (by rw [inTurn d delivery empty, List.length_map, count_eq])

/-- A page out of turn breaks the list at once, unless the playlist repeats a track. -/
theorem not_prefixOf_step {tracks : List YTIWatchEndpoint} {s : Player} {a : Action}
    (distinct : (tracks.map unnumbered).Nodup) (served : s.ServedFrom tracks a)
    (outOfTurn : ¬ s.InTurn a) : ¬ (s.step a).state.PrefixOf tracks := by
  intro after
  apply outOfTurn
  intro d delivery nonempty
  have page := served.1 d delivery
  cases step_listing s a with
  | kept outOfRange _ _ _ =>
      have fits := outOfRange d delivery
      rw [page, storeRenderers_numbered] at fits
      cases fits
  | cleared playlist selects _ _ =>
      rw [selects] at delivery
      cases delivery
  | stored d' delivery' stored _ _ =>
      rw [delivery] at delivery'
      cases delivery'
      unfold PrefixOf at after
      rw [endpoints_served page stored] at after
      have slice : ((tracks.map unnumbered).drop d.request.message.playlistIndex).take d.page.length ≠ [] := by
        rw [← List.map_drop, ← List.map_take, ← unnumbered_numbered, ← page]
        exact fun none_left => nonempty (List.map_eq_nil_iff.mp none_left)
      rw [inTurn_of_append_slice distinct slice after, List.length_map, count_eq]

/-- The manager just after a playlist was selected. -/
def selected (s : Player) (playlist : YTIWatchPlaylistEndpoint) : Player :=
  (s.setPlaylist (some playlist)).state

theorem selected_prefixOf (s : Player) (playlist : YTIWatchPlaylistEndpoint)
    (tracks : List YTIWatchEndpoint) : (s.selected playlist).PrefixOf tracks := by
  have move := setTarget_navigated (s.emptied playlist) 0
  have endpoints : (s.selected playlist).endpoints = [] := move.endpoints
  unfold PrefixOf
  rw [endpoints]
  exact List.nil_prefix

/-- Within one playlist, served by slices of its track list, the list is a prefix of the tracks
at all times when every page that is not empty comes in turn. When no track repeats, it is so
only then. -/
theorem prefixOf_tracks (s : Player) (playlist : YTIWatchPlaylistEndpoint)
    (tracks : List YTIWatchEndpoint) (actions : List Action)
    (served : Along step (ServedFrom tracks) (s.selected playlist) actions) :
    (Along step InTurn (s.selected playlist) actions →
      Always step (PrefixOf tracks) (s.selected playlist) actions) ∧
    ((tracks.map unnumbered).Nodup →
      (Always step (PrefixOf tracks) (s.selected playlist) actions ↔
        Along step InTurn (s.selected playlist) actions)) := by
  have start := s.selected_prefixOf playlist tracks
  constructor
  · intro inTurn
    exact Runs.always_of_along (fun _ _ before both => before.step both.1 both.2)
      (fun _ before => before) start (served.and inTurn)
  · intro distinct
    exact Runs.always_iff_along (fun _ _ before serves inTurn => before.step serves inTurn)
      (fun _ before => before) (fun _ _ _ serves outOfTurn => not_prefixOf_step distinct serves outOfTurn)
      start served

def fourTracks : List YTIWatchEndpoint := tracks [11, 12, 13, 14]

/-- One extension request, answered before the next move. -/
theorem oneExtension_prefix :
    Always step (PrefixOf fourTracks) ((init 0 .video).selected ⟨[1], [], 0⟩)
      [.watchReply 0 (.message (numbered (tracks [11, 12, 13]))), .next,
        .watchReply 0 (.message (numbered (tracks [14]))), .next] :=
  (prefixOf_tracks (init 0 .video) ⟨[1], [], 0⟩ fourTracks _ (by decide)).1 (by decide)

/-- Two extension requests for index 3 are on their way together; the track is stored twice. -/
def twoExtensionsRun : List Action :=
  [.watchReply 0 (.message (numbered (tracks [11, 12, 13]))), .next, .previous,
    .watchReply 0 (.message (numbered (tracks [14]))),
    .watchReply 0 (.message (numbered (tracks [14])))]

theorem twoExtensions_repeat :
    Along step (ServedFrom fourTracks) ((init 0 .video).selected ⟨[1], [], 0⟩) twoExtensionsRun ∧
      ¬ (run ((init 0 .video).selected ⟨[1], [], 0⟩) twoExtensionsRun).state.PrefixOf fourTracks := by
  decide

end Player
end LeptosMusic
