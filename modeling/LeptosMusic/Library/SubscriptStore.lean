import Mathlib.Data.List.Basic
import Mathlib.Data.List.Infix

/-!
# Growing an array by subscript assignment

`store` is `array[i] = x` on a growable array: below the length it replaces, at the
length it appends, above it it is out of range. `storeAll` stores a sequence of elements,
each at its own key plus a fixed offset. When the offset is the length that the array had
at the start, nothing that was there is touched, and the key of a stored element says how
far behind the old elements it stands.
-/
namespace SubscriptStore

variable {α : Type*}

def store (xs : List α) (i : Nat) (x : α) : Option (List α) :=
  if i < xs.length then some (xs.set i x)
  else if i = xs.length then some (xs ++ [x])
  else none

def storeAll (key : α → Nat) (offset : Nat) : List α → List α → Option (List α)
  | xs, [] => some xs
  | xs, y :: ys => (store xs (key y + offset) y).bind fun zs => storeAll key offset zs ys

/-- The elements behind the old ones stand where their keys say. -/
structure Placed (key : α → Nat) (old xs : List α) : Prop where
  kept : old <+: xs
  placed : ∀ p x, old.length ≤ p → xs[p]? = some x → key x + old.length = p

theorem Placed.refl (key : α → Nat) (old : List α) : Placed key old old := by
  refine ⟨List.prefix_rfl, ?_⟩
  intro p x behind found
  rw [List.getElem?_eq_none behind] at found
  cases found

theorem store_isSome_iff {xs : List α} {i : Nat} {x : α} :
    (store xs i x).isSome ↔ i ≤ xs.length := by
  unfold store
  split_ifs with inside atEnd
  · exact iff_of_true rfl (Nat.le_of_lt inside)
  · exact iff_of_true rfl (Nat.le_of_eq atEnd)
  · exact iff_of_false nofun (by omega)

theorem store_length {xs zs : List α} {i : Nat} {x : α} (stored : store xs i x = some zs) :
    zs.length = max xs.length (i + 1) := by
  unfold store at stored
  split_ifs at stored with inside atEnd
  · cases stored
    rw [List.length_set]
    omega
  · cases stored
    rw [List.length_append, List.length_singleton]
    omega

theorem store_length_le {xs zs : List α} {i : Nat} {x : α} (h : store xs i x = some zs) :
    xs.length ≤ zs.length := by
  rw [store_length h]
  exact Nat.le_max_left _ _

theorem lt_store_length {xs zs : List α} {i : Nat} {x : α} (h : store xs i x = some zs) :
    i < zs.length := by
  rw [store_length h]
  exact Nat.le_max_right _ _

theorem mem_of_mem_store {xs zs : List α} {i : Nat} {x z : α} (h : store xs i x = some zs)
    (hz : z ∈ zs) : z ∈ xs ∨ z = x := by
  unfold store at h
  split_ifs at h
  · cases h; exact List.mem_or_eq_of_mem_set hz
  · cases h; simpa using hz

theorem Placed.store {key : α → Nat} {old xs zs : List α} {y : α} (h : Placed key old xs)
    (stored : SubscriptStore.store xs (key y + old.length) y = some zs) : Placed key old zs := by
  have long := h.kept.length_le
  unfold SubscriptStore.store at stored
  split_ifs at stored with inside atEnd
  · cases stored
    constructor
    · have cut := List.prefix_iff_eq_take.mp h.kept
      rw [List.prefix_iff_eq_take, List.take_set_of_le (by omega)]
      exact cut
    · intro p x behind found
      by_cases here : key y + old.length = p
      · subst here
        rw [List.getElem?_set_self inside] at found
        cases found
        rfl
      · rw [List.getElem?_set_ne here] at found
        exact h.placed p x behind found
  · cases stored
    constructor
    · exact h.kept.trans (List.prefix_append xs [y])
    · intro p x behind found
      rcases Nat.lt_or_ge p xs.length with inside' | outside
      · rw [List.getElem?_append_left inside'] at found
        exact h.placed p x behind found
      · rw [List.getElem?_append_right outside] at found
        obtain ⟨one, rfl⟩ := List.getElem?_eq_some_iff.mp found
        simp only [List.length_singleton] at one
        simp only [show p - xs.length = 0 by omega, List.getElem_cons_zero]
        omega

theorem Placed.storeAll {key : α → Nat} {old xs ys zs : List α} (h : Placed key old xs)
    (stored : SubscriptStore.storeAll key old.length xs ys = some zs) : Placed key old zs := by
  induction ys generalizing xs with
  | nil => cases stored; exact h
  | cons y ys ih =>
      obtain ⟨ws, first, rest⟩ := Option.bind_eq_some_iff.mp stored
      exact ih (h.store first) rest

theorem storeAll_placed {key : α → Nat} {old ys zs : List α}
    (stored : storeAll key old.length old ys = some zs) : Placed key old zs :=
  (Placed.refl key old).storeAll stored

theorem storeAll_length_le {key : α → Nat} {offset : Nat} {xs ys zs : List α}
    (stored : storeAll key offset xs ys = some zs) : xs.length ≤ zs.length := by
  induction ys generalizing xs with
  | nil => cases stored; exact Nat.le_refl _
  | cons y ys ih =>
      obtain ⟨ws, first, rest⟩ := Option.bind_eq_some_iff.mp stored
      exact (store_length_le first).trans (ih rest)

/-- Storing at least one element makes the array longer than the offset. -/
theorem lt_storeAll_length {key : α → Nat} {offset : Nat} {xs ys zs : List α}
    (nonempty : ys ≠ []) (stored : storeAll key offset xs ys = some zs) : offset < zs.length := by
  cases ys with
  | nil => exact absurd rfl nonempty
  | cons y ys =>
      obtain ⟨ws, first, rest⟩ := Option.bind_eq_some_iff.mp stored
      have := lt_store_length first
      have := storeAll_length_le rest
      omega

theorem mem_of_mem_storeAll {key : α → Nat} {offset : Nat} {xs ys zs : List α} {z : α}
    (stored : storeAll key offset xs ys = some zs) (hz : z ∈ zs) : z ∈ xs ∨ z ∈ ys := by
  induction ys generalizing xs with
  | nil => cases stored; exact .inl hz
  | cons y ys ih =>
      obtain ⟨ws, first, rest⟩ := Option.bind_eq_some_iff.mp stored
      rcases ih rest with earlier | later
      · rcases mem_of_mem_store first earlier with old | rfl
        · exact .inl old
        · exact .inr List.mem_cons_self
      · exact .inr (List.mem_cons_of_mem y later)

/-- Keys that count up from the end of the array append. -/
theorem storeAll_append {key : α → Nat} {offset start : Nat} {xs ys : List α}
    (counted : ys.map key = List.range' start ys.length) (atEnd : start + offset = xs.length) :
    storeAll key offset xs ys = some (xs ++ ys) := by
  induction ys generalizing xs start with
  | nil => simp [storeAll]
  | cons y ys ih =>
      rw [List.map_cons, List.length_cons, List.range'_succ, List.cons.injEq] at counted
      obtain ⟨here, counted⟩ := counted
      have first : store xs (key y + offset) y = some (xs ++ [y]) := by
        simp [store, here, atEnd]
      rw [storeAll, first, Option.bind_some, ih counted]
      · simp
      · simp only [List.length_append, List.length_singleton]
        omega

/-- A first key beyond the end is out of range. -/
theorem storeAll_beyond {key : α → Nat} {offset : Nat} {xs ys : List α} {y : α}
    (beyond : xs.length < key y + offset) : storeAll key offset xs (y :: ys) = none := by
  have first : store xs (key y + offset) y = none := by
    unfold store
    rw [if_neg (by omega), if_neg (by omega)]
  rw [storeAll, first, Option.bind_none]

theorem key_lt_storeAll_length {key : α → Nat} {offset : Nat} {xs ys zs : List α} {y : α}
    (stored : storeAll key offset xs ys = some zs) (member : y ∈ ys) :
    key y + offset < zs.length := by
  induction ys generalizing xs with
  | nil => cases member
  | cons w ys ih =>
      obtain ⟨ws, first, rest⟩ := Option.bind_eq_some_iff.mp stored
      rcases List.mem_cons.mp member with rfl | later
      · exact Nat.lt_of_lt_of_le (lt_store_length first) (storeAll_length_le rest)
      · exact ih rest later

theorem store_length_le_succ {xs zs : List α} {i : Nat} {x : α} (h : store xs i x = some zs) :
    zs.length ≤ xs.length + 1 := by
  have inside : i ≤ xs.length := store_isSome_iff.mp (Option.isSome_of_eq_some h)
  rw [store_length h]
  omega

theorem storeAll_length_le_add {key : α → Nat} {offset : Nat} {xs ys zs : List α}
    (stored : storeAll key offset xs ys = some zs) : zs.length ≤ xs.length + ys.length := by
  induction ys generalizing xs with
  | nil => cases stored; exact Nat.le_refl _
  | cons y ys ih =>
      obtain ⟨ws, first, rest⟩ := Option.bind_eq_some_iff.mp stored
      have one := store_length_le_succ first
      have others := ih rest
      rw [List.length_cons]
      omega

/-- Keys `0 … m-1`, in any order that stays in range, add `m` elements. -/
theorem storeAll_length {key : α → Nat} {xs ys zs : List α}
    (keys : (ys.map key).Perm (List.range ys.length))
    (stored : storeAll key xs.length xs ys = some zs) : zs.length = xs.length + ys.length := by
  have upper := storeAll_length_le_add stored
  cases ys with
  | nil => cases stored; rfl
  | cons y rest =>
      have last : rest.length ∈ (y :: rest).map key :=
        keys.mem_iff.mpr (List.mem_range.mpr (by simp))
      obtain ⟨z, member, key_z⟩ := List.mem_map.mp last
      have lower := key_lt_storeAll_length stored member
      rw [List.length_cons] at upper ⊢
      omega

theorem store_getElem? {xs zs : List α} {i : Nat} {x : α} (stored : store xs i x = some zs)
    (p : Nat) : zs[p]? = if i = p then some x else xs[p]? := by
  unfold store at stored
  split_ifs at stored with inside atEnd
  · cases stored
    split_ifs with here
    · subst here
      exact List.getElem?_set_self inside
    · exact List.getElem?_set_ne here
  · cases stored
    subst atEnd
    split_ifs with here
    · subst here
      exact List.getElem?_concat_length
    · rcases Nat.lt_or_ge p xs.length with before | behind
      · exact List.getElem?_append_left before
      · rw [List.getElem?_append_right behind, List.getElem?_eq_none behind,
          List.getElem?_eq_none (by rw [List.length_singleton]; omega)]

/-- At every place stands the element that was stored there last, or the old one. -/
theorem storeAll_getElem? {key : α → Nat} {offset : Nat} {xs ys zs : List α}
    (stored : storeAll key offset xs ys = some zs) (p : Nat) :
    zs[p]? = (ys.reverse.find? fun y => key y + offset == p).or xs[p]? := by
  induction ys generalizing xs with
  | nil => cases stored; rfl
  | cons y ys ih =>
      obtain ⟨ws, first, rest⟩ := Option.bind_eq_some_iff.mp stored
      rw [ih rest, store_getElem? first, List.reverse_cons, List.find?_append, Option.or_assoc]
      congr 1
      by_cases here : key y + offset = p
      · simp [here]
      · simp [here]

/-- Each key is at most one beyond the `n` places filled so far. -/
def FillsUp : Nat → List Nat → Prop
  | _, [] => True
  | n, key :: keys => key ≤ n ∧ FillsUp (max n (key + 1)) keys

instance decidableFillsUp : (n : Nat) → (keys : List Nat) → Decidable (FillsUp n keys)
  | _, [] => inferInstanceAs (Decidable True)
  | n, key :: keys =>
      haveI := decidableFillsUp (max n (key + 1)) keys
      inferInstanceAs (Decidable (key ≤ n ∧ FillsUp (max n (key + 1)) keys))

/-- How many places the keys fill, the first `n` being filled already. -/
def filled (n : Nat) (keys : List Nat) : Nat := keys.foldl (fun n key => max n (key + 1)) n

theorem length_store_offset {key : α → Nat} {offset n : Nat} {xs ws : List α} {y : α}
    (length : xs.length = n + offset) (stored : store xs (key y + offset) y = some ws) :
    ws.length = max n (key y + 1) + offset := by
  rw [store_length stored, length]
  omega

theorem storeAll_length_eq {key : α → Nat} {offset n : Nat} {xs ys zs : List α}
    (length : xs.length = n + offset) (stored : storeAll key offset xs ys = some zs) :
    zs.length = filled n (ys.map key) + offset := by
  induction ys generalizing xs n with
  | nil => cases stored; exact length
  | cons y ys ih =>
      obtain ⟨ws, first, rest⟩ := Option.bind_eq_some_iff.mp stored
      exact ih (length_store_offset length first) rest

/-- Elements can be stored in an order that fills the array up, and in no other. -/
theorem storeAll_isSome_iff {key : α → Nat} {offset n : Nat} {xs ys : List α}
    (length : xs.length = n + offset) :
    (storeAll key offset xs ys).isSome ↔ FillsUp n (ys.map key) := by
  induction ys generalizing xs n with
  | nil => exact iff_of_true rfl trivial
  | cons y ys ih =>
      rw [List.map_cons, FillsUp, storeAll]
      cases first : store xs (key y + offset) y with
      | none =>
          have beyond : ¬ key y + offset ≤ xs.length := by
            rw [← store_isSome_iff (x := y), first]
            exact nofun
          exact iff_of_false nofun fun fills => beyond (by omega)
      | some ws =>
          have inside : key y + offset ≤ xs.length := by
            rw [← store_isSome_iff (x := y), first]
            rfl
          rw [Option.bind_some, ih (length_store_offset length first)]
          exact ⟨fun fills => ⟨by omega, fills⟩, fun fills => fills.2⟩

end SubscriptStore
