import Mathlib.Data.List.Basic

/-!
# Searching a list in a circle

The search starts anywhere in the list and goes on at its front once it has come to the end. A whole
round finds what a search from the front finds, as long as there is no second element to be found.
-/
namespace CircularSearch

variable {α : Type*}

/-- At most so many elements are tried, from the one at `start` on. Gives the place where the search
has ended, too. -/
def search (isIt : α → Bool) (xs : List α) : Nat → Nat → Nat × Option α
  | 0, start => (start, none)
  | left + 1, start =>
      let start := if start ≥ xs.length then 0 else start
      match xs[start]? with
      | some x => if isIt x then (start, some x) else search isIt xs left (start + 1)
      | none => (start, none)

variable {isIt : α → Bool} {xs : List α} {x : α} {left : Nat}

/-- The place in the circle. -/
def place (xs : List α) (start : Nat) : Nat := if start ≥ xs.length then 0 else start

theorem place_lt (nonempty : 0 < xs.length) (start : Nat) : place xs start < xs.length := by
  rw [place]
  split_ifs <;> omega

theorem place_succ {i : Nat} (inside : i < xs.length) : place xs (i + 1) = (i + 1) % xs.length := by
  rw [place]
  split_ifs with last
  · obtain same : i + 1 = xs.length := by omega
    rw [same, Nat.mod_self]
  · exact (Nat.mod_eq_of_lt (Nat.not_le.mp last)).symm

theorem search_found (start : Nat) (here : xs[place xs start]? = some x) (found : isIt x = true) :
    search isIt xs (left + 1) start = (place xs start, some x) := by
  rw [place] at here ⊢
  rw [search]
  simp only [here, found, if_true]

theorem search_next (start : Nat) (here : xs[place xs start]? = some x) (other : isIt x = false) :
    search isIt xs (left + 1) start = search isIt xs left (place xs start + 1) := by
  rw [place] at here ⊢
  rw [search]
  simp only [here, other, Bool.false_eq_true, if_false]

/-- What is found is in the list. -/
theorem search_sound {start : Nat} (found : (search isIt xs left start).2 = some x) :
    x ∈ xs ∧ isIt x = true := by
  induction left generalizing start with
  | zero => cases found
  | succ left ih =>
      cases here : xs[place xs start]? with
      | none =>
          rw [place] at here
          rw [search] at found
          simp only [here] at found
          cases found
      | some y =>
          cases accepted : isIt y with
          | true =>
              rw [search_found start here accepted] at found
              cases found
              exact ⟨List.mem_of_getElem? here, accepted⟩
          | false =>
              rw [search_next start here accepted] at found
              exact ih found

/-- Where nothing is found, none of the elements that were tried is it. -/
theorem search_none {start : Nat} (nothing : (search isIt xs left start).2 = none) {i : Nat}
    (tried : i < left) (here : xs[(place xs start + i) % xs.length]? = some x) : isIt x = false := by
  induction left generalizing start i with
  | zero => exact absurd tried (Nat.not_lt_zero i)
  | succ left ih =>
      have nonempty : 0 < xs.length := Nat.lt_of_le_of_lt (Nat.zero_le _)
        (List.getElem?_eq_some_iff.mp here).1
      have inside := place_lt nonempty start
      have first : xs[place xs start]? = some xs[place xs start] := List.getElem?_eq_getElem inside
      cases accepted : isIt xs[place xs start] with
      | true =>
          rw [search_found start first accepted] at nothing
          cases nothing
      | false =>
          rw [search_next start first accepted] at nothing
          cases i with
          | zero =>
              rw [Nat.add_zero, Nat.mod_eq_of_lt inside, first] at here
              cases here
              exact accepted
          | succ i =>
              refine ih nothing (Nat.lt_of_succ_lt_succ tried) ?_
              rwa [place_succ inside, Nat.mod_add_mod, Nat.add_right_comm, Nat.add_assoc]

/-- A whole round tries all elements. -/
theorem search_round_none (start : Nat) :
    (search isIt xs xs.length start).2 = none ↔ ∀ x ∈ xs, isIt x = false := by
  constructor
  · intro nothing x member
    obtain ⟨i, inside, rfl⟩ := List.mem_iff_getElem.mp member
    have positive : 0 < xs.length := Nat.lt_of_le_of_lt (Nat.zero_le i) inside
    have before := place_lt positive start
    -- the number of steps that lead from the start to this element
    have steps : (place xs start + (i + xs.length - place xs start) % xs.length) % xs.length = i := by
      rw [Nat.add_mod_mod, Nat.add_sub_cancel' (by omega), Nat.add_mod_right, Nat.mod_eq_of_lt inside]
    have tried := Nat.mod_lt (i + xs.length - place xs start) positive
    refine search_none nothing tried ?_
    rw [steps]
    exact List.getElem?_eq_getElem inside
  · intro none
    cases outcome : (search isIt xs xs.length start).2 with
    | none => rfl
    | some x =>
        obtain ⟨member, found⟩ := search_sound outcome
        rw [none x member] at found
        cases found

/-- Wherever it starts, a round finds the only element there is to be found. -/
theorem search_round_unique (unique : ∀ x ∈ xs, ∀ y ∈ xs, isIt x = true → isIt y = true → x = y)
    (start : Nat) : (search isIt xs xs.length start).2 = xs.find? isIt := by
  cases outcome : (search isIt xs xs.length start).2 with
  | none =>
      refine (List.find?_eq_none.mpr fun x member found => ?_).symm
      rw [(search_round_none start).mp outcome x member] at found
      cases found
  | some x =>
      obtain ⟨member, found⟩ := search_sound outcome
      cases front : xs.find? isIt with
      | none => exact absurd found (List.find?_eq_none.mp front x member)
      | some y =>
          exact congrArg some
            (unique x member y (List.mem_of_find?_eq_some front) found (List.find?_some front))

end CircularSearch
