import Mathlib.Data.List.Basic
import Mathlib.Logic.Function.Basic

/-!
# Weighing lists of work

The items of a list each count for something: the steps that a thread still has to take, the
messages on their way. Work has owners. What a list weighs for one of them is the sum over its
items, and taking an item off the list, or putting others in its place, changes the sum by what
these weigh.
-/
namespace Weights

variable {α β : Type*}

def weigh (weight : α → Nat) : List α → Nat
  | [] => 0
  | item :: items => weight item + weigh weight items

@[simp] theorem weigh_nil (weight : α → Nat) : weigh weight [] = 0 := rfl

@[simp] theorem weigh_cons (weight : α → Nat) (item : α) (items : List α) :
    weigh weight (item :: items) = weight item + weigh weight items := rfl

@[simp] theorem weigh_append (weight : α → Nat) (front back : List α) :
    weigh weight (front ++ back) = weigh weight front + weigh weight back := by
  induction front with
  | nil => exact (Nat.zero_add _).symm
  | cons item front ih => rw [List.cons_append, weigh_cons, weigh_cons, ih, Nat.add_assoc]

theorem weigh_map (weight : β → Nat) (f : α → β) (items : List α) :
    weigh weight (items.map f) = weigh (fun item => weight (f item)) items := by
  induction items with
  | nil => rfl
  | cons item items ih => rw [List.map_cons, weigh_cons, weigh_cons, ih]

theorem weigh_zero (items : List α) : weigh (fun _ => 0) items = 0 := by
  induction items with
  | nil => rfl
  | cons item items ih => rw [weigh_cons, ih]

theorem weigh_eraseIdx (weight : α → Nat) {items : List α} {n : Nat} {item : α}
    (found : items[n]? = some item) :
    weigh weight items = weigh weight (items.eraseIdx n) + weight item := by
  induction items generalizing n with
  | nil => cases found
  | cons first items ih =>
      cases n with
      | zero =>
          cases found
          exact Nat.add_comm _ _
      | succ n =>
          rw [List.eraseIdx_cons_succ, weigh_cons, weigh_cons, ih found, Nat.add_assoc]

/-- Different items that are all in another list weigh no more than it does. -/
theorem weigh_le_of_subset (weight : α → Nat) {items others : List α} (different : items.Nodup)
    (inside : items ⊆ others) : weigh weight items ≤ weigh weight others := by
  induction items generalizing others with
  | nil => exact Nat.zero_le _
  | cons item items ih =>
      obtain ⟨absent, different⟩ := List.nodup_cons.mp different
      obtain ⟨front, back, rfl⟩ := List.append_of_mem (inside List.mem_cons_self)
      have rest : items ⊆ front ++ back := by
        intro other member
        have here := inside (List.mem_cons_of_mem item member)
        have not_item : other ≠ item := fun same => absent (same ▸ member)
        simpa [not_item] using here
      have below := ih different rest
      rw [weigh_append] at below
      rw [weigh_cons, weigh_append, weigh_cons]
      omega

theorem weight_le_of_mem (weight : α → Nat) {item : α} {items : List α} (member : item ∈ items) :
    weight item ≤ weigh weight items := by
  obtain ⟨front, back, rfl⟩ := List.append_of_mem member
  rw [weigh_append, weigh_cons]
  omega

theorem weigh_flatMap (weight : β → Nat) (f : α → List β) (items : List α) :
    weigh weight (items.flatMap f) = weigh (fun item => weigh weight (f item)) items := by
  induction items with
  | nil => rfl
  | cons item items ih => rw [List.flatMap_cons, weigh_append, weigh_cons, ih]

/-- When no item weighs more than before and all of them together weigh no less, each weighs the
same. -/
theorem weigh_same {weight weight' : α → Nat} {items : List α}
    (lighter : ∀ item ∈ items, weight item ≤ weight' item)
    (total : weigh weight' items ≤ weigh weight items) :
    ∀ item ∈ items, weight item = weight' item := by
  have below : ∀ others : List α, (∀ item ∈ others, weight item ≤ weight' item) →
      weigh weight others ≤ weigh weight' others := by
    intro others
    induction others with
    | nil => exact fun _ => Nat.le_refl _
    | cons item others ih =>
        intro lighter
        have here := lighter item List.mem_cons_self
        have rest := ih fun other member => lighter other (List.mem_cons_of_mem item member)
        rw [weigh_cons, weigh_cons]
        omega
  induction items with
  | nil => exact fun item member => absurd member List.not_mem_nil
  | cons first items ih =>
      have here := lighter first List.mem_cons_self
      have lighterRest : ∀ item ∈ items, weight item ≤ weight' item :=
        fun item member => lighter item (List.mem_cons_of_mem first member)
      have rest := below items lighterRest
      rw [weigh_cons, weigh_cons] at total
      intro item member
      rcases List.mem_cons.mp member with rfl | later
      · omega
      · exact ih lighterRest (by omega) item later

/-- What something of owner `k` that counts `n` counts for owner `i`. -/
def own (k i n : Nat) : Nat := if k = i then n else 0

@[simp] theorem own_self (i n : Nat) : own i i n = n := if_pos rfl

@[simp] theorem own_zero (k i : Nat) : own k i 0 = 0 := by
  unfold own
  split_ifs <;> rfl

theorem own_of_ne {k i : Nat} (other : k ≠ i) (n : Nat) : own k i n = 0 := if_neg other

theorem weigh_own (k i : Nat) (weight : α → Nat) (items : List α) :
    weigh (fun item => own k i (weight item)) items = own k i (weigh weight items) := by
  unfold own
  split_ifs
  · rfl
  · exact weigh_zero items

theorem update_add (count : Nat → Nat) (k n i : Nat) :
    Function.update count k (count k + n) i = count i + own k i n := by
  by_cases same : k = i
  · subst same
    rw [Function.update_self, own_self]
  · rw [Function.update_of_ne (Ne.symm same), own_of_ne same, Nat.add_zero]

theorem length_update_append (lists : Nat → List α) (k : Nat) (item : α) (i : Nat) :
    (Function.update lists k (lists k ++ [item]) i).length = (lists i).length + own k i 1 := by
  by_cases same : k = i
  · subst same
    rw [Function.update_self, own_self, List.length_append]
    rfl
  · rw [Function.update_of_ne (Ne.symm same), own_of_ne same, Nat.add_zero]

/-- Owner `k` takes the first item off its list and puts others in its place. -/
theorem weigh_update (weight : α → Nat) {work : Nat → List α} {k : Nat} {item : α}
    {rest : List α} (front : work k = item :: rest) (next : List α) (i : Nat) :
    weigh weight (Function.update work k (next ++ rest) i) + own k i (weight item) =
      weigh weight (work i) + own k i (weigh weight next) := by
  by_cases same : k = i
  · subst same
    rw [Function.update_self, front, weigh_append, weigh_cons, own_self, own_self]
    omega
  · rw [Function.update_of_ne (Ne.symm same), own_of_ne same, own_of_ne same]

end Weights
