import Mathlib.Data.List.Basic
import Mathlib.Order.Lattice

/-!
# Dictionaries as lists sorted by key

The elements carry their own keys. A sorted list is determined by its lookups, so equations
between dictionaries are proved key by key.
-/
namespace KeyedLists

variable {α κ : Type*}

/-- `f` gives an element with the key `k`. -/
def Gives (key : α → κ) (k : κ) (f : Option α → α) : Prop :=
  ∀ o, (∀ x, o = some x → key x = k) → key (f o) = k

theorem Gives.none {key : α → κ} {k : κ} {f : Option α → α} (gives : Gives key k f) :
    key (f none) = k := gives _ fun _ absurd => by cases absurd

theorem Gives.some {key : α → κ} {k : κ} {f : Option α → α} {x : α} (gives : Gives key k f)
    (same : key x = k) : key (f (some x)) = k := gives _ fun _ here => by cases here; exact same

variable [LinearOrder κ] (key : α → κ)

def Sorted (xs : List α) : Prop := xs.Pairwise fun x y => key x < key y

def lookup (k : κ) : List α → Option α
  | [] => none
  | x :: xs => if key x = k then some x else lookup k xs

/-- Replaces what is stored under `k`, if anything is. -/
def alter (k : κ) (f : Option α → α) : List α → List α
  | [] => [f none]
  | x :: xs =>
      if k < key x then f none :: x :: xs
      else if k = key x then f (some x) :: xs
      else x :: alter k f xs

variable {key} {k k' : κ} {f g : Option α → α} {xs ys : List α} {x : α}

theorem key_of_lookup (found : lookup key k xs = some x) : key x = k := by
  induction xs with
  | nil => cases found
  | cons y ys ih =>
      rw [lookup] at found
      split_ifs at found with here
      · cases found
        exact here
      · exact ih found

theorem mem_of_lookup (found : lookup key k xs = some x) : x ∈ xs := by
  induction xs with
  | nil => cases found
  | cons y ys ih =>
      rw [lookup] at found
      split_ifs at found with here
      · cases found
        exact List.mem_cons_self
      · exact List.mem_cons_of_mem y (ih found)

theorem lookup_eq_none_iff : lookup key k xs = none ↔ ∀ x ∈ xs, key x ≠ k := by
  induction xs with
  | nil => simp [lookup]
  | cons x xs ih =>
      rw [lookup]
      split_ifs with here
      · simp [here]
      · simp [here, ih]

/-- Of distinct keys, each finds the element that has it. -/
theorem lookup_eq_some_iff (distinct : xs.Pairwise fun x y => key x ≠ key y) :
    lookup key k xs = some x ↔ x ∈ xs ∧ key x = k := by
  constructor
  · exact fun found => ⟨mem_of_lookup found, key_of_lookup found⟩
  · rintro ⟨member, rfl⟩
    induction xs with
    | nil => cases member
    | cons y ys ih =>
        rw [List.pairwise_cons] at distinct
        rcases List.mem_cons.mp member with rfl | later
        · exact if_pos rfl
        · rw [lookup, if_neg (distinct.1 x later)]
          exact ih distinct.2 later

theorem lookup_perm (same : xs.Perm ys) (distinct : xs.Pairwise fun x y => key x ≠ key y) (k : κ) :
    lookup key k xs = lookup key k ys := by
  have distinct' := same.pairwise distinct fun other => other.symm
  ext x
  rw [lookup_eq_some_iff distinct, lookup_eq_some_iff distinct', same.mem_iff]

theorem mem_alter (member : x ∈ alter key k f xs) :
    x = f none ∨ (∃ y ∈ xs, key y = k ∧ x = f (some y)) ∨ x ∈ xs := by
  induction xs with
  | nil => exact .inl (List.mem_singleton.mp member)
  | cons y ys ih =>
      rw [alter] at member
      split_ifs at member with before here
      · exact (List.mem_cons.mp member).imp id .inr
      · rcases List.mem_cons.mp member with changed | old
        · exact .inr (.inl ⟨y, List.mem_cons_self, here.symm, changed⟩)
        · exact .inr (.inr (List.mem_cons_of_mem y old))
      · rcases List.mem_cons.mp member with rfl | later
        · exact .inr (.inr List.mem_cons_self)
        · rcases ih later with new | ⟨z, old, keyed, changed⟩ | old
          · exact .inl new
          · exact .inr (.inl ⟨z, List.mem_cons_of_mem y old, keyed, changed⟩)
          · exact .inr (.inr (List.mem_cons_of_mem y old))

theorem key_of_mem_alter (gives : Gives key k f) (member : x ∈ alter key k f xs) :
    key x = k ∨ x ∈ xs := by
  rcases mem_alter member with rfl | ⟨y, _, keyed, rfl⟩ | old
  · exact .inl gives.none
  · exact .inl (gives.some keyed)
  · exact .inr old

theorem sorted_alter (gives : Gives key k f) (sorted : Sorted key xs) :
    Sorted key (alter key k f xs) := by
  induction xs with
  | nil => exact List.pairwise_singleton _ _
  | cons y ys ih =>
      have parts := List.pairwise_cons.mp sorted
      rw [alter]
      split_ifs with before here
      · refine List.pairwise_cons.mpr ⟨?_, sorted⟩
        intro z member
        rw [gives.none]
        rcases List.mem_cons.mp member with rfl | later
        · exact before
        · exact lt_trans before (parts.1 z later)
      · refine List.pairwise_cons.mpr ⟨?_, parts.2⟩
        intro z later
        rw [gives.some here.symm, here]
        exact parts.1 z later
      · refine List.pairwise_cons.mpr ⟨?_, ih parts.2⟩
        intro z member
        rcases key_of_mem_alter gives member with same | later
        · rw [same]
          exact lt_of_le_of_ne (not_lt.mp before) (Ne.symm here)
        · exact parts.1 z later

theorem lookup_alter_same (gives : Gives key k f) (sorted : Sorted key xs) :
    lookup key k (alter key k f xs) = some (f (lookup key k xs)) := by
  induction xs with
  | nil => exact if_pos gives.none
  | cons y ys ih =>
      have parts := List.pairwise_cons.mp sorted
      rw [alter]
      split_ifs with before here
      · have absent : lookup key k (y :: ys) = none := by
          refine lookup_eq_none_iff.mpr ?_
          intro z member
          rcases List.mem_cons.mp member with rfl | later
          · exact ne_of_gt before
          · exact ne_of_gt (lt_trans before (parts.1 z later))
        rw [absent]
        exact if_pos gives.none
      · have found : lookup key k (y :: ys) = some y := if_pos here.symm
        rw [found]
        exact if_pos (gives.some here.symm)
      · rw [lookup, if_neg (Ne.symm here), ih parts.2, lookup, if_neg (Ne.symm here)]

theorem lookup_alter_other (gives : Gives key k f) (other : k' ≠ k) :
    lookup key k' (alter key k f xs) = lookup key k' xs := by
  have new : key (f none) ≠ k' := by
    rw [gives.none]
    exact other.symm
  induction xs with
  | nil => exact if_neg new
  | cons y ys ih =>
      rw [alter]
      split_ifs with before here
      · exact if_neg new
      · rw [lookup, lookup, if_neg, if_neg]
        · rw [← here]
          exact other.symm
        · rw [gives.some here.symm]
          exact other.symm
      · rw [lookup, lookup, ih]

/-- Sorted lists with the same lookups are the same. -/
theorem ext_lookup (sorted : Sorted key xs) (sorted' : Sorted key ys)
    (same : ∀ k, lookup key k xs = lookup key k ys) : xs = ys := by
  induction xs generalizing ys with
  | nil =>
      cases ys with
      | nil => rfl
      | cons y ys =>
          have here := same (key y)
          rw [lookup, lookup, if_pos rfl] at here
          cases here
  | cons x xs ih =>
      cases ys with
      | nil =>
          have here := same (key x)
          rw [lookup, lookup, if_pos rfl] at here
          cases here
      | cons y ys =>
          have parts := List.pairwise_cons.mp sorted
          have parts' := List.pairwise_cons.mp sorted'
          -- each head is found in the other list, so neither key is the larger one
          have inYs := mem_of_lookup ((same (key x)).symm.trans (if_pos rfl))
          have inXs := mem_of_lookup ((same (key y)).trans (if_pos rfl))
          have heads : x = y := by
            rcases List.mem_cons.mp inYs with same | later
            · exact same
            · rcases List.mem_cons.mp inXs with same | later'
              · exact same.symm
              · exact absurd (parts.1 y later') (lt_asymm (parts'.1 x later))
          subst heads
          congr 1
          refine ih parts.2 parts'.2 ?_
          intro k
          by_cases here : key x = k
          · subst here
            rw [lookup_eq_none_iff.mpr fun z later => ne_of_gt (parts.1 z later),
              lookup_eq_none_iff.mpr fun z later => ne_of_gt (parts'.1 z later)]
          · have later := same k
            rwa [lookup, lookup, if_neg here, if_neg here] at later

theorem alter_alter_same (gives : Gives key k f) (gives' : Gives key k g)
    (sorted : Sorted key xs) :
    alter key k g (alter key k f xs) = alter key k (fun o => g (some (f o))) xs := by
  have both : Gives key k fun o => g (some (f o)) := fun o keyed => gives'.some (gives o keyed)
  have once := sorted_alter gives sorted
  apply ext_lookup (sorted_alter gives' once) (sorted_alter both sorted)
  intro k'
  by_cases same : k' = k
  · subst same
    rw [lookup_alter_same gives' once, lookup_alter_same gives sorted, lookup_alter_same both sorted]
  · rw [lookup_alter_other gives' same, lookup_alter_other gives same, lookup_alter_other both same]

variable (key)

/-- Every element of `ys` is combined with what `xs` has under its key. -/
def merge (combine : Option α → α → α) (xs ys : List α) : List α :=
  ys.foldl (fun zs y => alter key (key y) (combine · y) zs) xs

variable {key} {combine : Option α → α → α}

/-- `combine` keeps the key. -/
def Combines (key : α → κ) (combine : Option α → α → α) : Prop :=
  ∀ y, Gives key (key y) (combine · y)

theorem sorted_merge (combines : Combines key combine) (sorted : Sorted key xs) :
    Sorted key (merge key combine xs ys) := by
  induction ys generalizing xs with
  | nil => exact sorted
  | cons y ys ih => exact ih (sorted_alter (combines y) sorted)

/-- The keys of `ys` are distinct, whatever their order. -/
theorem lookup_merge (combines : Combines key combine) (sorted : Sorted key xs)
    (distinct : ys.Pairwise fun x y => key x ≠ key y) (k : κ) :
    lookup key k (merge key combine xs ys) = match lookup key k ys with
      | none => lookup key k xs
      | some y => some (combine (lookup key k xs) y) := by
  induction ys generalizing xs with
  | nil => rfl
  | cons y ys ih =>
      have parts := List.pairwise_cons.mp distinct
      have step := ih (sorted_alter (combines y) sorted) parts.2
      change lookup key k (merge key combine (alter key (key y) (combine · y) xs) ys) = _
      rw [step, lookup]
      by_cases here : key y = k
      · subst here
        rw [lookup_eq_none_iff.mpr fun z later => (parts.1 z later).symm, if_pos rfl]
        exact lookup_alter_same (combines y) sorted
      · rw [if_neg here, lookup_alter_other (combines y) (Ne.symm here)]

theorem Sorted.distinct (sorted : Sorted key xs) : xs.Pairwise fun x y => key x ≠ key y :=
  sorted.imp fun less => ne_of_lt less

/-- A merge does not depend on the order in which the other elements are visited. -/
theorem merge_perm {ys' : List α} (combines : Combines key combine) (sorted : Sorted key xs)
    (distinct : ys.Pairwise fun x y => key x ≠ key y) (same : ys.Perm ys') :
    merge key combine xs ys = merge key combine xs ys' := by
  have distinct' := same.pairwise distinct fun other => other.symm
  apply ext_lookup (sorted_merge combines sorted) (sorted_merge combines sorted)
  intro k
  rw [lookup_merge combines sorted distinct, lookup_merge combines sorted distinct',
    lookup_perm same distinct]

end KeyedLists
