import Mathlib.Data.List.Basic
import Mathlib.Data.List.Infix

/-!
# Runs of a system whose steps may raise

A step takes a state and an action and either finishes or raises. Raising keeps
the writes made before it and ends the run. `Along` states a condition on every
step of a run (on the state before the step and the action), `Always` a property
of every state that a run passes through. The rules below turn facts about one
step into facts about whole runs.
-/
namespace Runs

universe u v w
variable {ε : Type u} {σ : Type v} {α : Type w}

/-- What a step leaves behind. -/
inductive Outcome (ε : Type u) (σ : Type v) where
  | done (state : σ) : Outcome ε σ
  | raised (error : ε) (state : σ) : Outcome ε σ
  deriving DecidableEq, Repr

namespace Outcome

def state : Outcome ε σ → σ
  | .done s => s
  | .raised _ s => s

def andThen : Outcome ε σ → (σ → Outcome ε σ) → Outcome ε σ
  | .done s, f => f s
  | .raised e s, _ => .raised e s

def map {τ : Type*} (f : σ → τ) : Outcome ε σ → Outcome ε τ
  | .done s => .done (f s)
  | .raised e s => .raised e (f s)

def finished : Outcome ε σ → Bool
  | .done _ => true
  | .raised _ _ => false

@[simp] theorem state_done (s : σ) : (done s : Outcome ε σ).state = s := rfl
@[simp] theorem state_raised (e : ε) (s : σ) : (raised e s).state = s := rfl
@[simp] theorem state_map {τ : Type*} (f : σ → τ) (o : Outcome ε σ) :
    (o.map f).state = f o.state := by
  cases o <;> rfl

@[simp] theorem done_andThen (s : σ) (f : σ → Outcome ε σ) : (done s).andThen f = f s := rfl
@[simp] theorem raised_andThen (e : ε) (s : σ) (f : σ → Outcome ε σ) :
    (raised e s).andThen f = raised e s := rfl

@[simp] theorem andThen_done (o : Outcome ε σ) : (o.andThen fun s => done s) = o := by
  cases o <;> rfl

/-- What both parts of a sequence keep, the sequence keeps. -/
theorem andThen_keeps {I : σ → Prop} {o : Outcome ε σ} {f : σ → Outcome ε σ}
    (first : I o.state) (rest : ∀ s, I s → I (f s).state) : I (o.andThen f).state := by
  cases o with
  | done s => exact rest s first
  | raised e s => exact first

theorem andThen_finished {o : Outcome ε σ} {f : σ → Outcome ε σ}
    (first : o.finished = true) (rest : (f o.state).finished = true) :
    (o.andThen f).finished = true := by
  cases o with
  | done s => exact rest
  | raised e s => exact first

/-- A sequence finishes with its first part when nothing after it can raise. -/
theorem andThen_finished_iff {o : Outcome ε σ} {f : σ → Outcome ε σ}
    (rest : ∀ s, (f s).finished = true) :
    (o.andThen f).finished = true ↔ o.finished = true := by
  cases o with
  | done s => exact iff_of_true (rest s) rfl
  | raised e s => exact Iff.rfl

end Outcome

variable (step : σ → α → Outcome ε σ)

def run : σ → List α → Outcome ε σ
  | s, [] => .done s
  | s, a :: as => (step s a).andThen fun t => run t as

theorem run_append (s : σ) (front back : List α) :
    run step s (front ++ back) = (run step s front).andThen fun t => run step t back := by
  induction front generalizing s with
  | nil => rfl
  | cons a front ih =>
      simp only [List.cons_append, run]
      cases step s a with
      | done t => exact ih t
      | raised e t => rfl

/-- Every step taken from `s` along the actions meets `P`. -/
def Along (P : σ → α → Prop) : σ → List α → Prop
  | _, [] => True
  | s, a :: as => P s a ∧ ∀ t, step s a = .done t → Along P t as

/-- `Q` holds in every state that the run passes through, the last one included. -/
def Always (Q : σ → Prop) (s : σ) (as : List α) : Prop :=
  ∀ front, front <+: as → Q (run step s front).state

@[simp] theorem run_nil (s : σ) : run step s [] = .done s := rfl

theorem run_cons (s : σ) (a : α) (as : List α) :
    run step s (a :: as) = (step s a).andThen fun t => run step t as := rfl

theorem along_true (s : σ) (as : List α) : Along step (fun _ _ => True) s as := by
  induction as generalizing s with
  | nil => trivial
  | cons a as ih => exact ⟨trivial, fun t _ => ih t⟩

instance decidableAlong (P : σ → α → Prop) [∀ s a, Decidable (P s a)] :
    ∀ s as, Decidable (Along step P s as)
  | _, [] => .isTrue trivial
  | s, a :: as =>
      have : Decidable (∀ t, step s a = .done t → Along step P t as) :=
        match taken : step s a with
        | .done t =>
            have := decidableAlong P t as
            decidable_of_iff (Along step P t as)
              ⟨fun h _ same => by cases same; exact h, fun h => h t rfl⟩
        | .raised _ _ => .isTrue (fun _ same => by cases same)
      inferInstanceAs (Decidable (_ ∧ _))

variable {step}

theorem along_of_forall {P : σ → α → Prop} {as : List α} (each : ∀ a ∈ as, ∀ s, P s a) (s : σ) :
    Along step P s as := by
  induction as generalizing s with
  | nil => trivial
  | cons a as ih =>
      exact ⟨each a List.mem_cons_self s, fun t _ => ih (fun b member => each b (.tail a member)) t⟩

theorem Along.mono {P R : σ → α → Prop} (weaker : ∀ s a, P s a → R s a) {s : σ} {as : List α}
    (h : Along step P s as) : Along step R s as := by
  induction as generalizing s with
  | nil => trivial
  | cons a as ih => exact ⟨weaker s a h.1, fun t ht => ih (h.2 t ht)⟩

theorem Along.and {P R : σ → α → Prop} {s : σ} {as : List α}
    (hP : Along step P s as) (hR : Along step R s as) :
    Along step (fun s a => P s a ∧ R s a) s as := by
  induction as generalizing s with
  | nil => trivial
  | cons a as ih => exact ⟨⟨hP.1, hR.1⟩, fun t ht => ih (hP.2 t ht) (hR.2 t ht)⟩

theorem Along.front {P : σ → α → Prop} {s : σ} {front as : List α}
    (h : Along step P s as) (isFront : front <+: as) : Along step P s front := by
  induction front generalizing s as with
  | nil => trivial
  | cons a front ih =>
      obtain ⟨rest, rfl⟩ := isFront
      exact ⟨h.1, fun t ht => ih (h.2 t ht) (List.prefix_append front rest)⟩

/-- The invariant rule: what every admitted step keeps, every admitted run keeps. -/
theorem run_keeps {I : σ → Prop} {P : σ → α → Prop}
    (keeps : ∀ s a, I s → P s a → I (step s a).state) {s : σ} {as : List α}
    (start : I s) (h : Along step P s as) : I (run step s as).state := by
  induction as generalizing s with
  | nil => exact start
  | cons a as ih =>
      have next := keeps s a start h.1
      rw [run_cons]
      cases taken : step s a with
      | done t =>
          rw [taken] at next
          exact ih next (h.2 t taken)
      | raised e t =>
          rw [taken] at next
          exact next

theorem Along.append {P : σ → α → Prop} {s : σ} {front back : List α} (first : Along step P s front)
    (rest : ∀ t, run step s front = .done t → Along step P t back) :
    Along step P s (front ++ back) := by
  induction front generalizing s with
  | nil => exact rest s rfl
  | cons a front ih =>
      refine ⟨first.1, fun t taken => ih (first.2 t taken) fun u finished => rest u ?_⟩
      rw [run_cons, taken]
      exact finished

theorem Always.start {Q : σ → Prop} {s : σ} {as : List α} (h : Always step Q s as) : Q s :=
  h [] List.nil_prefix

theorem Always.last {Q : σ → Prop} {s : σ} {as : List α} (h : Always step Q s as) :
    Q (run step s as).state := h as List.prefix_rfl

theorem Always.step_state {Q : σ → Prop} {s : σ} {a : α} {as : List α}
    (h : Always step Q s (a :: as)) : Q (step s a).state := by
  have first := h [a] (by simp)
  rw [run_cons] at first
  cases taken : step s a with
  | done t => simpa [taken] using first
  | raised e t => simpa [taken] using first

theorem Always.tail {Q : σ → Prop} {s t : σ} {a : α} {as : List α}
    (h : Always step Q s (a :: as)) (taken : step s a = .done t) : Always step Q t as := by
  intro front isFront
  have later := h (a :: front) ((List.prefix_cons_inj a).mpr isFront)
  simpa [run_cons, taken] using later

theorem always_of_along {I Q : σ → Prop} {P : σ → α → Prop}
    (keeps : ∀ s a, I s → P s a → I (step s a).state) (implies : ∀ s, I s → Q s)
    {s : σ} {as : List α} (start : I s) (h : Along step P s as) : Always step Q s as :=
  fun _ isFront => implies _ (run_keeps keeps start (h.front isFront))

/-- Exactness: when admitted steps keep the invariant and a step that is not admitted
breaks the property at once, the property holds throughout exactly on admitted runs.
`E` is what the environment promises of every step. -/
theorem always_iff_along {I Q : σ → Prop} {E P : σ → α → Prop}
    (keeps : ∀ s a, I s → E s a → P s a → I (step s a).state) (implies : ∀ s, I s → Q s)
    (breaks : ∀ s a, I s → E s a → ¬ P s a → ¬ Q (step s a).state)
    {s : σ} {as : List α} (start : I s) (promised : Along step E s as) :
    Always step Q s as ↔ Along step P s as := by
  constructor
  · intro h
    induction as generalizing s with
    | nil => trivial
    | cons a as ih =>
        have admitted : P s a := by
          by_contra bad
          exact breaks s a start promised.1 bad h.step_state
        refine ⟨admitted, fun t taken => ih ?_ (promised.2 t taken) (h.tail taken)⟩
        simpa [taken] using keeps s a start promised.1 admitted
  · intro h
    exact always_of_along (fun s a inv both => keeps s a inv both.1 both.2) implies start
      (promised.and h)

/-- Admitted steps meet what holds of them under the invariant they keep. -/
theorem along_of_along {I : σ → Prop} {P Z : σ → α → Prop}
    (keeps : ∀ s a, I s → P s a → I (step s a).state) (implies : ∀ s a, I s → P s a → Z s a)
    {s : σ} {as : List α} (start : I s) (h : Along step P s as) : Along step Z s as := by
  induction as generalizing s with
  | nil => trivial
  | cons a as ih =>
      refine ⟨implies s a start h.1, fun t taken => ih ?_ (h.2 t taken)⟩
      simpa [taken] using keeps s a start h.1

/-- Exactness for a property of steps. -/
theorem along_iff_along {I : σ → Prop} {E P Z : σ → α → Prop}
    (keeps : ∀ s a, I s → E s a → P s a → I (step s a).state)
    (same : ∀ s a, I s → E s a → (Z s a ↔ P s a))
    {s : σ} {as : List α} (start : I s) (promised : Along step E s as) :
    Along step Z s as ↔ Along step P s as := by
  induction as generalizing s with
  | nil => exact Iff.rfl
  | cons a as ih =>
      have here := same s a start promised.1
      have next (admitted : P s a) (t : σ) (taken : step s a = .done t) :
          Along step Z t as ↔ Along step P t as := by
        refine ih ?_ (promised.2 t taken)
        simpa [taken] using keeps s a start promised.1 admitted
      constructor
      · rintro ⟨first, rest⟩
        have admitted := here.mp first
        exact ⟨admitted, fun t taken => (next admitted t taken).mp (rest t taken)⟩
      · rintro ⟨admitted, rest⟩
        exact ⟨here.mpr admitted, fun t taken => (next admitted t taken).mpr (rest t taken)⟩

variable (step)

/-- `op` takes these steps, in this order. -/
def Performs (op : σ → Outcome ε σ) (as : List α) : Prop := ∀ s, op s = run step s as

variable {step}

theorem performs_nothing : Performs step Outcome.done [] := fun _ => rfl

theorem performs_one (a : α) : Performs step (step · a) [a] :=
  fun s => (Outcome.andThen_done (step s a)).symm

theorem Performs.andThen {f g : σ → Outcome ε σ} {front back : List α}
    (first : Performs step f front) (second : Performs step g back) :
    Performs step (fun s => (f s).andThen g) (front ++ back) := by
  intro s
  have same : g = fun t => run step t back := funext second
  change (f s).andThen g = _
  rw [run_append, first s, same]

end Runs
