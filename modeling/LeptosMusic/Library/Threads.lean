import LeptosMusic.Library.Runs

/-!
# Threads as lists of steps

A thread is the list of the steps that it still has to take. A step changes the shared state and
puts other steps in its place, or raises. `Executes` is what a thread does while no other thread
takes a step, `Ends` what it comes to.
-/
namespace Threads

open Runs (Outcome)

universe u v w x y
variable {ε : Type u} {σ : Type v} {α : Type w} {β : Type x}

inductive Executes (exec : σ → α → Except ε (σ × List α)) : List α → σ → List α → σ → Prop where
  | refl {steps : List α} {s : σ} : Executes exec steps s steps s
  | step {a : α} {rest next left : List α} {s t u : σ} (ran : exec s a = .ok (t, next))
      (later : Executes exec (next ++ rest) t left u) : Executes exec (a :: rest) s left u

variable {exec : σ → α → Except ε (σ × List α)} {steps between left rest : List α} {s t u : σ}

theorem Executes.single {a : α} {next : List α} (ran : exec s a = .ok (t, next)) :
    Executes exec [a] s next t :=
  .step ran (by rw [List.append_nil]; exact .refl)

theorem Executes.trans (first : Executes exec steps s between t)
    (second : Executes exec between t left u) : Executes exec steps s left u := by
  induction first with
  | refl => exact second
  | step ran _ ih => exact .step ran (ih second)

/-- Steps that come after those of a thread wait for them. -/
theorem Executes.append (runs : Executes exec steps s left t) (rest : List α) :
    Executes exec (steps ++ rest) s (left ++ rest) t := by
  induction runs with
  | refl => exact .refl
  | step ran _ ih =>
      rw [List.append_assoc] at ih
      exact .step ran ih

/-- What every step keeps, the thread keeps. -/
theorem Executes.keeps {I : σ → Prop}
    (keeps : ∀ s a t next, exec s a = .ok (t, next) → I s → I t)
    (runs : Executes exec steps s left t) (start : I s) : I t := by
  induction runs with
  | refl => exact start
  | step ran _ ih => exact ih (keeps _ _ _ _ ran start)

/-- A thread whose steps are embedded in those of another one. -/
theorem Executes.map {exec' : σ → β → Except ε (σ × List β)} (embed : α → β)
    (same : ∀ s a, exec' s (embed a) = (exec s a).map fun (t, next) => (t, next.map embed))
    (runs : Executes exec steps s left t) :
    Executes exec' (steps.map embed) s (left.map embed) t := by
  induction runs with
  | refl => exact .refl
  | @step a rest next left s t u ran later ih =>
      rw [List.map_append] at ih
      have embedded : exec' s (embed a) = .ok (t, next.map embed) := by
        rw [same, ran]
        rfl
      exact .step embedded ih

/-- The end of a thread, or a step that raises; `view` is what is seen of the state. -/
inductive Ends {τ : Type y} (exec : σ → α → Except ε (σ × List α)) (view : σ → τ) (steps : List α)
    (s : σ) : Outcome ε τ → Prop where
  | done {t : σ} (executes : Executes exec steps s [] t) : Ends exec view steps s (.done (view t))
  | raised {a : α} {rest : List α} {t : σ} {error : ε}
      (executes : Executes exec steps s (a :: rest) t) (raises : exec t a = .error error) :
      Ends exec view steps s (.raised error (view t))

theorem Executes.ends {τ : Type y} {view : σ → τ} {outcome : Outcome ε τ}
    (runs : Executes exec steps s left t) (ends : Ends exec view left t outcome) :
    Ends exec view steps s outcome := by
  cases ends with
  | done executes => exact .done (runs.trans executes)
  | raised executes raises => exact .raised (runs.trans executes) raises

/-- An embedded thread ends as it does by itself, if it is followed by nothing. -/
theorem Ends.map {τ : Type y} {view : σ → τ} {exec' : σ → β → Except ε (σ × List β)}
    {outcome : Outcome ε τ} (embed : α → β)
    (same : ∀ s a, exec' s (embed a) = (exec s a).map fun (t, next) => (t, next.map embed))
    (ends : Ends exec view steps s outcome) :
    Ends exec' view (steps.map embed) s outcome := by
  cases ends with
  | done executes => exact .done (executes.map embed same)
  | raised executes raises =>
      refine .raised (executes.map embed same) ?_
      rw [same, raises]
      rfl

end Threads
