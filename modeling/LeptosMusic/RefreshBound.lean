import Mathlib.Data.List.Perm.Basic
import LeptosMusic.TokenPersistence
import LeptosMusic.TokenUpdates

/-!
# How many requests a token update sends

`updatePrivateAccessTokenWithCompletion:` calls itself after a general update without an error,
and takes for granted that the general token is valid then.
-/
namespace LeptosMusic
open Runs (Outcome Along Always)
namespace TokenService

/-- No call has crashed the app. Every call has sent one request of each kind at most, and called
its block at most once, and once if nothing of it is on its way. -/
structure RefreshBounded (s : TokenService) : Prop where
  healthy : s.crashes = []
  general : ∀ call < s.calls, (s.log call).general ≤ 1
  issueToken : ∀ call < s.calls, (s.log call).issueToken ≤ 1
  once : ∀ call < s.calls, (s.log call).errors.length ≤ 1
  answered : ∀ call < s.calls, (∀ task ∈ s.tasks, task.call ≠ call) →
    (s.log call).errors.length = 1

variable (T : TokenPlatform) (privateGoogleAccessToken : NSString)

/-- A general token that the update of the private one waits for has time left. -/
def Lasting (task : TokenTask) : URLReply → Prop
  | .object jsonResponse => task.isGeneral = true → (∀ call, task.completion ≠ .caller call) →
      ∀ expiresIn ∈ lifetime T (jsonResponse "expires_in"), 0 < expiresIn
  | _ => True

/-- There is a refresh token when one is sent, and every reply is an error or a dictionary with a
token that lasts. -/
def Refreshable (s : TokenService) (a : Action) : Prop :=
  s.running = true → match a with
    | .updateGeneralAccessToken => s.manager.refreshToken.isSome = true
    | .updatePrivateAccessToken =>
        s.validGeneralAccess.isSome = true ∨ s.manager.refreshToken.isSome = true
    | .reply i reply => ∀ task ∈ s.tasks[i]?, task.Proper T reply ∧ Lasting T task reply
    | _ => True

def pending (s : TokenService) (call : Nat) : Nat := s.tasks.countP fun task => task.call = call

def pendingGeneral (s : TokenService) (call : Nat) : Nat :=
  s.tasks.countP fun task => task.call = call ∧ task.isGeneral = true

/-- What a call has sent and what it waits for. -/
structure Budget (s : TokenService) (call : Nat) : Prop where
  answered : s.pending call + (s.log call).errors.length = 1
  general : (s.log call).general ≤ 1
  issueToken : (s.log call).issueToken + s.pendingGeneral call ≤ 1
  asked : s.pendingGeneral call ≤ (s.log call).general

structure Progress (s : TokenService) : Prop where
  healthy : s.crashes = []
  numbered : ∀ task ∈ s.tasks, task.call < s.calls
  fresh : ∀ call, s.calls ≤ call → s.log call = ⟨0, 0, []⟩
  budget : ∀ call < s.calls, s.Budget call

theorem countP_eraseIdx {α : Type} {items : List α} {i : Nat} {item : α}
    (found : items[i]? = some item) (p : α → Bool) :
    items.countP p = (items.eraseIdx i).countP p + if p item then 1 else 0 := by
  obtain ⟨inside, same⟩ := List.getElem?_eq_some_iff.mp found
  have perm := List.getElem_cons_eraseIdx_perm inside
  rw [← perm.countP_eq, List.countP_cons, same]

theorem pending_eq_zero_iff (s : TokenService) (call : Nat) :
    s.pending call = 0 ↔ ∀ task ∈ s.tasks, task.call ≠ call := by
  simp [pending, List.countP_eq_zero]

theorem Progress.bounded {s : TokenService} (progress : s.Progress) : s.RefreshBounded := by
  refine ⟨progress.healthy, fun call known => (progress.budget call known).general, ?_, ?_, ?_⟩
  · intro call known
    have := (progress.budget call known).issueToken
    omega
  · intro call known
    have := (progress.budget call known).answered
    omega
  · intro call known none_pending
    have answered := (progress.budget call known).answered
    rw [(s.pending_eq_zero_iff call).mpr none_pending] at answered
    omega

theorem send_pending (s : TokenService) (task : TokenTask) (call : Nat) :
    (s.send task).pending call = s.pending call + if task.call = call then 1 else 0 := by
  simp [pending, send, List.countP_append, List.countP_singleton]

theorem send_pendingGeneral (s : TokenService) (task : TokenTask) (call : Nat) :
    (s.send task).pendingGeneral call =
      s.pendingGeneral call + if task.call = call ∧ task.isGeneral = true then 1 else 0 := by
  simp [pendingGeneral, send, List.countP_append, List.countP_singleton]

theorem send_log_same (s : TokenService) (task : TokenTask) :
    (s.send task).log task.call = (s.log task.call).sent task := by
  simp [send]

theorem send_log_other (s : TokenService) (task : TokenTask) {call : Nat} (other : call ≠ task.call) :
    (s.send task).log call = s.log call := by
  simp [send, other]

theorem complete_log_same (s : TokenService) (call : Nat) (error : Option NSError) :
    (s.complete call error).log call = (s.log call).completed error := by
  simp [complete]

theorem complete_log_other (s : TokenService) {call other : Nat} (different : other ≠ call)
    (error : Option NSError) : (s.complete call error).log other = s.log other := by
  simp [complete, different]

theorem sent_issueToken (call : UpdateCall) {task : TokenTask} (issue : task.isGeneral = false) :
    call.sent task = { call with issueToken := call.issueToken + 1 } := by
  cases task with
  | general => cases issue
  | issueToken => rfl

/-- A task has been taken off the list, and its handler has run up to the call of its block. -/
structure Taken (s t : TokenService) (i : Nat) (task : TokenTask) : Prop where
  found : s.tasks[i]? = some task
  tasks : t.tasks = s.tasks.eraseIdx i
  log : t.log = s.log
  calls : t.calls = s.calls
  crashes : t.crashes = s.crashes

theorem Taken.pending {s t : TokenService} {i : Nat} {task : TokenTask} (taken : Taken s t i task)
    (call : Nat) : s.pending call = t.pending call + if task.call = call then 1 else 0 := by
  rw [TokenService.pending, TokenService.pending, taken.tasks, countP_eraseIdx taken.found]
  simp

theorem Taken.pendingGeneral {s t : TokenService} {i : Nat} {task : TokenTask}
    (taken : Taken s t i task) (call : Nat) :
    s.pendingGeneral call =
      t.pendingGeneral call + if task.call = call ∧ task.isGeneral = true then 1 else 0 := by
  rw [TokenService.pendingGeneral, TokenService.pendingGeneral, taken.tasks,
    countP_eraseIdx taken.found]
  simp

theorem Taken.numbered {s t : TokenService} {i : Nat} {task : TokenTask} (taken : Taken s t i task)
    (progress : s.Progress) : task.call < t.calls ∧ ∀ other ∈ t.tasks, other.call < t.calls := by
  rw [taken.calls, taken.tasks]
  exact ⟨progress.numbered task (List.mem_of_getElem? taken.found),
    fun other member => progress.numbered other (List.mem_of_mem_eraseIdx member)⟩

theorem Progress.frame {s t : TokenService} (progress : s.Progress) (tasks : t.tasks = s.tasks)
    (log : t.log = s.log) (calls : t.calls = s.calls) (crashes : t.crashes = s.crashes) :
    t.Progress := by
  refine ⟨crashes.trans progress.healthy, ?_, ?_, ?_⟩
  · rw [tasks, calls]
    exact progress.numbered
  · rw [log, calls]
    exact progress.fresh
  · rw [calls]
    intro call known
    have budget := progress.budget call known
    constructor
    · rw [pending, tasks, log]
      exact budget.answered
    · rw [log]
      exact budget.general
    · rw [pendingGeneral, tasks, log]
      exact budget.issueToken
    · rw [pendingGeneral, tasks, log]
      exact budget.asked

/-- A new call sends its first request. -/
theorem Progress.opened {s : TokenService} (progress : s.Progress) {task : TokenTask}
    (new : task.call = s.calls) : (s.call.send task).Progress := by
  have unknown : s.pending s.calls = 0 := by
    rw [pending_eq_zero_iff]
    intro other member
    exact (progress.numbered other member).ne
  have unknownGeneral : s.pendingGeneral s.calls ≤ s.pending s.calls := by
    apply List.countP_mono_left
    intro other _ both
    simp only [decide_eq_true_eq] at both ⊢
    exact both.1
  refine ⟨progress.healthy, ?_, ?_, ?_⟩
  · intro other member
    rcases List.mem_append.mp member with earlier | last
    · exact Nat.lt_succ_of_lt (progress.numbered other earlier)
    · rw [List.mem_singleton.mp last, new]
      exact Nat.lt_succ_self _
  · intro call later
    have beyond : s.calls < call := later
    rw [send_log_other _ _ (by omega)]
    exact progress.fresh call beyond.le
  · intro call known
    have bound : call < s.calls + 1 := known
    by_cases same : call = s.calls
    · subst same
      have log := send_log_same s.call task
      have none_sent : s.call.log s.calls = ⟨0, 0, []⟩ := progress.fresh _ (le_refl _)
      have samePending : s.call.pending s.calls = s.pending s.calls := rfl
      have sameGeneral : s.call.pendingGeneral s.calls = s.pendingGeneral s.calls := rfl
      rw [new, none_sent] at log
      constructor <;>
        simp only [log, send_pending, send_pendingGeneral, samePending, sameGeneral, new] <;>
        cases task <;>
        simp [UpdateCall.sent, TokenTask.isGeneral] <;> omega
    · have budget := progress.budget call (by omega)
      have other : call ≠ task.call := by omega
      have samePending : s.call.pending call = s.pending call := rfl
      have sameGeneral : s.call.pendingGeneral call = s.pendingGeneral call := rfl
      have sameLog : s.call.log call = s.log call := rfl
      constructor <;>
        simp only [send_log_other _ _ other, send_pending, send_pendingGeneral, samePending,
          sameGeneral, sameLog, if_neg other.symm, Nat.add_zero]
      · exact budget.answered
      · exact budget.general
      · simpa [other.symm] using budget.issueToken
      · simpa [other.symm] using budget.asked

/-- What a handler does with the call of its task, once the task is gone. -/
theorem Progress.settled {s t u : TokenService} {i : Nat} {task : TokenTask} (progress : s.Progress)
    (taken : Taken s t i task) (calls : u.calls = t.calls) (crashes : u.crashes = t.crashes)
    (numbered : ∀ other ∈ u.tasks, other.call < t.calls)
    (others : ∀ call, call ≠ task.call → u.log call = t.log call ∧
      u.pending call = t.pending call ∧ u.pendingGeneral call = t.pendingGeneral call)
    (budget : s.Budget task.call → u.Budget task.call) : u.Progress := by
  have known := (taken.numbered progress).1
  refine ⟨crashes.trans (taken.crashes.trans progress.healthy), ?_, ?_, ?_⟩
  · rw [calls]
    exact numbered
  · rw [calls]
    intro call later
    rw [(others call (by omega)).1, taken.log]
    exact progress.fresh call (taken.calls ▸ later)
  · rw [calls]
    intro call bound
    have before := progress.budget call (taken.calls ▸ bound)
    by_cases same : call = task.call
    · rw [same] at before ⊢
      exact budget before
    · obtain ⟨log, pending, pendingGeneral⟩ := others call same
      have samePending := taken.pending call
      have sameGeneral := taken.pendingGeneral call
      rw [if_neg (Ne.symm same), Nat.add_zero] at samePending
      rw [if_neg (fun both => same both.1.symm), Nat.add_zero] at sameGeneral
      constructor
      · rw [log, pending, taken.log, ← samePending]
        exact before.answered
      · rw [log, taken.log]
        exact before.general
      · rw [log, pendingGeneral, taken.log, ← sameGeneral]
        exact before.issueToken
      · rw [log, pendingGeneral, taken.log, ← sameGeneral]
        exact before.asked

/-- The block given to the call is called. -/
theorem Progress.completed {s t : TokenService} {i : Nat} {task : TokenTask} (progress : s.Progress)
    (taken : Taken s t i task) (error : Option NSError) :
    (t.complete task.call error).Progress := by
  refine progress.settled taken rfl rfl (taken.numbered progress).2 ?_ ?_
  · intro call other
    exact ⟨complete_log_other t other error, rfl, rfl⟩
  · intro before
    have pending := taken.pending task.call
    have general := taken.pendingGeneral task.call
    have after : (t.complete task.call error).pending task.call = t.pending task.call := rfl
    have afterGeneral : (t.complete task.call error).pendingGeneral task.call =
        t.pendingGeneral task.call := rfl
    have answered := before.answered
    have issueToken := before.issueToken
    have asked := before.asked
    rw [if_pos rfl] at pending
    rw [← taken.log] at answered issueToken asked
    constructor <;> rw [complete_log_same, UpdateCall.completed] <;> dsimp only
    · rw [after, List.length_append, List.length_singleton]
      omega
    · rw [taken.log]
      exact before.general
    · rw [afterGeneral]
      omega
    · rw [afterGeneral]
      omega

/-- After a general token, the private one is asked for. -/
theorem Progress.continued {s t : TokenService} {i : Nat} {task next : TokenTask}
    (progress : s.Progress) (taken : Taken s t i task) (general : task.isGeneral = true)
    (same : next.call = task.call) (issue : next.isGeneral = false) : (t.send next).Progress := by
  obtain ⟨known, numbered⟩ := taken.numbered progress
  have notGeneral : next.isGeneral ≠ true := by rw [issue]; exact Bool.false_ne_true
  refine progress.settled taken rfl rfl ?_ ?_ ?_
  · intro other member
    rcases List.mem_append.mp member with earlier | last
    · exact numbered other earlier
    · rw [List.mem_singleton.mp last, same]
      exact known
  · intro call other
    rw [← same] at other
    refine ⟨send_log_other t next other, ?_, ?_⟩
    · rw [send_pending, if_neg (Ne.symm other), Nat.add_zero]
    · rw [send_pendingGeneral, if_neg (fun both => notGeneral both.2), Nat.add_zero]
  · intro before
    have pending := taken.pending task.call
    have pendingGeneral := taken.pendingGeneral task.call
    have answered := before.answered
    have issueToken := before.issueToken
    have asked := before.asked
    rw [if_pos rfl] at pending
    rw [if_pos ⟨rfl, general⟩] at pendingGeneral
    rw [← taken.log] at answered issueToken asked
    rw [← same] at answered issueToken asked pending pendingGeneral ⊢
    constructor <;> rw [send_log_same, sent_issueToken _ issue] <;> dsimp only
    · rw [send_pending, if_pos rfl]
      omega
    · rw [taken.log, same]
      exact before.general
    · rw [send_pendingGeneral, if_neg (fun both => notGeneral both.2)]
      omega
    · rw [send_pendingGeneral, if_neg (fun both => notGeneral both.2)]
      omega

theorem not_bounded_raised (fault : Fault) (t : TokenService) :
    ¬ (settle (.raised fault t)).RefreshBounded := by
  intro bounded
  have crashed := bounded.healthy
  simp [settle] at crashed

theorem Handled.taken {s t : TokenService} {i : Nat} {task : TokenTask}
    (found : s.tasks[i]? = some task)
    (handled : Handled { s with tasks := s.tasks.eraseIdx i } t) : Taken s t i task := by
  have frame := handled.frame
  exact ⟨found, by rw [frame], by rw [frame], by rw [frame], by rw [frame]⟩

theorem invoke_error (s : TokenService) (completion : UpdateCompletion) (error : NSError) :
    s.invoke completion (some error) = .done (s.complete completion.call (some error)) := by
  cases completion <;> rfl

theorem Progress.updateGeneral {s : TokenService} (progress : s.Progress)
    (refresh : s.manager.refreshToken.isSome = true) {completion : UpdateCompletion}
    (new : completion.call = s.calls) :
    (settle (s.call.updateGeneralAccessToken completion)).Progress := by
  obtain ⟨refreshToken, found⟩ := Option.isSome_iff_exists.mp refresh
  have sent : s.call.updateGeneralAccessToken completion =
      .done (s.call.send (.general refreshToken completion s.provenance.current)) := by
    rw [updateGeneralAccessToken, call, found]
  rw [sent]
  exact progress.opened new

theorem Progress.updatePrivate {s : TokenService} (progress : s.Progress)
    (refresh : s.validGeneralAccess.isSome = true ∨ s.manager.refreshToken.isSome = true) :
    (settle (s.call.updatePrivateAccessToken s.calls)).Progress := by
  have same : s.call.validGeneralAccess = s.validGeneralAccess := rfl
  rw [updatePrivateAccessToken, same]
  cases valid : s.validGeneralAccess with
  | some generalAccess =>
      have used : (s.use (some generalAccess) s.provenance.generalAccess).Progress :=
        progress.frame rfl rfl rfl rfl
      exact used.opened rfl
  | none =>
      rw [valid] at refresh
      exact progress.updateGeneral (refresh.resolve_left Bool.false_ne_true) rfl

/-- A granted general token is valid exactly when it has time left. -/
theorem granted_validGeneralAccess (s : TokenService) {task : TokenTask}
    (general : task.isGeneral = true) (token : NSString) (expiresIn : Int)
    (authType : Option JSONValue) :
    (s.granted T task token expiresIn authType).validGeneralAccess =
      if 0 < expiresIn then some ⟨some token, some (s.now + expiresIn)⟩ else none := by
  cases task with
  | issueToken => cases general
  | general refreshToken completion setting =>
      have lasts : (⟨some token, some (s.now + expiresIn)⟩ : LMAccessTokenModel).isValid s.now =
          decide (0 < expiresIn) := by simp [LMAccessTokenModel.isValid]
      simp only [validGeneralAccess, granted, Option.filter_some, lasts, decide_eq_true_eq]

theorem Progress.answer {s : TokenService} (progress : s.Progress) {i : Nat} {task : TokenTask}
    (found : s.tasks[i]? = some task) {reply : URLReply} (proper : task.Proper T reply)
    (lasting : Lasting T task reply) :
    (settle (({ s with tasks := s.tasks.eraseIdx i } : TokenService).answer T task reply)).Progress := by
  unfold TokenService.answer
  have removed := Handled.taken found (.refl _)
  cases reply with
  | failed error =>
      change (settle (invoke _ _ (some error))).Progress
      rw [invoke_error]
      exact progress.completed removed (some error)
  | notJSON error =>
      change (settle (invoke _ _ (some error))).Progress
      rw [invoke_error]
      exact progress.completed removed (some error)
  | array => cases proper
  | object jsonResponse =>
      obtain ⟨hasToken, hasExpiry, typed⟩ := proper
      obtain ⟨token, hasToken⟩ := Option.isSome_iff_exists.mp hasToken
      obtain ⟨expiresIn, hasExpiry⟩ := Option.isSome_iff_exists.mp hasExpiry
      rw [tokenReply_granted _ task hasToken hasExpiry typed, Outcome.done_andThen]
      have handled := granted_handled T { s with tasks := s.tasks.eraseIdx i } task token expiresIn
        (jsonResponse "token_type")
      have taken := handled.taken found
      cases completion : task.completion with
      | caller call =>
          have same : call = task.call := by rw [TokenTask.call, completion]; rfl
          rw [same]
          exact progress.completed taken none
      | updatePrivate call =>
          have same : call = task.call := by rw [TokenTask.call, completion]; rfl
          have general : task.isGeneral = true := by
            cases task with
            | general => rfl
            | issueToken => cases completion
          have key : task.expiryKey = "expires_in" := by
            cases task with
            | general => rfl
            | issueToken => cases general
          rw [key] at hasExpiry
          have lasts : 0 < expiresIn := lasting general (by rw [completion]; rintro _ ⟨⟩) _ hasExpiry
          change (settle (updatePrivateAccessToken _ call)).Progress
          rw [updatePrivateAccessToken, granted_validGeneralAccess T _ general, if_pos lasts, same]
          have used (access : Option LMAccessTokenModel) (setting : Nat) :
              Taken s ((granted T _ task token expiresIn _).use access setting) i task :=
            ⟨taken.found, taken.tasks, taken.log, taken.calls, taken.crashes⟩
          exact progress.continued (used _ _) general rfl rfl

/-- A general token without time left is asked for again. -/
theorem not_bounded_asked_again {s t : TokenService} {i : Nat} {task : TokenTask}
    (progress : s.Progress) (taken : Taken s t i task) (general : task.isGeneral = true)
    (spent : t.validGeneralAccess = none) :
    ¬ (settle (t.updatePrivateAccessToken task.call)).RefreshBounded := by
  rw [updatePrivateAccessToken, spent]
  unfold updateGeneralAccessToken
  cases t.manager.refreshToken with
  | none => exact not_bounded_raised _ _
  | some refreshToken =>
      intro bounded
      have known := (taken.numbered progress).1
      have once := bounded.general task.call known
      have asked := (progress.budget task.call (taken.calls ▸ known)).asked
      have waiting := taken.pendingGeneral task.call
      rw [if_pos ⟨rfl, general⟩] at waiting
      rw [← taken.log] at asked
      have sent := send_log_same t (.general refreshToken (.updatePrivate task.call)
        t.provenance.current)
      have again := congrArg UpdateCall.general sent
      change ((t.send _).log task.call).general = (t.log task.call).general + 1 at again
      change ((t.send _).log task.call).general ≤ 1 at once
      omega

theorem not_bounded_answer {s : TokenService} (progress : s.Progress) {i : Nat} {task : TokenTask}
    (found : s.tasks[i]? = some task) {reply : URLReply}
    (bad : ¬ (task.Proper T reply ∧ Lasting T task reply)) :
    ¬ (settle (({ s with tasks := s.tasks.eraseIdx i } : TokenService).answer T task
      reply)).RefreshBounded := by
  unfold TokenService.answer
  cases reply with
  | failed error => exact absurd ⟨trivial, trivial⟩ bad
  | notJSON error => exact absurd ⟨trivial, trivial⟩ bad
  | array => exact not_bounded_raised _ _
  | object jsonResponse =>
      by_cases proper : task.Readable T jsonResponse
      · have spent : ¬ Lasting T task (.object jsonResponse) := fun lasting => bad ⟨proper, lasting⟩
        simp only [Lasting, not_forall] at spent
        obtain ⟨general, waits, expiresIn, lifetime, spentOut⟩ := spent
        obtain ⟨hasToken, _, typed⟩ := proper
        obtain ⟨token, hasToken⟩ := Option.isSome_iff_exists.mp hasToken
        have key : task.expiryKey = "expires_in" := by
          cases task with
          | general => rfl
          | issueToken => cases general
        have handled := granted_handled T { s with tasks := s.tasks.eraseIdx i } task token expiresIn
          (jsonResponse "token_type")
        have spent := granted_validGeneralAccess T { s with tasks := s.tasks.eraseIdx i } general
          token expiresIn (jsonResponse "token_type")
        rw [if_neg spentOut] at spent
        rw [tokenReply_granted _ task hasToken (key ▸ lifetime) typed, Outcome.done_andThen]
        cases completion : task.completion with
        | caller call => exact absurd completion (waits call)
        | updatePrivate call =>
            have same : call = task.call := by rw [TokenTask.call, completion]; rfl
            rw [same]
            exact not_bounded_asked_again progress (handled.taken found) general spent
      · obtain ⟨fault, t, raised, _⟩ := tokenReply_raised
          { s with tasks := s.tasks.eraseIdx i } task proper
        rw [raised, Outcome.raised_andThen]
        exact not_bounded_raised fault t

theorem Progress.perform {s : TokenService} {a : Action} (progress : s.Progress)
    (running : s.running = true) (refreshable : Refreshable T s a) :
    (settle (s.perform T a)).Progress := by
  have admitted := refreshable running
  cases a with
  | updateGeneralAccessToken => exact progress.updateGeneral admitted rfl
  | updatePrivateAccessToken => exact progress.updatePrivate admitted
  | reply i reply =>
      simp only [TokenService.perform]
      cases found : s.tasks[i]? with
      | none => exact progress
      | some task =>
          obtain ⟨proper, lasting⟩ := admitted task found
          exact progress.answer T found proper lasting
  | _ => exact progress.frame rfl rfl rfl rfl

theorem not_bounded_perform {s : TokenService} {a : Action} (progress : s.Progress)
    (refused : ¬ Refreshable T s a) : ¬ (settle (s.perform T a)).RefreshBounded := by
  simp only [Refreshable, not_forall] at refused
  obtain ⟨running, refused⟩ := refused
  cases a with
  | updateGeneralAccessToken =>
      have absent : s.manager.refreshToken = none := Option.not_isSome_iff_eq_none.mp refused
      simp only [TokenService.perform, updateGeneralAccessToken, call, absent]
      exact not_bounded_raised _ _
  | updatePrivateAccessToken =>
      obtain ⟨invalid, absent⟩ := not_or.mp refused
      rw [Option.not_isSome_iff_eq_none] at invalid absent
      have same : s.call.validGeneralAccess = s.validGeneralAccess := rfl
      simp only [TokenService.perform, updatePrivateAccessToken, same, invalid]
      simp only [updateGeneralAccessToken, call, absent]
      exact not_bounded_raised _ _
  | reply i reply =>
      simp only [not_forall] at refused
      obtain ⟨task, found, bad⟩ := refused
      have member : s.tasks[i]? = some task := found
      simp only [TokenService.perform, member]
      exact not_bounded_answer T progress member bad
  | _ => exact absurd trivial refused

theorem Progress.step {s : TokenService} {a : Action} (progress : s.Progress)
    (refreshable : Refreshable T s a) :
    (step T privateGoogleAccessToken s a).state.Progress := by
  have performed : (if s.running = true then Outcome.done (settle (s.perform T a))
      else Outcome.done s : Outcome Fault TokenService).state.Progress := by
    by_cases running : s.running = true
    · rw [if_pos running]
      exact progress.perform T running refreshable
    · rw [if_neg running]
      exact progress
  cases a with
  | launch =>
      refine ⟨progress.healthy, fun task member => (by cases member), fun call _ => rfl, ?_⟩
      intro call known
      exact absurd known (Nat.not_lt_zero call)
  | wait seconds => exact progress.frame rfl rfl rfl rfl
  | _ => exact performed

theorem not_bounded_step {s : TokenService} {a : Action} (progress : s.Progress)
    (refused : ¬ Refreshable T s a) :
    ¬ (step T privateGoogleAccessToken s a).state.RefreshBounded := by
  have performed : ¬ (if s.running = true then Outcome.done (settle (s.perform T a))
      else Outcome.done s : Outcome Fault TokenService).state.RefreshBounded := by
    by_cases running : s.running = true
    · rw [if_pos running]
      exact not_bounded_perform T progress refused
    · exact absurd (fun runs => absurd runs running) refused
  cases a with
  | launch => exact absurd (fun _ => trivial) refused
  | wait seconds => exact absurd (fun _ => trivial) refused
  | _ => exact performed

/-- In every state of a run from before the first launch, every call of an update has sent at most
one request of each kind, and has called its block once when nothing of it is on its way, exactly
when every reply is an error or grants a token that lasts, and there is a refresh token to send. -/
theorem refreshBounded_iff (T : TokenPlatform) (privateGoogleAccessToken : NSString)
    (defaults : NSUserDefaults) (provenance : Provenance) (now : Int) (actions : List Action) :
    Always (step T privateGoogleAccessToken) RefreshBounded (off defaults provenance now) actions ↔
      Along (step T privateGoogleAccessToken) (Refreshable T) (off defaults provenance now)
        actions := by
  apply Runs.always_iff_along (I := Progress) (E := fun _ _ => True)
  · intro s a progress _ refreshable
    exact progress.step T privateGoogleAccessToken refreshable
  · intro s progress
    exact progress.bounded
  · intro s a progress _ refused
    exact not_bounded_step T privateGoogleAccessToken progress refused
  · refine ⟨rfl, fun task member => (by cases member), fun call _ => rfl, ?_⟩
    intro call known
    exact absurd known (Nat.not_lt_zero call)
  · exact Runs.along_true _ _ _

/-- A reply with a token, whose `expires_in` is missing. -/
def spentGrant : JSONObject := fun key =>
  if key = "access_token" then some (.string (literal "ya29.spent"))
  else if key = "token_type" then some (.string (literal "Bearer"))
  else none

/-- The first call waits for a general token, for which it has asked `n` times. -/
structure Asking (n : Nat) (s : TokenService) : Prop where
  running : s.running = true
  tasks : ∃ refreshToken setting, s.tasks = [.general refreshToken (.updatePrivate 0) setting]
  refreshToken : s.manager.refreshToken = some (literal "1/refresh")
  log : s.log 0 = ⟨n, 0, []⟩

theorem updatePrivate_asks {s : TokenService} {refreshToken : NSString}
    (spent : s.validGeneralAccess = none) (refresh : s.manager.refreshToken = some refreshToken)
    (call : Nat) : s.updatePrivateAccessToken call =
      .done (s.send (.general refreshToken (.updatePrivate call) s.provenance.current)) := by
  rw [updatePrivateAccessToken, spent]
  simp only [updateGeneralAccessToken, refresh]

theorem Asking.step {n : Nat} {s : TokenService} (asking : Asking n s) :
    ∃ t, TokenService.step asciiPlatform (literal "1/refresh") s (.reply 0 (.object spentGrant)) =
      .done t ∧ Asking (n + 1) t := by
  obtain ⟨running, ⟨refreshToken, setting, tasks⟩, refresh, log⟩ := asking
  let task : TokenTask := .general refreshToken (.updatePrivate 0) setting
  let u := granted asciiPlatform { s with tasks := s.tasks.eraseIdx 0 } task (literal "ya29.spent") 0
    (spentGrant "token_type")
  have found : s.tasks[0]? = some task := by
    rw [tasks]
    rfl
  have handled : tokenReply asciiPlatform { s with tasks := s.tasks.eraseIdx 0 } task
      (.object spentGrant) = .done u := tokenReply_granted _ task rfl rfl (by rintro _ ⟨⟩)
  have spent : u.validGeneralAccess = none := granted_validGeneralAccess asciiPlatform _ rfl _ _ _
  have performed : s.perform asciiPlatform (.reply 0 (.object spentGrant)) =
      .done (u.send (.general (literal "1/refresh") (.updatePrivate 0) u.provenance.current)) := by
    simp only [TokenService.perform, found, TokenService.answer]
    rw [handled, Outcome.done_andThen]
    exact updatePrivate_asks spent refresh 0
  refine ⟨u.send (.general (literal "1/refresh") (.updatePrivate 0) u.provenance.current), ?_, ?_⟩
  · simp only [TokenService.step, running, if_true, performed, settle]
  · refine ⟨running, ⟨literal "1/refresh", u.provenance.current, ?_⟩, refresh, ?_⟩
    · simp only [send, u, granted, task, tasks]
      rfl
    · have sent := send_log_same u (.general (literal "1/refresh") (.updatePrivate 0)
        u.provenance.current)
      have before : u.log 0 = ⟨n, 0, []⟩ := log
      change (u.send _).log 0 = (u.log 0).sent _ at sent
      rw [sent, before]
      rfl

theorem Asking.run {n : Nat} {s : TokenService} (asking : Asking n s) (replies : Nat) :
    ∃ t, TokenService.run asciiPlatform (literal "1/refresh") s
        (List.replicate replies (.reply 0 (.object spentGrant))) = .done t ∧
      Asking (n + replies) t := by
  induction replies generalizing n s with
  | zero => exact ⟨s, rfl, asking⟩
  | succ replies ih =>
      obtain ⟨t, taken, again⟩ := asking.step
      obtain ⟨u, ran, last⟩ := ih again
      refine ⟨u, ?_, by rwa [Nat.add_right_comm] at last⟩
      rw [List.replicate_succ, TokenService.run, Runs.run_cons, taken, Outcome.done_andThen]
      exact ran

/-- A fresh install, launched, after the call of an update of the private token. -/
def firstUpdate : TokenService :=
  (run asciiPlatform (literal "1/refresh") (off (fun _ => none) ⟨0, 0, 0, 0, 0, 0⟩ 0)
    [.launch, .updatePrivateAccessToken]).state

/-- The first answer without an `expires_in` breaks the bound; and however many there are, the token
is asked for once more, and the block is not called. -/
theorem refresh_unbounded :
    ¬ Always (step asciiPlatform (literal "1/refresh")) RefreshBounded
        (off (fun _ => none) ⟨0, 0, 0, 0, 0, 0⟩ 0)
        [.launch, .updatePrivateAccessToken, .reply 0 (.object spentGrant)] ∧
      ∀ replies, ∃ t, run asciiPlatform (literal "1/refresh") firstUpdate
          (List.replicate replies (.reply 0 (.object spentGrant))) = .done t ∧
        (t.log 0).general = replies + 1 ∧ (t.log 0).errors = [] := by
  constructor
  · intro always
    have twice := always.last.general 0 (by decide)
    exact absurd twice (by decide)
  · intro replies
    have asking : Asking 1 firstUpdate := ⟨rfl, ⟨_, _, rfl⟩, rfl, rfl⟩
    obtain ⟨t, ran, last⟩ := asking.run replies
    refine ⟨t, ran, ?_, ?_⟩
    · rw [last.log]
      exact Nat.add_comm 1 replies
    · rw [last.log]

end TokenService
end LeptosMusic
