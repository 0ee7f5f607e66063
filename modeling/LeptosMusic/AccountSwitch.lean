import LeptosMusic.TokenPersistence
import LeptosMusic.TokenUpdates

/-!
# Tokens across a change of the account

The setter of the refresh token clears the two tokens in memory. What is on its way, and what is
stored, is not touched by it.
-/
namespace LeptosMusic
open Runs (Outcome Along Always)
namespace TokenService

/-- No header was set from a token that was issued for a setting before the last switch. -/
def Isolated (self : TokenService) : Prop :=
  ∀ use ∈ self.uses, use.token.isSome = true → use.switched ≤ use.setting
  deriving Decidable

/-- While the process runs, the tokens in memory are of the present account. -/
structure Attributed (s : TokenService) : Prop where
  isolated : s.Isolated
  switched : s.provenance.switched ≤ s.provenance.current
  generalAccess : s.running = true → s.manager.generalAccess.isSome = true →
    s.provenance.switched ≤ s.provenance.generalAccess
  privateAccess : s.running = true → s.manager.privateAccess.isSome = true →
    s.provenance.switched ≤ s.provenance.privateAccess

variable (T : TokenPlatform) (privateGoogleAccessToken : NSString)

/-- A launch finds no stored token of an earlier account, and a token comes only in reply to a
request that was sent for the present one. -/
def KeepsAccount (self : TokenService) : Action → Prop
  | .launch =>
      ((self.launch T privateGoogleAccessToken).manager.generalAccess.isSome = true →
        self.provenance.switched ≤ self.provenance.storedGeneral) ∧
      ((self.launch T privateGoogleAccessToken).manager.privateAccess.isSome = true →
        self.provenance.switched ≤ self.provenance.storedPrivate)
  | .reply i reply => self.running = true → ∀ task ∈ self.tasks[i]?,
      (task.tokenOf reply).isSome = true → self.provenance.switched ≤ task.setting
  | _ => True

instance decidableKeepsAccount (s : TokenService) :
    ∀ a, Decidable (s.KeepsAccount T privateGoogleAccessToken a)
  | .launch => inferInstanceAs (Decidable (_ ∧ _))
  | .reply i reply => inferInstanceAs (Decidable (s.running = true → ∀ task ∈ s.tasks[i]?,
      (task.tokenOf reply).isSome = true → s.provenance.switched ≤ task.setting))
  | .setRefreshToken _ => .isTrue trivial
  | .updateGeneralAccessToken => .isTrue trivial
  | .updatePrivateAccessToken => .isTrue trivial
  | .authorizePrivateRequest => .isTrue trivial
  | .wait _ => .isTrue trivial

variable {T privateGoogleAccessToken}

theorem Attributed.frame {s t : TokenService} (h : s.Attributed) (uses : t.uses = s.uses)
    (provenance : t.provenance = s.provenance) (running : t.running = true → s.running = true)
    (generalAccess : t.manager.generalAccess = s.manager.generalAccess)
    (privateAccess : t.manager.privateAccess = s.manager.privateAccess) : t.Attributed := by
  constructor
  · rw [Isolated, uses]
    exact h.isolated
  · rw [provenance]
    exact h.switched
  · rw [provenance, generalAccess]
    intro runs
    exact h.generalAccess (running runs)
  · rw [provenance, privateAccess]
    intro runs
    exact h.privateAccess (running runs)

/-- Of a process that has ended, only its past counts. -/
theorem Attributed.ended {t : TokenService} (isolated : t.Isolated)
    (switched : t.provenance.switched ≤ t.provenance.current) (fault : Fault) :
    (settle (.raised fault t)).Attributed := by
  refine ⟨isolated, switched, ?_, ?_⟩ <;> intro runs <;> cases runs

theorem Attributed.use {s : TokenService} (h : s.Attributed) {token : Option LMAccessTokenModel}
    {setting : Nat} (issued : token.isSome = true → s.provenance.switched ≤ setting) :
    (s.use token setting).Attributed := by
  refine ⟨?_, h.switched, h.generalAccess, h.privateAccess⟩
  intro use member present
  rcases List.mem_append.mp member with earlier | new
  · exact h.isolated use earlier present
  · rw [List.mem_singleton] at new
    subst new
    exact issued present

theorem Attributed.updateGeneral {s : TokenService} (h : s.Attributed)
    (completion : UpdateCompletion) :
    (settle (s.updateGeneralAccessToken completion)).Attributed := by
  unfold updateGeneralAccessToken
  split
  · exact h.frame rfl rfl id rfl rfl
  · exact .ended h.isolated h.switched _

theorem Attributed.updatePrivate {s : TokenService} (h : s.Attributed) (running : s.running = true)
    (call : Nat) : (settle (s.updatePrivateAccessToken call)).Attributed := by
  unfold updatePrivateAccessToken
  split
  · next generalAccess valid =>
      have present : s.manager.generalAccess.isSome = true := by
        rw [validGeneralAccess, Option.filter_eq_some_iff] at valid
        rw [valid.1]
        rfl
      have used : (s.use (some generalAccess) s.provenance.generalAccess).Attributed :=
        h.use fun _ => h.generalAccess running present
      exact used.frame rfl rfl id rfl rfl
  · exact h.updateGeneral _

theorem Attributed.invoke {s : TokenService} (h : s.Attributed) (running : s.running = true)
    (completion : UpdateCompletion) (error : Option NSError) :
    (settle (s.invoke completion error)).Attributed := by
  unfold TokenService.invoke
  split
  · exact h.frame rfl rfl id rfl rfl
  · split
    · exact h.frame rfl rfl id rfl rfl
    · exact h.updatePrivate running _

theorem Attributed.granted {s : TokenService} (h : s.Attributed) {task : TokenTask}
    (issued : s.provenance.switched ≤ task.setting) (token : NSString) (expiresIn : Int)
    (authType : Option JSONValue) : (s.granted T task token expiresIn authType).Attributed := by
  cases task with
  | general refreshToken completion setting =>
      exact ⟨h.isolated, h.switched, fun _ _ => issued, h.privateAccess⟩
  | issueToken authorization call setting =>
      exact ⟨h.isolated, h.switched, h.generalAccess, fun _ _ => issued⟩

theorem Attributed.answer {s : TokenService} (h : s.Attributed) (running : s.running = true)
    {task : TokenTask} {reply : URLReply}
    (issued : (task.tokenOf reply).isSome = true → s.provenance.switched ≤ task.setting) :
    (settle (s.answer T task reply)).Attributed := by
  unfold TokenService.answer
  cases reply with
  | failed error => exact h.invoke running _ _
  | notJSON error => exact h.invoke running _ _
  | array => exact .ended h.isolated h.switched _
  | object jsonResponse =>
      by_cases readable : task.Readable T jsonResponse
      · obtain ⟨hasToken, hasExpiry, typed⟩ := readable
        have fresh := issued hasToken
        obtain ⟨token, hasToken⟩ := Option.isSome_iff_exists.mp hasToken
        obtain ⟨expiresIn, hasExpiry⟩ := Option.isSome_iff_exists.mp hasExpiry
        have handled := granted_handled T s task token expiresIn (jsonResponse "token_type")
        rw [tokenReply_granted s task hasToken hasExpiry typed, Outcome.done_andThen]
        refine (h.granted fresh token expiresIn _).invoke ?_ _ _
        rw [handled.frame]
        exact running
      · obtain ⟨fault, t, raised, handled⟩ := tokenReply_raised s task readable
        rw [raised, Outcome.raised_andThen]
        refine .ended ?_ ?_ fault
        · rw [Isolated, handled.frame]
          exact h.isolated
        · rw [handled.current, handled.switched]
          exact h.switched

theorem Attributed.launch {s : TokenService} (h : s.Attributed)
    (keeps : s.KeepsAccount T privateGoogleAccessToken .launch) :
    (s.launch T privateGoogleAccessToken).Attributed := by
  obtain ⟨general, issued⟩ := keeps
  exact ⟨h.isolated, Nat.le_succ_of_le h.switched, fun _ => general, fun _ => issued⟩

theorem Attributed.perform {s : TokenService} {a : Action} (h : s.Attributed)
    (running : s.running = true) (keeps : s.KeepsAccount T privateGoogleAccessToken a) :
    (settle (s.perform T a)).Attributed := by
  cases a with
  | setRefreshToken refreshToken =>
      refine ⟨h.isolated, le_refl _, ?_, ?_⟩ <;> intro _ present <;> cases present
  | updateGeneralAccessToken =>
      exact (h.frame (t := s.call) rfl rfl id rfl rfl).updateGeneral _
  | updatePrivateAccessToken =>
      exact (h.frame (t := s.call) rfl rfl id rfl rfl).updatePrivate running _
  | authorizePrivateRequest => exact h.use (h.privateAccess running)
  | reply i reply =>
      simp only [TokenService.perform]
      cases found : s.tasks[i]? with
      | none => exact h
      | some task =>
          have taken : ({ s with tasks := s.tasks.eraseIdx i } : TokenService).Attributed :=
            h.frame rfl rfl id rfl rfl
          exact taken.answer running (keeps running task found)
  | launch => exact h
  | wait seconds => exact h

theorem Attributed.step {s : TokenService} {a : Action} (h : s.Attributed)
    (keeps : s.KeepsAccount T privateGoogleAccessToken a) :
    (step T privateGoogleAccessToken s a).state.Attributed := by
  have performed : (if s.running = true then Outcome.done (settle (s.perform T a))
      else Outcome.done s : Outcome Fault TokenService).state.Attributed := by
    by_cases running : s.running = true
    · rw [if_pos running]
      exact h.perform running keeps
    · rw [if_neg running]
      exact h
  cases a with
  | launch => exact h.launch keeps
  | wait seconds => exact h.frame rfl rfl id rfl rfl
  | _ => exact performed

/-- From any stored tokens, when every step keeps the account, no header is ever set from a token
that was issued, at first or at second hand, for a refresh token set before the last switch. -/
theorem isolated_of_keepsAccount (T : TokenPlatform) (privateGoogleAccessToken : NSString)
    (defaults : NSUserDefaults) (now : Int) (storedGeneral storedPrivate current : Nat)
    (actions : List Action)
    (keeps : Along (step T privateGoogleAccessToken) (KeepsAccount T privateGoogleAccessToken)
      (off defaults ⟨current, 0, 0, 0, storedGeneral, storedPrivate⟩ now) actions) :
    Always (step T privateGoogleAccessToken) Isolated
      (off defaults ⟨current, 0, 0, 0, storedGeneral, storedPrivate⟩ now) actions := by
  refine Runs.always_of_along (I := Attributed) (Q := Isolated) ?_ ?_ ?_ keeps
  · intro s a attributed keeps
    exact attributed.step keeps
  · intro s attributed
    exact attributed.isolated
  · refine ⟨fun use member => (by cases member), Nat.zero_le _, ?_, ?_⟩ <;>
      intro runs <;> cases runs

/-- Both tokens are granted, and the request is authorized. -/
def signIn : List Action :=
  [.updatePrivateAccessToken, .reply 0 (.object TokenStore.generalGrant.jsonResponse),
    .reply 0 (.object TokenStore.privateGrant.jsonResponse), .authorizePrivateRequest]

def freshInstall : TokenService := off (fun _ => none) ⟨0, 0, 0, 0, 0, 0⟩ 0

/-- The account is changed, and the second one is signed in before the next launch. -/
theorem signedInTwice_isolated :
    Always (step asciiPlatform (literal "1/first")) Isolated freshInstall
      (.launch :: signIn ++ .setRefreshToken (some (literal "1/second")) :: signIn ++
        [.launch, .authorizePrivateRequest]) :=
  isolated_of_keepsAccount asciiPlatform (literal "1/first") (fun _ => none) 0 0 0 0 _ (by decide)

/-- The reply to a request for the first account comes after the change; and the first account's
token is read back at the next launch. -/
theorem firstAccount_used_after_switch :
    ¬ (run asciiPlatform (literal "1/first") freshInstall
        [.launch, .updatePrivateAccessToken, .setRefreshToken (some (literal "1/second")),
          .reply 0 (.object TokenStore.generalGrant.jsonResponse)]).state.Isolated ∧
      ¬ (run asciiPlatform (literal "1/first") freshInstall
        (.launch :: signIn ++ [.setRefreshToken (some (literal "1/second")), .launch,
          .authorizePrivateRequest])).state.Isolated := by
  decide

end TokenService
end LeptosMusic
