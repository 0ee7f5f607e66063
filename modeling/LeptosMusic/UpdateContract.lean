import LeptosMusic.TokenUpdates

/-!
# The error contract of a token update

A dictionary without a token takes the way of success, up to the encoder that cannot take it.
-/
namespace LeptosMusic
open Runs (Outcome)

/-- The token in memory that a task is about. -/
def TokenTask.holder (task : TokenTask) (manager : LMAccessTokenManager) : Option LMAccessTokenModel :=
  if task.isGeneral then manager.generalAccess else manager.privateAccess

namespace TokenService

/-- What a handler leaves when it calls its block: with no error, the token of the reply is in
memory; with an error, or without a token in the reply, everything is as it was. -/
structure UpdateContract (before : TokenService) (task : TokenTask) (reply : URLReply)
    (after : TokenService) : Prop where
  granted : reply.error = none → ∃ model token, task.holder after.manager = some model ∧
    model.token = some token ∧ task.tokenOf reply = some token
  unchanged : reply.error ≠ none ∨ task.tokenOf reply = none →
    after.manager = before.manager ∧ after.defaults = before.defaults

variable (T : TokenPlatform)

theorem granted_holder (self : TokenService) (task : TokenTask) (token : NSString)
    (expiresIn : Int) (authType : Option JSONValue) :
    task.holder (self.granted T task token expiresIn authType).manager =
      some ⟨some token, some (self.now + expiresIn)⟩ := by
  cases task <;> rfl

theorem unchanged_contract (self : TokenService) (task : TokenTask) {reply : URLReply}
    (failed : reply.error ≠ none) : UpdateContract self task reply self :=
  ⟨fun absent => absurd absent failed, fun _ => ⟨rfl, rfl⟩⟩

/-- For every task and reply, the handler calls its block, once and under the contract, exactly
when the reply is an error or a dictionary with a token and nothing that cannot be used. -/
theorem updateContract_iff (self : TokenService) (task : TokenTask) (reply : URLReply) :
    (∃ after, self.tokenReply T task reply = .done after ∧
      self.answer T task reply = after.invoke task.completion reply.error ∧
      UpdateContract self task reply after) ↔ task.Proper T reply := by
  have once {after : TokenService} (handled : self.tokenReply T task reply = .done after) :
      self.answer T task reply = after.invoke task.completion reply.error := by
    rw [answer, handled, Outcome.done_andThen]
  cases reply with
  | failed error =>
      exact iff_of_true ⟨self, rfl, once rfl, unchanged_contract self task (by rintro ⟨⟩)⟩ trivial
  | notJSON error =>
      exact iff_of_true ⟨self, rfl, once rfl, unchanged_contract self task (by rintro ⟨⟩)⟩ trivial
  | array =>
      refine iff_of_false ?_ id
      rintro ⟨after, handled, _⟩
      cases handled
  | object jsonResponse =>
      constructor
      · rintro ⟨after, handled, _⟩
        by_contra unreadable
        obtain ⟨fault, t, raised, _⟩ := tokenReply_raised self task unreadable
        rw [raised] at handled
        cases handled
      · rintro ⟨hasToken, hasExpiry, typed⟩
        obtain ⟨token, hasToken⟩ := Option.isSome_iff_exists.mp hasToken
        obtain ⟨expiresIn, hasExpiry⟩ := Option.isSome_iff_exists.mp hasExpiry
        have handled := tokenReply_granted self task hasToken hasExpiry typed
        refine ⟨_, handled, once handled, ?_, ?_⟩
        · intro _
          exact ⟨_, token, granted_holder T self task token expiresIn _, rfl, hasToken⟩
        · intro failed
          rw [TokenTask.tokenOf, hasToken] at failed
          rcases failed with failed | failed
          · exact absurd rfl failed
          · cases failed

/-- A signed-in manager with a general request on its way. -/
def refreshing : TokenService where
  manager := ⟨some (literal "1/refresh"), none, none, some (literal "Bearer")⟩
  defaults _ := none
  running := true
  now := 1000
  tasks := [.general (literal "1/refresh") (.caller 0) 1]
  calls := 1
  log _ := ⟨1, 0, []⟩
  uses := []
  crashes := []
  provenance := ⟨1, 0, 0, 0, 0, 0⟩

def oauthError : JSONObject := fun key =>
  if key = "error" then some (.string (literal "invalid_grant")) else none

/-- An OAuth error body replaces the token and its type in memory, and then crashes the app. -/
theorem oauthError_crashes :
    ∃ t, refreshing.tokenReply asciiPlatform (.general (literal "1/refresh") (.caller 0) 1)
        (.object oauthError) = .raised .badAccess t ∧
      t.manager.generalAccess = some ⟨none, some 1000⟩ ∧ t.manager._authorizationType = none ∧
      (run asciiPlatform (literal "1/refresh") refreshing [.reply 0 (.object oauthError)]).state.running =
        false :=
  ⟨_, rfl, rfl, rfl, rfl⟩

end TokenService
end LeptosMusic
