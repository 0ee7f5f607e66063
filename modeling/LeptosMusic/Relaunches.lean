import LeptosMusic.SingleSend

/-!
# An installation and its processes

A process of the app ends at any moment, and the next launch finds what it has stored. Over all
processes of an installation, a task is started only with both headers.
-/
namespace LeptosMusic
open Runs (Outcome Along Always)

/-- The threads of the last process, and whether it still runs. -/
structure Installation (Message : Type) where
  process : SessionThreads Message
  running : Bool

namespace Installation
open SessionThreads (Accounted Backed Current Manages Honest Awaits launched)
variable {Message : Type} {P : Platform} {C : Nat → ResponseClass Message}
  {s t : Installation Message}

/-- Before the first launch. -/
def new (defaults : NSUserDefaults) (now : Int) : Installation Message :=
  ⟨launched (.off defaults now), false⟩

/-- A launch comes after the end of the last process, which may have been at any of its steps. With
`setObject` the user defaults are written by somebody else. -/
inductive Action where
  | launch
  | setObject (object : Option DefaultsObject) (key : String)
  | thread (action : SessionThreads.Action)

def launch (P : Platform) (self : Installation Message) : Installation Message :=
  let app := self.process.app.launch P
  ⟨launched app.state, app.finished⟩

/-- Raising ends the process, but not the installation. -/
def step (P : Platform) (C : Nat → ResponseClass Message) (self : Installation Message) :
    Action → Outcome Fault (Installation Message)
  | .launch => .done (self.launch P)
  | .setObject object key =>
      .done { self with process := { self.process with app := { self.process.app with
        defaults := self.process.app.defaults.setObject object key } } }
  | .thread action =>
      if self.running then
        let process := self.process.step P C action
        .done ⟨process.state, process.finished⟩
      else .done self

abbrev run (P : Platform) (C : Nat → ResponseClass Message) (self : Installation Message)
    (actions : List Action) : Outcome Fault (Installation Message) := Runs.run (step P C) self actions

variable (P) in
/-- The stored archive, if any, decodes to a registered crypto; or unarchiving raises. -/
def archiveUsable (defaults : NSUserDefaults) : Bool :=
  match defaults.dataForKey LMRequestCryptoManagerApiaryUserDefaultsKey with
  | none => true
  | some cryptoData =>
      match P.unarchivedObject cryptoData with
      | .ok crypto => (crypto.map LMApiaryDeviceCrypto.registered).getD false
      | .error _ => true

variable (P) in
/-- What has to be right: at a launch the archive, and what the threads rely on. -/
def sound (s : Installation Message) : Action → Bool
  | .launch => archiveUsable P s.process.app.defaults
  | .setObject _ _ => true
  | .thread action => !s.running || s.process.sound P action

variable (P) in
/-- Only tasks that pass have been started, and every light is honest. -/
structure GateHolds (s : Installation Message) : Prop where
  started : ∀ task ∈ s.process.app.started, task.Passes P
  cryptoGreenLight : ∀ session ∈ s.process.app.sessions, session.cryptoGreenLight = true →
    DeviceSigned P session.urlRequest
  accessGreenLight : ∀ session ∈ s.process.app.sessions, session.accessGreenLight = true →
    AccessAuthorized session.urlRequest session.authorization

variable (P) in
/-- The process is honest while it runs, and the gate holds. -/
structure Guarded (s : Installation Message) : Prop where
  gate : s.GateHolds P
  honest : s.running = true → s.process.Honest P

theorem gateHolds_of_honest (honest : s.process.Honest P) : s.GateHolds P where
  started task member := ⟨honest.signed.started task member, honest.authorized.started task member⟩
  cryptoGreenLight session member green := by
    obtain ⟨i, found⟩ := List.mem_iff_getElem?.mp member
    exact honest.signed.lights i session found green
  accessGreenLight session member green := by
    obtain ⟨i, found⟩ := List.mem_iff_getElem?.mp member
    exact honest.authorized.lights i session found green

/-- A launch starts nothing, and begins without sessions. -/
theorem launch_keeps (P : Platform) (app : InnerTube) :
    (app.launch P).state.started = app.started ∧ (app.launch P).state.sessions = [] ∧
      (app.launch P).state.defaults = app.defaults := by
  simp only [InnerTube.launch]
  split <;> split <;> exact ⟨rfl, rfl, rfl⟩

theorem manages_launched {before app : InnerTube} (launch : before.launch P = .done app)
    (usable : archiveUsable P before.defaults = true) :
    Manages (fun _ => True) (fun crypto => crypto.registered = true)
      (launched app : SessionThreads Message) := by
  rw [archiveUsable] at usable
  simp only [InnerTube.launch] at launch
  cases stored : before.defaults.dataForKey LMRequestCryptoManagerApiaryUserDefaultsKey with
  | some cryptoData =>
      rw [stored] at usable launch
      dsimp only at usable launch
      cases decoded : P.unarchivedObject cryptoData with
      | error fault =>
          rw [decoded] at launch
          cases launch
      | ok object =>
          rw [decoded] at usable launch
          cases launch
          refine ⟨fun _ => ?_, fun waiting => (by cases waiting), fun _ _ _ member => (by cases member),
            fun member => (by cases member)⟩
          cases object with
          | none => cases usable
          | some crypto => exact ⟨crypto, rfl, usable⟩
  | none =>
      rw [stored] at launch
      dsimp only at launch
      split at launch
      · cases launch
        exact ⟨fun ready => (by cases ready), fun _ => ⟨rfl, _, rfl, trivial⟩,
          fun _ _ _ member => (by cases member), fun member => (by cases member)⟩
      · cases launch

theorem Guarded.launch (guarded : s.Guarded P) (usable : archiveUsable P s.process.app.defaults = true) :
    (s.launch P).Guarded P := by
  obtain ⟨started, sessions, _⟩ := launch_keeps P s.process.app
  have noSession {i : Nat} {session : LMInnerTubeSession}
      (found : (s.process.app.launch P).state.sessions[i]? = some session) : False := by
    rw [sessions] at found
    cases found
  have passed : ∀ task ∈ (s.process.app.launch P).state.started, task.Passes P :=
    started ▸ guarded.gate.started
  refine ⟨⟨passed, ?_, ?_⟩, fun running => ?_⟩
  · intro session member
    obtain ⟨i, found⟩ := List.mem_iff_getElem?.mp member
    exact (noSession found).elim
  · intro session member
    obtain ⟨i, found⟩ := List.mem_iff_getElem?.mp member
    exact (noSession found).elim
  · change (s.process.app.launch P).finished = true at running
    cases outcome : s.process.app.launch P with
    | raised fault app =>
        rw [outcome] at running
        cases running
    | done app =>
        rw [outcome] at noSession passed
        have nobody {i : Nat} {step : SessionStep}
            (awaits : (launched app : SessionThreads Message).Awaits i step) : False := by
          rcases awaits with member | member <;> cases member
        have honest : (launched app : SessionThreads Message).Honest P :=
          { accounted := SessionThreads.accounted_launched outcome
            signed := ⟨fun _ _ found => (noSession found).elim,
              fun task member => (passed task member).1, fun _ awaits => (nobody awaits).elim⟩
            authorized := ⟨fun _ _ found => (noSession found).elim,
              fun task member => (passed task member).2, fun _ awaits => (nobody awaits).elim⟩
            current := fun _ awaits => (nobody awaits).elim
            manages := manages_launched outcome usable }
        rw [Installation.launch, outcome]
        exact honest

theorem Guarded.step {a : Action} (guarded : s.Guarded P) (sound : s.sound P a = true) :
    (s.step P C a).state.Guarded P := by
  cases a with
  | launch => exact guarded.launch sound
  | setObject object key =>
      exact ⟨⟨guarded.gate.started, guarded.gate.cryptoGreenLight, guarded.gate.accessGreenLight⟩,
        fun running => (guarded.honest running).setDefaults _⟩
  | thread action =>
      simp only [Installation.step]
      split_ifs with running
      · have sound : s.process.sound P action = true := by
          simpa [Installation.sound, running] using sound
        have honest := (guarded.honest running).preserve sound
          (SessionThreads.moved P C s.process action)
        exact ⟨gateHolds_of_honest honest, fun _ => honest⟩
      · exact guarded

theorem guarded_new (defaults : NSUserDefaults) (now : Int) :
    (new defaults now : Installation Message).Guarded P where
  gate := ⟨fun _ none => (by cases none), fun _ none => (by cases none), fun _ none => (by cases none)⟩
  honest running := by cases running

/-- Over any number of processes and sessions and all interleavings of their threads: while the
archives, the replies, the user and the clock are sound, every task that was started carries both
headers, and every green light stands for its header. -/
theorem gate_holds (P : Platform) (C : Nat → ResponseClass Message) (defaults : NSUserDefaults)
    (now : Int) (actions : List Action)
    (sound : Along (step P C) (fun s a => s.sound P a = true) (new defaults now) actions) :
    Always (step P C) (GateHolds P) (new defaults now) actions :=
  Runs.always_of_along (fun _ _ guarded sound => guarded.step sound) (fun _ guarded => guarded.gate)
    (guarded_new defaults now) sound

def threads (actions : List SessionThreads.Action) : List Action := actions.map .thread

/-- A session whose caller's thread goes on until it waits, or has sent. -/
def nextRequest : List SessionThreads.Action :=
  [.sessionWithRequest InnerTube.searchRequest, .complete 0] ++ List.replicate 9 (.caller 0)

/-- A first launch with a session and the replies it waits for, and a relaunch with another. -/
def twoLaunches : List Action :=
  .launch :: threads SessionThreads.firstRequest ++ .launch :: threads nextRequest

theorem twoLaunches_gate_holds :
    Always (step InnerTube.zeroPlatform SessionThreads.rawResponse) (GateHolds InnerTube.zeroPlatform)
        (new (fun _ => none) 0) twoLaunches ∧
      (run InnerTube.zeroPlatform SessionThreads.rawResponse (new (fun _ => none) 0)
        twoLaunches).state.process.app.started.length = 2 :=
  ⟨gate_holds InnerTube.zeroPlatform SessionThreads.rawResponse (fun _ => none) 0 twoLaunches
    (by decide +kernel), by decide⟩

/-- The general token and then the private one arrive, and are handled. -/
def tokensArrive : List SessionThreads.Action :=
  [.tokenReply 0 (.object InnerTube.generalObject), .queue, .queue,
    .tokenReply 0 (.object InnerTube.issueTokenObject), .queue]

/-- The stored archive does not decode. -/
def undecodableDefaults : NSUserDefaults :=
  NSUserDefaults.setObject (fun _ => none) (some (.data [0xff]))
    LMRequestCryptoManagerApiaryUserDefaultsKey

def undecodableLaunch : List Action :=
  .launch :: threads (nextRequest ++ tokensArrive ++ List.replicate 3 .queue)

/-- The account is changed when the private token is stored, and the header is not yet set. -/
def accountChanged : List Action :=
  .launch :: threads ([.sessionWithRequest InnerTube.searchRequest, .complete 0] ++
    List.replicate 5 (.caller 0) ++
    [.registrationReply .success 0 (.object InnerTube.registrationObject)] ++
    List.replicate 9 .queue ++ tokensArrive ++ [.setRefreshToken none] ++ List.replicate 3 .queue)

theorem not_gate_holds :
    ¬ Always (step InnerTube.zeroPlatform SessionThreads.rawResponse) (GateHolds InnerTube.zeroPlatform)
        (new undecodableDefaults 0) undecodableLaunch ∧
      ¬ Always (step InnerTube.zeroPlatform SessionThreads.rawResponse)
        (GateHolds InnerTube.zeroPlatform) (new (fun _ => none) 0) accountChanged := by
  constructor
  · intro always
    have sent : (run InnerTube.zeroPlatform SessionThreads.rawResponse (new undecodableDefaults 0)
        undecodableLaunch).state.process.app.started.map
          (fun task => task.urlRequest.headers "X-Goog-Device-Auth") = [none] := by decide
    obtain ⟨task, member, unsigned⟩ := List.mem_map.mp (sent ▸ List.mem_cons_self)
    obtain ⟨⟨crypto, _, header⟩, _⟩ := always.last.started task member
    rw [unsigned] at header
    cases header
  · intro always
    have sent : (run InnerTube.zeroPlatform SessionThreads.rawResponse (new (fun _ => none) 0)
        accountChanged).state.process.app.started.map (fun task =>
          (task.urlRequest.headers "Authorization", (task.authorization.bind (·.token)).isSome)) =
        [(some (literal "Bearer (null)"), false)] := by decide
    obtain ⟨task, member, empty⟩ := List.mem_map.mp (sent ▸ List.mem_cons_self)
    obtain ⟨_, setting, set, access, stored, _⟩ := always.last.started task member
    have empty := congrArg Prod.snd empty
    have set : task.authorization = some setting := set
    have stored : setting.token = some access := stored
    dsimp only at empty
    rw [set, Option.bind_some, stored] at empty
    cases empty

end Installation
end LeptosMusic
