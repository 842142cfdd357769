import Peering.Session.Basic

/-!
# Steps of a session

`Session.step` takes one step and gives the session after it, the notices it left, and what it shows. A step that
crashes shows only that; what it did before stays done, and the completions it ran are shown later.
-/

namespace Peering

/-- What a step leads to. -/
structure StepResult where
  session : Session
  notices : List Notice
  report : Report

namespace Session

/-- The session after some events. -/
def record (s : Session) (events : List Event) : Session := { s with asked := s.asked ++ Event.queries events }

/-- The session after some completions have run. -/
def deliver (s : Session) (ran : List Completed) : Session :=
  { s with delivered := s.delivered ++ ran, unseen := s.unseen ++ ran }

/-- The session with more completions that are kept and more tasks that wait. -/
def keep (s : Session) (held : List (Held Completion)) (tasks : List (Task Completion)) : Session :=
  { s with held := s.held ++ held, tasks := s.tasks ++ tasks }

/-- The session after all completions have been shown. -/
def shown (s : Session) : Session := { s with unseen := [] }

/-- The result of a computation in a session; `after` says what its value does to the session and shows. -/
def conclude {α : Type} (s : Session) (run : Run α) (after : Session → α → Session × Report) : StepResult :=
  let s := s.record run.events
  let notices := Event.notices run.events
  match run.value? with
  | none => ⟨s, notices, .crashed⟩
  | some a =>
    let (s, report) := after s a
    ⟨s, notices, report⟩

/-! ## Calls -/

/-- What the delivery of a call does to the session; `finish` says how a completion runs with what it is given. -/
def afterDelivery {α : Type} (finish : Completion → α → Completed) (s : Session) (d : Delivery Completion α) :
    Session × Report :=
  let now := d.now.map fun (c, a) => finish c a
  let later := d.later.map fun (c, a) => finish c a
  (((s.deliver (now ++ later)).keep d.held d.tasks).shown, .started (s.unseen ++ now) later)

/-- Resolves the endpoints of a configuration: first the one to listen on, then the contacts. -/
def resolveConfig (s : Session) (c : PeerConfig) (ctx : Context) :
    Run (Except EndpointError SocketAddress × List (Except EndpointError SocketAddress)) := do
  let listenOn ← c.resolveListenOn s.source ctx
  return (listenOn, ← c.resolveContacts s.source ctx)

/-! ## Completions that are kept -/

/-- The session after some completions have run that were taken from those kept, and whether that crashed. -/
def afterCompletions (s : Session) (ran : List Completed) (crashed : Bool) : Session × Report :=
  let s := s.deliver ran
  if crashed then (s, .crashed) else (s.shown, .completed s.unseen)

/-- Runs completions in order up to one whose answer crashes: what ran, and whether one crashed. -/
def runHeld (script : Script) : List (Held Completion) → List Completed × Bool
  | [] => ([], false)
  | h :: r =>
    match script h.query with
    | none => ([], true)
    | some a =>
      let (ran, crashed) := runHeld script r
      (h.completion.run a :: ran, crashed)

/-- Takes the first `count` completions that are kept and runs them; after a crash the rest of them never run. -/
def complete (s : Session) (count : Nat) : StepResult :=
  let (ran, crashed) := runHeld s.surroundings.script (s.held.take count)
  let (after, report) := { s with held := s.held.drop count }.afterCompletions ran crashed
  ⟨after, [], report⟩

/-- Runs one completion through a guard; a guard whose answer crashes is dropped. The flag tells whether it crashed. -/
def throughGuard (script : Script) (drop : Bool) (h : Held Completion) : Run (List (Completion × Answer) × Bool) :=
  let g := Guard.make h.completion
  match drop, script h.query with
  | false, some a => do return (← g.complete a, false)
  | false, none => do return (← g.drop, true)
  | true, _ => do return (← g.drop, false)

/-- Runs completions in order, each through a guard, up to one that crashes: what ran, and whether one crashed. -/
def runGuarded (script : Script) (drop : Bool) : List (Held Completion) → Run (List Completed × Bool)
  | [] => return ([], false)
  | h :: r => do
    let (ran, crashed) ← throughGuard script drop h
    let ran := Completion.runEach ran
    if crashed then return (ran, true)
    else
      let (more, crashed) ← runGuarded script drop r
      return (ran ++ more, crashed)

/-- Takes all completions that are kept and runs each through a guard; after a crash the rest of them never run. -/
def completeGuarded (s : Session) (drop : Bool) : StepResult :=
  s.conclude (runGuarded s.surroundings.script drop s.held) fun s (ran, crashed) =>
    { s with held := [] }.afterCompletions ran crashed

/-- Is done with a completion in some way. -/
def settleWith (c : Completion) : Settlement → Run (List (Completion × Answer))
  | .direct a => return [(c, a)]
  | .guarded a => (Guard.make c).complete a
  | .dropped => (Guard.make c).drop

/-- Takes the completion of the step `id` from those kept and is done with it in the given way. -/
def settle (s : Session) (id : Nat) (how : Settlement) : StepResult :=
  match s.held.find? (·.completion.step == id) with
  | none => ⟨s, [], .nothing⟩
  | some h =>
    s.conclude (settleWith h.completion how) fun s ran =>
      { s with held := s.held.eraseP (·.completion.step == id) }.afterCompletions (Completion.runEach ran) false

/-! ## Tasks -/

/-- Whether the task is for the completion of the step `id`. -/
def isTaskOf (id : Nat) (t : Task Completion) : Bool := t.guard.completion.any (·.step == id)

/-- Takes the task of the step `id` from those that wait and ends it in the given way. -/
def endTask (s : Session) (id : Nat) (use : Task Completion → Run (List (Completion × Answer))) : StepResult :=
  match s.tasks.find? (isTaskOf id) with
  | none => ⟨s, [], .nothing⟩
  | some t =>
    s.conclude (use t) fun s ran =>
      { s with tasks := s.tasks.eraseP (isTaskOf id) }.afterCompletions (Completion.runEach ran) false

/-! ## Guards -/

/-- Makes a guard. -/
def guardNew (s : Session) (n : Nat) : StepResult :=
  ⟨{ s with guards := s.guards ++ [(n, Guard.make n)] }, [], .guardMade n⟩

/-- Consumes a guard in the given way. -/
def consumeGuard (s : Session) (id : Nat) (crashed : Bool) (use : Guard Nat → Run (List (Nat × Answer))) :
    StepResult :=
  match s.guard? id with
  | none => ⟨s, [], .noSuchGuard⟩
  | some g =>
    s.conclude (use g) fun s ran =>
      ({ s with guards := s.guards.filter (·.1 != id), guardRuns := s.guardRuns ++ ran },
        if crashed then .crashed else .guardRan (ran.map Prod.snd))

/-! ## Steps -/

/-- Takes the step with the number `n`. -/
def act (s : Session) (n : Nat) : Action → StepResult
  | .resolve e o ctx => s.conclude (e.resolve s.source ctx o) fun s r => (s, .resolved r)
  | .resolveAsync e o ctx =>
    s.conclude (e.resolveAsync s.source ctx o (.resolution n)) (afterDelivery fun c o => .resolution c.step o)
  | .block q ctx => s.conclude (s.source.block ctx q) fun s a => (s, .answered a)
  | .await q ctx => s.conclude (s.source.await ctx q) fun s a => (s, .answered a)
  | .submit q ctx => s.conclude (s.source.submit ctx q (.query n)) (afterDelivery fun c a => c.run a)
  | .resolveConfig c ctx => s.conclude (s.resolveConfig c ctx) fun s (l, cs) => (s, .config l cs)
  | .setScript script => ⟨{ s with surroundings := { s.surroundings with script } }, [], .scriptSet⟩
  | .complete count => s.complete (count.getD s.held.length)
  | .completeGuarded drop => s.completeGuarded drop
  | .settle id how => s.settle id how
  | .runTask id => s.endTask id Task.run
  | .dropTask id => s.endTask id Task.tearDown
  | .guardNew => s.guardNew n
  | .guardComplete id (some a) => s.consumeGuard id false fun g => g.complete a
  | .guardComplete id none => s.consumeGuard id true Guard.drop
  | .guardDrop id => s.consumeGuard id false Guard.drop
  | .pass => ⟨s, [], .nothing⟩

/-- Takes the next step. -/
def step (s : Session) (a : Action) : StepResult := { s with clock := s.clock + 1 }.act s.clock a

/-- Takes steps in order and gives the session after them and the results of the steps. -/
def run (s : Session) : List Action → Session × List StepResult
  | [] => (s, [])
  | a :: r =>
    let result := s.step a
    let (s, results) := result.session.run r
    (s, result :: results)

end Session

end Peering
