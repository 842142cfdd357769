import Peering.Endpoint.Resolution
import Peering.Resolver.Guard
import Peering.Resolver.Stack

/-!
# Sessions

A session is a resolver in use: calls are made, some of their completions are kept, some wait in the background, and
guards are made, completed and dropped. Each step has a number, by which its completion is known. The state keeps what a
later step can show: the queries that the bottom was asked, the completions that are kept, the tasks that wait, the
guards, and every completion that has run. What ran in a step that crashed is shown by the next step that shows
completions.
-/

namespace Peering

/-- The completion of a call, by the number of its step. -/
inductive Completion where
  /-- Of the resolution of an endpoint. -/
  | resolution (step : Nat)
  /-- Of a query put to the resolver directly. -/
  | query (step : Nat)
deriving DecidableEq

/-- A completion that has run, with what it was given. -/
inductive Completed where
  | resolution (step : Nat) (outcome : Outcome)
  | query (step : Nat) (answer : Answer)

namespace Completion

/-- The number of the step that made the call. -/
def step : Completion → Nat
  | resolution n => n
  | query n => n

/-- Runs a completion with an answer. -/
def run (a : Answer) : Completion → Completed
  | resolution n => .resolution n (.ofAnswer a)
  | query n => .query n a

/-- Runs completions, each with its answer. -/
def runEach (l : List (Completion × Answer)) : List Completed := l.map fun (c, a) => c.run a

end Completion

/-- The number of the step whose completion has run. -/
def Completed.step : Completed → Nat
  | resolution n _ => n
  | query n _ => n

/-- A resolver in use. -/
structure Session where
  resolver : Resolver
  surroundings : Surroundings
  /-- The number of the next step. -/
  clock : Nat
  /-- The queries that the bottom was asked, in order. -/
  asked : List Query
  /-- The completions that are kept, in the order of their calls. -/
  held : List (Held Completion)
  /-- The tasks that wait in the background, in the order of their calls. -/
  tasks : List (Task Completion)
  /-- The guards that are neither completed nor dropped, with the steps that made them. -/
  guards : List (Nat × Guard Nat)
  /-- The completions that have run, in order. -/
  delivered : List Completed
  /-- Those of them that no step has shown yet. -/
  unseen : List Completed
  /-- The completions of guards that have run, in order. -/
  guardRuns : List (Nat × Answer)

namespace Session

/-- The session before the first step. -/
def start (resolver : Resolver) (surroundings : Surroundings) : Session :=
  ⟨resolver, surroundings, 0, [], [], [], [], [], [], []⟩

/-- The resolver as a source, with the script that stands. -/
def source (s : Session) : Source Completion := s.resolver.source s.surroundings

/-- The guard that a step made, while it is neither completed nor dropped. -/
def guard? (s : Session) (id : Nat) : Option (Guard Nat) := (s.guards.find? (·.1 == id)).map Prod.snd

/-- What the completion of the guard that a step made was given, in order. -/
def givenByGuard (s : Session) (id : Nat) : List Answer := (s.guardRuns.filter (·.1 == id)).map Prod.snd

end Session

/-- A way to be done with a completion that is kept. A guard may be made of it at any time before, which shows
nowhere. -/
inductive Settlement where
  /-- It runs with an answer. -/
  | direct (a : Answer)
  /-- Its guard is completed with an answer. -/
  | guarded (a : Answer)
  /-- Its guard is dropped. -/
  | dropped

/-- A step of a session. -/
inductive Action where
  /-- Resolves an endpoint and blocks. -/
  | resolve (e : Endpoint) (o : ResolveOptions) (ctx : Context)
  /-- Resolves an endpoint in the background. -/
  | resolveAsync (e : Endpoint) (o : ResolveOptions) (ctx : Context)
  /-- Puts a query to the resolver and blocks. -/
  | block (q : Query) (ctx : Context)
  /-- Puts a query to the resolver and waits. -/
  | await (q : Query) (ctx : Context)
  /-- Puts a query to the resolver with a completion. -/
  | submit (q : Query) (ctx : Context)
  /-- Resolves the endpoints of a configuration. -/
  | resolveConfig (c : PeerConfig) (ctx : Context)
  /-- Changes the script. -/
  | setScript (script : Script)
  /-- Runs the first completions that are kept, or all. -/
  | complete (count : Option Nat)
  /-- Runs all completions that are kept, each through a guard that is completed or dropped. -/
  | completeGuarded (drop : Bool)
  /-- Is done with the completion of one call, if it is kept. -/
  | settle (id : Nat) (how : Settlement)
  /-- Lets the runtime of a call run its task, if it waits. -/
  | runTask (id : Nat)
  /-- Lets the runtime of a call go away with its task, if it waits. -/
  | dropTask (id : Nat)
  /-- Makes a guard. -/
  | guardNew
  /-- Completes a guard; without an answer, finding the answer crashes. -/
  | guardComplete (id : Nat) (answer : Option Answer)
  /-- Drops a guard. -/
  | guardDrop (id : Nat)
  /-- Does nothing. -/
  | pass

/-- What a step shows. -/
inductive Report where
  /-- The endpoint of a blocking resolution. -/
  | resolved (r : Except EndpointError SocketAddress)
  /-- The answer to a query. -/
  | answered (a : Answer)
  /-- The completions to show that ran before the call returned, and those that ran after it within the step. -/
  | started (now later : List Completed)
  /-- The completions to show. -/
  | completed (all : List Completed)
  /-- The endpoints of a configuration. -/
  | config (listenOn : Except EndpointError SocketAddress) (contacts : List (Except EndpointError SocketAddress))
  | scriptSet
  | guardMade (id : Nat)
  /-- What the guard's completion was given. -/
  | guardRan (answers : List Answer)
  | noSuchGuard
  | crashed
  | nothing

end Peering
