import Peering.Trace

/-!
# Guards of completions

A lookup comes to an `Answer`. A guard owns a completion until it has run. Completing the guard runs it with an answer;
dropping the guard first runs it as abandoned. A guard is dropped at the end of its completion, too, when there is
nothing left to run.
-/

namespace Peering

/-- What a lookup comes to. -/
abbrev Answer := Except LookupError Results

/-! ## Abandoned lookups -/

/-- What the completion of an abandoned lookup gets. -/
def abandonedAnswer : Answer := .error .taskFailed

/-- Leaves the notice of an abandoned lookup. -/
def noticeAbandoned : Run Unit := .notice (.lookupDropped LookupError.taskFailed.code)

/-! ## Guards -/

/-- Owns a completion until it has run. -/
structure Guard (α : Type) where
  /-- The completion, while it has not run. -/
  completion : Option α
deriving DecidableEq

namespace Guard

variable {α : Type}

/-- The guard of a completion. -/
def make (c : α) : Guard α := ⟨some c⟩

/-- Whether the completion has yet to run. -/
def isPending (g : Guard α) : Bool := g.completion.isSome

/-- Runs the completion with an answer, unless it has run: the guard after that, and what was run. -/
def release (g : Guard α) (a : Answer) : Guard α × List (α × Answer) :=
  (⟨none⟩, (g.completion.map (·, a)).toList)

/-- Drops the guard and gives what was run. -/
def drop (g : Guard α) : Run (List (α × Answer)) :=
  if g.isPending then do
    noticeAbandoned
    return (g.release abandonedAnswer).2
  else return []

/-- Completes the guard and gives what was run. -/
def complete (g : Guard α) (a : Answer) : Run (List (α × Answer)) := do
  let (g, released) := g.release a
  return released ++ (← g.drop)

end Guard

end Peering
