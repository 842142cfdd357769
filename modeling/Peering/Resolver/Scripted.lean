import Peering.Resolver.Source

/-!
# Sources with prepared answers

A `Script` says what a query comes to; where it has no answer, the lookup crashes. A source with a script records each
query that it is asked. One of them can only be awaited (`Script.source`); the other keeps completions until it is told
to run them (`Script.holdingSource`).
-/

namespace Peering

/-- The answer to each query; a query without an answer crashes. -/
abbrev Script := Query → Option Answer

namespace Script

/-- Gives each query its results out of some addresses. -/
def ofAddresses (ips : List IPAddress) : Script := fun q => some (q.answer ips)

/-- Fails each query. -/
def ofError (e : LookupError) : Script := fun _ => some (.error e)

/-- Gives each query no results, as a success. -/
def nothing : Script := fun _ => some (.ok ⟨[]⟩)

/-- Crashes on each query. -/
def crashing : Script := fun _ => none

/-- Records a query and answers it. -/
def lookup (script : Script) (q : Query) : Run Answer := do
  .ask q
  .ofOption (script q)

/-- The script as a source that can only be awaited. The call itself only records the query and hands back the lookup; a
query without an answer crashes the lookup, where it is run, and never the call. -/
def source {κ : Type} (script : Script) : Source κ where
  await _ := script.lookup
  block _ := script.lookup
  submit := Source.spawn .ask fun q => .ofOption (script q)

/-- The script as a source that keeps completions. -/
def holdingSource {κ : Type} (script : Script) : Source κ where
  await _ := script.lookup
  block _ := script.lookup
  submit _ q c := do
    .ask q
    return { Delivery.empty with held := [⟨c, q⟩] }

end Script

end Peering
