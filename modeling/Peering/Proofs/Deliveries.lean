import Peering.Endpoint.Resolution
import Peering.Proofs.OverrideStack

/-!
# What becomes of the completion of a call

A call hands one completion to a resolver. What becomes of it is decided by the call alone (`Fate`): by the endpoint, by
the first table of overrides that has the host, by the bottom, and by what there is to run things in the background.

* `Guard.value?_complete_make`, `Guard.value?_drop_make`: a guard runs its completion once, though it is dropped after
  it has been completed;
* `Source.value?_spawn`: the completion of a lookup in the background, in each context, for a call that gets as far as
  the lookup; `Source.value?_spawn_eq_none_iff`: a call that does not crashes, and its completion is lost;
* `Resolver.value?_submit`: the completion of a query, through all layers;
* `Endpoint.value?_resolveAsync`: the completion of a resolution.

The bottoms of `Resolver` get as far as the lookup in every call: a script may crash the lookup, but not the call.
-/

namespace Peering

/-! ## Values of computations -/

namespace Run

variable {α β : Type}

@[simp] theorem value?_notice (n : Notice) : (notice n).value? = some () := rfl

@[simp] theorem value?_ask (q : Query) : (ask q).value? = some () := rfl

@[simp] theorem value?_attempt (x : Run α) : x.attempt.value? = some x.value? := rfl

@[simp] theorem value?_ofOption (o : Option α) : (ofOption o).value? = o := by cases o <;> rfl

@[simp] theorem value?_map (f : α → β) (x : Run α) : (f <$> x).value? = x.value?.map f := by
  rw [← bind_pure_comp, value?_bind]
  cases x.value? <;> rfl

end Run

/-! ## Guards and tasks -/

section Once

variable {κ : Type}

/-- A completed guard has run its completion once: nothing is left for the drop at its end. -/
@[simp] theorem Guard.value?_complete_make (c : κ) (a : Answer) :
    ((Guard.make c).complete a).value? = some [(c, a)] := by
  simp [complete, release, make, drop, isPending]

/-- A dropped guard has run its completion as abandoned. -/
@[simp] theorem Guard.value?_drop_make (c : κ) : (Guard.make c).drop.value? = some [(c, abandonedAnswer)] := by
  simp [drop, release, make, isPending, noticeAbandoned]

namespace Task

/-- What the completion of a task gets when the task is run. -/
def answer (t : Task κ) : Answer := t.lookup.value?.getD abandonedAnswer

/-- A task that is run has run its completion once. -/
theorem value?_run {t : Task κ} {c : κ} (h : t.guard = .make c) : t.run.value? = some [(c, t.answer)] := by
  rw [run, Run.value?_bind, Run.value?_attempt, answer]
  cases hlookup : t.lookup.value? with
  | none => simp [h]
  | some a => simp [h]

/-- A task that is torn down has run its completion as abandoned. -/
theorem value?_tearDown {t : Task κ} {c : κ} (h : t.guard = .make c) :
    t.tearDown.value? = some [(c, abandonedAnswer)] := by
  rw [tearDown, h, Guard.value?_drop_make]

end Task

end Once

/-! ## Fates -/

/-- What becomes of the completion of a call. -/
inductive Fate (α : Type) where
  /-- It runs before the call returns. -/
  | now (a : α)
  /-- It runs after the call has returned, before anything else is done. -/
  | later (a : α)
  /-- It waits in the background; a lookup has this answer for it. -/
  | waiting (a : Answer)
  /-- It is kept, with the query it belongs to. -/
  | held (q : Query)

namespace Fate

variable {κ α β : Type}

/-- The fate with something else in place of what is given. -/
def map (f : α → β) : Fate α → Fate β
  | now a => .now (f a)
  | later a => .later (f a)
  | waiting a => .waiting a
  | held q => .held q

/-- The delivery has one completion, which meets the fate, and no other. -/
inductive IsOf (c : κ) : Fate α → Delivery κ α → Prop
  | now (a : α) : IsOf c (.now a) ⟨[(c, a)], [], [], []⟩
  | later (a : α) : IsOf c (.later a) ⟨[], [(c, a)], [], []⟩
  | waiting (t : Task κ) (ht : t.guard = .make c) : IsOf c (.waiting t.answer) ⟨[], [], [t], []⟩
  | held (q : Query) : IsOf c (.held q) ⟨[], [], [], [⟨c, q⟩]⟩

theorem IsOf.map {c : κ} {f : Fate α} {d : Delivery κ α} (h : f.IsOf c d) (g : α → β) : (f.map g).IsOf c (d.map g) := by
  cases h with
  | now a => exact .now (g a)
  | later a => exact .later (g a)
  | waiting t ht => exact .waiting t ht
  | held q => exact .held q

end Fate

/-- The fate of the completion of a lookup in the background, by what there is to run it: `own` is the lookup's own
answer. -/
def Context.fate (own : Answer) : Context → Fate Answer
  | absent => .now (.error .noRuntime)
  | running => .later own
  | staying => .waiting own
  | dropped => .later abandonedAnswer
  | shutDown => .now abandonedAnswer

/-- When a call gets as far as its lookup, the lookup takes the completion with it, whatever there is to run it and
though it may crash. -/
theorem Source.value?_spawn {κ : Type} (start : Query → Run Unit) (lookup : Query → Run Answer) {q : Query}
    (hstart : (start q).value? = some ()) (ctx : Context) (c : κ) :
    ∃ d, (spawn start lookup ctx q c).value? = some d ∧
      (ctx.fate ((lookup q).value?.getD abandonedAnswer)).IsOf c d := by
  have hmake : (Task.make c (lookup q)).guard = .make c := rfl
  cases ctx with
  | absent => exact ⟨_, rfl, .now _⟩
  | running =>
    refine ⟨_, ?_, .later _⟩
    simp only [spawn, Run.value?_bind, hstart, Task.value?_run hmake, Option.bind_some]
    rfl
  | staying =>
    refine ⟨_, ?_, .waiting (Task.make c (lookup q)) rfl⟩
    simp only [spawn, Run.value?_bind, hstart, Option.bind_some]
    rfl
  | dropped =>
    refine ⟨_, ?_, .later _⟩
    simp only [spawn, Run.value?_bind, hstart, Task.value?_tearDown hmake, Option.bind_some]
    rfl
  | shutDown =>
    refine ⟨_, ?_, .now _⟩
    simp only [spawn, Run.value?_bind, hstart, Task.value?_tearDown hmake, Option.bind_some]
    rfl

/-- A call crashes exactly when its own part does, before there is a guard for the completion. Without a runtime that
part is not reached. -/
theorem Source.value?_spawn_eq_none_iff {κ : Type} (start : Query → Run Unit) (lookup : Query → Run Answer)
    (ctx : Context) (q : Query) (c : κ) :
    (spawn start lookup ctx q c).value? = none ↔ (start q).value? = none ∧ ctx ≠ .absent := by
  cases hstart : (start q).value? with
  | some u =>
    obtain ⟨d, hd, -⟩ := value?_spawn start lookup hstart ctx c
    simp [hd]
  | none =>
    cases ctx with
    | absent => simp [spawn, Run.value?_bind]
    | running | staying | dropped | shutDown => simp [spawn, Run.value?_bind, hstart]

/-! ## Queries -/

namespace Resolver

/-- The answer of a resolver that is awaited where there is a runtime; a crash counts as abandoned. Completions have no
part in this, so it does not matter what they are. -/
def ownAnswer (env : Surroundings) (r : Resolver) (q : Query) : Answer :=
  ((r.source env : Source Unit).await .running q).value?.getD abandonedAnswer

/-- The fate of the completion of a query: a table answers at once, a holding bottom keeps the completion, and any other
looks the query up in the background. -/
def fate (env : Surroundings) (r : Resolver) (ctx : Context) (q : Query) : Fate Answer :=
  match Layer.pinned? q.host r.layers with
  | some ips => .now (q.answer ips)
  | none => if r.bottom = .holding then .held q else ctx.fate (r.ownAnswer env q)

/-- The completion of a query meets its fate: each bottom comes to its lookup, or keeps the completion. -/
theorem value?_submit {κ : Type} (env : Surroundings) (r : Resolver) (ctx : Context) (q : Query) (c : κ) :
    ∃ d, ((r.source env).submit ctx q c).value? = some d ∧ (r.fate env ctx q).IsOf c d := by
  cases hpinned : Layer.pinned? q.host r.layers with
  | some ips =>
    refine ⟨.atOnce c (q.answer ips), ?_, ?_⟩
    · rw [(pins_source hpinned env).submit]
    · rw [fate, hpinned]
      exact .now _
  | none =>
    rw [(agrees_source hpinned env).submit, fate, hpinned]
    dsimp only
    rw [ownAnswer, (agrees_source hpinned env).await]
    cases r.bottom with
    | holding => exact ⟨_, rfl, .held q⟩
    | system => exact Source.value?_spawn _ _ rfl ctx c
    | nameServer => exact Source.value?_spawn _ _ rfl ctx c
    | scripted =>
      have hown : (env.script.lookup q).value? = env.script q := by
        simp [Script.lookup, Run.value?_bind]
      have hspawn := Source.value?_spawn Run.ask (fun q => .ofOption (env.script q)) (q := q) rfl ctx c
      rw [Run.value?_ofOption, ← hown] at hspawn
      exact hspawn

end Resolver

/-! ## Resolutions -/

namespace Endpoint

/-- The fate of the completion of a resolution: a literal endpoint resolves at once. -/
def fate (env : Surroundings) (r : Resolver) (ctx : Context) (o : ResolveOptions) : Endpoint → Fate Outcome
  | ipv4 a port => .now ((literalSocket (.v4 a) port o.defaultService).map literalResults)
  | ipv6 a port => .now ((literalSocket (.v6 a) port o.defaultService).map literalResults)
  | host h => (r.fate env ctx (h.query o)).map .ofAnswer

/-- The completion of a resolution meets its fate. -/
theorem value?_resolveAsync {κ : Type} (env : Surroundings) (r : Resolver) (ctx : Context) (o : ResolveOptions) (c : κ)
    (e : Endpoint) :
    ∃ d, (e.resolveAsync (r.source env) ctx o c).value? = some d ∧ (e.fate env r ctx o).IsOf c d := by
  cases e with
  | ipv4 a port => exact ⟨_, rfl, .now _⟩
  | ipv6 a port => exact ⟨_, rfl, .now _⟩
  | host h =>
    obtain ⟨d, hd, hfate⟩ := r.value?_submit env ctx (h.query o) c
    refine ⟨d.map .ofAnswer, ?_, hfate.map _⟩
    simp [resolveAsync, Run.value?_bind, hd]

end Endpoint

end Peering
