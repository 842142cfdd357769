import Peering.Proofs.Completions

/-!
# What the bottom of a resolver is asked

Calls put queries to the bottom of a resolver; completions and ends of tasks put none. Which queries a call puts is
decided by the call and the layers alone (`Action.queries`): a host that some layer has is not asked for, no layer
changes a query, and a bottom that can only be awaited is not asked where there is nothing to run it.

* `Run.queries_bind`, `Run.queries_mapM`: the queries of computations that follow each other;
* `Guard.isQuiet_complete`, `Task.isQuiet_run`, `Session.isQuiet_runGuarded`: what puts no query;
* `Resolver.passes`: what layers let through, over a bottom that records its queries;
* `Session.asked_step`: what one step adds, by the action, from the state that `Session.IsRecording` describes.

`Session.asked_after` states this for all runs from the start.
-/

namespace Peering

/-! ## The queries of a computation -/

namespace Run

variable {α β : Type}

/-- The queries that a computation puts to the bottom, in order. -/
def queries (x : Run α) : List Query := Event.queries x.events

/-- The computation puts no query to the bottom. -/
def IsQuiet (x : Run α) : Prop := x.queries = []

@[simp] theorem queries_pure (a : α) : (pure a : Run α).queries = [] := rfl

@[simp] theorem queries_notice (n : Notice) : (notice n).queries = [] := rfl

@[simp] theorem queries_ask (q : Query) : (ask q).queries = [q] := rfl

@[simp] theorem queries_ofOption (o : Option α) : (ofOption o).queries = [] := by cases o <;> rfl

/-- What follows a computation puts its queries after those of the computation, if it gets to run. -/
theorem queries_bind (x : Run α) (f : α → Run β) :
    (x >>= f).queries = x.queries ++ (x.value?.map fun a => (f a).queries).getD [] := by
  rw [queries, events_bind, Event.queries, List.filterMap_append]
  cases x.value? <;> rfl

theorem queries_bind_of_value? {x : Run α} {a : α} (h : x.value? = some a) (f : α → Run β) :
    (x >>= f).queries = x.queries ++ (f a).queries := by
  rw [queries_bind, h]
  rfl

theorem IsQuiet.bind {x : Run α} {f : α → Run β} (hx : x.IsQuiet) (hf : ∀ a, (f a).IsQuiet) : (x >>= f).IsQuiet := by
  rw [IsQuiet, queries_bind, hx, List.nil_append]
  cases x.value? with
  | none => rfl
  | some a => exact hf a

/-- Where no part of it crashes, a sequence of computations has a value and puts the queries of each in turn. -/
theorem queries_mapM {f : α → Run β} (l : List α) (hf : ∀ a, (f a).value?.isSome) :
    (l.mapM f).value?.isSome ∧ (l.mapM f).queries = l.flatMap fun a => (f a).queries := by
  induction l with
  | nil => exact ⟨rfl, rfl⟩
  | cons a l ih =>
    obtain ⟨hvalue, hqueries⟩ := ih
    obtain ⟨b, hb⟩ := Option.isSome_iff_exists.1 (hf a)
    obtain ⟨bs, hbs⟩ := Option.isSome_iff_exists.1 hvalue
    rw [List.mapM_cons]
    refine ⟨by simp [value?_bind, hb, hbs], ?_⟩
    rw [queries_bind_of_value? hb, queries_bind_of_value? hbs, queries_pure, hqueries, List.append_nil,
      List.flatMap_cons]

end Run

/-! ## What puts no query -/

section Quiet

variable {κ : Type}

theorem Guard.isQuiet_drop (g : Guard κ) : g.drop.IsQuiet := by
  unfold drop
  split
  · exact .bind rfl fun _ => rfl
  · rfl

theorem Guard.isQuiet_complete (g : Guard κ) (a : Answer) : (g.complete a).IsQuiet :=
  .bind (isQuiet_drop _) fun _ => rfl

/-- A task puts no query to the bottom but those of its lookup. -/
theorem Task.isQuiet_run {t : Task κ} (h : t.lookup.IsQuiet) : t.run.IsQuiet := by
  refine .bind h fun answer? => ?_
  cases answer? with
  | none => exact t.guard.isQuiet_drop
  | some a => exact t.guard.isQuiet_complete a

namespace Session

theorem isQuiet_settleWith (c : Completion) (how : Settlement) : (settleWith c how).IsQuiet := by
  cases how with
  | direct a => rfl
  | guarded a => exact Guard.isQuiet_complete _ a
  | dropped => exact Guard.isQuiet_drop _

theorem isQuiet_throughGuard (script : Script) (drop : Bool) (h : Held Completion) :
    (throughGuard script drop h).IsQuiet := by
  unfold throughGuard
  split
  · exact .bind (Guard.isQuiet_complete _ _) fun _ => rfl
  · exact .bind (Guard.isQuiet_drop _) fun _ => rfl
  · exact .bind (Guard.isQuiet_drop _) fun _ => rfl

theorem isQuiet_runGuarded (script : Script) (drop : Bool) (l : List (Held Completion)) :
    (runGuarded script drop l).IsQuiet := by
  induction l with
  | nil => rfl
  | cons h l ih =>
    refine .bind (isQuiet_throughGuard script drop h) fun (ran, crashed) => ?_
    cases crashed with
    | true => rfl
    | false => exact .bind ih fun _ => rfl

end Session

end Quiet

/-! ## Sources that record -/

/-- The bottom records the queries that it is asked. -/
def Bottom.Records (b : Bottom) : Prop := b = .scripted ∨ b = .holding

/-- The script crashes on no query. -/
def Script.IsTotal (script : Script) : Prop := ∀ q, (script q).isSome

/-- A query makes the source put some queries to the bottom when it is awaited or blocks, and some when it is handed a
completion. It puts them in the call itself, and none later. -/
structure Source.Passes {κ : Type} (s : Source κ) (ctx : Context) (q : Query) (inCall inBackground : List Query) :
    Prop where
  await : (s.await ctx q).queries = inCall
  block : (s.block ctx q).queries = inCall
  submit (c : κ) : (s.submit ctx q c).queries = inBackground
  tasks (c : κ) : ∀ d ∈ (s.submit ctx q c).value?, ∀ t ∈ d.tasks, t.lookup.IsQuiet

section Passes

variable {κ : Type} {ctx : Context} {q : Query}

/-- A lookup in the background whose query is put in the call itself puts it wherever there is something to run it, even
if it is torn down before it has run. -/
theorem Source.queries_spawn (lookup : Query → Run Answer) (hquiet : (lookup q).IsQuiet) (c : κ) :
    (spawn .ask lookup ctx q c).queries = if ctx = .absent then [] else [q] := by
  have hrun : (Task.make c (lookup q)).run.IsQuiet := Task.isQuiet_run hquiet
  have hdrop : (Task.make c (lookup q)).tearDown.IsQuiet := Guard.isQuiet_drop _
  have hrest {l : Run (List (κ × Answer))} (hl : l.IsQuiet) (f : List (κ × Answer) → Delivery κ Answer) :
      (Run.ask q >>= fun _ => l >>= fun l => pure (f l)).queries = [q] := by
    have hquiet : (l >>= fun l => pure (f l)).IsQuiet := hl.bind fun _ => rfl
    rw [Run.queries_bind_of_value? (Run.value?_ask q), hquiet]
    rfl
  cases ctx with
  | absent => rfl
  | running => exact hrest hrun _
  | staying => rfl
  | dropped => exact hrest hdrop _
  | shutDown => exact hrest hdrop _

/-- The only task that a lookup in the background leaves is that of the lookup. -/
theorem Source.tasks_spawn {start : Query → Run Unit} {lookup : Query → Run Answer} {c : κ} {d : Delivery κ Answer}
    (hd : (spawn start lookup ctx q c).value? = some d) {t : Task κ} (ht : t ∈ d.tasks) :
    t = .make c (lookup q) := by
  cases ctx with
  | absent =>
    cases hd
    cases ht
  | staying =>
    obtain ⟨-, -, hd⟩ := Option.bind_eq_some_iff.1 ((Run.value?_bind _ _).symm.trans hd)
    cases hd
    exact List.mem_singleton.1 ht
  | _ =>
    obtain ⟨-, -, hd⟩ := Option.bind_eq_some_iff.1 ((Run.value?_bind _ _).symm.trans hd)
    obtain ⟨l, -, hd⟩ := Option.bind_eq_some_iff.1 ((Run.value?_bind _ _).symm.trans hd)
    cases hd
    cases ht

theorem Script.queries_lookup (script : Script) (q : Query) : (script.lookup q).queries = [q] := by
  rw [lookup, Run.queries_bind_of_value? (Run.value?_ask q), Run.queries_ask, Run.queries_ofOption]
  rfl

/-- A script that can only be awaited is not asked in the background where there is nothing to run it. -/
theorem Script.passes_source (script : Script) (ctx : Context) (q : Query) :
    (script.source : Source κ).Passes ctx q [q] (if ctx = .absent then [] else [q]) where
  await := script.queries_lookup q
  block := script.queries_lookup q
  submit := Source.queries_spawn (fun q => .ofOption (script q)) (Run.queries_ofOption _)
  tasks c d hd t ht := by
    obtain rfl : t = .make c (.ofOption (script q)) := Source.tasks_spawn hd ht
    exact Run.queries_ofOption _

/-- A script that keeps completions is asked wherever the call is made. -/
theorem Script.passes_holdingSource (script : Script) (ctx : Context) (q : Query) :
    (script.holdingSource : Source κ).Passes ctx q [q] [q] where
  await := script.queries_lookup q
  block := script.queries_lookup q
  submit c := rfl
  tasks c d hd t ht := by
    cases hd
    cases ht

/-- A bottom that records its queries does so in the call itself. -/
theorem Bottom.passes {b : Bottom} (hb : b.Records) (env : Surroundings) (ctx : Context) (q : Query) :
    (b.source env : Source κ).Passes ctx q [q] (if b = .scripted ∧ ctx = .absent then [] else [q]) := by
  obtain rfl | rfl := hb
  · simp only [true_and]
    exact env.script.passes_source ctx q
  · exact env.script.passes_holdingSource ctx q

/-- A source that answers by itself puts no query to the bottom. -/
theorem Source.Pins.passes {s : Source κ} {ips : List IPAddress} (h : s.Pins q ips) (ctx : Context) :
    s.Passes ctx q [] [] where
  await := by rw [h.await]; rfl
  block := by rw [h.block]; rfl
  submit c := by rw [h.submit]; rfl
  tasks c d hd t ht := by
    rw [h.submit] at hd
    cases hd
    cases ht

theorem Source.AgreesOn.passes {s s' : Source κ} {inCall inBackground : List Query} (h : AgreesOn q s s')
    (hs' : s'.Passes ctx q inCall inBackground) : s.Passes ctx q inCall inBackground where
  await := by rw [h.await, hs'.await]
  block := by rw [h.block, hs'.block]
  submit c := by rw [h.submit, hs'.submit]
  tasks c := by
    rw [h.submit]
    exact hs'.tasks c

end Passes

/-! ## Resolvers -/

namespace Resolver

/-- What the bottom is asked when a query is put to a resolver: the query itself, unless some layer has its host. -/
def passed (r : Resolver) (q : Query) : List Query := if (Layer.pinned? q.host r.layers).isSome then [] else [q]

/-- What the bottom is asked when a query is put to a resolver with a completion: the same, but a bottom that can only
be awaited is asked nothing where there is nothing to run it. -/
def passedInBackground (r : Resolver) (ctx : Context) (q : Query) : List Query :=
  if r.bottom = .scripted ∧ ctx = .absent then [] else r.passed q

/-- Layers over a bottom that records its queries let a query through or answer it. -/
theorem passes {κ : Type} {r : Resolver} (hr : r.bottom.Records) (env : Surroundings) (ctx : Context) (q : Query) :
    (r.source env : Source κ).Passes ctx q (r.passed q) (r.passedInBackground ctx q) := by
  cases hpinned : Layer.pinned? q.host r.layers with
  | some ips =>
    have hpassed : r.passed q = [] := by simp [passed, hpinned]
    rw [passedInBackground, hpassed, ite_self]
    exact (pins_source hpinned env).passes ctx
  | none =>
    have hpassed : r.passed q = [q] := by simp [passed, hpinned]
    rw [passedInBackground, hpassed]
    exact (agrees_source hpinned env).passes (Bottom.passes hr env ctx q)

/-- A resolver over a bottom that records its queries blocks until there is an answer, if the script has one for each
query. -/
theorem isSome_value?_block {κ : Type} {r : Resolver} (hr : r.bottom.Records) {env : Surroundings}
    (henv : env.script.IsTotal) (ctx : Context) (q : Query) :
    ((r.source env : Source κ).block ctx q).value?.isSome := by
  have hlookup : (env.script.lookup q).value?.isSome := by simpa [Script.lookup, Run.value?_bind] using henv q
  cases hpinned : Layer.pinned? q.host r.layers with
  | some ips =>
    rw [(pins_source hpinned env).block]
    rfl
  | none =>
    rw [(agrees_source hpinned env).block]
    obtain hscripted | hholding := hr
    · rwa [hscripted]
    · rwa [hholding]

end Resolver

/-! ## Endpoints -/

namespace Endpoint

/-- The query of an endpoint: its hostname, its service or else the default one, and the rest from the options. A
literal endpoint has none. -/
def query? (o : ResolveOptions) : Endpoint → Option Query
  | ipv4 .. => none
  | ipv6 .. => none
  | host h => some ⟨h.hostname, h.service.getD o.defaultService, o.protocol, o.flags⟩

variable {κ : Type} (s : Source κ) (ctx : Context) (o : ResolveOptions) (e : Endpoint)

/-- A blocking resolution puts no query but that of the endpoint. -/
theorem queries_resolve : (e.resolve s ctx o).queries = (e.query? o).toList.flatMap fun q => (s.block ctx q).queries := by
  cases e with
  | ipv4 a port => rfl
  | ipv6 a port => rfl
  | host h =>
    rw [resolve, Run.queries_bind_of_value? (Run.value?_notice _), Run.queries_notice, List.nil_append, Run.queries_bind]
    cases (s.block ctx (h.query o)).value? <;> simp [query?, HostEndpoint.query]

/-- A resolution in the background puts no query but that of the endpoint. -/
theorem queries_resolveAsync (c : κ) :
    (e.resolveAsync s ctx o c).queries = (e.query? o).toList.flatMap fun q => (s.submit ctx q c).queries := by
  cases e with
  | ipv4 a port => rfl
  | ipv6 a port => rfl
  | host h =>
    rw [resolveAsync, Run.queries_bind_of_value? (Run.value?_notice _), Run.queries_notice, List.nil_append,
      Run.queries_bind]
    cases (s.submit ctx (h.query o) c).value? <;> simp [query?, HostEndpoint.query]

/-- The tasks that a resolution leaves are those that the source leaves. -/
theorem tasks_resolveAsync {s : Source κ} {ctx : Context} {o : ResolveOptions} {e : Endpoint} {c : κ}
    {d : Delivery κ Outcome} (hd : (e.resolveAsync s ctx o c).value? = some d) {t : Task κ} (ht : t ∈ d.tasks) :
    ∃ q, ∃ d ∈ (s.submit ctx q c).value?, t ∈ d.tasks := by
  cases e with
  | ipv4 a port =>
    cases hd
    cases ht
  | ipv6 a port =>
    cases hd
    cases ht
  | host h =>
    obtain ⟨d', hd', rfl⟩ : ∃ d', (s.submit ctx (h.query o) c).value? = some d' ∧ d'.map .ofAnswer = d := by
      simpa [resolveAsync, Run.value?_bind, Option.bind_eq_some_iff] using hd
    exact ⟨_, d', hd', ht⟩

/-- A resolution crashes only where the source does. -/
theorem isSome_value?_resolve (hs : ∀ q, (s.block ctx q).value?.isSome) : (e.resolve s ctx o).value?.isSome := by
  cases e with
  | ipv4 a port => rfl
  | ipv6 a port => rfl
  | host h => simpa [resolve, Run.value?_bind] using hs (h.query o)

end Endpoint

namespace PeerConfig

variable {κ : Type} (s : Source κ) (ctx : Context) (c : PeerConfig)

theorem queries_resolveContact (o : ResolveOptions) (e : Endpoint) :
    (resolveContact s ctx o e).queries = (e.resolve s ctx o).queries := by
  rw [resolveContact, Run.queries_bind]
  cases (e.resolve s ctx o).value? with
  | none => exact List.append_nil _
  | some r => cases r <;> exact List.append_nil _

theorem isSome_value?_resolveContact (o : ResolveOptions) (e : Endpoint)
    (hs : ∀ q, (s.block ctx q).value?.isSome) : (resolveContact s ctx o e).value?.isSome := by
  obtain ⟨r, hr⟩ := Option.isSome_iff_exists.1 (e.isSome_value?_resolve s ctx o hs)
  rw [resolveContact, Run.value?_bind, hr]
  cases r <;> rfl

/-- The contacts put their queries in order, each its own, though some of them fail. -/
theorem queries_resolveContacts (hs : ∀ q, (s.block ctx q).value?.isSome) :
    (c.resolveContacts s ctx).queries =
      c.contacts.flatMap fun e => (e.query? c.resolve).toList.flatMap fun q => (s.block ctx q).queries := by
  rw [resolveContacts,
    (Run.queries_mapM c.contacts fun e => isSome_value?_resolveContact s ctx c.resolve e hs).2]
  simp only [queries_resolveContact, Endpoint.queries_resolve]

end PeerConfig

/-! ## Sessions -/

/-- What the bottom of a resolver is asked in a step, in order. -/
def Action.queries (r : Resolver) : Action → List Query
  | .resolve e o _ => (e.query? o).toList.flatMap r.passed
  | .resolveAsync e o ctx => (e.query? o).toList.flatMap (r.passedInBackground ctx)
  | .block q _ => r.passed q
  | .await q _ => r.passed q
  | .submit q ctx => r.passedInBackground ctx q
  | .resolveConfig c _ => (c.listenOn :: c.contacts).flatMap fun e => (e.query? c.resolve).toList.flatMap r.passed
  | _ => []

namespace Session

/-- The bottom records what it is asked and never crashes, and what waits in the background will ask it nothing. -/
structure IsRecording (s : Session) : Prop where
  bottom : s.resolver.bottom.Records
  script : s.surroundings.script.IsTotal
  tasks : ∀ t ∈ s.tasks, t.lookup.IsQuiet

section Step

variable {s : Session}

theorem asked_conclude {α : Type} (s : Session) (run : Run α) {after : Session → α → Session × Report}
    (hafter : ∀ s a, (after s a).1.asked = s.asked) : (s.conclude run after).session.asked = s.asked ++ run.queries := by
  unfold conclude
  cases run.value? with
  | none => rfl
  | some a => exact hafter _ a

theorem asked_conclude_of_isQuiet {α : Type} (s : Session) {run : Run α} (hrun : run.IsQuiet)
    {after : Session → α → Session × Report} (hafter : ∀ s a, (after s a).1.asked = s.asked) :
    (s.conclude run after).session.asked = s.asked := by
  rw [asked_conclude s run hafter, hrun, List.append_nil]

@[simp] theorem asked_afterCompletions (s : Session) (ran : List Completed) (crashed : Bool) :
    (s.afterCompletions ran crashed).1.asked = s.asked := by cases crashed <;> rfl

theorem asked_endTask {use : Task Completion → Run (List (Completion × Answer))} (id : Nat)
    (huse : ∀ t ∈ s.tasks, (use t).IsQuiet) : (s.endTask id use).session.asked = s.asked := by
  unfold endTask
  split
  · rfl
  case h_2 t hfind =>
    exact asked_conclude_of_isQuiet s (huse t (List.mem_of_find?_eq_some hfind)) fun _ _ => asked_afterCompletions _ _ _

theorem asked_consumeGuard (s : Session) (id : Nat) (crashed : Bool) {use : Guard Nat → Run (List (Nat × Answer))}
    (huse : ∀ g, (use g).IsQuiet) : (s.consumeGuard id crashed use).session.asked = s.asked := by
  unfold consumeGuard
  split
  · rfl
  · exact asked_conclude_of_isQuiet s (huse _) fun _ _ => rfl

theorem asked_settle (s : Session) (id : Nat) (how : Settlement) : (s.settle id how).session.asked = s.asked := by
  unfold settle
  split
  · rfl
  · exact asked_conclude_of_isQuiet s (isQuiet_settleWith _ how) fun _ _ => asked_afterCompletions _ _ _

/-- A configuration is asked for in its own order: first the endpoint to listen on, then the contacts. -/
theorem queries_resolveConfig (s : Session) (c : PeerConfig) (ctx : Context)
    (hs : ∀ q, (s.source.block ctx q).value?.isSome) :
    (s.resolveConfig c ctx).queries = (c.listenOn :: c.contacts).flatMap fun e =>
      (e.query? c.resolve).toList.flatMap fun q => (s.source.block ctx q).queries := by
  have hlisten : (c.resolveListenOn s.source ctx).value?.isSome := Endpoint.isSome_value?_resolve _ ctx _ _ hs
  obtain ⟨l, hl⟩ := Option.isSome_iff_exists.1 hlisten
  rw [resolveConfig, Run.queries_bind_of_value? hl, Run.queries_bind, PeerConfig.queries_resolveContacts _ _ _ hs,
    PeerConfig.resolveListenOn, Endpoint.queries_resolve, List.flatMap_cons]
  cases (c.resolveContacts s.source ctx).value? <;> simp

/-- What an action asks the bottom, from a state in which nothing else asks it anything. -/
theorem asked_act (hs : s.IsRecording) (n : Nat) (a : Action) :
    (s.act n a).session.asked = s.asked ++ a.queries s.resolver := by
  have hpasses (ctx : Context) (q : Query) :
      s.source.Passes ctx q (s.resolver.passed q) (s.resolver.passedInBackground ctx q) :=
    Resolver.passes hs.bottom s.surroundings ctx q
  have hblock (ctx : Context) : (fun q => (s.source.block ctx q).queries) = s.resolver.passed :=
    funext fun q => (hpasses ctx q).block
  have hsubmit (ctx : Context) (c : Completion) :
      (fun q => (s.source.submit ctx q c).queries) = s.resolver.passedInBackground ctx :=
    funext fun q => (hpasses ctx q).submit c
  have hvalue (ctx : Context) (q : Query) : (s.source.block ctx q).value?.isSome :=
    Resolver.isSome_value?_block hs.bottom hs.script ctx q
  -- All other actions go through computations that put no query.
  have hquiet (r : StepResult) (h : r.session.asked = s.asked) : r.session.asked = s.asked ++ [] := by
    rw [h, List.append_nil]
  cases a with
  | resolve e o ctx =>
    refine (asked_conclude s _ fun _ _ => rfl).trans ?_
    rw [Endpoint.queries_resolve, hblock]
    rfl
  | resolveAsync e o ctx =>
    refine (asked_conclude s _ fun _ _ => rfl).trans ?_
    rw [Endpoint.queries_resolveAsync, hsubmit]
    rfl
  | block q ctx =>
    refine (asked_conclude s _ fun _ _ => rfl).trans ?_
    rw [(hpasses ctx q).block]
    rfl
  | await q ctx =>
    refine (asked_conclude s _ fun _ _ => rfl).trans ?_
    rw [(hpasses ctx q).await]
    rfl
  | submit q ctx =>
    refine (asked_conclude s _ fun _ _ => rfl).trans ?_
    rw [(hpasses ctx q).submit]
    rfl
  | resolveConfig c ctx =>
    refine (asked_conclude s _ fun _ _ => rfl).trans ?_
    rw [queries_resolveConfig s c ctx (hvalue ctx), hblock]
    rfl
  | setScript script => exact hquiet _ rfl
  | complete count => exact hquiet _ (asked_afterCompletions _ _ _)
  | completeGuarded drop =>
    exact hquiet _ (asked_conclude_of_isQuiet s (isQuiet_runGuarded _ _ _) fun _ _ => asked_afterCompletions _ _ _)
  | settle id how => exact hquiet _ (asked_settle s id how)
  | runTask id => exact hquiet _ (asked_endTask id fun t ht => Task.isQuiet_run (hs.tasks t ht))
  | dropTask id => exact hquiet _ (asked_endTask id fun t ht => Guard.isQuiet_drop _)
  | guardNew => exact hquiet _ rfl
  | guardComplete id answer =>
    cases answer with
    | none => exact hquiet _ (asked_consumeGuard s id true Guard.isQuiet_drop)
    | some a => exact hquiet _ (asked_consumeGuard s id false fun g => g.isQuiet_complete a)
  | guardDrop id => exact hquiet _ (asked_consumeGuard s id false Guard.isQuiet_drop)
  | pass => exact hquiet _ rfl

theorem asked_step (hs : s.IsRecording) (a : Action) :
    (s.step a).session.asked = s.asked ++ a.queries s.resolver := by
  have hclock : IsRecording { s with clock := s.clock + 1 } := ⟨hs.bottom, hs.script, hs.tasks⟩
  exact asked_act hclock s.clock a

/-! ## What waits -/

/-- The tasks that wait after a call are those before it and those of its delivery. -/
theorem tasks_conclude {α : Type} {run : Run (Delivery Completion α)} {finish : Completion → α → Completed}
    {t : Task Completion} (ht : t ∈ (s.conclude run (afterDelivery finish)).session.tasks) :
    t ∈ s.tasks ∨ ∃ d ∈ run.value?, t ∈ d.tasks := by
  unfold conclude at ht
  cases hvalue : run.value? with
  | none =>
    rw [hvalue] at ht
    exact .inl ht
  | some d =>
    rw [hvalue] at ht
    exact (List.mem_append.1 ht).imp id fun ht => ⟨d, rfl, ht⟩

/-- A step that makes no call leaves no new tasks. -/
theorem tasks_step_subset {a : Action} (hcall : a.call? s.surroundings s.resolver s.clock = none) :
    (s.step a).session.tasks ⊆ s.tasks := by
  cases s.step_effect a with
  | call hcall' => simp [hcall] at hcall'
  | release _ _ _ _ _ _ htasks => rw [htasks]; exact List.Subset.refl _
  | task _ htasks => exact fun t ht => htasks.mem_iff.2 (List.mem_cons_of_mem _ ht)

/-- What waits in the background after a step asks the bottom nothing either. -/
theorem tasks_step_isQuiet (hs : s.IsRecording) (a : Action) :
    ∀ t ∈ (s.step a).session.tasks, t.lookup.IsQuiet := by
  have hpasses (ctx : Context) (q : Query) :
      s.source.Passes ctx q (s.resolver.passed q) (s.resolver.passedInBackground ctx q) :=
    Resolver.passes hs.bottom s.surroundings ctx q
  intro t ht
  cases a with
  | resolveAsync e o ctx =>
    have hstep : s.step (.resolveAsync e o ctx) = { s with clock := s.clock + 1 }.conclude
      (e.resolveAsync s.source ctx o (.resolution s.clock)) (afterDelivery fun c o => .resolution c.step o) := rfl
    rw [hstep] at ht
    obtain ht | ⟨d, hd, ht⟩ := tasks_conclude ht
    · exact hs.tasks t ht
    · obtain ⟨q, d, hd, ht⟩ := Endpoint.tasks_resolveAsync hd ht
      exact (hpasses ctx q).tasks _ d hd t ht
  | submit q ctx =>
    have hstep : s.step (.submit q ctx) = { s with clock := s.clock + 1 }.conclude
      (s.source.submit ctx q (.query s.clock)) (afterDelivery fun c a => c.run a) := rfl
    rw [hstep] at ht
    obtain ht | ⟨d, hd, ht⟩ := tasks_conclude ht
    · exact hs.tasks t ht
    · exact (hpasses ctx q).tasks _ d hd t ht
  | _ => exact hs.tasks t (tasks_step_subset rfl ht)

theorem isRecording_step (hs : s.IsRecording) {a : Action} (ha : ∀ script, a = .setScript script → script.IsTotal) :
    (s.step a).session.IsRecording where
  bottom := by
    rw [resolver_step]
    exact hs.bottom
  script := by
    rw [surroundings_step]
    cases a with
    | setScript script => exact ha script rfl
    | _ => exact hs.script
  tasks := tasks_step_isQuiet hs a

end Step

/-! ## Runs -/

theorem isRecording_start {r : Resolver} {env : Surroundings} (hr : r.bottom.Records) (henv : env.script.IsTotal) :
    (start r env).IsRecording := ⟨hr, henv, by simp [start]⟩

theorem asked_after_of_isRecording {s : Session} (hs : s.IsRecording) {actions : List Action}
    (hactions : ∀ script, .setScript script ∈ actions → script.IsTotal) :
    (s.after actions).asked = s.asked ++ actions.flatMap (Action.queries s.resolver) := by
  induction actions generalizing s with
  | nil => exact (List.append_nil _).symm
  | cons a actions ih =>
    have hstep : (s.step a).session.IsRecording :=
      isRecording_step hs fun script ha => hactions script (by rw [ha]; exact List.mem_cons_self)
    rw [after_cons, ih hstep fun script hscript => hactions script (List.mem_cons_of_mem a hscript), asked_step hs,
      resolver_step, List.append_assoc, List.flatMap_cons]

/-- However calls, completions and ends of tasks follow each other, a bottom that records what it is asked is asked just
the queries that the calls pass on to it, in the order of the calls. -/
theorem asked_after {r : Resolver} {env : Surroundings} (hr : r.bottom.Records) (henv : env.script.IsTotal)
    {actions : List Action} (hactions : ∀ script, .setScript script ∈ actions → script.IsTotal) :
    ((start r env).after actions).asked = actions.flatMap (Action.queries r) :=
  asked_after_of_isRecording (isRecording_start hr henv) hactions

/-- Under a table that has the hub, a literal address and the hub are not asked for. The relay is, though its lookup is
torn down before it has run; but not where there is no runtime. -/
theorem asked_after_relay :
    let hub : OverrideTable := .ofList [("hub.vpn", [.v4 ⟨10, 8, 0, 1⟩])]
    let relay : HostEndpoint := ⟨"relay.vpn", some "1194", by decide, by decide, by decide, by decide⟩
    ((start ⟨[.shared, .overrides hub], .scripted⟩ ⟨fun _ => .ok [], fun _ => .ok [], .nothing⟩).after
      [.resolveAsync (.ipv4 ⟨10, 8, 0, 2⟩ none) .default .running, .submit ⟨"hub.vpn", "1194", .unspecified, ∅⟩ .running,
        .resolveAsync (.host relay) .default .absent, .resolveAsync (.host relay) .default .dropped,
        .block ⟨"relay.vpn", "443", .v6, ∅⟩ .absent, .complete none]).asked =
      [⟨"relay.vpn", "1194", .unspecified, .default⟩, ⟨"relay.vpn", "443", .v6, ∅⟩] := by
  dsimp only
  refine (asked_after (.inl rfl) (fun q => rfl) ?_).trans ?_
  · simp
  · decide

end Session

end Peering
