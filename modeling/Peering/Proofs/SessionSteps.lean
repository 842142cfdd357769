import Peering.Proofs.Deliveries
import Peering.Session.Step

/-!
# What a step does to the completions of a session

A step can do three things to completions (`Session.Effect`): it starts a call, whose completion meets its fate; it
takes completions from those that are kept and runs them; or it ends a task. `Session.step_effect` says that every step
does one of these, and so is all that later proofs need to know about steps. The second covers the steps that have
nothing to do with completions, for they take none.
-/

namespace Peering

/-! ## Calls and ends -/

/-- The completion of the call that an action makes in the step `n`, with its fate. -/
def Action.call? (env : Surroundings) (r : Resolver) (n : Nat) : Action → Option (Completion × Fate Completed)
  | .resolveAsync e o ctx => some (.resolution n, (e.fate env r ctx o).map (.resolution n))
  | .submit q ctx => some (.query n, (r.fate env ctx q).map (.query n))
  | _ => none

/-- The action ends the wait of a completion of the step `n` that has met the fate, and the completion gets the
answer. -/
inductive Fate.EndedBy {α : Type} (script : Script) (n : Nat) : Fate α → Action → Answer → Prop
  | direct (q : Query) (a : Answer) : EndedBy script n (.held q) (.settle n (.direct a)) a
  | guarded (q : Query) (a : Answer) : EndedBy script n (.held q) (.settle n (.guarded a)) a
  | dropped (q : Query) : EndedBy script n (.held q) (.settle n .dropped) abandonedAnswer
  | complete {q : Query} {a : Answer} (h : script q = some a) (count : Option Nat) :
    EndedBy script n (.held q) (.complete count) a
  | completeGuarded {q : Query} {a : Answer} (h : script q = some a) :
    EndedBy script n (.held q) (.completeGuarded false) a
  | completeCrashed {q : Query} (h : script q = none) :
    EndedBy script n (.held q) (.completeGuarded false) abandonedAnswer
  | dropGuarded (q : Query) : EndedBy script n (.held q) (.completeGuarded true) abandonedAnswer
  | run (a : Answer) : EndedBy script n (.waiting a) (.runTask n) a
  | tornDown (a : Answer) : EndedBy script n (.waiting a) (.dropTask n) abandonedAnswer

/-- The answer that a completion gets in some way of being done with it. -/
def Settlement.answer : Settlement → Answer
  | .direct a => a
  | .guarded a => a
  | .dropped => abandonedAnswer

namespace Action

/-- After the action, no completion of the step `n` is kept. -/
def EndsHeld (n : Nat) : Action → Prop
  | .settle id _ => id = n
  | .complete count => count = none
  | .completeGuarded _ => True
  | _ => False

/-- After the action, no task of the step `n` waits. -/
def EndsTask (n : Nat) : Action → Prop
  | .runTask id => id = n
  | .dropTask id => id = n
  | _ => False

/-- The action completes those that are kept, which crashes, since the script has no answer for one of them. -/
structure CrashesBy (script : Script) (a : Action) (r : StepResult) : Prop where
  completes : (∃ count, a = .complete count) ∨ a = .completeGuarded false
  unanswered : ∃ q, script q = none
  crashed : r.report = .crashed

/-- What is outside of the resolver after the action. -/
def surroundings (env : Surroundings) : Action → Surroundings
  | .setScript script => { env with script }
  | _ => env

end Action

/-- What a step does to the completions of a session. -/
inductive Session.Effect (s : Session) (a : Action) (r : StepResult) : Prop
  /-- It starts a call. -/
  | call {c : Completion} {f : Fate Completed} {d : Delivery Completion Completed}
    (hcall : a.call? s.surroundings s.resolver s.clock = some (c, f)) (hd : f.IsOf c d)
    (hdelivered : r.session.delivered = s.delivered ++ (d.now ++ d.later).map Prod.snd)
    (hheld : r.session.held = s.held ++ d.held) (htasks : r.session.tasks = s.tasks ++ d.tasks)
    (hreport : r.report = .started (s.unseen ++ d.now.map Prod.snd) (d.later.map Prod.snd))
  /-- It takes completions and runs them, up to one that crashes; the rest of those it has taken are lost. -/
  | release (taken lost : List (Held Completion)) (give : Held Completion → Answer)
    (hcall : a.call? s.surroundings s.resolver s.clock = none)
    (hheld : s.held.Perm (taken ++ (lost ++ r.session.held)))
    (hdelivered : r.session.delivered = s.delivered ++ taken.map fun h => h.completion.run (give h))
    (htasks : r.session.tasks = s.tasks)
    (hgive : ∀ h ∈ taken,
      (Fate.held h.query : Fate Completed).EndedBy s.surroundings.script h.completion.step a (give h))
    (hlost : lost ≠ [] → a.CrashesBy s.surroundings.script r)
    (hends : ∀ h ∈ s.held, a.EndsHeld h.completion.step →
      ∃ g ∈ taken ++ lost, g.completion.step = h.completion.step)
    (hidle : ∀ n, a.EndsTask n → ∀ t ∈ s.tasks, isTaskOf n t = false)
  /-- It ends a task. -/
  | task {t : Task Completion} {c : Completion} {x : Answer}
    (hcall : a.call? s.surroundings s.resolver s.clock = none)
    (htasks : s.tasks.Perm (t :: r.session.tasks)) (hc : t.guard = .make c)
    (hdelivered : r.session.delivered = s.delivered ++ [c.run x]) (hheld : r.session.held = s.held)
    (hend : (Fate.waiting t.answer : Fate Completed).EndedBy s.surroundings.script c.step a x)

namespace Session

/-! ## Conclusions -/

section Conclude

variable {α β : Type} {s : Session} {run : Run α} {after : Session → α → Session × Report}

/-- A computation with a value leads to what is made of the value. -/
theorem conclude_of_value? {a : α} (h : run.value? = some a) :
    s.conclude run after =
      ⟨(after (s.record run.events) a).1, Event.notices run.events, (after (s.record run.events) a).2⟩ := by
  simp only [conclude, h]

/-- What neither events nor the value of a computation change is as it was. -/
theorem conclude_keeps (f : Session → β) (hrecord : f (s.record run.events) = f s)
    (hafter : ∀ a, f (after (s.record run.events) a).1 = f (s.record run.events)) :
    f (s.conclude run after).session = f s := by
  unfold conclude
  cases run.value? with
  | none => exact hrecord
  | some a => exact (hafter a).trans hrecord

end Conclude

/-- What neither events nor guards change is as it was when a guard is consumed. -/
theorem consumeGuard_keeps {β : Type} (f : Session → β) {s : Session} (hrecord : ∀ events, f (s.record events) = f s)
    (hguards : ∀ (s : Session) guards guardRuns, f { s with guards, guardRuns } = f s) (id : Nat) (crashed : Bool)
    (use : Guard Nat → Run (List (Nat × Answer))) : f (s.consumeGuard id crashed use).session = f s := by
  unfold consumeGuard
  split
  · rfl
  · exact conclude_keeps f (hrecord _) fun _ => hguards _ _ _

/-- What neither events nor completions change is as it was when a completion is settled. -/
theorem settle_keeps {β : Type} (f : Session → β) {s : Session} (hrecord : ∀ events, f (s.record events) = f s)
    (hafter : ∀ (s : Session) held ran, f ({ s with held }.afterCompletions ran false).1 = f s) (id : Nat)
    (how : Settlement) : f (s.settle id how).session = f s := by
  unfold settle
  split
  · rfl
  · exact conclude_keeps f (hrecord _) fun _ => hafter _ _ _

/-- What neither events nor completions change is as it was when a task ends. -/
theorem endTask_keeps {β : Type} (f : Session → β) {s : Session} (hrecord : ∀ events, f (s.record events) = f s)
    (hafter : ∀ (s : Session) tasks ran, f ({ s with tasks }.afterCompletions ran false).1 = f s) (id : Nat)
    (use : Task Completion → Run (List (Completion × Answer))) : f (s.endTask id use).session = f s := by
  unfold endTask
  split
  · rfl
  · exact conclude_keeps f (hrecord _) fun _ => hafter _ _ _

/-! ## What every step keeps -/

/-- Where a session takes place. -/
def setting (s : Session) : Resolver × Surroundings × Nat := (s.resolver, s.surroundings, s.clock)

theorem setting_afterCompletions (s : Session) (ran : List Completed) (crashed : Bool) :
    (s.afterCompletions ran crashed).1.setting = s.setting := by
  cases crashed <;> rfl

/-- No action changes the resolver or touches the clock, and only one changes the script. -/
theorem setting_act (s : Session) (n : Nat) (a : Action) :
    (s.act n a).session.setting = (s.resolver, a.surroundings s.surroundings, s.clock) := by
  cases a with
  | resolve e o ctx => exact conclude_keeps setting rfl fun _ => rfl
  | resolveAsync e o ctx => exact conclude_keeps setting rfl fun _ => rfl
  | block q ctx => exact conclude_keeps setting rfl fun _ => rfl
  | await q ctx => exact conclude_keeps setting rfl fun _ => rfl
  | submit q ctx => exact conclude_keeps setting rfl fun _ => rfl
  | resolveConfig c ctx => exact conclude_keeps setting rfl fun _ => rfl
  | setScript script => rfl
  | complete count => exact setting_afterCompletions _ _ _
  | completeGuarded drop => exact conclude_keeps setting rfl fun _ => setting_afterCompletions _ _ _
  | settle id how => exact settle_keeps setting (fun _ => rfl) (fun _ _ _ => rfl) id how
  | runTask id => exact endTask_keeps setting (fun _ => rfl) (fun _ _ _ => rfl) id _
  | dropTask id => exact endTask_keeps setting (fun _ => rfl) (fun _ _ _ => rfl) id _
  | guardNew => rfl
  | guardComplete id answer =>
    cases answer <;> exact consumeGuard_keeps setting (fun _ => rfl) (fun _ _ _ => rfl) id _ _
  | guardDrop id => exact consumeGuard_keeps setting (fun _ => rfl) (fun _ _ _ => rfl) id _ _
  | pass => rfl

@[simp] theorem resolver_step (s : Session) (a : Action) : (s.step a).session.resolver = s.resolver :=
  congrArg Prod.fst (setting_act _ s.clock a)

theorem surroundings_step (s : Session) (a : Action) :
    (s.step a).session.surroundings = a.surroundings s.surroundings :=
  congrArg (fun x => x.2.1) (setting_act _ s.clock a)

@[simp] theorem clock_step (s : Session) (a : Action) : (s.step a).session.clock = s.clock + 1 :=
  congrArg (fun x => x.2.2) (setting_act _ s.clock a)

/-! ## Calls -/

/-- A call whose completion has a fate lets it meet that fate. -/
theorem effect_conclude_delivery {α : Type} {s : Session} {a : Action} {run : Run (Delivery Completion α)}
    {c : Completion} {d : Delivery Completion α} {f : Fate α} (finish : Completion → α → Completed)
    (hcall : a.call? s.surroundings s.resolver s.clock = some (c, f.map (finish c))) (hd : run.value? = some d)
    (hfate : f.IsOf c d) :
    s.Effect a ({ s with clock := s.clock + 1 }.conclude run (afterDelivery finish)) := by
  rw [conclude_of_value? hd]
  refine .call hcall (hfate.map (finish c)) ?_ rfl rfl ?_
  · cases hfate <;> rfl
  · cases hfate <;> rfl

/-! ## Steps that take no completions -/

/-- What has run, what is kept and what waits. -/
def completions (s : Session) : List Completed × List (Held Completion) × List (Task Completion) :=
  (s.delivered, s.held, s.tasks)

/-- A step that starts no call and leaves the completions alone takes none. -/
theorem effect_of_eq {s : Session} {a : Action} {r : StepResult}
    (hcall : a.call? s.surroundings s.resolver s.clock = none)
    (h : r.session.completions = s.completions)
    (hends : ∀ h ∈ s.held, ¬ a.EndsHeld h.completion.step)
    (hidle : ∀ n, a.EndsTask n → ∀ t ∈ s.tasks, isTaskOf n t = false) : s.Effect a r := by
  obtain ⟨hdelivered, hheld, htasks⟩ : r.session.delivered = s.delivered ∧ r.session.held = s.held
      ∧ r.session.tasks = s.tasks := by simpa [completions] using h
  refine .release [] [] (fun _ => abandonedAnswer) hcall ?_ ?_ htasks ?_ ?_ ?_ hidle
  · simp [hheld]
  · simp [hdelivered]
  · simp
  · simp
  · exact fun h hh hend => absurd hend (hends h hh)

/-! ## Completions that are kept -/

/-- The answer that a script has for a completion that is kept; without an answer, the completion is abandoned. -/
def answerOf (script : Script) (h : Held Completion) : Answer := (script h.query).getD abandonedAnswer

/-- Completions run in order up to the first that the script has no answer for. -/
theorem runHeld_eq (script : Script) (l : List (Held Completion)) :
    ∃ taken lost, l = taken ++ lost ∧
      runHeld script l = (taken.map fun h => h.completion.run (answerOf script h), !lost.isEmpty) ∧
      (∀ h ∈ taken, script h.query = some (answerOf script h)) ∧ (lost ≠ [] → ∃ q, script q = none) := by
  induction l with
  | nil => exact ⟨[], [], rfl, rfl, by simp, by simp⟩
  | cons h l ih =>
    cases ha : script h.query with
    | none =>
      refine ⟨[], h :: l, rfl, ?_, by simp, fun _ => ⟨h.query, ha⟩⟩
      simp [runHeld, ha]
    | some a =>
      obtain ⟨taken, lost, rfl, heq, hgive, hlost⟩ := ih
      have hh : answerOf script h = a := by simp [answerOf, ha]
      refine ⟨h :: taken, lost, rfl, ?_, ?_, hlost⟩
      · simp [runHeld, ha, heq, hh]
      · simpa [hh, ha] using hgive

/-- The answer of a completion that is run through a guard which may be dropped instead. -/
def guardedAnswerOf (script : Script) (drop : Bool) (h : Held Completion) : Answer :=
  if drop then abandonedAnswer else answerOf script h

/-- A guard runs the completion, and crashes after that where there is no answer to complete it with. -/
theorem value?_throughGuard (script : Script) (drop : Bool) (h : Held Completion) :
    (throughGuard script drop h).value? =
      some ([(h.completion, guardedAnswerOf script drop h)], !drop && (script h.query).isNone) := by
  cases drop <;> cases ha : script h.query <;>
    simp [throughGuard, ha, guardedAnswerOf, answerOf]

/-- Completions run in order, each through a guard, up to the first that the script has no answer for. -/
theorem value?_runGuarded (script : Script) (drop : Bool) (l : List (Held Completion)) :
    ∃ taken lost crashed, l = taken ++ lost ∧
      (runGuarded script drop l).value? =
        some (taken.map fun h => h.completion.run (guardedAnswerOf script drop h), crashed) ∧
      (lost ≠ [] → crashed = true) ∧ (crashed = true → drop = false ∧ ∃ q, script q = none) := by
  induction l with
  | nil => exact ⟨[], [], false, rfl, rfl, by simp, by simp⟩
  | cons h l ih =>
    by_cases hcrash : drop = false ∧ script h.query = none
    · refine ⟨[h], l, true, rfl, ?_, by simp, fun _ => ⟨hcrash.1, h.query, hcrash.2⟩⟩
      simp [runGuarded, Run.value?_bind, value?_throughGuard, hcrash, Completion.runEach]
    · obtain ⟨taken, lost, crashed, rfl, hvalue, hlost, hwhy⟩ := ih
      have hgoes : (!drop && (script h.query).isNone) = false := by
        cases drop with
        | true => rfl
        | false => simpa [Option.ne_none_iff_isSome] using hcrash
      refine ⟨h :: taken, lost, crashed, rfl, ?_, hlost, hwhy⟩
      simp [runGuarded, Run.value?_bind, value?_throughGuard, hgoes, hvalue, Completion.runEach]

/-- Running some of the completions that are kept is shown, unless it crashed. -/
theorem report_afterCompletions (s : Session) (ran : List Completed) (crashed : Bool) :
    (s.afterCompletions ran crashed).2 = if crashed then .crashed else .completed (s.unseen ++ ran) := by
  cases crashed <;> rfl

@[simp] theorem delivered_afterCompletions (s : Session) (ran : List Completed) (crashed : Bool) :
    (s.afterCompletions ran crashed).1.delivered = s.delivered ++ ran := by cases crashed <;> rfl

@[simp] theorem held_afterCompletions (s : Session) (ran : List Completed) (crashed : Bool) :
    (s.afterCompletions ran crashed).1.held = s.held := by cases crashed <;> rfl

@[simp] theorem tasks_afterCompletions (s : Session) (ran : List Completed) (crashed : Bool) :
    (s.afterCompletions ran crashed).1.tasks = s.tasks := by cases crashed <;> rfl

/-- Completing takes the first of those that are kept. -/
theorem effect_complete (s : Session) (count : Option Nat) : s.Effect (.complete count) (s.step (.complete count)) := by
  obtain ⟨taken, lost, htake, heq, hgive, hlost⟩ :=
    runHeld_eq s.surroundings.script (s.held.take (count.getD s.held.length))
  have hstep : s.step (.complete count) = { s with clock := s.clock + 1 }.complete (count.getD s.held.length) := rfl
  simp only [complete, heq] at hstep
  rw [hstep]
  have hheld : s.held = taken ++ (lost ++ s.held.drop (count.getD s.held.length)) := by
    rw [← List.append_assoc, ← htake, List.take_append_drop]
  refine .release taken lost (answerOf s.surroundings.script) rfl ?_ ?_ ?_ ?_ ?_ ?_ ?_
  · simp [← hheld]
  · simp
  · simp
  · exact fun h hh => .complete (hgive h hh) count
  · intro hne
    exact ⟨.inl ⟨count, rfl⟩, hlost hne, by simp [report_afterCompletions, hne]⟩
  · rintro h hh (rfl : count = none)
    refine ⟨h, ?_, rfl⟩
    simpa [← htake] using hh
  · exact fun n hn => hn.elim

/-- Completing through guards takes all of those that are kept. -/
theorem effect_completeGuarded (s : Session) (drop : Bool) :
    s.Effect (.completeGuarded drop) (s.step (.completeGuarded drop)) := by
  obtain ⟨taken, lost, crashed, hheld, hvalue, hlost, hwhy⟩ := value?_runGuarded s.surroundings.script drop s.held
  have hstep : s.step (.completeGuarded drop) = { s with clock := s.clock + 1 }.completeGuarded drop := rfl
  rw [completeGuarded, conclude_of_value? hvalue] at hstep
  rw [hstep]
  refine .release taken lost (guardedAnswerOf s.surroundings.script drop) rfl ?_ ?_ ?_ ?_
    ?_ ?_ ?_
  · simp [hheld]
  · simp [record]
  · simp [record]
  · intro h hh
    cases drop with
    | true => exact .dropGuarded _
    | false =>
      cases ha : s.surroundings.script h.query with
      | none => simpa [guardedAnswerOf, answerOf, ha] using Fate.EndedBy.completeCrashed ha
      | some a => simpa [guardedAnswerOf, answerOf, ha] using Fate.EndedBy.completeGuarded ha
  · intro hne
    obtain rfl := hlost hne
    obtain ⟨rfl, hq⟩ := hwhy rfl
    exact ⟨.inr rfl, hq, by simp [report_afterCompletions]⟩
  · exact fun h hh _ => ⟨h, hheld ▸ hh, rfl⟩
  · exact fun n hn => hn.elim

theorem value?_settleWith (c : Completion) (how : Settlement) :
    (settleWith c how).value? = some [(c, how.answer)] := by
  cases how with
  | direct a => rfl
  | guarded a => exact Guard.value?_complete_make c a
  | dropped => exact Guard.value?_drop_make c

/-- The first entry that is found is the one that is taken. -/
theorem perm_eraseP_of_find? {α : Type} {p : α → Bool} {l : List α} {a : α} (h : l.find? p = some a) :
    l.Perm (a :: l.eraseP p) := by
  induction l with
  | nil => cases h
  | cons b l ih =>
    cases hb : p b with
    | true =>
      obtain rfl : b = a := by simpa [hb] using h
      simp [hb]
    | false =>
      rw [List.find?_cons_of_neg (by simp [hb])] at h
      rw [List.eraseP_cons_of_neg (by simp [hb])]
      exact ((ih h).cons b).trans (.swap a b _)

/-- Being done with one of those that are kept takes no other. -/
theorem effect_settle (s : Session) (id : Nat) (how : Settlement) :
    s.Effect (.settle id how) (s.step (.settle id how)) := by
  have hstep : s.step (.settle id how) = { s with clock := s.clock + 1 }.settle id how := rfl
  rw [settle] at hstep
  cases hfind : s.held.find? (·.completion.step == id) with
  | none =>
    simp only [hfind] at hstep
    rw [hstep]
    refine effect_of_eq rfl rfl (fun h hh hend => ?_) fun n hn => hn.elim
    simpa [show id = h.completion.step from hend] using List.find?_eq_none.1 hfind h hh
  | some h =>
    obtain rfl : h.completion.step = id := by simpa using List.find?_some hfind
    simp only [hfind] at hstep
    rw [conclude_of_value? (value?_settleWith h.completion how)] at hstep
    rw [hstep]
    refine .release [h] [] (fun _ => how.answer) rfl ?_ ?_ ?_ ?_ ?_ ?_ ?_
    · simpa [record] using perm_eraseP_of_find? hfind
    · simp [record, Completion.runEach]
    · simp [record]
    · rw [List.forall_mem_singleton]
      cases how with
      | direct a => exact .direct _ a
      | guarded a => exact .guarded _ a
      | dropped => exact .dropped _
    · simp
    · exact fun g hg hend => ⟨h, List.mem_singleton_self h, hend⟩
    · exact fun n hn => hn.elim

/-! ## Tasks -/

/-- A task that is found waits for the completion of the step. -/
theorem guard_eq_make_of_isTaskOf {id : Nat} {t : Task Completion} (h : isTaskOf id t = true) :
    ∃ c, t.guard = .make c ∧ c.step = id := by
  obtain ⟨⟨completion⟩, lookup⟩ := t
  cases completion with
  | none => cases h
  | some c => exact ⟨c, rfl, by simpa [isTaskOf] using h⟩

/-- Ending the task of a call takes no other. -/
theorem effect_endTask {s : Session} {a : Action} {id : Nat} {use : Task Completion → Run (List (Completion × Answer))}
    {give : Task Completion → Answer} (hcall : a.call? s.surroundings s.resolver s.clock = none)
    (hends : ∀ n, ¬ a.EndsHeld n) (hidle : ∀ n, a.EndsTask n → n = id)
    (huse : ∀ t c, t.guard = .make c → (use t).value? = some [(c, give t)])
    (hend : ∀ t, (Fate.waiting t.answer : Fate Completed).EndedBy s.surroundings.script id a (give t)) :
    s.Effect a ({ s with clock := s.clock + 1 }.endTask id use) := by
  rw [endTask]
  cases hfind : s.tasks.find? (isTaskOf id) with
  | none =>
    refine effect_of_eq hcall rfl (fun h _ => hends _) fun n hn t ht => ?_
    obtain rfl := hidle n hn
    simpa using List.find?_eq_none.1 hfind t ht
  | some t =>
    obtain ⟨c, hc, rfl⟩ := guard_eq_make_of_isTaskOf (List.find?_some hfind)
    dsimp only
    rw [conclude_of_value? (huse t c hc)]
    refine .task hcall ?_ hc ?_ ?_ (hend t)
    · simpa [record] using perm_eraseP_of_find? hfind
    · simp [record, Completion.runEach]
    · simp [record]

/-! ## All steps -/

/-- Consuming a guard takes no completions of calls. -/
theorem effect_consumeGuard {s : Session} {a : Action} (hcall : a.call? s.surroundings s.resolver s.clock = none)
    (hends : ∀ n, ¬ a.EndsHeld n) (hidle : ∀ n, ¬ a.EndsTask n) (id : Nat) (crashed : Bool)
    (use : Guard Nat → Run (List (Nat × Answer))) :
    s.Effect a ({ s with clock := s.clock + 1 }.consumeGuard id crashed use) :=
  effect_of_eq hcall
    (consumeGuard_keeps completions (fun _ => rfl) (fun _ _ _ => rfl) id crashed use)
    (fun _ _ => hends _) fun n hn => absurd hn (hidle n)

/-- A computation whose value is only shown takes no completions. -/
theorem effect_conclude_shown {α : Type} {s : Session} {a : Action}
    (hcall : a.call? s.surroundings s.resolver s.clock = none) (hends : ∀ n, ¬ a.EndsHeld n)
    (hidle : ∀ n, ¬ a.EndsTask n) (run : Run α) (report : α → Report) :
    s.Effect a ({ s with clock := s.clock + 1 }.conclude run fun s x => (s, report x)) :=
  effect_of_eq hcall (conclude_keeps completions rfl fun _ => rfl)
    (fun _ _ => hends _) fun n hn => absurd hn (hidle n)

/-- Every step starts a call, takes completions that are kept and runs them, or ends a task. -/
theorem step_effect (s : Session) (a : Action) : s.Effect a (s.step a) := by
  cases a with
  | resolve e o ctx => exact effect_conclude_shown rfl (fun _ => id) (fun _ => id) _ _
  | resolveAsync e o ctx =>
    obtain ⟨d, hd, hfate⟩ := e.value?_resolveAsync s.surroundings s.resolver ctx o (Completion.resolution s.clock)
    exact effect_conclude_delivery (fun c o => .resolution c.step o) rfl hd hfate
  | block q ctx => exact effect_conclude_shown rfl (fun _ => id) (fun _ => id) _ _
  | await q ctx => exact effect_conclude_shown rfl (fun _ => id) (fun _ => id) _ _
  | submit q ctx =>
    obtain ⟨d, hd, hfate⟩ := s.resolver.value?_submit s.surroundings ctx q (Completion.query s.clock)
    exact effect_conclude_delivery (fun c a => c.run a) rfl hd hfate
  | resolveConfig c ctx => exact effect_conclude_shown rfl (fun _ => id) (fun _ => id) _ _
  | setScript script => exact effect_of_eq rfl rfl (fun _ _ => id) fun _ => False.elim
  | complete count => exact effect_complete s count
  | completeGuarded drop => exact effect_completeGuarded s drop
  | settle id how => exact effect_settle s id how
  | runTask id =>
    exact effect_endTask rfl (fun _ => False.elim) (fun _ h => h.symm) (fun t c h => t.value?_run h) fun t => .run _
  | dropTask id =>
    exact effect_endTask rfl (fun _ => False.elim) (fun _ h => h.symm) (fun t c h => t.value?_tearDown h)
      fun t => .tornDown _
  | guardNew => exact effect_of_eq rfl rfl (fun _ _ => id) fun _ => False.elim
  | guardComplete k answer =>
    cases answer <;> exact effect_consumeGuard rfl (fun _ => id) (fun _ => id) k _ _
  | guardDrop k => exact effect_consumeGuard rfl (fun _ => id) (fun _ => id) k _ _
  | pass => exact effect_of_eq rfl rfl (fun _ _ => id) fun _ => False.elim

end Session

end Peering
