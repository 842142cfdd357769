import Mathlib.Data.List.Induction
import Mathlib.Data.List.Nodup
import Peering.Proofs.SessionSteps

/-!
# Each completion runs once

Calls, completions and ends of tasks may come in any order. `Session.standing` is how the completion of one step stands
in all this: what has run of it, whether it is kept, whether its task waits. Other steps change it in few ways:

* `standing_step_of_idle`: what has run, has been lost or was never made stays as it is;
* `standing_step_of_kept`, `standing_step_of_waiting`: what is pending stays so or ends, and how;
* `course_of_call`: so from its call on each completion takes one of the courses of `Session.Course`.

`Session.completes_once` states this for resolutions in all runs from the start, for all layers over each `Bottom`. No
bottom crashes the call itself; what such a crash would mean for a completion is `Source.value?_spawn_eq_none_iff`.
-/

namespace Peering

/-! ## Standings -/

/-- How the completion of one step stands. -/
@[ext] structure Standing where
  ran : List Completed
  held : List (Held Completion)
  tasks : List (Task Completion)

namespace Standing

/-- There is no completion, or there is none any more. -/
def nothing : Standing := ⟨[], [], []⟩

/-- The completion has run, once. -/
def done (x : Completed) : Standing := ⟨[x], [], []⟩

/-- The completion is kept, and has not run. -/
def kept (h : Held Completion) : Standing := ⟨[], [h], []⟩

/-- The completion's task waits, and the completion has not run. -/
def waiting (t : Task Completion) : Standing := ⟨[], [], [t]⟩

/-- The completion can no longer run. -/
def IsIdle (x : Standing) : Prop := x.held = [] ∧ x.tasks = []

theorem isIdle_nothing : nothing.IsIdle := ⟨rfl, rfl⟩

end Standing

namespace Session

/-- How the completion of the step `n` stands. -/
def standing (s : Session) (n : Nat) : Standing :=
  ⟨s.delivered.filter (·.step == n), s.held.filter (·.completion.step == n), s.tasks.filter (isTaskOf n)⟩

/-- The session after some steps. -/
def after (s : Session) (actions : List Action) : Session := (s.run actions).1

@[simp] theorem after_nil (s : Session) : s.after [] = s := rfl

theorem after_cons (s : Session) (a : Action) (l : List Action) :
    s.after (a :: l) = (s.step a).session.after l := rfl

theorem after_append (s : Session) (l more : List Action) : s.after (l ++ more) = (s.after l).after more := by
  induction l generalizing s with
  | nil => rfl
  | cons a l ih => exact ih _

@[simp] theorem resolver_after (s : Session) (l : List Action) : (s.after l).resolver = s.resolver := by
  induction l generalizing s with
  | nil => rfl
  | cons a l ih => rw [after_cons, ih, resolver_step]

@[simp] theorem clock_after (s : Session) (l : List Action) : (s.after l).clock = s.clock + l.length := by
  induction l generalizing s with
  | nil => rfl
  | cons a l ih =>
    rw [after_cons, ih, clock_step, List.length_cons]
    omega

end Session

@[simp] theorem Completion.step_run (c : Completion) (a : Answer) : (c.run a).step = c.step := by cases c <;> rfl

theorem isTaskOf_make {t : Task Completion} {c : Completion} (h : t.guard = .make c) (n : Nat) :
    Session.isTaskOf n t = (c.step == n) := by
  rw [Session.isTaskOf, h]
  rfl

/-- The completion that has run. -/
def Completed.completion : Completed → Completion
  | resolution n _ => .resolution n
  | query n _ => .query n

@[simp] theorem Completed.step_completion (x : Completed) : x.completion.step = x.step := by cases x <;> rfl

@[simp] theorem Completion.completion_run (c : Completion) (a : Answer) : (c.run a).completion = c := by cases c <;> rfl

/-- A call has one completion, which is of its step. -/
theorem Action.completion_of_call? {a : Action} {env : Surroundings} {r : Resolver} {n : Nat} {c : Completion}
    {f : Fate Completed} (h : a.call? env r n = some (c, f)) :
    c.step = n ∧ ∀ d, f.IsOf c d → ∀ x ∈ (d.now ++ d.later).map Prod.snd, x.completion = c := by
  have hmap {α : Type} {c : Completion} (g : α → Completed) (hg : ∀ x, (g x).completion = c) (f : Fate α)
      (d : Delivery Completion Completed) (hd : (f.map g).IsOf c d) :
      ∀ x ∈ (d.now ++ d.later).map Prod.snd, x.completion = c := by
    cases f <;> cases hd <;> simp [hg]
  cases a with
  | resolveAsync e o ctx =>
    obtain ⟨rfl, rfl⟩ : .resolution n = c ∧ _ = f := by simpa [call?] using h
    exact ⟨rfl, fun d => hmap (.resolution n) (fun _ => rfl) _ d⟩
  | submit q ctx =>
    obtain ⟨rfl, rfl⟩ : .query n = c ∧ _ = f := by simpa [call?] using h
    exact ⟨rfl, fun d => hmap (.query n) (fun _ => rfl) _ d⟩
  | _ => cases h

/-! ## Steps -/

namespace Session

section Step

variable {s : Session} {a : Action} {r : StepResult} {n : Nat}

/-- A call does not touch the completions of other steps. -/
theorem standing_of_call {c : Completion} {f : Fate Completed} {d : Delivery Completion Completed}
    (hcall : a.call? s.surroundings s.resolver s.clock = some (c, f)) (hd : f.IsOf c d) (hn : n ≠ s.clock)
    (hdelivered : r.session.delivered = s.delivered ++ (d.now ++ d.later).map Prod.snd)
    (hheld : r.session.held = s.held ++ d.held) (htasks : r.session.tasks = s.tasks ++ d.tasks) :
    r.session.standing n = s.standing n := by
  obtain ⟨hc, hran⟩ := Action.completion_of_call? hcall
  have hne : (c.step == n) = false := by simpa [hc] using hn.symm
  have hnew : ((d.now ++ d.later).map Prod.snd).filter (·.step == n) = [] := by
    rw [List.filter_eq_nil_iff]
    intro x hx
    rw [← x.step_completion, hran d hd x hx, hne]
    exact Bool.false_ne_true
  have hkept : d.held.filter (·.completion.step == n) = [] ∧ d.tasks.filter (isTaskOf n) = [] := by
    cases hd with
    | now => exact ⟨rfl, rfl⟩
    | later => exact ⟨rfl, rfl⟩
    | waiting t ht => simp [isTaskOf_make ht, hne]
    | held q => simp [hne]
  rw [standing, standing, hdelivered, hheld, htasks, List.filter_append, List.filter_append, List.filter_append, hnew,
    hkept.1, hkept.2]
  simp

/-- What runs of some completions in the step `n` is what runs of those of them that belong to it. -/
theorem filter_map_run (give : Held Completion → Answer) (l : List (Held Completion)) :
    (l.map fun h => h.completion.run (give h)).filter (·.step == n)
      = (l.filter (·.completion.step == n)).map fun h => h.completion.run (give h) := by
  rw [List.filter_map]
  congr 2
  funext h
  simp

/-- Of the completions that are taken, those of the step `n` are taken from those of it that are kept. -/
theorem standing_of_release {taken lost : List (Held Completion)} {give : Held Completion → Answer}
    (hheld : s.held.Perm (taken ++ (lost ++ r.session.held)))
    (hdelivered : r.session.delivered = s.delivered ++ taken.map fun h => h.completion.run (give h))
    (htasks : r.session.tasks = s.tasks) (n : Nat) :
    (s.standing n).held.Perm (taken.filter (·.completion.step == n) ++
      (lost.filter (·.completion.step == n) ++ (r.session.standing n).held)) ∧
    (r.session.standing n).ran =
      (s.standing n).ran ++ (taken.filter (·.completion.step == n)).map (fun h => h.completion.run (give h)) ∧
    (r.session.standing n).tasks = (s.standing n).tasks := by
  refine ⟨?_, ?_, ?_⟩
  · have hperm := hheld.filter (·.completion.step == n)
    rwa [List.filter_append, List.filter_append] at hperm
  · simp only [standing, hdelivered, List.filter_append, filter_map_run]
  · simp only [standing, htasks]

/-- The task that ends is one of the step `n`, or all of that step is as it was. -/
theorem standing_of_task {t : Task Completion} {c : Completion} {x : Answer}
    (htasks : s.tasks.Perm (t :: r.session.tasks)) (hc : t.guard = .make c)
    (hdelivered : r.session.delivered = s.delivered ++ [c.run x]) (hheld : r.session.held = s.held) (n : Nat) :
    (r.session.standing n).held = (s.standing n).held ∧
    ((c.step = n ∧ (s.standing n).tasks.Perm (t :: (r.session.standing n).tasks) ∧
        (r.session.standing n).ran = (s.standing n).ran ++ [c.run x]) ∨
      (c.step ≠ n ∧ (s.standing n).tasks.Perm (r.session.standing n).tasks ∧
        (r.session.standing n).ran = (s.standing n).ran)) := by
  have hperm := htasks.filter (isTaskOf n)
  refine ⟨by simp only [standing, hheld], ?_⟩
  by_cases hstep : c.step = n
  · rw [List.filter_cons_of_pos (by simp [isTaskOf_make hc, hstep])] at hperm
    exact .inl ⟨hstep, hperm, by simp [standing, hdelivered, hstep]⟩
  · rw [List.filter_cons_of_neg (by simp [isTaskOf_make hc, hstep])] at hperm
    exact .inr ⟨hstep, hperm, by simp [standing, hdelivered, hstep]⟩

/-- What can no longer run stays as it is. -/
theorem standing_step_of_idle {x : Standing} (hn : n = s.clock → a.call? s.surroundings s.resolver s.clock = none)
    (hx : x.IsIdle) (h : s.standing n = x) : (s.step a).session.standing n = x := by
  subst h
  obtain ⟨hnoheld, hnotasks⟩ := hx
  cases s.step_effect a with
  | call hcall hd hdelivered hheld htasks =>
    have hne : n ≠ s.clock := fun hn' => by simp [hn hn'] at hcall
    exact standing_of_call hcall hd hne hdelivered hheld htasks
  | release _ _ _ _ hheld hdelivered htasks =>
    obtain ⟨hperm, hran, htasks⟩ := standing_of_release hheld hdelivered htasks n
    rw [hnoheld] at hperm
    obtain ⟨htaken, hrest⟩ := List.append_eq_nil_iff.1 hperm.symm.eq_nil
    rw [htaken, List.map_nil, List.append_nil] at hran
    exact Standing.ext hran ((List.append_eq_nil_iff.1 hrest).2.trans hnoheld.symm) htasks
  | task _ htasks hc hdelivered hheld =>
    obtain ⟨hheld, ⟨-, hperm, -⟩ | ⟨-, hperm, hran⟩⟩ := standing_of_task htasks hc hdelivered hheld n
    · rw [hnotasks] at hperm
      cases hperm.symm.eq_nil
    · rw [hnotasks] at hperm
      exact Standing.ext hran hheld (hperm.symm.eq_nil.trans hnotasks.symm)

/-- A completion that is kept stays, runs with the answer that ends its wait, or is lost in a crash. -/
theorem standing_step_of_kept {h : Held Completion} (hn : n ≠ s.clock) (hkept : s.standing n = .kept h) (a : Action) :
    ((s.step a).session.standing n = .kept h ∧ ¬ a.EndsHeld n) ∨
    (∃ x, (Fate.held h.query : Fate Completed).EndedBy s.surroundings.script n a x ∧
      (s.step a).session.standing n = .done (h.completion.run x)) ∨
    (a.CrashesBy s.surroundings.script (s.step a) ∧ (s.step a).session.standing n = .nothing) := by
  obtain ⟨hmem, rfl⟩ : h ∈ s.held ∧ h.completion.step = n := by
    have hmem : h ∈ (s.standing n).held := by simp [hkept, Standing.kept]
    simpa [standing] using hmem
  cases s.step_effect a with
  | call hcall hd hdelivered hheld htasks =>
    refine .inl ⟨(standing_of_call hcall hd hn hdelivered hheld htasks).trans hkept, ?_⟩
    cases a <;> first | exact id | cases hcall
  | release taken lost give hcall hheld hdelivered htasks hgive hlost hends =>
    obtain ⟨hperm, hran, htasks⟩ := standing_of_release hheld hdelivered htasks h.completion.step
    rw [hkept] at hperm hran htasks
    -- The completion is the only one of its step, so it is taken, or lost, or left.
    have hsingle := hperm.symm.eq_singleton
    rw [List.append_eq_singleton_iff, List.append_eq_singleton_iff] at hsingle
    obtain ⟨htaken, ⟨hnotlost, hleft⟩ | ⟨hislost, hleft⟩⟩ | ⟨htaken, hrest⟩ := hsingle
    · rw [htaken] at hran
      refine .inl ⟨Standing.ext hran hleft htasks, fun hend => ?_⟩
      obtain ⟨g, hg, hstep⟩ := hends h hmem hend
      rcases List.mem_append.1 hg with hg | hg
      · simpa [hstep] using List.filter_eq_nil_iff.1 htaken g hg
      · simpa [hstep] using List.filter_eq_nil_iff.1 hnotlost g hg
    · rw [htaken] at hran
      refine .inr (.inr ⟨hlost ?_, Standing.ext hran hleft htasks⟩)
      rintro rfl
      cases hislost
    · have htake : h ∈ taken := List.mem_of_mem_filter (htaken ▸ List.mem_singleton_self h)
      rw [htaken] at hran
      exact .inr (.inl ⟨give h, hgive h htake, Standing.ext hran (List.append_eq_nil_iff.1 hrest).2 htasks⟩)
  | task hcall htasks hc hdelivered hheld hend =>
    obtain ⟨hheld, ⟨-, hperm, -⟩ | ⟨-, hperm, hran⟩⟩ := standing_of_task htasks hc hdelivered hheld h.completion.step
    · rw [hkept] at hperm
      cases hperm.symm.eq_nil
    · rw [hkept] at hperm hran hheld
      refine .inl ⟨Standing.ext hran hheld hperm.symm.eq_nil, ?_⟩
      cases hend <;> exact id

/-- A task that waits goes on waiting, or its completion runs with the answer that ends the wait. -/
theorem standing_step_of_waiting {t : Task Completion} {c : Completion} (hn : n ≠ s.clock) (hc : t.guard = .make c)
    (hwaiting : s.standing n = .waiting t) (a : Action) :
    ((s.step a).session.standing n = .waiting t ∧ ¬ a.EndsTask n) ∨
    ∃ x, (Fate.waiting t.answer : Fate Completed).EndedBy s.surroundings.script n a x ∧
      (s.step a).session.standing n = .done (c.run x) := by
  obtain ⟨hmem, htaskOf⟩ : t ∈ s.tasks ∧ isTaskOf n t = true := by
    have hmem : t ∈ (s.standing n).tasks := by simp [hwaiting, Standing.waiting]
    simpa [standing] using hmem
  cases s.step_effect a with
  | call hcall hd hdelivered hheld htasks =>
    refine .inl ⟨(standing_of_call hcall hd hn hdelivered hheld htasks).trans hwaiting, ?_⟩
    cases a <;> first | exact id | cases hcall
  | release _ _ _ hcall hheld hdelivered htasks hgive hlost hends hidle =>
    obtain ⟨hperm, hran, htasks⟩ := standing_of_release hheld hdelivered htasks n
    rw [hwaiting] at hperm hran htasks
    obtain ⟨htaken, hrest⟩ := List.append_eq_nil_iff.1 hperm.symm.eq_nil
    rw [htaken] at hran
    refine .inl ⟨Standing.ext hran (List.append_eq_nil_iff.1 hrest).2 htasks, fun hend => ?_⟩
    simp [hidle n hend t hmem] at htaskOf
  | @task t' c' x hcall htasks hc' hdelivered hheld hend =>
    obtain ⟨hheld, ⟨hstep, hperm, hran⟩ | ⟨hstep, hperm, hran⟩⟩ := standing_of_task htasks hc' hdelivered hheld n
    · rw [hwaiting] at hperm hran hheld
      obtain ⟨rfl, hleft⟩ := List.cons_eq_cons.1 hperm.symm.eq_singleton
      obtain rfl : c' = c := by simpa [hc, Guard.make] using hc'.symm
      exact .inr ⟨x, hstep ▸ hend, Standing.ext hran hheld hleft⟩
    · rw [hwaiting] at hperm hran hheld
      refine .inl ⟨Standing.ext hran hheld hperm.symm.eq_singleton, fun hn => hstep ?_⟩
      cases hend <;> exact hn

end Step

/-! ## Courses -/

/-- No step that is to come has a completion yet. -/
def IsFresh (s : Session) : Prop := ∀ n, s.clock ≤ n → s.standing n = .nothing

theorem isFresh_start (r : Resolver) (env : Surroundings) : (start r env).IsFresh := fun _ _ => rfl

theorem isFresh_step {s : Session} (h : s.IsFresh) (a : Action) : (s.step a).session.IsFresh := by
  intro n hn
  rw [clock_step] at hn
  exact standing_step_of_idle (by omega) Standing.isIdle_nothing (h n (by omega))

theorem isFresh_after {s : Session} (h : s.IsFresh) (l : List Action) : (s.after l).IsFresh := by
  induction l generalizing s with
  | nil => exact h
  | cons a l ih => exact ih (isFresh_step h a)

/-- What can no longer run stays as it is in all later steps. -/
theorem standing_after_of_idle {s : Session} {n : Nat} {x : Standing} (hn : n < s.clock) (hx : x.IsIdle)
    (h : s.standing n = x) (l : List Action) : (s.after l).standing n = x := by
  induction l generalizing s with
  | nil => exact h
  | cons a l ih =>
    refine ih ?_ (standing_step_of_idle (by omega) hx h)
    rw [clock_step]
    omega

/-- A step that makes no call never has a completion. -/
theorem standing_after_of_no_call {s : Session} {a : Action} (hs : s.IsFresh)
    (hcall : a.call? s.surroundings s.resolver s.clock = none) (rest : List Action) :
    (s.after (a :: rest)).standing s.clock = .nothing := by
  refine standing_after_of_idle ?_ Standing.isIdle_nothing ?_ rest
  · rw [clock_step]
    omega
  · exact standing_step_of_idle (fun _ => hcall) Standing.isIdle_nothing (hs _ (Nat.le_refl _))

/-- What becomes of the completion `c` of a call `a` with a fate, while the steps `rest` follow it. -/
inductive Course (s : Session) (a : Action) (rest : List Action) (c : Completion) : Fate Completed → Prop
  /-- It has run once, before the call returned. -/
  | now {x : Completed} (hreport : (s.step a).report = .started (s.unseen ++ [x]) [])
    (h : (s.after (a :: rest)).standing c.step = .done x) : Course s a rest c (.now x)
  /-- It has run once, within the step of the call, but after the call returned. -/
  | later {x : Completed} (hreport : (s.step a).report = .started s.unseen [x])
    (h : (s.after (a :: rest)).standing c.step = .done x) : Course s a rest c (.later x)
  /-- It is still kept, and no step was to end that. -/
  | kept {q : Query} (h : (s.after (a :: rest)).standing c.step = .kept ⟨c, q⟩)
    (hrest : ∀ b ∈ rest, ¬ b.EndsHeld c.step) : Course s a rest c (.held q)
  /-- Its task still waits, and no step was to end that. -/
  | waiting {t : Task Completion} (ht : t.guard = .make c) (h : (s.after (a :: rest)).standing c.step = .waiting t)
    (hrest : ∀ b ∈ rest, ¬ b.EndsTask c.step) : Course s a rest c (.waiting t.answer)
  /-- It was kept up to a step that ended this, ran once in that step, and has not run since. -/
  | released {q : Query} {x : Answer} {before more : List Action} {b : Action} (hrest : rest = before ++ b :: more)
    (hbefore : (s.after (a :: before)).standing c.step = .kept ⟨c, q⟩)
    (hend : (Fate.held q : Fate Completed).EndedBy (s.after (a :: before)).surroundings.script c.step b x)
    (h : (s.after (a :: rest)).standing c.step = .done (c.run x)) : Course s a rest c (.held q)
  /-- Its task waited up to a step that ended this, it ran once in that step, and has not run since. -/
  | ended {t : Task Completion} {x : Answer} {before more : List Action} {b : Action} (ht : t.guard = .make c)
    (hrest : rest = before ++ b :: more) (hbefore : (s.after (a :: before)).standing c.step = .waiting t)
    (hend : (Fate.waiting t.answer : Fate Completed).EndedBy (s.after (a :: before)).surroundings.script c.step b x)
    (h : (s.after (a :: rest)).standing c.step = .done (c.run x)) : Course s a rest c (.waiting t.answer)
  /-- It was kept up to a step that crashed while it completed those that are kept, and never runs. -/
  | lost {q : Query} {before more : List Action} {b : Action} (hrest : rest = before ++ b :: more)
    (hbefore : (s.after (a :: before)).standing c.step = .kept ⟨c, q⟩)
    (hcrash : b.CrashesBy (s.after (a :: before)).surroundings.script ((s.after (a :: before)).step b))
    (h : (s.after (a :: rest)).standing c.step = .nothing) : Course s a rest c (.held q)

section Courses

variable {s : Session} {a : Action} {c : Completion} {f : Fate Completed}

/-- Right after a call, its completion stands as its delivery says. -/
theorem standing_step_of_call {r : StepResult} {d : Delivery Completion Completed} (hs : s.IsFresh)
    (hcall : a.call? s.surroundings s.resolver s.clock = some (c, f)) (hd : f.IsOf c d)
    (hdelivered : r.session.delivered = s.delivered ++ (d.now ++ d.later).map Prod.snd)
    (hheld : r.session.held = s.held ++ d.held) (htasks : r.session.tasks = s.tasks ++ d.tasks) :
    r.session.standing c.step = ⟨(d.now ++ d.later).map Prod.snd, d.held, d.tasks⟩ := by
  obtain ⟨hc, hran⟩ := Action.completion_of_call? hcall
  obtain ⟨hnodelivered, hnoheld, hnotasks⟩ := Standing.mk.inj (hs c.step (Nat.le_of_eq hc.symm))
  have hnew : ((d.now ++ d.later).map Prod.snd).filter (·.step == c.step) = (d.now ++ d.later).map Prod.snd := by
    rw [List.filter_eq_self]
    intro x hx
    rw [← x.step_completion, hran d hd x hx, beq_self_eq_true]
  have hkept : d.held.filter (·.completion.step == c.step) = d.held ∧ d.tasks.filter (isTaskOf c.step) = d.tasks := by
    cases hd with
    | now => exact ⟨rfl, rfl⟩
    | later => exact ⟨rfl, rfl⟩
    | waiting t ht => simp [isTaskOf_make ht]
    | held q => simp
  rw [standing, hdelivered, hheld, htasks, List.filter_append, List.filter_append, List.filter_append, hnodelivered,
    hnoheld, hnotasks, hnew, hkept.1, hkept.2]
  rfl

/-- Every call takes its completion on one of the courses. -/
theorem course_nil (hs : s.IsFresh) (hcall : a.call? s.surroundings s.resolver s.clock = some (c, f)) :
    s.Course a [] c f := by
  cases s.step_effect a with
  | @call c' f' d hcall' hd hdelivered hheld htasks hreport =>
    obtain ⟨rfl, rfl⟩ : c = c' ∧ f = f' := by simpa [hcall] using hcall'
    have hstanding := standing_step_of_call hs hcall hd hdelivered hheld htasks
    cases hd with
    | now x => exact .now hreport hstanding
    | later x =>
      rw [List.map_nil, List.append_nil] at hreport
      exact .later hreport hstanding
    | waiting t ht => exact .waiting ht hstanding (by simp)
    | held q => exact .kept hstanding (by simp)
  | release _ _ _ hnone => simp [hnone] at hcall
  | task hnone => simp [hnone] at hcall

theorem after_concat (s : Session) (l : List Action) (b : Action) :
    s.after (l ++ [b]) = ((s.after l).step b).session := by
  rw [after_append, after_cons, after_nil]

/-- One more step takes a course on. -/
theorem Course.concat {rest : List Action} (h : s.Course a rest c f) (hc : c.step ≠ (s.after (a :: rest)).clock)
    (b : Action) : s.Course a (rest ++ [b]) c f := by
  have hafter : s.after (a :: (rest ++ [b])) = ((s.after (a :: rest)).step b).session := by
    rw [← List.cons_append, after_concat]
  have hidle {x : Standing} (hx : x.IsIdle) (h : (s.after (a :: rest)).standing c.step = x) :
      (s.after (a :: (rest ++ [b]))).standing c.step = x := by
    rw [hafter]
    exact standing_step_of_idle (absurd · hc) hx h
  have hmore {before more : List Action} {d : Action} (hrest : rest = before ++ d :: more) :
      rest ++ [b] = before ++ d :: (more ++ [b]) := by
    simp [hrest]
  cases h with
  | now hreport h => exact .now hreport (hidle ⟨rfl, rfl⟩ h)
  | later hreport h => exact .later hreport (hidle ⟨rfl, rfl⟩ h)
  | kept h hrest =>
    rcases standing_step_of_kept hc h b with ⟨hkept, hend⟩ | ⟨x, hend, hdone⟩ | ⟨hcrash, hnothing⟩
    · refine .kept (by rw [hafter, hkept]) ?_
      rw [List.forall_mem_append, List.forall_mem_singleton]
      exact ⟨hrest, hend⟩
    · exact .released rfl h hend (by rw [hafter, hdone])
    · exact .lost rfl h hcrash (by rw [hafter, hnothing])
  | waiting ht h hrest =>
    rcases standing_step_of_waiting hc ht h b with ⟨hwaiting, hend⟩ | ⟨x, hend, hdone⟩
    · refine .waiting ht (by rw [hafter, hwaiting]) ?_
      rw [List.forall_mem_append, List.forall_mem_singleton]
      exact ⟨hrest, hend⟩
    · exact .ended ht rfl h hend (by rw [hafter, hdone])
  | released hrest hbefore hend h => exact .released (hmore hrest) hbefore hend (hidle ⟨rfl, rfl⟩ h)
  | ended ht hrest hbefore hend h => exact .ended ht (hmore hrest) hbefore hend (hidle ⟨rfl, rfl⟩ h)
  | lost hrest hbefore hcrash h => exact .lost (hmore hrest) hbefore hcrash (hidle ⟨rfl, rfl⟩ h)

/-- From its call on, each completion is on one of the courses. -/
theorem course_of_call (hs : s.IsFresh) (hcall : a.call? s.surroundings s.resolver s.clock = some (c, f))
    (rest : List Action) : s.Course a rest c f := by
  induction rest using List.reverseRecOn with
  | nil => exact course_nil hs hcall
  | append_singleton rest b ih =>
    refine ih.concat ?_ b
    rw [clock_after, List.length_cons, (Action.completion_of_call? hcall).1]
    omega

/-- At the end of its course, a completion has run at most once, and nothing else has run in its place. -/
theorem Course.ran_spec {rest : List Action} (h : s.Course a rest c f)
    (hf : ∀ d, f.IsOf c d → ∀ x ∈ (d.now ++ d.later).map Prod.snd, x.completion = c) :
    ((s.after (a :: rest)).standing c.step).ran.length ≤ 1 ∧
      ∀ x ∈ ((s.after (a :: rest)).standing c.step).ran, x.completion = c := by
  cases h with
  | @now x hreport h =>
    rw [h]
    simpa [Standing.done] using hf _ (.now x)
  | @later x hreport h =>
    rw [h]
    simpa [Standing.done] using hf _ (.later x)
  | kept h => simp [h, Standing.kept]
  | waiting ht h => simp [h, Standing.waiting]
  | released hrest hbefore hend h => simp [h, Standing.done]
  | ended ht hrest hbefore hend h => simp [h, Standing.done]
  | lost hrest hbefore hcrash h => simp [h, Standing.nothing]

end Courses

/-! ## Runs from the start -/

section Runs

variable (r : Resolver) (env : Surroundings)

theorem clock_after_start (l : List Action) : ((start r env).after l).clock = l.length := by
  rw [clock_after]
  exact Nat.zero_add _

/-- What has run of a step has run once, and belongs to the call that was made in the step. -/
theorem ran_spec_after (actions : List Action) (n : Nat) :
    (((start r env).after actions).standing n).ran.length ≤ 1 ∧
      ∀ x ∈ (((start r env).after actions).standing n).ran, ∃ a f,
        actions[n]? = some a ∧
          a.call? ((start r env).after (actions.take n)).surroundings r n = some (x.completion, f) := by
  have hfresh := isFresh_after (isFresh_start r env)
  by_cases hn : n < actions.length
  · generalize hs : (start r env).after (actions.take n) = s
    have hclock : s.clock = n := by
      rw [← hs, clock_after_start, List.length_take]
      omega
    have hresolver : s.resolver = r := by
      rw [← hs, resolver_after]
      rfl
    have hafter : (start r env).after actions = s.after (actions[n] :: actions.drop (n + 1)) := by
      rw [← hs, ← after_append, List.getElem_cons_drop, List.take_append_drop]
    have hsfresh : s.IsFresh := hs ▸ hfresh _
    rw [hafter]
    cases hcall : actions[n].call? s.surroundings r n with
    | none =>
      have hnothing := standing_after_of_no_call hsfresh (by rw [hresolver, hclock, hcall]) (actions.drop (n + 1))
      rw [hclock] at hnothing
      rw [hnothing]
      simp [Standing.nothing]
    | some cf =>
      obtain ⟨c, f⟩ := cf
      obtain ⟨rfl, hf⟩ := Action.completion_of_call? hcall
      obtain ⟨hlength, hran⟩ := (course_of_call hsfresh (by rw [hresolver, hclock, hcall]) _).ran_spec hf
      exact ⟨hlength, fun x hx => ⟨_, f, List.getElem?_eq_getElem hn, by rw [hcall, hran x hx]⟩⟩
  · rw [hfresh actions n (by rw [clock_after_start]; omega)]
    simp [Standing.nothing]

/-- However calls, completions and ends of tasks follow each other, no completion runs twice, and none runs without its
call. The completion of a resolution takes one of the courses, with the fate that the resolution has by itself. -/
theorem completes_once (actions : List Action) :
    (((start r env).after actions).delivered.map Completed.step).Nodup ∧
    (∀ n o, .resolution n o ∈ ((start r env).after actions).delivered →
      ∃ e opts ctx, actions[n]? = some (.resolveAsync e opts ctx)) ∧
    ∀ before e o ctx rest, actions = before ++ .resolveAsync e o ctx :: rest →
      ((start r env).after before).Course (.resolveAsync e o ctx) rest (.resolution before.length)
        ((e.fate ((start r env).after before).surroundings r ctx o).map (.resolution before.length)) := by
  refine ⟨?_, fun n o hx => ?_, fun before e o ctx rest _ => ?_⟩
  · rw [List.nodup_iff_count_le_one]
    intro n
    rw [List.count, List.countP_map, List.countP_eq_length_filter]
    exact (ran_spec_after r env actions n).1
  · have hran : .resolution n o ∈ (((start r env).after actions).standing n).ran :=
      List.mem_filter.2 ⟨hx, by simp [Completed.step]⟩
    obtain ⟨a, f, ha, hcall⟩ := (ran_spec_after r env actions n).2 _ hran
    cases a with
    | resolveAsync e opts ctx => exact ⟨e, opts, ctx, ha⟩
    | submit q ctx => simp [Action.call?, Completed.completion] at hcall
    | _ => cases hcall
  · refine course_of_call (isFresh_after (isFresh_start r env) before) ?_ rest
    rw [clock_after_start, resolver_after]
    rfl

end Runs

/-- A completion that is kept and whose guard is dropped has run as abandoned. -/
theorem completes_once_dropped :
    ((start ⟨[], .holding⟩ ⟨fun _ => .ok [], fun _ => .ok [], .crashing⟩).after
      [.resolveAsync (.host ⟨"vpn.example.com", none, by decide, by decide, by decide, by decide⟩) .default .absent,
        .settle 0 .dropped]).standing 0 = .done (.resolution 0 (.error (.resolutionFailed .taskFailed))) := by
  have hcourse := (completes_once ⟨[], .holding⟩ ⟨fun _ => .ok [], fun _ => .ok [], .crashing⟩ _).2.2 []
    (.host ⟨"vpn.example.com", none, by decide, by decide, by decide, by decide⟩) .default .absent
    [.settle 0 .dropped] rfl
  cases hcourse with
  | kept h hrest => exact absurd rfl (hrest _ (List.mem_singleton_self _))
  | @released q x before more b hrest hbefore hend h =>
    obtain ⟨rfl, rfl⟩ : before = [] ∧ b = .settle 0 .dropped := by
      cases before <;> simp_all
    cases hend
    exact h
  | @lost q before more b hrest hbefore hcrash h =>
    obtain ⟨rfl, rfl⟩ : before = [] ∧ b = .settle 0 .dropped := by
      cases before <;> simp_all
    obtain ⟨count, hcount⟩ | hcount := hcrash.completes <;> cases hcount

end Session

end Peering
