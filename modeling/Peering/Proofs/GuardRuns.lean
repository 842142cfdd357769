import Mathlib.Data.List.Count
import Peering.Diagnostic
import Peering.Proofs.Completions

/-!
# Each guard runs its completion once

Guards are made, shown, completed and dropped in any order, among all the other steps of a session. A guard that is
completed is dropped after that, so there are two places that may run one completion. They exclude each other, since the
first leaves nothing for the second.

* `Guard.complete_eq`: the drop at the end of a completion does nothing;
* `Session.step_guardEffect`: a step makes a guard, releases one that is there, or leaves all of them alone;
* `Session.guardStanding_step`: a step changes how a guard stands only if it releases that guard;
* `Session.guardStanding_after`: the first step that releases a guard decides what its completion is given;
* `Session.guardKeys_perm`, `Session.AccountsFor.step`: no step loses a guard, and none runs a completion again.

`Session.guards_run_once` states this for all runs from the start.
-/

namespace Peering

/-! ## One guard -/

namespace Guard

variable {α : Type}

/-- A guard that is completed runs what it owns. It is dropped after that, with nothing left to run or to report. -/
theorem complete_eq (g : Guard α) (a : Answer) : g.complete a = pure (g.release a).2 := by
  simp [complete, release, drop, isPending]

theorem value?_complete (g : Guard α) (a : Answer) : (g.complete a).value? = some (g.release a).2 := by
  rw [complete_eq, Run.value?_pure]

/-- A guard that is dropped runs what it owns as abandoned. -/
theorem value?_drop (g : Guard α) : g.drop.value? = some (g.release abandonedAnswer).2 := by
  obtain ⟨_ | c⟩ := g
  · rfl
  · exact value?_drop_make c

end Guard

/-! ## Actions on guards -/

namespace Action

/-- Whether the action makes a guard. -/
def makesGuard : Action → Bool
  | .guardNew => true
  | _ => false

/-- The guard that the action releases, if it is there, and what its completion is given. -/
def release? : Action → Option (Nat × Answer)
  | .guardComplete id (some a) => some (id, a)
  | .guardComplete id none => some (id, abandonedAnswer)
  | .guardDrop id => some (id, abandonedAnswer)
  | _ => none

/-- What the completion of the guard of the step `n` is given by the action, if the action releases this guard. -/
def releaseOf? (n : Nat) (a : Action) : Option Answer :=
  match a.release? with
  | some (id, x) => if id = n then some x else none
  | none => none

theorem makesGuard_iff {a : Action} : a.makesGuard = true ↔ a = .guardNew := by
  cases a <;> simp [makesGuard]

theorem release?_of_makesGuard {a : Action} (h : a.makesGuard = true) : a.release? = none := by
  cases a with
  | guardNew => rfl
  | _ => cases h

theorem releaseOf?_of_release? {a : Action} {id : Nat} {x : Answer} (h : a.release? = some (id, x)) (n : Nat) :
    a.releaseOf? n = if id = n then some x else none := by
  simp only [releaseOf?, h]

theorem releaseOf?_of_makesGuard {a : Action} (h : a.makesGuard = true) (n : Nat) : a.releaseOf? n = none := by
  simp only [releaseOf?, release?_of_makesGuard h]

theorem releaseOf?_eq_some_iff {a : Action} {n : Nat} {x : Answer} :
    a.releaseOf? n = some x ↔ a.release? = some (n, x) := by
  cases h : a.release? with
  | none => simp [releaseOf?, h]
  | some e =>
    obtain ⟨id, y⟩ := e
    by_cases hid : id = n <;> simp [releaseOf?, h, hid]

end Action

namespace Session

/-! ## What a step does to guards -/

/-- Each guard that is there owns the completion of the step that made it. -/
def GuardsPend (s : Session) : Prop := ∀ e ∈ s.guards, e.2 = .make e.1

/-- What a step does to the guards of a session. -/
inductive GuardEffect (s : Session) (a : Action) (r : StepResult) : Prop
  /-- It makes one. -/
  | made (hmake : a.makesGuard = true) (hguards : r.session.guards = s.guards ++ [(s.clock, .make s.clock)])
    (hruns : r.session.guardRuns = s.guardRuns)
  /-- It releases one that is there. -/
  | released {id : Nat} {x : Answer} (hmake : a.makesGuard = false) (hrelease : a.release? = some (id, x))
    (hmem : (id, .make id) ∈ s.guards) (hguards : r.session.guards = s.guards.filter (·.1 != id))
    (hruns : r.session.guardRuns = s.guardRuns ++ [(id, x)])
  /-- It leaves them alone, for it releases none, or one that is not there. -/
  | kept (hmake : a.makesGuard = false) (hnone : ∀ id x, a.release? = some (id, x) → s.guard? id = none)
    (hguards : r.session.guards = s.guards) (hruns : r.session.guardRuns = s.guardRuns)

/-- The guards of a session, and what has run of them. -/
def guardBook (s : Session) : List (Nat × Guard Nat) × List (Nat × Answer) := (s.guards, s.guardRuns)

theorem guardBook_afterCompletions (s : Session) (ran : List Completed) (crashed : Bool) :
    (s.afterCompletions ran crashed).1.guardBook = s.guardBook := by
  cases crashed <;> rfl

/-- The guard that is found is there. -/
theorem mem_guards_of_guard? {s : Session} {id : Nat} {g : Guard Nat} (h : s.guard? id = some g) :
    (id, g) ∈ s.guards := by
  obtain ⟨e, he, rfl⟩ := Option.map_eq_some_iff.1 h
  obtain rfl : e.1 = id := by simpa using List.find?_some he
  exact List.mem_of_find?_eq_some he

section Effect

variable {s : Session} {a : Action}

theorem guardEffect_of_eq {r : StepResult} (hmake : a.makesGuard = false) (hrelease : a.release? = none)
    (h : r.session.guardBook = s.guardBook) : s.GuardEffect a r := by
  refine .kept hmake (fun id x hsome => ?_) (congrArg Prod.fst h) (congrArg Prod.snd h)
  rw [hrelease] at hsome
  cases hsome

/-- Consuming a guard releases it, whichever way it is consumed. -/
theorem guardEffect_consumeGuard (hs : s.GuardsPend) {id : Nat} {x : Answer} (hmake : a.makesGuard = false)
    (hrelease : a.release? = some (id, x)) {use : Guard Nat → Run (List (Nat × Answer))}
    (huse : ∀ g, (use g).value? = some (g.release x).2) (crashed : Bool) :
    s.GuardEffect a ({ s with clock := s.clock + 1 }.consumeGuard id crashed use) := by
  have hfound : { s with clock := s.clock + 1 }.guard? id = s.guard? id := rfl
  rw [consumeGuard, hfound]
  cases hguard : s.guard? id with
  | none =>
    refine .kept hmake (fun id' x' h => ?_) rfl rfl
    obtain ⟨rfl, rfl⟩ : id = id' ∧ x = x' := by simpa [hrelease] using h
    exact hguard
  | some g =>
    have hmem : (id, g) ∈ s.guards := mem_guards_of_guard? hguard
    obtain rfl : g = .make id := hs _ hmem
    dsimp only
    rw [conclude_of_value? (huse _)]
    exact .released hmake hrelease hmem rfl rfl

theorem step_guardEffect (hs : s.GuardsPend) (a : Action) : s.GuardEffect a (s.step a) := by
  cases a with
  | resolve e o ctx => exact guardEffect_of_eq rfl rfl (conclude_keeps guardBook rfl fun _ => rfl)
  | resolveAsync e o ctx => exact guardEffect_of_eq rfl rfl (conclude_keeps guardBook rfl fun _ => rfl)
  | block q ctx => exact guardEffect_of_eq rfl rfl (conclude_keeps guardBook rfl fun _ => rfl)
  | await q ctx => exact guardEffect_of_eq rfl rfl (conclude_keeps guardBook rfl fun _ => rfl)
  | submit q ctx => exact guardEffect_of_eq rfl rfl (conclude_keeps guardBook rfl fun _ => rfl)
  | resolveConfig c ctx => exact guardEffect_of_eq rfl rfl (conclude_keeps guardBook rfl fun _ => rfl)
  | setScript script => exact guardEffect_of_eq rfl rfl rfl
  | complete count => exact guardEffect_of_eq rfl rfl (guardBook_afterCompletions _ _ _)
  | completeGuarded drop =>
    exact guardEffect_of_eq rfl rfl (conclude_keeps guardBook rfl fun _ => guardBook_afterCompletions _ _ _)
  | settle id how =>
    exact guardEffect_of_eq rfl rfl (settle_keeps guardBook (fun _ => rfl) (fun _ _ _ => rfl) id how)
  | runTask id =>
    exact guardEffect_of_eq rfl rfl (endTask_keeps guardBook (fun _ => rfl) (fun _ _ _ => rfl) id _)
  | dropTask id =>
    exact guardEffect_of_eq rfl rfl (endTask_keeps guardBook (fun _ => rfl) (fun _ _ _ => rfl) id _)
  | guardNew => exact .made rfl rfl rfl
  | guardComplete id answer =>
    cases answer with
    | none => exact guardEffect_consumeGuard hs rfl rfl Guard.value?_drop true
    | some x => exact guardEffect_consumeGuard hs rfl rfl (fun g => g.value?_complete x) false
  | guardDrop id => exact guardEffect_consumeGuard hs rfl rfl Guard.value?_drop false
  | pass => exact guardEffect_of_eq rfl rfl rfl

theorem GuardsPend.step (hs : s.GuardsPend) (a : Action) : (s.step a).session.GuardsPend := by
  intro e he
  cases step_guardEffect hs a with
  | made hmake hguards hruns =>
    rw [hguards, List.mem_append, List.mem_singleton] at he
    obtain he | rfl := he
    · exact hs e he
    · rfl
  | released hmake hrelease hmem hguards hruns =>
    rw [hguards] at he
    exact hs e (List.mem_of_mem_filter he)
  | kept hmake hnone hguards hruns =>
    rw [hguards] at he
    exact hs e he

end Effect

end Session

/-! ## How a guard stands -/

/-- How the guard that one step made stands. -/
structure GuardStanding where
  /-- The guard, while it is neither completed nor dropped. -/
  live : Option (Guard Nat)
  /-- What its completion was given. -/
  given : List Answer

namespace GuardStanding

/-- No guard was made. -/
def absent : GuardStanding := ⟨none, []⟩

/-- The guard of the step `n` is there, and its completion has not run. -/
def pending (n : Nat) : GuardStanding := ⟨some (.make n), []⟩

/-- The guard is gone, and its completion has run, once. -/
def spent (x : Answer) : GuardStanding := ⟨none, [x]⟩

/-- How the guard of the step `n` stands, by the answer with which it was released, if it was. -/
def afterRelease (n : Nat) : Option Answer → GuardStanding
  | none => pending n
  | some x => spent x

/-- The standing after a release with an answer, if there is one. What is gone is not released again. -/
def release (st : GuardStanding) : Option Answer → GuardStanding
  | none => st
  | some x => if st.live.isSome then ⟨none, st.given ++ [x]⟩ else st

theorem release_none (st : GuardStanding) : st.release none = st := rfl

theorem release_pending (n : Nat) (x? : Option Answer) : (pending n).release x? = afterRelease n x? := by
  cases x? <;> rfl

/-- Of two releases the first decides. -/
theorem release_release (st : GuardStanding) (x? y? : Option Answer) :
    (st.release x?).release y? = st.release (x?.or y?) := by
  obtain ⟨_ | g, given⟩ := st <;> cases x? <;> cases y? <;> rfl

end GuardStanding

namespace Session

/-- How the guard of the step `n` stands. -/
def guardStanding (s : Session) (n : Nat) : GuardStanding := ⟨s.guard? n, s.givenByGuard n⟩

/-- What is shown of a guard is how it stands. -/
theorem guardOf_eq (s : Session) (n : Nat) :
    Diagnostic.guardOf s n =
      (s.guardStanding n).live.map fun g => (Diagnostic.guard g, (s.guardStanding n).given) := rfl

section Standing

variable {s : Session} {a : Action} {n : Nat}

theorem guardStanding_congr {s s' : Session} (hguards : s'.guards = s.guards) (hruns : s'.guardRuns = s.guardRuns)
    (n : Nat) : s'.guardStanding n = s.guardStanding n := by
  simp only [guardStanding, guard?, givenByGuard, hguards, hruns]

/-- Another guard makes no difference. -/
theorem guardStanding_of_made {s' : Session} {id : Nat} {g : Guard Nat} (hguards : s'.guards = s.guards ++ [(id, g)])
    (hruns : s'.guardRuns = s.guardRuns) (hn : n ≠ id) : s'.guardStanding n = s.guardStanding n := by
  have hid : (id == n) = false := by simpa using hn.symm
  simp [guardStanding, guard?, givenByGuard, hguards, hruns, hid]

/-- The release of a guard is that of its standing, and of no other. -/
theorem guardStanding_of_released {s' : Session} {id : Nat} {x : Answer} (hmem : (id, .make id) ∈ s.guards)
    (hguards : s'.guards = s.guards.filter (·.1 != id)) (hruns : s'.guardRuns = s.guardRuns ++ [(id, x)]) (n : Nat) :
    s'.guardStanding n = (s.guardStanding n).release (if id = n then some x else none) := by
  by_cases hid : id = n
  · subst hid
    have hthere : (s.guard? id).isSome := by
      simpa [guard?, List.find?_isSome] using ⟨_, hmem⟩
    have hgone : s'.guard? id = none := by
      simp [guard?, hguards, List.find?_eq_none]
    have hgiven : s'.givenByGuard id = s.givenByGuard id ++ [x] := by
      simp [givenByGuard, hruns]
    simp [guardStanding, GuardStanding.release, hthere, hgone, hgiven]
  · have hother (e : Nat × Guard Nat) : decide ((e.1 != id) = true ∧ (e.1 == n) = true) = (e.1 == n) := by
      by_cases he : e.1 = n <;> simp [he, Ne.symm hid]
    have hlive : s'.guard? n = s.guard? n := by
      simp only [guard?, hguards, List.find?_filter, hother]
    have hgiven : s'.givenByGuard n = s.givenByGuard n := by
      simp [givenByGuard, hruns, hid]
    simp [guardStanding, GuardStanding.release_none, hid, hlive, hgiven]

/-- A step changes how a guard stands only if it releases that guard. -/
theorem guardStanding_step (hs : s.GuardsPend) (hn : n = s.clock → a.makesGuard = false) :
    (s.step a).session.guardStanding n = (s.guardStanding n).release (a.releaseOf? n) := by
  cases step_guardEffect hs a with
  | made hmake hguards hruns =>
    have hother : n ≠ s.clock := fun h => by simp [hn h] at hmake
    rw [Action.releaseOf?_of_makesGuard hmake, GuardStanding.release_none]
    exact guardStanding_of_made hguards hruns hother
  | released hmake hrelease hmem hguards hruns =>
    rw [Action.releaseOf?_of_release? hrelease]
    exact guardStanding_of_released hmem hguards hruns n
  | kept hmake hnone hguards hruns =>
    rw [guardStanding_congr hguards hruns]
    cases hrelease : a.releaseOf? n with
    | none => rfl
    | some x =>
      have hgone : s.guard? n = none := hnone n x (Action.releaseOf?_eq_some_iff.1 hrelease)
      simp [guardStanding, GuardStanding.release, hgone]

/-- The guard that a step makes is pending. -/
theorem guardStanding_step_of_makesGuard (hs : s.GuardsPend) (hfresh : s.guardStanding s.clock = .absent)
    (hmake : a.makesGuard = true) : (s.step a).session.guardStanding s.clock = .pending s.clock := by
  cases step_guardEffect hs a with
  | made _ hguards hruns =>
    obtain ⟨hnone, hnothing⟩ := GuardStanding.mk.inj hfresh
    rw [guard?, Option.map_eq_none_iff] at hnone
    have hlive : (s.step a).session.guard? s.clock = some (.make s.clock) := by
      simp [guard?, hguards, hnone]
    have hgiven : (s.step a).session.givenByGuard s.clock = [] := by
      rw [givenByGuard, hruns]
      exact hnothing
    rw [guardStanding, hlive, hgiven]
    rfl
  | released hmake' => simp [hmake'] at hmake
  | kept hmake' => simp [hmake'] at hmake

/-- What the following steps make of a guard is decided by the first of them that releases it. -/
theorem guardStanding_after (hs : s.GuardsPend) (hn : n < s.clock) (l : List Action) :
    (s.after l).guardStanding n = (s.guardStanding n).release (l.findSome? (·.releaseOf? n)) := by
  -- From any session, since each step starts where the one before has ended.
  induction l generalizing s with
  | nil => rfl
  | cons a l ih =>
    have hlater : n < (s.step a).session.clock := by
      rw [clock_step]
      omega
    have hfirst : (a :: l).findSome? (·.releaseOf? n) = (a.releaseOf? n).or (l.findSome? (·.releaseOf? n)) := by
      rw [List.findSome?_cons]
      cases a.releaseOf? n <;> rfl
    rw [after_cons, ih (hs.step a) hlater, guardStanding_step hs (by omega), GuardStanding.release_release, hfirst]

end Standing

/-! ## All guards -/

/-- The guards that are there and those whose completion has run, by the steps that made them. -/
def guardKeys (s : Session) : List Nat := s.guards.map Prod.fst ++ s.guardRuns.map Prod.fst

theorem givenByGuard_eq_nil {s : Session} {n : Nat} (h : n ∉ s.guardRuns.map Prod.fst) : s.givenByGuard n = [] := by
  rw [givenByGuard, List.map_eq_nil_iff, List.filter_eq_nil_iff]
  intro e he hkey
  exact h (List.mem_map.2 ⟨e, he, by simpa using hkey⟩)

/-- No guard has run before it was made. -/
theorem guardStanding_of_not_mem_guardKeys {s : Session} {n : Nat} (h : n ∉ s.guardKeys) :
    s.guardStanding n = .absent := by
  rw [guardKeys, List.mem_append, not_or] at h
  have hlive : s.guard? n = none := by
    rw [guard?, Option.map_eq_none_iff, List.find?_eq_none]
    intro e he hkey
    exact h.1 (List.mem_map.2 ⟨e, he, by simpa using hkey⟩)
  rw [guardStanding, hlive, givenByGuard_eq_nil h.2]
  rfl

/-- A step adds the guard that it makes. A guard that it releases goes from those that are there to those that have
run. -/
theorem guardKeys_perm {s : Session} (hs : s.GuardsPend) (hnodup : s.guardKeys.Nodup) (a : Action) :
    (s.step a).session.guardKeys.Perm (s.guardKeys ++ if a.makesGuard then [s.clock] else []) := by
  cases step_guardEffect hs a with
  | made hmake hguards hruns =>
    rw [guardKeys, guardKeys, hguards, hruns, hmake, if_pos rfl, List.map_append, List.append_assoc, List.append_assoc]
    exact List.perm_append_comm.append_left _
  | @released id x hmake hrelease hmem hguards hruns =>
    -- Dropping all entries of the guard drops one, for there are no two.
    have hkeys : (s.guards.map Prod.fst).Nodup := (List.nodup_append.1 hnodup).1
    have herase : (s.guards.filter (·.1 != id)).map Prod.fst = (s.guards.map Prod.fst).erase id := by
      rw [hkeys.erase_eq_filter, List.filter_map]
      rfl
    have hthere : id ∈ s.guards.map Prod.fst := List.mem_map_of_mem hmem
    have hmoved : (id :: ((s.guards.map Prod.fst).erase id ++ s.guardRuns.map Prod.fst)).Perm s.guardKeys :=
      (List.perm_cons_erase hthere).symm.append_right _
    rw [guardKeys, hguards, hruns, hmake, herase, List.map_append, ← List.append_assoc]
    simpa using (List.perm_append_singleton id _).trans hmoved
  | kept hmake hnone hguards hruns =>
    rw [guardKeys, guardKeys, hguards, hruns, hmake]
    simp

theorem getElem?_concat_eq_some_iff {α : Type} {l : List α} {a b : α} {n : Nat} :
    (l ++ [a])[n]? = some b ↔ l[n]? = some b ∨ n = l.length ∧ a = b := by
  grind

/-- The session accounts for the guards that the steps so far have made: each is there, or its completion has run. -/
structure AccountsFor (s : Session) (actions : List Action) : Prop where
  clock : s.clock = actions.length
  pend : s.GuardsPend
  nodup : s.guardKeys.Nodup
  mem_iff : ∀ n, n ∈ s.guardKeys ↔ actions[n]? = some .guardNew

section Accounts

variable {s : Session} {actions : List Action}

/-- The guard that the next step may make is not there yet. -/
theorem AccountsFor.clock_not_mem (hs : s.AccountsFor actions) : s.clock ∉ s.guardKeys := by
  rw [hs.mem_iff, hs.clock]
  simp

/-- One more step leaves no guard out and counts none twice. -/
theorem AccountsFor.step (hs : s.AccountsFor actions) (a : Action) :
    (s.step a).session.AccountsFor (actions ++ [a]) := by
  have hperm := guardKeys_perm hs.pend hs.nodup a
  have hfresh := hs.clock_not_mem
  refine ⟨?_, hs.pend.step a, ?_, fun n => ?_⟩
  · rw [clock_step, hs.clock, List.length_append, List.length_singleton]
  · refine hperm.nodup_iff.2 ?_
    cases a.makesGuard with
    | false => simpa using hs.nodup
    | true => simpa [List.nodup_append] using ⟨hs.nodup, fun n hn h => hfresh (h ▸ hn)⟩
  · have hmade : n ∈ (if a.makesGuard then [s.clock] else []) ↔ n = actions.length ∧ a = .guardNew := by
      rw [← Action.makesGuard_iff, hs.clock]
      cases a.makesGuard <;> simp
    rw [hperm.mem_iff, List.mem_append, hs.mem_iff, hmade, getElem?_concat_eq_some_iff]

theorem accountsFor_start (r : Resolver) (env : Surroundings) : (start r env).AccountsFor [] :=
  ⟨rfl, by simp [GuardsPend, start], by simp [guardKeys, start], by simp [guardKeys, start]⟩

theorem accountsFor_after (r : Resolver) (env : Surroundings) (actions : List Action) :
    ((start r env).after actions).AccountsFor actions := by
  induction actions using List.reverseRecOn with
  | nil => exact accountsFor_start r env
  | append_singleton actions a ih =>
    rw [after_concat]
    exact ih.step a

/-- The completion of a guard that is there has not run. -/
theorem AccountsFor.guardStanding_of_guard? (hs : s.AccountsFor actions) {n : Nat} {g : Guard Nat}
    (h : s.guard? n = some g) : s.guardStanding n = .pending n := by
  have hmem : (n, g) ∈ s.guards := mem_guards_of_guard? h
  have howns : g = .make n := hs.pend _ hmem
  have hnotrun : n ∉ s.guardRuns.map Prod.fst := fun hran =>
    (List.nodup_append.1 hs.nodup).2.2 n (List.mem_map_of_mem hmem) n hran rfl
  rw [guardStanding, h, givenByGuard_eq_nil hnotrun, howns]
  rfl

/-- From the step that makes it on, a guard stands as the first step that releases it has left it. -/
theorem AccountsFor.guardStanding_after_guardNew (hs : s.AccountsFor actions) (rest : List Action) :
    (s.after (.guardNew :: rest)).guardStanding s.clock =
      .afterRelease s.clock (rest.findSome? (·.releaseOf? s.clock)) := by
  have hmade : (s.step .guardNew).session.guardStanding s.clock = .pending s.clock :=
    guardStanding_step_of_makesGuard hs.pend (guardStanding_of_not_mem_guardKeys hs.clock_not_mem) rfl
  have hlater : s.clock < (s.step .guardNew).session.clock := by
    rw [clock_step]
    omega
  rw [after_cons, guardStanding_after (hs.pend.step _) hlater, hmade, GuardStanding.release_pending]

end Accounts

/-- However guards are made, shown, completed and dropped among all other steps, each guard that was made is there or
its completion has run, never both and never twice. What the completion is given is decided by the first step that
releases the guard: the answer with which the guard is completed, or that of an abandoned lookup if it is dropped. Until
then the guard shows that it is pending, and nothing has run. When all guards are gone, each completion has run once. A
step that releases another guard makes no difference. -/
theorem guards_run_once (r : Resolver) (env : Surroundings) (actions : List Action) :
    let s := (start r env).after actions
    (s.guards.map Prod.fst ++ s.guardRuns.map Prod.fst).Nodup ∧
    (∀ n, n ∈ s.guards.map Prod.fst ++ s.guardRuns.map Prod.fst ↔ actions[n]? = some .guardNew) ∧
    (∀ before rest, actions = before ++ .guardNew :: rest →
      s.guardStanding before.length =
        .afterRelease before.length (rest.findSome? (·.releaseOf? before.length))) ∧
    (∀ n g, s.guard? n = some g →
      Diagnostic.guardOf s n = some ("CompletionGuard \x7b pending: true \x7d", [])) ∧
    (s.guards = [] → ∀ n, actions[n]? = some .guardNew → ∃ x, s.givenByGuard n = [x]) ∧
    ∀ a n, n < actions.length → a.releaseOf? n = none →
      (s.step a).session.guardStanding n = s.guardStanding n := by
  intro s
  have hs : s.AccountsFor actions := accountsFor_after r env actions
  have hcourse (before rest : List Action) (h : actions = before ++ .guardNew :: rest) :
      s.guardStanding before.length =
        .afterRelease before.length (rest.findSome? (·.releaseOf? before.length)) := by
    have hbefore := accountsFor_after r env before
    have hafter := hbefore.guardStanding_after_guardNew rest
    rw [← after_append, ← h, hbefore.clock] at hafter
    exact hafter
  refine ⟨hs.nodup, hs.mem_iff, hcourse, fun n g h => ?_, fun hgone n hn => ?_, fun a n hn hother => ?_⟩
  · rw [guardOf_eq, hs.guardStanding_of_guard? h]
    rfl
  · obtain ⟨hlt, hnew⟩ := List.getElem?_eq_some_iff.1 hn
    have hsplit : actions = actions.take n ++ .guardNew :: actions.drop (n + 1) := by
      rw [← hnew, List.getElem_cons_drop, List.take_append_drop]
    have hstands := hcourse _ _ hsplit
    rw [List.length_take_of_le (Nat.le_of_lt hlt)] at hstands
    have hlive : s.guard? n = none := by simp [guard?, hgone]
    cases hrelease : (actions.drop (n + 1)).findSome? (·.releaseOf? n) with
    | none =>
      rw [hrelease] at hstands
      have hpending : s.guard? n = some (.make n) := congrArg GuardStanding.live hstands
      simp [hlive] at hpending
    | some x =>
      rw [hrelease] at hstands
      exact ⟨x, congrArg GuardStanding.given hstands⟩
  · rw [guardStanding_step hs.pend (by rw [hs.clock]; omega), hother, GuardStanding.release_none]

/-- Two guards are made and the second is completed. The first goes on showing that it is pending, and its completion
runs as abandoned when it is dropped. -/
theorem guards_run_once_second_first :
    let actions : List Action :=
      [.guardNew, .guardNew, .guardComplete 1 (some (.error .addressInvalid)), .pass, .guardDrop 0]
    let s := (start ⟨[], .holding⟩ ⟨fun _ => .ok [], fun _ => .ok [], .crashing⟩).after (actions.take 4)
    let t := (start ⟨[], .holding⟩ ⟨fun _ => .ok [], fun _ => .ok [], .crashing⟩).after actions
    s.guardStanding 1 = .spent (.error .addressInvalid) ∧
      Diagnostic.guardOf s 0 = some ("CompletionGuard \x7b pending: true \x7d", []) ∧
      (s.step (.guardDrop 0)).session.guardStanding 1 = s.guardStanding 1 ∧
      t.guardStanding 0 = .spent abandonedAnswer ∧ t.guards = [] ∧ ∃ x, t.givenByGuard 1 = [x] := by
  intro actions s t
  obtain ⟨-, -, hcourse, hshown, -, hother⟩ :=
    guards_run_once ⟨[], .holding⟩ ⟨fun _ => .ok [], fun _ => .ok [], .crashing⟩ (actions.take 4)
  obtain ⟨-, -, hcourse', -, hgone, -⟩ :=
    guards_run_once ⟨[], .holding⟩ ⟨fun _ => .ok [], fun _ => .ok [], .crashing⟩ actions
  refine ⟨?_, ?_, ?_, ?_, rfl, ?_⟩
  · exact hcourse [.guardNew] [.guardComplete 1 (some (.error .addressInvalid)), .pass] rfl
  · exact hshown 0 (.make 0) rfl
  · exact hother (.guardDrop 0) 1 (by decide) rfl
  · exact hcourse' [] _ rfl
  · exact hgone rfl 1 rfl

end Session

end Peering
