import Mathlib.Data.List.Basic
import Peering.Lookup.Cursor

/-!
# Results read in any order of actions

A cursor does any number of things one after the other (`Cursor.after`, `Cursor.views`). What an action shows is said of
the entries that remain and of those that are saved, apart from how the cursor comes to it (`Cursor.Shows`).

* `Cursor.step_shows`: every action shows what it is to show;
* `Cursor.yielded_append_entries`: one action loses no entry and changes no order, unless it goes back;
* `Cursor.taken_append_entries`: so do any number of actions;
* `Cursor.views_replicate_next`: taking entries one by one shows them in order, and nothing after the last;
* `Cursor.saved_after`: the copy stays as it is until the next saving.

`Cursor.reads_in_order` states this at any point of any run.
-/

namespace Peering.Cursor

variable {c : Cursor} {a : Action} {as : List Action}

/-! ## Runs -/

/-- The cursor after doing things in order. -/
def after (c : Cursor) (as : List Action) : Cursor := (c.run as).2

/-- What doing things in order shows. -/
def views (c : Cursor) (as : List Action) : List View := (c.run as).1

theorem after_cons (c : Cursor) (a : Action) (as : List Action) : c.after (a :: as) = (c.step a).2.after as := rfl

theorem views_cons (c : Cursor) (a : Action) (as : List Action) :
    c.views (a :: as) = (c.step a).1 :: (c.step a).2.views as := rfl

theorem views_append (c : Cursor) (as bs : List Action) :
    c.views (as ++ bs) = c.views as ++ (c.after as).views bs := by
  induction as generalizing c with
  | nil => rfl
  | cons a as ih => rw [List.cons_append, views_cons, views_cons, after_cons, ih, List.cons_append]

/-! ## Views -/

/-- What an action shows of the entries that remain and of those that are saved. -/
inductive Shows (remaining saved : List Entry) : Action → View → Prop
  | size : Shows remaining saved .size (.count remaining.length)
  | isEmpty : Shows remaining saved .isEmpty (.flag (decide (remaining = [])))
  | first : Shows remaining saved .first (.entry remaining[0]?)
  | entries : Shows remaining saved .entries (.entries remaining)
  | endpoints : Shows remaining saved .endpoints (.endpoints (remaining.map Entry.endpoint))
  | sizeBounds : Shows remaining saved .sizeBounds (.bounds remaining.length remaining.length)
  | next : Shows remaining saved .next (.entry remaining[0]?)
  | takeAll : Shows remaining saved .takeAll (.entries remaining)
  | save : Shows remaining saved .save (.count remaining.length)
  | restore : Shows remaining saved .restore (.count saved.length)
  | equalsSaved : Shows remaining saved .equalsSaved (.flag (decide (remaining = saved)))

/-- Sequences are the same exactly if the same entries remain. -/
theorem equalsSaved_eq (r saved : Results) : (r == saved) = decide (r.entries = saved.entries) := by
  rw [Bool.eq_iff_iff, beq_iff_eq, decide_eq_true_iff]
  exact ⟨congrArg Results.entries, congrArg Results.mk⟩

theorem step_shows (c : Cursor) (a : Action) : Shows c.current.entries c.saved.entries a (c.step a).1 := by
  have hempty : c.current.isEmpty = decide (c.current.entries = []) := by
    rw [Bool.eq_iff_iff, decide_eq_true_iff]
    exact List.isEmpty_iff
  have hfirst : c.current.first? = c.current.entries[0]? := List.head?_eq_getElem?
  cases a with
  | size => exact .size
  | isEmpty =>
    show Shows _ _ _ (.flag c.current.isEmpty)
    rw [hempty]
    exact .isEmpty
  | first =>
    show Shows _ _ _ (.entry c.current.first?)
    rw [hfirst]
    exact .first
  | entries => exact .entries
  | endpoints => exact .endpoints
  | sizeBounds => exact .sizeBounds
  | next =>
    show Shows _ _ _ (.entry c.current.next?.1)
    rw [Results.next?_fst, hfirst]
    exact .next
  | takeAll => exact .takeAll
  | save => exact .save
  | restore => exact .restore
  | equalsSaved =>
    show Shows _ _ _ (.flag (c.current == c.saved))
    rw [equalsSaved_eq]
    exact .equalsSaved

/-- What is shown last is said of the entries at that point. -/
theorem views_concat (c : Cursor) (as : List Action) (a : Action) :
    ∃ v, c.views (as ++ [a]) = c.views as ++ [v] ∧
      Shows (c.after as).current.entries (c.after as).saved.entries a v :=
  ⟨((c.after as).step a).1, views_append c as [a], (c.after as).step_shows a⟩

/-- Looking changes nothing. -/
theorem after_look (c : Cursor) :
    ∀ a ∈ [.size, .isEmpty, .first, .entries, .endpoints, .sizeBounds, .equalsSaved], c.after [a] = c := by
  simp only [List.forall_mem_cons]
  exact ⟨rfl, rfl, rfl, rfl, rfl, rfl, rfl, fun a h => absurd h List.not_mem_nil⟩

/-! ## Entries -/

/-- The entries that an action takes, told from what it shows. -/
def yielded : Action → View → List Entry
  | .next, .entry e => e.toList
  | .takeAll, .entries es => es
  | _, _ => []

/-- The entries that are taken while things are done in order. -/
def taken (c : Cursor) (as : List Action) : List Entry := (List.zipWith yielded as (c.views as)).flatten

theorem taken_cons (c : Cursor) (a : Action) (as : List Action) :
    c.taken (a :: as) = yielded a (c.step a).1 ++ (c.step a).2.taken as := rfl

/-- What an action takes, followed by what it leaves, is what there was. -/
theorem yielded_append_entries (h : a ≠ .restore) :
    yielded a (c.step a).1 ++ (c.step a).2.current.entries = c.current.entries := by
  cases a with
  | next => exact c.current.next?_append_entries
  | takeAll => exact List.append_nil _
  | restore => exact absurd rfl h
  | _ => rfl

/-- What is taken without going back, followed by what remains, is what there was. -/
theorem taken_append_entries (h : .restore ∉ as) : c.taken as ++ (c.after as).current.entries = c.current.entries := by
  -- The induction is for any cursor, since each action takes from what the one before it left.
  induction as generalizing c with
  | nil => rfl
  | cons a as ih =>
    rw [List.mem_cons, not_or] at h
    rw [taken_cons, after_cons, List.append_assoc, ih h.2, yielded_append_entries (Ne.symm h.1)]

/-- Taking entries one by one shows them in order, and that there is none once all are taken. -/
theorem views_replicate_next (c : Cursor) (n : Nat) :
    c.views (List.replicate n .next) = (List.range n).map fun i => .entry c.current.entries[i]? := by
  induction n generalizing c with
  | zero => rfl
  | succ n ih =>
    have htail (i : Nat) : (c.step .next).2.current.entries[i]? = c.current.entries[i + 1]? := by
      show c.current.next?.2.entries[i]? = c.current.entries[i + 1]?
      rw [Results.next?_snd, List.getElem?_tail]
    have hhead : (c.step .next).1 = .entry c.current.entries[0]? := by
      show View.entry c.current.next?.1 = .entry c.current.entries[0]?
      rw [Results.next?_fst, Results.first?, List.head?_eq_getElem?]
    rw [List.replicate_succ, views_cons, hhead, ih, List.range_succ_eq_map, List.map_cons, List.map_map]
    simp only [htail]
    rfl

/-! ## The copy -/

theorem saved_step (h : a ≠ .save) : (c.step a).2.saved = c.saved := by
  cases a with
  | save => exact absurd rfl h
  | _ => rfl

/-- The copy stays as it is until the next saving. -/
theorem saved_after (h : .save ∉ as) : (c.after as).saved = c.saved := by
  induction as generalizing c with
  | nil => rfl
  | cons a as ih =>
    rw [List.mem_cons, not_or] at h
    rw [after_cons, ih h.2, saved_step (Ne.symm h.1)]

/-! ## Any point of any run -/

/-- At any point of any run, what is taken from there on without going back, followed by what remains, is what there was.
Every action shows what it is to show of the entries that remain, of which just so many can be taken one by one. Looking
changes nothing, only saving changes the copy, and saving and going back make the two the same. -/
theorem reads_in_order (r : Results) (history : List Action) :
    let c := (start r).after history
    (∀ since, .restore ∉ since → c.taken since ++ (c.after since).current.entries = c.current.entries) ∧
    (∀ a, ∃ v, (start r).views (history ++ [a]) = (start r).views history ++ [v] ∧
      Shows c.current.entries c.saved.entries a v) ∧
    (∀ n, c.views (List.replicate n .next) = (List.range n).map fun i => .entry c.current.entries[i]?) ∧
    (∀ a ∈ [.size, .isEmpty, .first, .entries, .endpoints, .sizeBounds, .equalsSaved], c.after [a] = c) ∧
    (∀ since, .save ∉ since → (c.after since).saved = c.saved) ∧
    c.after [.save] = ⟨c.current, c.current⟩ ∧ c.after [.restore] = ⟨c.saved, c.saved⟩ := by
  intro c
  exact ⟨fun since h => taken_append_entries h, (start r).views_concat history, c.views_replicate_next, c.after_look,
    fun since h => saved_after h, rfl, rfl⟩

/-- Two of three entries are the same. One is taken and what remains is saved, so that going back after all are taken
brings the second of the two again. -/
theorem reads_in_order_twice :
    let hub : Entry := ⟨.v4 ⟨10, 8, 0, 1⟩ 1194, "hub", "openvpn"⟩
    let relay : Entry := ⟨.v4 ⟨10, 8, 0, 2⟩ 1194, "relay", "openvpn"⟩
    let c := (start ⟨[hub, hub, relay]⟩).after [.next, .save]
    c.taken [.next, .size, .takeAll] = [hub, relay] ∧ c.after [.equalsSaved] = c ∧
      c.after [.next, .takeAll, .restore] = c ∧ c.views [.next, .next, .next] =
        [.entry (some hub), .entry (some relay), .entry none] := by
  intro hub relay c
  obtain ⟨htaken, -, hnext, hlook, hsaved, -, -⟩ := reads_in_order ⟨[hub, hub, relay]⟩ [.next, .save]
  have hall : c.taken [.next, .size, .takeAll] ++ [] = [hub, relay] := htaken [.next, .size, .takeAll] (by decide)
  have hkept : (c.after [.next, .takeAll]).saved = c.saved := hsaved [.next, .takeAll] (by decide)
  have hback : c.after [.next, .takeAll, .restore] =
      ⟨(c.after [.next, .takeAll]).saved, (c.after [.next, .takeAll]).saved⟩ := rfl
  refine ⟨?_, ?_, ?_, ?_⟩
  · rw [← hall, List.append_nil]
  · exact hlook .equalsSaved (by decide)
  · rw [hback, hkept]
    rfl
  · exact hnext 3

end Peering.Cursor
