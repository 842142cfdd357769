import Peering.Config.Document
import Peering.Proofs.LetterCase

/-!
# Sets of flags and lists of names

A list of texts that are all names of flags, in any case, denotes the set of these flags (`FlagSet.namedIn`); any other
list is refused with the first text in it that is no such name (`FlagSet.IsFirstUnknown`).

* `FlagSet.ofNames_eq_ok_iff`, `FlagSet.ofNames_eq_error_iff`: what is read of a list, and why it is refused;
* `FlagSet.names_namedIn`: the names of the set are the known names that the list has, in declaration order;
* `FlagSet.toOption_ofNames`: order, repetition and case make no difference to what is read;
* `FlagSet.ofNames_append`: of two lists in a row comes the union, or the refusal of the first that is refused;
* `FlagSet.ofNames_names`, `FlagSet.includes_iff_names`: a set is told by its names.

`FlagSet.ofNames_matches_names` puts this together.
-/

namespace Peering

open Text

/-! ## Flags -/

namespace Flag

variable {f g : Flag} {x : String}

/-- A text that is the name of a flag, in any case. -/
def IsKnown (x : String) : Prop := ∃ f : Flag, CaseAlike f.name x

theorem ofName?_eq_some_iff_caseAlike : ofName? x = some f ↔ CaseAlike f.name x :=
  ofName?_eq_some_iff.trans sameName_iff_caseAlike

theorem isKnown_iff : IsKnown x ↔ ∃ f, ofName? x = some f := by
  simp only [IsKnown, ofName?_eq_some_iff_caseAlike]

instance (x : String) : Decidable (IsKnown x) :=
  decidable_of_iff ((ofName? x).isSome = true) (Option.isSome_iff_exists.trans isKnown_iff.symm)

theorem ofName?_name (f : Flag) : ofName? f.name = some f := ofName?_eq_some_iff.2 (sameName_refl _)

/-- No two flags have names that are alike. -/
theorem eq_of_caseAlike (h : CaseAlike f.name g.name) : f = g := by
  have hfound : ofName? g.name = some f := ofName?_eq_some_iff_caseAlike.2 h
  rw [ofName?_name, Option.some.injEq] at hfound
  exact hfound.symm

end Flag

namespace FlagSet

variable {s t : FlagSet} {f : Flag} {n : String} {xs ys : List String}

/-! ## Sets of listed flags -/

/-- A flag is in the union exactly if it was in the set before or is in the list. -/
theorem has_foldl_union (fs : List Flag) (s : FlagSet) (f : Flag) :
    (fs.foldl (fun s f => s ∪ singleton f) s).has f = (s.has f || decide (f ∈ fs)) := by
  induction fs generalizing s with
  | nil => simp
  | cons g fs ih => simp [ih, Bool.or_assoc, eq_comm]

@[simp] theorem has_ofList (fs : List Flag) (f : Flag) : (ofList fs).has f = decide (f ∈ fs) := by
  rw [ofList, has_foldl_union, has_empty, Bool.false_or]

/-- Sets are equal if the same flags are in them. -/
theorem ext_of_iff (h : ∀ f, s.has f = true ↔ t.has f = true) : s = t := ext_has fun f => Bool.eq_iff_iff.2 (h f)

theorem empty_union (s : FlagSet) : ∅ ∪ s = s := ext_has fun f => by simp

theorem union_assoc (s t u : FlagSet) : s ∪ t ∪ u = s ∪ (t ∪ u) := ext_has fun f => by simp [Bool.or_assoc]

/-- The flags whose names a list has, in any case. -/
def namedIn (xs : List String) : FlagSet := ofList (Flag.all.filter fun f => ∃ x ∈ xs, CaseAlike f.name x)

theorem has_namedIn : (namedIn xs).has f = true ↔ ∃ x ∈ xs, CaseAlike f.name x := by
  simp [namedIn]

/-! ## Reading -/

/-- The first text of a list that is no name of a flag. -/
def IsFirstUnknown (xs : List String) (n : String) : Prop :=
  ∃ before after, xs = before ++ n :: after ∧ (∀ x ∈ before, Flag.IsKnown x) ∧ ¬Flag.IsKnown n

theorem ofNames_of_isKnown (h : ∀ x ∈ xs, Flag.IsKnown x) : ofNames xs = .ok (namedIn xs) := by
  induction xs with
  | nil =>
    have hempty : namedIn [] = ∅ := ext_of_iff fun f => by simp [has_namedIn]
    rw [hempty]
    rfl
  | cons x xs ih =>
    obtain ⟨hx, hxs⟩ := List.forall_mem_cons.1 h
    obtain ⟨g, hg⟩ := Flag.isKnown_iff.1 hx
    have hnamed : singleton g ∪ namedIn xs = namedIn (x :: xs) := by
      refine ext_of_iff fun f => ?_
      have hx' : CaseAlike f.name x ↔ g = f := by
        rw [← Flag.ofName?_eq_some_iff_caseAlike, hg, Option.some.injEq]
      rw [has_union, Bool.or_eq_true, has_singleton, decide_eq_true_eq, has_namedIn, has_namedIn,
        List.exists_mem_cons_iff, hx']
    rw [ofNames, hg, ih hxs, ← hnamed]
    rfl

theorem ofNames_of_isFirstUnknown (h : IsFirstUnknown xs n) : ofNames xs = .error n := by
  obtain ⟨before, after, rfl, hbefore, hn⟩ := h
  have hnone : Flag.ofName? n = none := by
    rw [Option.eq_none_iff_forall_ne_some]
    exact fun f hf => hn (Flag.isKnown_iff.2 ⟨f, hf⟩)
  induction before with
  | nil => rw [List.nil_append, ofNames, hnone]
  | cons x before ih =>
    obtain ⟨hx, hbefore⟩ := List.forall_mem_cons.1 hbefore
    obtain ⟨g, hg⟩ := Flag.isKnown_iff.1 hx
    rw [List.cons_append, ofNames, hg, ih hbefore]
    rfl

/-- In every list all texts are known, or there is a first one that is not. -/
theorem isKnown_or_isFirstUnknown (xs : List String) : (∀ x ∈ xs, Flag.IsKnown x) ∨ ∃ n, IsFirstUnknown xs n := by
  induction xs with
  | nil => exact .inl (by simp)
  | cons x xs ih =>
    by_cases hx : Flag.IsKnown x
    · obtain hxs | ⟨n, before, after, rfl, hbefore, hn⟩ := ih
      · exact .inl (List.forall_mem_cons.2 ⟨hx, hxs⟩)
      · exact .inr ⟨n, x :: before, after, rfl, List.forall_mem_cons.2 ⟨hx, hbefore⟩, hn⟩
    · exact .inr ⟨x, [], xs, rfl, by simp, hx⟩

theorem ofNames_eq_ok_iff : ofNames xs = .ok s ↔ (∀ x ∈ xs, Flag.IsKnown x) ∧ s = namedIn xs := by
  constructor
  · intro h
    obtain hxs | ⟨n, hn⟩ := isKnown_or_isFirstUnknown xs
    · rw [ofNames_of_isKnown hxs, Except.ok.injEq] at h
      exact ⟨hxs, h.symm⟩
    · rw [ofNames_of_isFirstUnknown hn] at h
      cases h
  · rintro ⟨hxs, rfl⟩
    exact ofNames_of_isKnown hxs

theorem ofNames_eq_error_iff : ofNames xs = .error n ↔ IsFirstUnknown xs n := by
  constructor
  · intro h
    obtain hxs | ⟨m, hm⟩ := isKnown_or_isFirstUnknown xs
    · rw [ofNames_of_isKnown hxs] at h
      cases h
    · rw [ofNames_of_isFirstUnknown hm, Except.error.injEq] at h
      exact h ▸ hm
  · exact ofNames_of_isFirstUnknown

theorem toOption_ofNames_eq_some_iff :
    (ofNames xs).toOption = some s ↔ (∀ x ∈ xs, Flag.IsKnown x) ∧ s = namedIn xs := by
  rw [← ofNames_eq_ok_iff]
  cases ofNames xs <;> simp [Except.toOption]

/-- All that a list has, in any case, another list has. -/
def Covers (ys xs : List String) : Prop := ∀ x ∈ xs, ∃ y ∈ ys, CaseAlike y x

instance (xs ys : List String) : Decidable (Covers ys xs) :=
  inferInstanceAs (Decidable (∀ x ∈ xs, ∃ y ∈ ys, CaseAlike y x))

theorem Covers.isKnown (h : Covers ys xs) (hys : ∀ y ∈ ys, Flag.IsKnown y) : ∀ x ∈ xs, Flag.IsKnown x := by
  intro x hx
  obtain ⟨y, hy, hyx⟩ := h x hx
  obtain ⟨f, hf⟩ := hys y hy
  exact ⟨f, hf.trans hyx⟩

theorem Covers.namedIn (h : Covers ys xs) (hf : (namedIn xs).has f = true) : (FlagSet.namedIn ys).has f = true := by
  obtain ⟨x, hx, hfx⟩ := has_namedIn.1 hf
  obtain ⟨y, hy, hyx⟩ := h x hx
  exact has_namedIn.2 ⟨y, hy, hfx.trans hyx.symm⟩

/-- Lists that have the same texts, in any case, are read alike. -/
theorem toOption_ofNames (hxs : Covers ys xs) (hys : Covers xs ys) : (ofNames xs).toOption = (ofNames ys).toOption := by
  have hnamed : namedIn xs = namedIn ys := ext_of_iff fun f => ⟨hxs.namedIn, hys.namedIn⟩
  refine Option.ext fun s => ?_
  rw [toOption_ofNames_eq_some_iff, toOption_ofNames_eq_some_iff, hnamed]
  exact and_congr_left fun _ => ⟨hys.isKnown, hxs.isKnown⟩

/-- Two lists in a row denote the union, and are refused like the first of them that is refused. -/
theorem ofNames_append (xs ys : List String) :
    ofNames (xs ++ ys) = do return (← ofNames xs) ∪ (← ofNames ys) := by
  induction xs with
  | nil =>
    cases hys : ofNames ys with
    | error n => exact hys
    | ok t =>
      show ofNames ys = .ok (∅ ∪ t)
      rw [hys, empty_union]
  | cons x xs ih =>
    rw [List.cons_append, ofNames, ofNames]
    cases Flag.ofName? x with
    | none => rfl
    | some f =>
      dsimp only
      rw [ih]
      cases ofNames xs with
      | error n => rfl
      | ok s =>
        cases ofNames ys with
        | error n => rfl
        | ok t => exact congrArg Except.ok (union_assoc _ _ _).symm

/-! ## Writing -/

theorem mem_names : n ∈ s.names ↔ ∃ f, s.has f = true ∧ f.name = n := by
  simp [names]

theorem name_mem_names : f.name ∈ s.names ↔ s.has f = true := by
  rw [mem_names]
  constructor
  · rintro ⟨g, hg, hname⟩
    have hgf : g = f := Flag.eq_of_caseAlike (hname ▸ CaseAlike.refl f.name)
    exact hgf ▸ hg
  · exact fun hf => ⟨f, hf, rfl⟩

/-- No name comes twice. -/
theorem nodup_names (s : FlagSet) : s.names.Nodup := by
  have hall : (Flag.all.map Flag.name).Nodup := by decide
  exact hall.sublist (List.filter_sublist.map Flag.name)

/-- The names of the flags that a list denotes are the known names that it has, in declaration order. -/
theorem names_namedIn (xs : List String) :
    (namedIn xs).names = (Flag.all.map Flag.name).filter fun n => ∃ x ∈ xs, CaseAlike n x := by
  rw [names, toList, List.filter_map]
  congr 1
  refine List.filter_congr fun f _ => ?_
  rw [Bool.eq_iff_iff, has_namedIn, Function.comp, decide_eq_true_eq]

/-- A set is read back from its names. -/
theorem ofNames_names (s : FlagSet) : ofNames s.names = .ok s := by
  have hknown : ∀ n ∈ s.names, Flag.IsKnown n := by
    intro n hn
    obtain ⟨f, -, rfl⟩ := mem_names.1 hn
    exact ⟨f, CaseAlike.refl _⟩
  have hnamed : namedIn s.names = s := by
    refine ext_of_iff fun f => ?_
    rw [has_namedIn, ← name_mem_names]
    constructor
    · rintro ⟨n, hn, hf⟩
      obtain ⟨g, hg, rfl⟩ := mem_names.1 hn
      rw [Flag.eq_of_caseAlike hf]
      exact hn
    · exact fun hf => ⟨f.name, hf, CaseAlike.refl _⟩
  rw [ofNames_of_isKnown hknown, hnamed]

theorem names_injective (h : s.names = t.names) : s = t := by
  have hs := ofNames_names s
  rw [h, ofNames_names, Except.ok.injEq] at hs
  exact hs.symm

/-- A set includes another one exactly if it has all names of it. -/
theorem includes_iff_names : s.includes t = true ↔ ∀ n ∈ t.names, n ∈ s.names := by
  rw [includes_iff]
  constructor
  · intro h n hn
    obtain ⟨f, hf, rfl⟩ := mem_names.1 hn
    exact name_mem_names.2 (h f hf)
  · exact fun h f hf => name_mem_names.1 (h _ (name_mem_names.2 hf))

/-! ## All lists and sets -/

/-- A list is refused exactly if it has a text that is no name of a flag, and the refusal carries the first such text as
it is. Any other list denotes the set whose names are the known names that the list has, in declaration order and each
once. So the list can be put in another order, repeat texts and change their case; two lists in a row denote the union,
or are refused like the first that is refused; a set is read back from its names, and includes another one exactly if it
has all names of it. -/
theorem ofNames_matches_names (xs : List String) :
    ((∃ n, ofNames xs = .error n) ↔ ∃ x ∈ xs, ¬Flag.IsKnown x) ∧
    (∀ n, ofNames xs = .error n ↔ IsFirstUnknown xs n) ∧
    (∀ n, IsFirstUnknown xs n → checked xs = .error (.refused ("unknown resolve flag `" ++ n ++ "`"))) ∧
    (∀ s, ofNames xs = .ok s ↔ (∀ x ∈ xs, Flag.IsKnown x) ∧
      s.names = (Flag.all.map Flag.name).filter fun n => ∃ x ∈ xs, CaseAlike n x) ∧
    (∀ s : FlagSet, s.names.Nodup) ∧
    (∀ ys, Covers ys xs → Covers xs ys → (ofNames xs).toOption = (ofNames ys).toOption) ∧
    (∀ ys, ofNames (xs ++ ys) = do return (← ofNames xs) ∪ (← ofNames ys)) ∧
    (∀ s : FlagSet, ofNames s.names = .ok s) ∧
    ∀ s t : FlagSet, s.includes t = true ↔ ∀ n ∈ t.names, n ∈ s.names := by
  refine ⟨?_, fun n => ofNames_eq_error_iff, fun n hn => ?_, fun s => ?_, nodup_names,
    fun ys hys hxs => toOption_ofNames hys hxs, ofNames_append xs, ofNames_names, fun s t => includes_iff_names⟩
  · constructor
    · rintro ⟨n, hn⟩
      obtain ⟨before, after, rfl, -, hunknown⟩ := ofNames_eq_error_iff.1 hn
      exact ⟨n, by simp, hunknown⟩
    · rintro ⟨x, hx, hunknown⟩
      obtain hxs | ⟨n, hn⟩ := isKnown_or_isFirstUnknown xs
      · exact absurd (hxs x hx) hunknown
      · exact ⟨n, ofNames_of_isFirstUnknown hn⟩
  · rw [checked, ofNames_of_isFirstUnknown hn]
    rfl
  · rw [ofNames_eq_ok_iff, ← names_namedIn]
    exact and_congr_right fun _ => ⟨fun h => h ▸ rfl, names_injective⟩

/-- Two lists that differ in order, repetition and case denote one set. After an unknown text the rest of a list does not
count. -/
theorem ofNames_matches_names_passive :
    (ofNames ["PASSIVE", "numeric_host", "Passive"]).toOption = (ofNames ["Numeric_Host", "passive"]).toOption ∧
      IsFirstUnknown ["Passive", "no_host", "No_Service"] "no_host" ∧
      checked ["Passive", "no_host", "No_Service"] = .error (.refused "unknown resolve flag `no_host`") := by
  have hfirst : IsFirstUnknown ["Passive", "no_host", "No_Service"] "no_host" :=
    ⟨["Passive"], ["No_Service"], rfl, by decide, by decide⟩
  obtain ⟨-, -, -, -, -, hcovers, -⟩ := ofNames_matches_names ["PASSIVE", "numeric_host", "Passive"]
  obtain ⟨-, -, hmessage, -⟩ := ofNames_matches_names ["Passive", "no_host", "No_Service"]
  exact ⟨hcovers _ (by decide) (by decide), hfirst, hmessage _ hfirst⟩

end FlagSet

end Peering
