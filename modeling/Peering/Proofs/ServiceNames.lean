import Mathlib.Data.List.Find
import Peering.Proofs.EndpointText
import Peering.Proofs.LetterCase
import Peering.Service

/-!
# What a service means

A text means a port in one of two ways (`Service.Means`): as a number, or, unless numbers are asked for, as the name of a
well known service in any case.

* `Service.not_names_of_portText`, `Service.Names.unique`: no text is both a number and a name, and none is the name of
  two services, so the order in which things are tried makes no difference (`Service.portIn?_of_perm`);
* `Service.resolve_eq_ok_iff`, `Service.resolve_eq_error_iff`: a service has the port that it means, and otherwise there
  is one error only, which carries the text;
* `Service.Means.of_caseAlike`, `Service.Means.withFlags`: what the case of letters and the flags can change.

`Service.resolve_unambiguous` puts this together.
-/

namespace Peering.Service

open Text

variable {s t : String} {p q : Port} {f g : FlagSet}

/-! ## Names -/

/-- The text is the name of a well known service, in any case, and `p` is the port of the service. -/
def Names (s : String) (p : Port) : Prop := ∃ name, (name, p) ∈ wellKnown ∧ CaseAlike name s

theorem portOfName?_eq_some_iff_names : portOfName? s = some p ↔ Names s p := by
  rw [portOfName?_eq_some_iff, Names]
  simp only [sameName_iff_caseAlike]

/-- No text is the name of two services. -/
theorem eq_of_mem_wellKnown {e e' : String × Port} (he : e ∈ wellKnown) (he' : e' ∈ wellKnown)
    (h : sameName e.1 s = true) (h' : sameName e'.1 s = true) : e = e' := by
  have hfind : ∀ d ∈ wellKnown, (wellKnown.find? fun d' => sameName d'.1 d.1) = some d := by decide
  have hsame : sameName e'.1 e.1 = true := sameName_trans h' (sameName_symm h)
  have hkey : (fun d' : String × Port => sameName d'.1 e.1) = fun d' => sameName d'.1 e'.1 := by
    funext d'
    rw [sameName, sameName, sameName_iff.1 hsame]
  have hfirst := hfind e he
  rw [hkey, hfind e' he', Option.some.injEq] at hfirst
  exact hfirst.symm

theorem Names.unique (h : Names s p) (h' : Names s q) : p = q := by
  obtain ⟨name, hname, hs⟩ := h
  obtain ⟨name', hname', hs'⟩ := h'
  have heq := eq_of_mem_wellKnown hname hname' (sameName_iff_caseAlike.2 hs) (sameName_iff_caseAlike.2 hs')
  exact congrArg Prod.snd heq

/-- The port of a service in a table. -/
def portIn? (table : List (String × Port)) (s : String) : Option Port :=
  (table.find? fun e => sameName e.1 s).map Prod.snd

/-- The order of the table makes no difference. -/
theorem portIn?_of_perm {table : List (String × Port)} (h : table.Perm wellKnown) (s : String) :
    portIn? table s = portOfName? s := by
  have hsingle : {e ∈ wellKnown | sameName e.1 s}.Subsingleton := fun e he e' he' =>
    eq_of_mem_wellKnown he.1 he'.1 he.2 he'.2
  show (table.find? fun e => sameName e.1 s).map Prod.snd = (wellKnown.find? fun e => sameName e.1 s).map Prod.snd
  rw [List.find?_eq_find?_of_perm h.symm hsingle]

/-- The names are ASCII, so no other letter stands for one of theirs. -/
theorem Names.isAscii (h : Names s p) : ∀ c ∈ s.toList, c.toNat < 128 := by
  obtain ⟨name, hname, hs⟩ := h
  have hknown : ∀ e ∈ wellKnown, (e.1.toList.all fun c => c.toNat < 128) = true := by decide
  apply hs.isAscii
  simpa using hknown _ hname

/-! ## Numbers -/

/-- A number has no letters, so it is alike to itself only. -/
theorem eq_of_portText (h : PortText s.toList p) (hst : CaseAlike s t) : s = t :=
  hst.eq_of_isAlpha_eq_false fun c hc => isAlpha_eq_false_of_isDigit (h.numeral.2 c hc)

/-- A number is no name. -/
theorem not_names_of_portText (h : PortText s.toList p) : ¬Names s q := by
  rintro ⟨name, hname, hs⟩
  have hletters : ∀ e ∈ wellKnown, e.1.toList.all Char.isDigit = false := by decide
  obtain rfl := eq_of_portText h hs.symm
  have hdigits : s.toList.all Char.isDigit = true := List.all_eq_true.2 h.numeral.2
  simp [hletters _ hname] at hdigits

/-- It makes no difference which of the two is tried first. -/
theorem ofString?_orElse_portOfName? (s : String) :
    (Port.ofString? s <|> portOfName? s) = (portOfName? s <|> Port.ofString? s) := by
  cases hnumber : Port.ofString? s with
  | none => cases portOfName? s <;> rfl
  | some p =>
    have hnone : portOfName? s = none := by
      rw [Option.eq_none_iff_forall_ne_some]
      intro q hq
      exact not_names_of_portText (portText_iff.2 hnumber) (portOfName?_eq_some_iff_names.1 hq)
    rw [hnone]
    rfl

/-! ## Meaning -/

/-- A port that a text means under the given flags. -/
inductive Means (f : FlagSet) (s : String) : Port → Prop
  /-- The text is the number of the port. -/
  | number {p : Port} (h : PortText s.toList p) : Means f s p
  /-- The text is the name of a service, and names are allowed. -/
  | name {p : Port} (hf : f.has .numericService = false) (h : Names s p) : Means f s p

theorem ofString?_eq_none_iff : Port.ofString? s = none ↔ ∀ p, ¬PortText s.toList p := by
  rw [Option.eq_none_iff_forall_ne_some]
  simp only [portText_iff, Port.ofString?, ne_eq]

/-- A service has the port that its text means. -/
theorem resolve_eq_ok_iff : resolve s f = .ok p ↔ Means f s p := by
  constructor
  · intro h
    unfold resolve at h
    split at h
    · rename_i q hq
      cases h
      exact .number (portText_iff.2 hq)
    split at h
    · cases h
    rename_i hf
    split at h
    · rename_i q hq
      cases h
      exact .name (by simpa using hf) (portOfName?_eq_some_iff_names.1 hq)
    · cases h
  · intro h
    cases h with
    | number h =>
      have hnumber : Port.ofString? s = some p := portText_iff.1 h
      simp only [resolve, hnumber]
    | name hf h =>
      have hnone : Port.ofString? s = none := ofString?_eq_none_iff.2 fun q hq => not_names_of_portText hq h
      simp only [resolve, hnone, hf, portOfName?_eq_some_iff_names.2 h, Bool.false_eq_true, if_false]

/-- A text has an error exactly if it means no port, and the error carries the text. -/
theorem resolve_eq_error_iff {e : LookupError} :
    resolve s f = .error e ↔ e = .serviceNotFound s ∧ ∀ p, ¬Means f s p := by
  constructor
  · intro h
    refine ⟨resolve_eq_error h, fun p hp => ?_⟩
    rw [resolve_eq_ok_iff.2 hp] at h
    cases h
  · rintro ⟨rfl, hnone⟩
    cases hresolve : resolve s f with
    | ok p => exact absurd (resolve_eq_ok_iff.1 hresolve) (hnone p)
    | error e => rw [resolve_eq_error hresolve]

/-- A text means the same in any case of its letters. -/
theorem Means.of_caseAlike (h : Means f s p) (hst : CaseAlike s t) : Means f t p := by
  cases h with
  | number h => exact .number (eq_of_portText h hst ▸ h)
  | name hf h =>
    obtain ⟨name, hname, hs⟩ := h
    exact .name hf ⟨name, hname, hs.trans hst⟩

/-- The case of letters makes no difference to whether there is a port, and to which. -/
theorem toOption_resolve (hst : CaseAlike s t) : (resolve s f).toOption = (resolve t f).toOption := by
  have htoOption (u : String) (p : Port) : (resolve u f).toOption = some p ↔ Means f u p := by
    rw [← resolve_eq_ok_iff]
    cases resolve u f <;> simp [Except.toOption]
  refine Option.ext fun p => ?_
  rw [htoOption, htoOption]
  exact ⟨fun h => h.of_caseAlike hst, fun h => h.of_caseAlike hst.symm⟩

/-- A text with a character beyond ASCII means nothing. -/
theorem Means.isAscii (h : Means f s p) : ∀ c ∈ s.toList, c.toNat < 128 := by
  cases h with
  | number h =>
    intro c hc
    have hbounds : 48 ≤ c.toNat ∧ c.toNat ≤ 57 := Char.isDigit_iff_toNat.1 (h.numeral.2 c hc)
    omega
  | name _ h => exact h.isAscii

/-- Other flags leave the port of a text as it is, or take it away by asking for a number. -/
theorem Means.withFlags (h : Means f s p) (g : FlagSet) :
    Means g s p ∨ f.has .numericService = false ∧ g.has .numericService = true ∧ ∀ q, ¬Means g s q := by
  cases h with
  | number h => exact .inl (.number h)
  | name hf h =>
    by_cases hg : g.has .numericService = true
    · refine .inr ⟨hf, hg, fun q hq => ?_⟩
      cases hq with
      | number hq => exact not_names_of_portText hq h
      | name hg' _ => simp [hg'] at hg
    · exact .inl (.name (by simpa using hg) h)

/-- A service has exactly the port that its text means, as a number or as a name in any case, and an error that carries
the text if it means none. Nothing is both a number and a name or the name of two services, so neither trying the names
first nor another order of the table makes a difference. The case of ASCII letters makes none either, and no other
character stands for such a letter. More flags never lead to another port, and to an error only by asking for a number. -/
theorem resolve_unambiguous (s : String) (f : FlagSet) :
    (∀ p, resolve s f = .ok p ↔ Means f s p) ∧
    (∀ e, resolve s f = .error e ↔ e = .serviceNotFound s ∧ ∀ p, ¬Means f s p) ∧
    (∀ p q, ¬(PortText s.toList p ∧ Names s q)) ∧
    (∀ p q, Names s p → Names s q → p = q) ∧
    ((Port.ofString? s <|> portOfName? s) = (portOfName? s <|> Port.ofString? s)) ∧
    (∀ table, table.Perm wellKnown → portIn? table s = portOfName? s) ∧
    (∀ t, CaseAlike s t → (resolve s f).toOption = (resolve t f).toOption) ∧
    (∀ c ∈ s.toList, 128 ≤ c.toNat → resolve s f = .error (.serviceNotFound s)) ∧
    ∀ g p, resolve s f = .ok p → resolve s (f ∪ g) = .ok p ∨
      f.has .numericService = false ∧ g.has .numericService = true ∧
        resolve s (f ∪ g) = .error (.serviceNotFound s) := by
  refine ⟨fun p => resolve_eq_ok_iff, fun e => resolve_eq_error_iff, fun p q h => not_names_of_portText h.1 h.2,
    fun p q h h' => h.unique h', ofString?_orElse_portOfName? s, fun table h => portIn?_of_perm h s, fun t h => ?_,
    fun c hc hbeyond => ?_, fun g p h => ?_⟩
  · exact toOption_resolve h
  · refine resolve_eq_error_iff.2 ⟨rfl, fun p hp => ?_⟩
    have hascii := hp.isAscii c hc
    omega
  · obtain hkeeps | ⟨hf, hg, hnone⟩ := (resolve_eq_ok_iff.1 h).withFlags (f ∪ g)
    · exact .inl (resolve_eq_ok_iff.2 hkeeps)
    · rw [FlagSet.has_union, hf, Bool.false_or] at hg
      exact .inr ⟨hf, hg, resolve_eq_error_iff.2 ⟨rfl, hnone⟩⟩

/-- A name is found in any case and in the table backwards, until a number is asked for. A long s, which only Unicode
folds to an s, makes another text of it. -/
theorem resolve_unambiguous_syslog :
    Means ∅ "SysLog" 514 ∧ resolve "SysLog" ∅ = .ok 514 ∧
      portIn? wellKnown.reverse "SysLog" = some 514 ∧
      (resolve "SysLog" ∅).toOption = (resolve "sYSLOG" ∅).toOption ∧
      resolve "SysLog" (∅ ∪ .singleton .numericService) = .error (.serviceNotFound "SysLog") ∧
      resolve "sy\u017flog" ∅ = .error (.serviceNotFound "sy\u017flog") := by
  have hmeans : Means ∅ "SysLog" 514 := .name (by decide) ⟨"syslog", by decide, by decide⟩
  obtain ⟨hok, -, -, -, -, htable, hcase, -, hflags⟩ := resolve_unambiguous "SysLog" ∅
  have hresolve : resolve "SysLog" ∅ = .ok 514 := (hok 514).2 hmeans
  refine ⟨hmeans, hresolve, ?_, hcase "sYSLOG" (by decide), ?_, ?_⟩
  · exact htable _ (List.reverse_perm _)
  · obtain hkeeps | ⟨-, -, herror⟩ := hflags (.singleton .numericService) 514 hresolve
    · exact absurd hkeeps (by decide)
    · exact herror
  · exact (resolve_unambiguous "sy\u017flog" ∅).2.2.2.2.2.2.2.1 (Char.ofNat 0x17f) (by decide) (by decide)

end Peering.Service
