import Peering.Proofs.EndpointText

/-!
# Texts that are no endpoints

A text that is refused as an endpoint is refused for one reason (`Endpoint.Refusal`), which is said apart from the order
in which reading tries things and carries the error with all that it names.

* `Endpoint.refusal_of_ofParts`, `Endpoint.refusal_of_ofBracketed`: the reasons of the two halves of the reader;
* `Endpoint.ofChars_eq_error_iff`: a text is refused with an error exactly if that is the error of a reason that it has;
* `Endpoint.refusal_emptyHostname_iff`, `Endpoint.refusal_invalidService_iff`: the texts of two classes of errors.

`Endpoint.ofString_refusals` sorts the errors into three classes. A text without a host has the first and a literal
address with a bad port the second, unless what is wrong is that nothing follows a colon outside brackets: that is
noticed before the host is looked at (`Endpoint.ofString_colon_refused`).
-/

namespace Peering

open Text

/-- What is wrong with a hostname and a service out of which no endpoint can be built. -/
theorem HostEndpoint.make_eq_error {name : String} {service : Option String} {e : EndpointError}
    (h : make name service = .error e) :
    name = "" ∧ e = .emptyHostname ∨
      name ≠ "" ∧ name.toList.any isHostSeparator = true ∧ e = .invalidFormat name .separatorInHostname ∨
      ∃ s ∈ service, ':' ∈ s.toList ∧ e = .invalidFormat s .separatorInService := by
  unfold make at h
  split at h
  · rename_i hname
    cases h
    exact .inl ⟨hname, rfl⟩
  rename_i hname
  split at h
  · rename_i hseparator
    cases h
    exact .inr (.inl ⟨hname, hseparator, rfl⟩)
  split at h
  · cases h
  split at h
  · rename_i hcolon
    cases h
    exact .inr (.inr ⟨_, rfl, hcolon, rfl⟩)
  split at h <;> cases h

namespace Endpoint

/-! ## Reasons -/

/-- A text that is refused, and its error. -/
inductive Refusal : List Char → EndpointError → Prop
  /-- There is nothing. -/
  | empty : Refusal [] .emptyHostname
  /-- There is a service, and nothing before it. -/
  | noHost {d : List Char} (hne : d ≠ []) (hcolon : ':' ∉ d) : Refusal (':' :: d) .emptyHostname
  /-- There is nothing after the only colon. -/
  | noService {s : List Char} (hhead : s.head? ≠ some '[') (hcolon : ':' ∉ s) :
    Refusal (s ++ ':' :: []) (.invalidFormat (String.ofList (s ++ ':' :: [])) .emptyService)
  /-- After an IPv4 address there is something that is no port. -/
  | ipv4Port {s d : List Char} {q : IPv4} (hq : IPv4.ofChars? s = some q) (hne : d ≠ []) (hcolon : ':' ∉ d)
    (hd : Port.ofChars? d = none) : Refusal (s ++ ':' :: d) (.invalidService (String.ofList d))
  /-- After an IPv6 address in brackets there is something that is no port, or nothing, where a port should be. -/
  | ipv6Port {s d : List Char} {a : IPv6} (ha : IPv6.ofChars? s = some a) (hd : Port.ofChars? d = none) :
    Refusal ('[' :: s ++ ']' :: ':' :: d) (.invalidService (String.ofList d))
  /-- A bracket is not closed. -/
  | unclosed {r : List Char} (hr : ']' ∉ r) :
    Refusal ('[' :: r) (.invalidFormat (String.ofList ('[' :: r)) .unclosedBracket)
  /-- In brackets there is no IPv6 address. -/
  | notIPv6 {s tail : List Char} (hs : ']' ∉ s) (ha : IPv6.ofChars? s = none) :
    Refusal ('[' :: s ++ ']' :: tail) (.invalidFormat (String.ofList ('[' :: s ++ ']' :: tail)) .invalidIPv6)
  /-- After the brackets there is something other than a colon. -/
  | noColon {s r : List Char} {c : Char} {a : IPv6} (ha : IPv6.ofChars? s = some a) (hc : c ≠ ':') :
    Refusal ('[' :: s ++ ']' :: c :: r) (.invalidFormat (String.ofList ('[' :: s ++ ']' :: c :: r)) .textAfterBracket)
  /-- There are several colons, but no IPv6 address. -/
  | colons {s : List Char} (hhead : s.head? ≠ some '[') (hcount : 2 ≤ s.count ':') (ha : IPv6.ofChars? s = none) :
    Refusal s (.invalidFormat (String.ofList s) .unbracketedIPv6)
  /-- There is a bracket inside a hostname. -/
  | bracket {s : List Char} {d : Option (List Char)} (hhead : s.head? ≠ some '[') (hcolon : ':' ∉ s)
    (hbracket : '[' ∈ s ∨ ']' ∈ s) (hd : ∀ u ∈ d, u ≠ [] ∧ ':' ∉ u) :
    Refusal (s ++ (d.map (':' :: ·)).getD []) (.invalidFormat (String.ofList s) .separatorInHostname)

section

variable {s d name whole : List Char} {service : Option (List Char)} {e : EndpointError}

/-! ## What is refused has a reason -/

theorem literalPort_eq_error_iff :
    literalPort d = .error e ↔ Port.ofChars? d = none ∧ e = .invalidService (String.ofList d) := by
  rw [literalPort]
  split <;> rename_i h <;> simp [h, eq_comm]

theorem error_of_map_eq_error {α β : Type} {x : Except EndpointError α} {f : α → β} (h : x.map f = .error e) :
    x = .error e := by
  cases x with
  | error e' => cases h; rfl
  | ok a => cases h

theorem head?_ne_of_append {t : List Char} {c : Char} (h : (s ++ t).head? ≠ some c) : s.head? ≠ some c := by
  cases s with
  | nil => simp
  | cons d s => exact h

/-- A text without a colon has a separator exactly if it has a bracket. -/
theorem any_isHostSeparator_iff (h : ':' ∉ s) : s.any isHostSeparator = true ↔ '[' ∈ s ∨ ']' ∈ s := by
  rw [List.any_eq_true]
  constructor
  · rintro ⟨c, hc, hsep⟩
    simp only [isHostSeparator, Bool.or_eq_true, beq_iff_eq] at hsep
    obtain (rfl | rfl) | rfl := hsep
    · exact absurd hc h
    · exact .inl hc
    · exact .inr hc
  · rintro (hc | hc)
    · exact ⟨_, hc, rfl⟩
    · exact ⟨_, hc, rfl⟩

/-- What is refused as a host and what follows its colon has a reason. -/
theorem refusal_of_ofParts (hwhole : whole = name ++ (service.map (':' :: ·)).getD []) (hne : whole ≠ [])
    (hhead : whole.head? ≠ some '[') (hipv6 : IPv6.ofChars? whole = none) (hservice : ∀ u ∈ service, ':' ∉ u)
    (hnone : service = none → ':' ∉ name) (h : ofParts whole name service = .error e) : Refusal whole e := by
  subst hwhole
  have hname := head?_ne_of_append hhead
  unfold ofParts at h
  split at h
  · -- A second colon stands before the last one.
    rename_i hcolon
    cases h
    cases service with
    | none => exact absurd hcolon (hnone rfl)
    | some d =>
      refine .colons hhead ?_ hipv6
      have hpos := List.count_pos_iff.2 hcolon
      simp only [Option.map_some, Option.getD_some, List.count_append, List.count_cons_self]
      omega
  rename_i hcolon
  split at h
  · rename_i hempty
    cases h
    subst hempty
    exact .noService hname hcolon
  rename_i hempty
  split at h
  · rename_i q hq
    split at h
    · cases h
    · rename_i d
      obtain ⟨hd, rfl⟩ := literalPort_eq_error_iff.1 (error_of_map_eq_error h)
      exact .ipv4Port hq (by simpa using hempty) (hservice d rfl) hd
  obtain ⟨hempty', rfl⟩ | ⟨-, hseparator, rfl⟩ | ⟨u, hu, hcolon', -⟩ :=
    HostEndpoint.make_eq_error (error_of_map_eq_error h)
  · obtain rfl := String.ofList_eq_empty_iff.1 hempty'
    cases service with
    | none => exact absurd rfl hne
    | some d => exact .noHost (by simpa using hempty) (hservice d rfl)
  · rw [String.toList_ofList] at hseparator
    refine .bracket hname hcolon ((any_isHostSeparator_iff hcolon).1 hseparator) fun u hu => ⟨?_, hservice u hu⟩
    rintro rfl
    exact hempty hu
  · obtain ⟨d, hd, rfl⟩ := Option.map_eq_some_iff.1 hu
    rw [String.toList_ofList] at hcolon'
    exact absurd hcolon' (hservice d hd)

/-- What is refused after an opening bracket has a reason. -/
theorem refusal_of_ofBracketed (h : ofBracketed ('[' :: s) s = .error e) : Refusal ('[' :: s) e := by
  unfold ofBracketed at h
  split at h
  · rename_i hsplit
    cases h
    exact .unclosed (splitFirst_eq_none_iff.1 hsplit)
  rename_i inside tail hsplit
  obtain ⟨rfl, hinside⟩ := splitFirst_eq_some_iff.1 hsplit
  split at h
  · rename_i ha
    cases h
    exact .notIPv6 hinside ha
  rename_i a ha
  replace h := error_of_map_eq_error h
  unfold portAfterBracket at h
  split at h
  · cases h
  · obtain ⟨hd, rfl⟩ := literalPort_eq_error_iff.1 (error_of_map_eq_error h)
    exact .ipv6Port ha hd
  · rename_i c r hc
    cases h
    exact .noColon ha fun hcolon => hc (by rw [hcolon])

theorem refusal_of_ofChars (h : ofChars s = .error e) : Refusal s e := by
  unfold ofChars at h
  split at h
  · cases h
    exact .empty
  · exact refusal_of_ofBracketed h
  · rename_i hne hbracket
    have hhead : s.head? ≠ some '[' := by
      intro hhead
      obtain ⟨r, hr⟩ := List.head?_eq_some_iff.1 hhead
      exact hbracket r hr
    split at h
    · cases h
    rename_i hipv6
    split at h
    · rename_i name d hsplit
      obtain ⟨rfl, hd⟩ := splitLast_eq_some_iff.1 hsplit
      have hwhole : name ++ ':' :: d = name ++ ((some d).map (':' :: ·)).getD [] := rfl
      exact refusal_of_ofParts hwhole hne hhead hipv6 (by simpa using hd) (by simp) h
    · rename_i hsplit
      have hwhole : s = s ++ ((none : Option (List Char)).map (':' :: ·)).getD [] := by simp
      exact refusal_of_ofParts hwhole hne hhead hipv6 (by simp) (fun _ => splitLast_eq_none_iff.1 hsplit) h

/-! ## What has a reason is refused -/

/-- A host with a bracket in it is refused, with any service but the empty one. -/
theorem ofParts_bracket (hcolon : ':' ∉ name) (hbracket : '[' ∈ name ∨ ']' ∈ name) (hservice : service ≠ some []) :
    ofParts whole name service = .error (.invalidFormat (String.ofList name) .separatorInHostname) := by
  have hipv4 : IPv4.ofChars? name = none := by
    rw [Option.eq_none_iff_forall_ne_some]
    rintro q hq
    rcases hbracket with h | h
    · exact IPv4.not_mem_of_ofChars? hq (by decide) (by decide) h
    · exact IPv4.not_mem_of_ofChars? hq (by decide) (by decide) h
  have hne : String.ofList name ≠ "" := by
    rw [Ne, String.ofList_eq_empty_iff]
    rintro rfl
    simp at hbracket
  have hseparator : (String.ofList name).toList.any isHostSeparator = true := by
    rw [String.toList_ofList]
    exact (any_isHostSeparator_iff hcolon).2 hbracket
  rw [ofParts, if_neg hcolon, if_neg hservice]
  simp only [hipv4]
  rw [HostEndpoint.make, dif_neg hne, dif_pos hseparator]
  rfl

theorem literalPort_eq_error (hd : Port.ofChars? d = none) :
    literalPort d = .error (.invalidService (String.ofList d)) :=
  literalPort_eq_error_iff.2 ⟨hd, rfl⟩

theorem ofChars_of_refusal (h : Refusal s e) : ofChars s = .error e := by
  cases h with
  | empty => rfl
  | @noHost d hne hcolon =>
    rw [show ':' :: d = [] ++ ':' :: d from rfl, ofChars_append_colon (by simp) (by simp) hcolon, ofParts,
      if_neg (by simp), if_neg (by simpa using hne)]
    rfl
  | noService hhead hcolon => rw [ofChars_append_colon hhead hcolon (by simp), ofParts, if_neg hcolon, if_pos rfl]
  | ipv4Port hq hne hcolon hd =>
    rw [ofChars_append_colon (head?_ne_bracket_ipv4 hq) (colon_not_mem hq) hcolon, ofParts_ipv4_some hq hne,
      literalPort_eq_error hd]
    rfl
  | ipv6Port ha hd =>
    rw [ofChars_bracketed ha, portAfterBracket, literalPort_eq_error hd]
    rfl
  | unclosed hr => rw [ofChars, ofBracketed, splitFirst_eq_none_iff.2 hr]
  | @notIPv6 s tail hs ha =>
    rw [List.cons_append, ofChars, ofBracketed, splitFirst_eq_some_iff.2 ⟨rfl, hs⟩]
    simp only [ha]
  | noColon ha hc =>
    rw [ofChars_bracketed ha, portAfterBracket]
    · rfl
    · simpa using hc
  | colons hhead hcount ha =>
    obtain ⟨name, d, hsplit⟩ : ∃ name d, splitLast ':' s = some (name, d) := by
      cases hsplit : splitLast ':' s with
      | some p => exact ⟨p.1, p.2, rfl⟩
      | none => simp [List.count_eq_zero_of_not_mem (splitLast_eq_none_iff.1 hsplit)] at hcount
    obtain ⟨rfl, hd⟩ := splitLast_eq_some_iff.1 hsplit
    have hname : ':' ∈ name := by
      rw [List.count_append, List.count_cons_self, List.count_eq_zero_of_not_mem hd] at hcount
      exact List.count_pos_iff.1 (by omega)
    unfold ofChars
    split
    · rename_i hnil
      simp at hnil
    · rename_i hbracket
      exact absurd (by rw [hbracket]; rfl) hhead
    · simp only [ha, hsplit]
      rw [ofParts, if_pos hname]
  | @bracket s d hhead hcolon hbracket hd =>
    cases d with
    | none =>
      have hne : s ≠ [] := by
        rintro rfl
        simp at hbracket
      rw [Option.map_none, Option.getD_none, List.append_nil, ofChars_eq_ofParts hne hhead hcolon,
        ofParts_bracket hcolon hbracket (by simp)]
    | some u =>
      obtain ⟨hu, hu'⟩ := hd u rfl
      rw [Option.map_some, Option.getD_some, ofChars_append_colon hhead hcolon hu',
        ofParts_bracket hcolon hbracket (by simpa using hu)]

theorem ofChars_eq_error_iff : ofChars s = .error e ↔ Refusal s e :=
  ⟨refusal_of_ofChars, ofChars_of_refusal⟩

/-! ## The classes of errors -/

/-- A text without a host: there is nothing, or nothing before the only colon. -/
def NamesNoHost (s : List Char) : Prop := s = [] ∨ ∃ d, s = ':' :: d ∧ ':' ∉ d

/-- A literal address, and after its colon something that is no port. -/
inductive Misported : List Char → List Char → Prop
  | ipv4 {s d : List Char} {q : IPv4} (hq : IPv4.ofChars? s = some q) (hcolon : ':' ∉ d)
    (hd : Port.ofChars? d = none) : Misported (s ++ ':' :: d) d
  | ipv6 {s d : List Char} {a : IPv6} (ha : IPv6.ofChars? s = some a) (hd : Port.ofChars? d = none) :
    Misported ('[' :: s ++ ']' :: ':' :: d) d

/-- A host that is empty or an IPv4 address, and a colon with nothing after it. -/
inductive EndsOpen : List Char → Prop
  | empty : EndsOpen [':']
  | ipv4 {s : List Char} {q : IPv4} (hq : IPv4.ofChars? s = some q) : EndsOpen (s ++ [':'])

theorem EndsOpen.refusal (h : EndsOpen s) : Refusal s (.invalidFormat (String.ofList s) .emptyService) := by
  cases h with
  | empty => exact .noService (s := []) (by simp) (by simp)
  | ipv4 hq => exact .noService (head?_ne_bracket_ipv4 hq) (colon_not_mem hq)

/-- A text is refused for one reason. -/
theorem Refusal.unique {f : EndpointError} (h : Refusal s e) (h' : Refusal s f) : e = f := by
  simpa [ofChars_of_refusal h] using ofChars_of_refusal h'

theorem NamesNoHost.refusal (h : NamesNoHost s) (hopen : ¬EndsOpen s) : Refusal s .emptyHostname := by
  obtain rfl | ⟨d, rfl, hcolon⟩ := h
  · exact .empty
  · refine .noHost ?_ hcolon
    rintro rfl
    exact hopen .empty

theorem Misported.refusal (h : Misported s d) (hopen : ¬EndsOpen s) : Refusal s (.invalidService (String.ofList d)) := by
  cases h with
  | ipv4 hq hcolon hd =>
    refine .ipv4Port hq ?_ hcolon hd
    rintro rfl
    exact hopen (.ipv4 hq)
  | ipv6 ha hd => exact .ipv6Port ha hd

/-- A text has the first error exactly if it names no host and does not end open. -/
theorem refusal_emptyHostname_iff : Refusal s .emptyHostname ↔ NamesNoHost s ∧ ¬EndsOpen s := by
  constructor
  · intro h
    refine ⟨?_, fun hopen => nomatch hopen.refusal.unique h⟩
    cases h with
    | empty => exact .inl rfl
    | noHost _ hcolon => exact .inr ⟨_, rfl, hcolon⟩
  · exact fun h => h.1.refusal h.2

/-- A text has the second error exactly if it is a literal address with a bad port and does not end open. -/
theorem refusal_invalidService_iff : Refusal s (.invalidService (String.ofList d)) ↔ Misported s d ∧ ¬EndsOpen s := by
  constructor
  · intro h
    refine ⟨?_, fun hopen => nomatch hopen.refusal.unique h⟩
    generalize hu : EndpointError.invalidService (String.ofList d) = f at h
    cases h with
    | ipv4Port hq _ hcolon hd =>
      obtain rfl := String.ofList_injective (EndpointError.invalidService.inj hu)
      exact .ipv4 hq hcolon hd
    | ipv6Port ha hd =>
      obtain rfl := String.ofList_injective (EndpointError.invalidService.inj hu)
      exact .ipv6 ha hd
    | _ => cases hu
  · exact fun h => h.1.refusal h.2

/-- Every other error names a text and a fault in it. -/
theorem Refusal.error_class (h : Refusal s e) :
    e = .emptyHostname ∨ (∃ d, e = .invalidService d) ∨ ∃ t fault, e = .invalidFormat t fault := by
  cases h with
  | empty | noHost => exact .inl rfl
  | ipv4Port | ipv6Port => exact .inr (.inl ⟨_, rfl⟩)
  | _ => exact .inr (.inr ⟨_, _, rfl⟩)

end

/-- Texts without a host and literal addresses with a bad port have errors of their own, unless they end open; every
other error names a fault. -/
theorem ofString_refusals (t : String) :
    (ofString t = .error .emptyHostname ↔ NamesNoHost t.toList ∧ ¬EndsOpen t.toList) ∧
      (∀ d : String, ofString t = .error (.invalidService d) ↔ Misported t.toList d.toList ∧ ¬EndsOpen t.toList) ∧
      (EndsOpen t.toList → ofString t = .error (.invalidFormat t .emptyService)) ∧
      ∀ e, ofString t = .error e → e ≠ .emptyHostname → (∀ d, e ≠ .invalidService d) →
        ∃ input fault, e = .invalidFormat input fault := by
  refine ⟨ofChars_eq_error_iff.trans refusal_emptyHostname_iff, fun d => ?_, fun h => ?_, fun e h hhost hport => ?_⟩
  · rw [← refusal_invalidService_iff, String.ofList_toList]
    exact ofChars_eq_error_iff
  · have hrefusal := h.refusal
    rw [String.ofList_toList] at hrefusal
    exact ofChars_of_refusal hrefusal
  · obtain rfl | ⟨d, rfl⟩ | hfault := (refusal_of_ofChars h).error_class
    · exact absurd rfl hhost
    · exact absurd rfl (hport d)
    · exact hfault

/-- In brackets, an address with an empty port is refused for its port. -/
theorem ofString_refusals_loopback :
    Misported "[::1]:".toList [] ∧ ¬EndsOpen "[::1]:".toList ∧ ofString "[::1]:" = .error (.invalidService "") := by
  have hipv6 : (IPv6.ofChars? "::1".toList).isSome = true := by decide
  obtain ⟨a, ha⟩ := Option.isSome_iff_exists.1 hipv6
  have hport : Misported "[::1]:".toList [] := .ipv6 ha (by decide)
  have hopen : ¬EndsOpen "[::1]:".toList := fun h => by
    have herror := ofChars_of_refusal h.refusal
    revert herror
    decide
  exact ⟨hport, hopen, ((ofString_refusals "[::1]:").2.1 "").2 ⟨hport, hopen⟩⟩

/-- A colon by itself is not refused for the missing host, and an IPv4 address with an empty port is not refused for its
port. -/
theorem ofString_colon_refused :
    (NamesNoHost ":".toList ∧ ofString ":" = .error (.invalidFormat ":" .emptyService)) ∧
      Misported "192.0.2.1:".toList [] ∧
      ofString "192.0.2.1:" = .error (.invalidFormat "192.0.2.1:" .emptyService) := by
  have hipv4 : IPv4.ofChars? "192.0.2.1".toList = some ⟨192, 0, 2, 1⟩ := by decide
  refine ⟨⟨.inr ⟨[], rfl, by simp⟩, by decide⟩, .ipv4 hipv4 (by simp) (by decide), by decide⟩

end Endpoint

end Peering
