import Peering.Endpoint.Text
import Peering.Proofs.AddressText

/-!
# Texts of endpoints

The grammar of endpoint texts, apart from the order in which reading tries things: a text has one of seven forms
(`TextForm`), and `TextForm.Denotes` says which texts have a form and which endpoint they denote.

* `Endpoint.ofChars_eq_ok_iff`: what is read is what some form denotes;
* `TextForm.Denotes.eq_ofText`: the form can be told from the text, so a text has at most one;
* `Endpoint.ofChars_chars`: the text of an endpoint reads back as the endpoint, unless it is a hostname endpoint whose
  name is the text of an IPv4 address.
-/

namespace Peering

open Text

/-! ## Ports and hosts -/

theorem head?_ne_of_not_mem {s : List Char} {c : Char} (h : c ∉ s) : s.head? ≠ some c :=
  fun hh => h (List.mem_of_head? hh)

/-- A nonempty run of decimal digits whose value is the port. -/
structure PortText (d : List Char) (p : Port) : Prop where
  numeral : Decimal.IsNumeral d
  value : Decimal.value d = p.toNat

theorem portText_iff {d : List Char} {p : Port} : PortText d p ↔ Port.ofChars? d = some p := by
  rw [Port.ofChars?_eq_some_iff]
  exact ⟨fun h => ⟨h.numeral, h.value⟩, fun h => ⟨h.1, h.2⟩⟩

theorem PortText.not_mem {d : List Char} {p : Port} (h : PortText d p) {c : Char} (hc : c.isDigit = false) : c ∉ d :=
  fun hm => by simp [h.numeral.2 c hm] at hc

/-- A text that names a host: it is not empty, holds no separator and is not the text of an IPv4 address. -/
structure HostText (t : String) : Prop where
  ne_empty : t ≠ ""
  plain : t.toList.any isHostSeparator = false
  not_ipv4 : IPv4.ofChars? t.toList = none

/-- A text that names a service: it is not empty and holds no colon. -/
structure ServiceText (u : String) : Prop where
  ne_empty : u ≠ ""
  plain : ':' ∉ u.toList

namespace HostText

variable {t u : String}

/-- The endpoint of a host without a service. -/
def endpoint (h : HostText t) : HostEndpoint := ⟨t, none, h.ne_empty, h.plain, nofun, nofun⟩

/-- The endpoint of a host with a service. -/
def withService (h : HostText t) (hu : ServiceText u) : HostEndpoint :=
  ⟨t, some u, h.ne_empty, h.plain, by simpa using hu.ne_empty, by simpa using hu.plain⟩

/-- The separators do not stand in the name of a host. -/
theorem not_mem (h : HostText t) {c : Char} (hc : isHostSeparator c = true) : c ∉ t.toList :=
  fun hm => by simpa [hc] using List.any_eq_false.1 h.plain c hm

theorem colon_not_mem (h : HostText t) : ':' ∉ t.toList := h.not_mem rfl

theorem head?_ne_bracket (h : HostText t) : t.toList.head? ≠ some '[' := head?_ne_of_not_mem (h.not_mem rfl)

theorem toList_ne_nil (h : HostText t) : t.toList ≠ [] := by simpa using h.ne_empty

end HostText

namespace HostEndpoint

/-- What is built has the given hostname, and the given service unless that is empty. -/
theorem make_eq_ok {name : String} {service : Option String} {h : HostEndpoint} (hm : make name service = .ok h) :
    h.hostname = name ∧ h.service = service.filter (· ≠ "") := by
  unfold make at hm
  split at hm
  · cases hm
  split at hm
  · cases hm
  split at hm
  · cases hm; exact ⟨rfl, rfl⟩
  split at hm
  · cases hm
  split at hm
  · rename_i hs
    cases hm
    exact ⟨rfl, by simp [Option.filter, hs]⟩
  · rename_i hs
    cases hm
    exact ⟨rfl, by simp [Option.filter, hs]⟩

/-- No colon stands in a hostname. -/
theorem colon_not_mem_hostname (h : HostEndpoint) : ':' ∉ h.hostname.toList := fun hm => by
  simpa [isHostSeparator] using List.any_eq_false.1 h.hostname_plain ':' hm

/-- Every hostname endpoint can be built out of its hostname and service. -/
theorem make_self (h : HostEndpoint) : make h.hostname h.service = .ok h := by
  obtain ⟨name, service, hne, hplain, hservice, hcolon⟩ := h
  rw [make, dif_neg hne, dif_neg (by simpa using hplain)]
  cases service with
  | none => rfl
  | some s =>
    have hs : s ≠ "" := by simpa using hservice
    have hc : ':' ∉ s.toList := hcolon s rfl
    simp only [dif_neg hc, dif_neg hs]

end HostEndpoint

/-! ## The grammar -/

/-- The forms that the text of an endpoint can have. -/
inductive TextForm where
  /-- An IPv6 address in brackets. -/
  | bracketed
  /-- An IPv6 address in brackets, and a port. -/
  | bracketedPort
  /-- An IPv6 address. -/
  | ipv6
  /-- An IPv4 address. -/
  | ipv4
  /-- An IPv4 address and a port. -/
  | ipv4Port
  /-- A hostname. -/
  | host
  /-- A hostname and a service. -/
  | hostService
deriving DecidableEq

namespace TextForm

/-- A text of a form, and the endpoint that it denotes. -/
inductive Denotes : TextForm → List Char → Endpoint → Prop
  | bracketed {s : List Char} {a : IPv6} (ha : IPv6.ofChars? s = some a) :
    Denotes .bracketed ('[' :: s ++ ']' :: []) (.ipv6 a none)
  | bracketedPort {s d : List Char} {a : IPv6} {p : Port} (ha : IPv6.ofChars? s = some a) (hd : PortText d p) :
    Denotes .bracketedPort ('[' :: s ++ ']' :: ':' :: d) (.ipv6 a (some p))
  | ipv6 {s : List Char} {a : IPv6} (ha : IPv6.ofChars? s = some a) : Denotes .ipv6 s (.ipv6 a none)
  | ipv4 {s : List Char} {q : IPv4} (hq : IPv4.ofChars? s = some q) : Denotes .ipv4 s (.ipv4 q none)
  | ipv4Port {s d : List Char} {q : IPv4} {p : Port} (hq : IPv4.ofChars? s = some q) (hd : PortText d p) :
    Denotes .ipv4Port (s ++ ':' :: d) (.ipv4 q (some p))
  | host {t : String} (ht : HostText t) : Denotes .host t.toList (.host ht.endpoint)
  | hostService {t u : String} (ht : HostText t) (hu : ServiceText u) :
    Denotes .hostService (t.toList ++ ':' :: u.toList) (.host (ht.withService hu))

/-- The only form that a text can have: by its first and last characters, its colons and what stands before the first
of them. -/
def ofText (s : List Char) : TextForm :=
  if s.head? = some '[' then if s.getLast? = some ']' then .bracketed else .bracketedPort
  else if s.count ':' = 0 then if (IPv4.ofChars? s).isSome then .ipv4 else .host
  else if s.count ':' = 1 then
    if (IPv4.ofChars? (s.takeWhile (· != ':'))).isSome then .ipv4Port else .hostService
  else .ipv6

end TextForm

/-! ## Reading the forms -/

namespace Endpoint

/-- No text that denotes an IPv6 address begins with a bracket. -/
theorem head?_ne_bracket {s : List Char} {a : IPv6} (ha : IPv6.ofChars? s = some a) : s.head? ≠ some '[' :=
  head?_ne_of_not_mem (IPv6.not_mem_of_ofChars? ha (by decide) (by decide))

theorem head?_ne_bracket_ipv4 {s : List Char} {q : IPv4} (hq : IPv4.ofChars? s = some q) : s.head? ≠ some '[' :=
  head?_ne_of_not_mem (IPv4.not_mem_of_ofChars? hq (by decide) (by decide))

theorem bracket_not_mem {s : List Char} {a : IPv6} (ha : IPv6.ofChars? s = some a) : ']' ∉ s :=
  IPv6.not_mem_of_ofChars? ha (by decide) (by decide)

theorem colon_not_mem {s : List Char} {q : IPv4} (hq : IPv4.ofChars? s = some q) : ':' ∉ s :=
  IPv4.not_mem_of_ofChars? hq (by decide) (by decide)

/-- A text with fewer than two colons is no IPv6 address. -/
theorem ofChars?_eq_none {s : List Char} (h : s.count ':' < 2) : IPv6.ofChars? s = none := by
  cases ha : IPv6.ofChars? s with
  | none => rfl
  | some a => exact absurd (IPv6.two_le_count_of_ofChars? ha) (by omega)

/-- A bracketed address is followed by what follows the first closing bracket. -/
theorem ofChars_bracketed {s : List Char} {a : IPv6} (ha : IPv6.ofChars? s = some a) (tail : List Char) :
    ofChars ('[' :: s ++ ']' :: tail) = (portAfterBracket ('[' :: s ++ ']' :: tail) tail).map (ipv6 a) := by
  have hsplit : splitFirst ']' (s ++ ']' :: tail) = some (s, tail) :=
    splitFirst_eq_some_iff.2 ⟨rfl, bracket_not_mem ha⟩
  rw [List.cons_append, ofChars, ofBracketed, hsplit]
  simp only [ha]

theorem ofChars_ipv6 {s : List Char} {a : IPv6} (ha : IPv6.ofChars? s = some a) : ofChars s = .ok (ipv6 a none) := by
  unfold ofChars
  split
  · exact absurd (IPv6.two_le_count_of_ofChars? ha) (by simp)
  · exact absurd rfl (head?_ne_bracket ha)
  · simp only [ha]

/-- A text without colons is a host on its own. -/
theorem ofChars_eq_ofParts {s : List Char} (hne : s ≠ []) (hhead : s.head? ≠ some '[') (hcolon : ':' ∉ s) :
    ofChars s = ofParts s s none := by
  unfold ofChars
  split
  · exact absurd rfl hne
  · exact absurd rfl hhead
  · rw [ofChars?_eq_none (by rw [List.count_eq_zero_of_not_mem hcolon]; omega), splitLast_eq_none_iff.2 hcolon]

/-- A text with one colon is a host and what follows the colon. -/
theorem ofChars_append_colon {name service : List Char} (hhead : name.head? ≠ some '[') (hname : ':' ∉ name)
    (hservice : ':' ∉ service) :
    ofChars (name ++ ':' :: service) = ofParts (name ++ ':' :: service) name (some service) := by
  have hcount : (name ++ ':' :: service).count ':' = 1 := by
    simp [List.count_append, List.count_eq_zero_of_not_mem hname, List.count_eq_zero_of_not_mem hservice]
  unfold ofChars
  split
  · rename_i h
    simp at h
  · rename_i rest h
    obtain _ | ⟨c, r⟩ := name
    · simp at h
    · simp only [List.cons_append, List.cons.injEq] at h
      simp [h.1] at hhead
  · rw [ofChars?_eq_none (by omega), splitLast_eq_some_iff.2 ⟨rfl, hservice⟩]

theorem ofParts_ipv4 {whole name : List Char} {q : IPv4} (hq : IPv4.ofChars? name = some q) :
    ofParts whole name none = .ok (ipv4 q none) := by
  rw [ofParts, if_neg (colon_not_mem hq), if_neg (by simp)]
  simp only [hq]

theorem ofParts_ipv4_some {whole name service : List Char} {q : IPv4} (hq : IPv4.ofChars? name = some q)
    (hne : service ≠ []) :
    ofParts whole name (some service) = (literalPort service).map fun p => ipv4 q (some p) := by
  rw [ofParts, if_neg (colon_not_mem hq), if_neg (by simpa using hne)]
  simp only [hq]

/-- A host that is no IPv4 address is read as the hostname that it is. -/
theorem ofParts_host {whole : List Char} {h : HostEndpoint} (hq : IPv4.ofChars? h.hostname.toList = none) :
    ofParts whole h.hostname.toList (h.service.map String.toList) = .ok (host h) := by
  have hne : h.service.map String.toList ≠ some [] := by
    intro hs
    obtain ⟨u, hu, hnil⟩ := Option.map_eq_some_iff.1 hs
    exact h.service_ne_empty (by rw [hu, String.toList_eq_nil_iff.1 hnil])
  have hservice : (h.service.map String.toList).map String.ofList = h.service := by
    simp [Option.map_map, Function.comp_def]
  rw [ofParts, if_neg h.colon_not_mem_hostname, if_neg hne]
  simp only [hq, hservice, String.ofList_toList, HostEndpoint.make_self]
  rfl

theorem literalPort_eq_ok_iff {d : List Char} {p : Port} : literalPort d = .ok p ↔ PortText d p := by
  rw [portText_iff, literalPort]
  split <;> rename_i h <;> simp [h]

theorem portAfterBracket_eq_ok {whole tail : List Char} {p : Option Port} (h : portAfterBracket whole tail = .ok p) :
    tail = [] ∧ p = none ∨ ∃ d q, tail = ':' :: d ∧ p = some q ∧ PortText d q := by
  unfold portAfterBracket at h
  split at h
  · cases h
    exact .inl ⟨rfl, rfl⟩
  · rename_i d
    cases hd : literalPort d with
    | error f => simp [hd, Except.map] at h
    | ok q =>
      simp only [hd, Except.map, Except.ok.injEq] at h
      exact .inr ⟨d, q, rfl, h.symm, literalPort_eq_ok_iff.1 hd⟩
  · cases h

/-- What each form denotes is read. -/
theorem ofChars_of_denotes {f : TextForm} {s : List Char} {e : Endpoint} (h : f.Denotes s e) : ofChars s = .ok e := by
  cases h with
  | bracketed ha => rw [ofChars_bracketed ha]; rfl
  | bracketedPort ha hd =>
    rw [ofChars_bracketed ha]
    simp only [portAfterBracket, literalPort_eq_ok_iff.2 hd]
    rfl
  | ipv6 ha => exact ofChars_ipv6 ha
  | ipv4 hq =>
    have hne : s ≠ [] := by
      rintro rfl
      exact absurd (IPv4.ofChars?_eq_some_iff.1 hq) (by simp [IPv4.chars_eq])
    rw [ofChars_eq_ofParts hne (head?_ne_bracket_ipv4 hq) (colon_not_mem hq), ofParts_ipv4 hq]
  | ipv4Port hq hd =>
    rw [ofChars_append_colon (head?_ne_bracket_ipv4 hq) (colon_not_mem hq) (hd.not_mem rfl),
      ofParts_ipv4_some hq hd.numeral.1, literalPort_eq_ok_iff.2 hd]
    rfl
  | host ht =>
    rw [ofChars_eq_ofParts ht.toList_ne_nil ht.head?_ne_bracket ht.colon_not_mem]
    exact ofParts_host (h := ht.endpoint) ht.not_ipv4
  | hostService ht hu =>
    rw [ofChars_append_colon ht.head?_ne_bracket ht.colon_not_mem hu.plain]
    exact ofParts_host (h := ht.withService hu) ht.not_ipv4

/-- What is made of a host that is no IPv4 address and of the text after its colon has the form of a hostname. -/
theorem denotes_of_make {name : List Char} {service : Option (List Char)} {g : HostEndpoint}
    (hq : IPv4.ofChars? name = none) (hempty : service ≠ some [])
    (hm : HostEndpoint.make (String.ofList name) (service.map String.ofList) = .ok g) :
    ∃ f, TextForm.Denotes f (name ++ (service.map (':' :: ·)).getD []) (host g) := by
  obtain ⟨hname, hservice⟩ := HostEndpoint.make_eq_ok hm
  have ht : HostText (String.ofList name) := by
    refine ⟨hname ▸ g.hostname_ne_empty, hname ▸ g.hostname_plain, ?_⟩
    rw [String.toList_ofList]
    exact hq
  cases service with
  | none =>
    have hg : g = ht.endpoint := by
      cases g; cases hname; cases hservice; rfl
    exact ⟨.host, by simpa [hg] using TextForm.Denotes.host ht⟩
  | some u =>
    have hne : String.ofList u ≠ "" := by
      intro hu
      exact hempty (by rw [String.ofList_eq_empty_iff.1 hu])
    have hu : ServiceText (String.ofList u) := ⟨hne, g.service_plain _ (by simp [hservice, hne])⟩
    have hg : g = ht.withService hu := by
      simp only [Option.map_some, Option.filter_some, decide_eq_true hne, if_true] at hservice
      cases g; cases hname; cases hservice; rfl
    exact ⟨.hostService, by simpa [hg] using TextForm.Denotes.hostService ht hu⟩

/-- What a host and the text after its colon are read as has the form of an IPv4 address or of a hostname. -/
theorem denotes_of_ofParts {whole name : List Char} {service : Option (List Char)} {e : Endpoint}
    (h : ofParts whole name service = .ok e) :
    ∃ f, TextForm.Denotes f (name ++ (service.map (':' :: ·)).getD []) e := by
  unfold ofParts at h
  split at h
  · cases h
  rename_i hcolon
  split at h
  · cases h
  rename_i hempty
  split at h
  · rename_i q hq
    split at h
    · cases h
      exact ⟨.ipv4, by simpa using .ipv4 hq⟩
    · rename_i d
      cases hd : literalPort d with
      | error f => simp [hd, Except.map] at h
      | ok p =>
        simp only [hd, Except.map, Except.ok.injEq] at h
        subst h
        exact ⟨.ipv4Port, .ipv4Port hq (literalPort_eq_ok_iff.1 hd)⟩
  · rename_i hq
    cases hm : HostEndpoint.make (String.ofList name) (service.map String.ofList) with
    | error f => simp [hm, Except.map] at h
    | ok g =>
      simp only [hm, Except.map, Except.ok.injEq] at h
      subst h
      exact denotes_of_make hq hempty hm

/-- What is read is denoted by one of the forms. -/
theorem denotes_of_ofChars {s : List Char} {e : Endpoint} (h : ofChars s = .ok e) : ∃ f, TextForm.Denotes f s e := by
  unfold ofChars at h
  split at h
  · cases h
  · rename_i rest
    unfold ofBracketed at h
    split at h
    · cases h
    rename_i inside tail hsplit
    obtain ⟨rfl, -⟩ := splitFirst_eq_some_iff.1 hsplit
    split at h
    · cases h
    rename_i a ha
    cases hp : portAfterBracket ('[' :: (inside ++ ']' :: tail)) tail with
    | error f => simp [hp, Except.map] at h
    | ok p =>
      simp only [hp, Except.map, Except.ok.injEq] at h
      subst h
      obtain ⟨rfl, rfl⟩ | ⟨d, q, rfl, rfl, hd⟩ := portAfterBracket_eq_ok hp
      · exact ⟨.bracketed, .bracketed ha⟩
      · exact ⟨.bracketedPort, .bracketedPort ha hd⟩
  · split at h
    · rename_i a ha
      cases h
      exact ⟨.ipv6, .ipv6 ha⟩
    · split at h
      · rename_i name service hsplit
        rw [(splitLast_eq_some_iff.1 hsplit).1]
        exact denotes_of_ofParts h
      · simpa using denotes_of_ofParts h

/-- Reading accepts exactly the texts of the grammar, with what they denote. -/
theorem ofChars_eq_ok_iff {s : List Char} {e : Endpoint} : ofChars s = .ok e ↔ ∃ f, TextForm.Denotes f s e :=
  ⟨denotes_of_ofChars, fun ⟨_, h⟩ => ofChars_of_denotes h⟩

end Endpoint

/-! ## The form of a text -/

namespace TextForm

/-- A text with one colon, cut at that colon. -/
theorem takeWhile_append_colon {name : List Char} (h : ':' ∉ name) (service : List Char) :
    (name ++ ':' :: service).takeWhile (· != ':') = name := by
  have hname : ∀ c ∈ name, (c != ':') = true := fun c hc => by
    simpa using fun hcolon : c = ':' => h (hcolon ▸ hc)
  rw [List.takeWhile_append_of_pos hname]
  simp

theorem ofText_of_not_mem {s : List Char} (hhead : s.head? ≠ some '[') (hcolon : ':' ∉ s) :
    ofText s = if (IPv4.ofChars? s).isSome then .ipv4 else .host := by
  rw [ofText, if_neg hhead, if_pos (List.count_eq_zero_of_not_mem hcolon)]

theorem ofText_append_colon {name service : List Char} (hhead : name.head? ≠ some '[') (hname : ':' ∉ name)
    (hservice : ':' ∉ service) :
    ofText (name ++ ':' :: service) = if (IPv4.ofChars? name).isSome then .ipv4Port else .hostService := by
  have hcount : (name ++ ':' :: service).count ':' = 1 := by
    simp [List.count_append, List.count_eq_zero_of_not_mem hname, List.count_eq_zero_of_not_mem hservice]
  have hne : (name ++ ':' :: service).head? ≠ some '[' := by
    obtain _ | ⟨c, r⟩ := name
    · simp
    · exact hhead
  rw [ofText, if_neg hne, if_neg (by omega), if_pos hcount, takeWhile_append_colon hname]

/-- The form can be told from the text. -/
theorem Denotes.eq_ofText {f : TextForm} {s : List Char} {e : Endpoint} (h : f.Denotes s e) : f = ofText s := by
  cases h with
  | @bracketed t a ha =>
    have hlast : ('[' :: t ++ ']' :: []).getLast? = some ']' := List.getLast?_concat ..
    exact (if_pos hlast).symm
  | @bracketedPort t d a p ha hd =>
    -- A port is not empty, and none of its digits is a bracket.
    have hlast : ('[' :: t ++ ']' :: ':' :: d).getLast? ≠ some ']' := by
      obtain ⟨r, c, rfl⟩ := List.eq_nil_or_concat d |>.resolve_left hd.numeral.1
      have hc : c ≠ ']' := fun h => hd.not_mem (c := ']') rfl (by simp [h])
      rw [show '[' :: t ++ ']' :: ':' :: r.concat c = ('[' :: t ++ ']' :: ':' :: r) ++ [c] by simp,
        List.getLast?_concat]
      simpa using hc
    exact (if_neg hlast).symm
  | ipv6 ha =>
    have hcount := IPv6.two_le_count_of_ofChars? ha
    rw [ofText, if_neg (Endpoint.head?_ne_bracket ha), if_neg (by omega), if_neg (by omega)]
  | ipv4 hq =>
    rw [ofText_of_not_mem (Endpoint.head?_ne_bracket_ipv4 hq) (Endpoint.colon_not_mem hq), if_pos (by simp [hq])]
  | ipv4Port hq hd =>
    rw [ofText_append_colon (Endpoint.head?_ne_bracket_ipv4 hq) (Endpoint.colon_not_mem hq) (hd.not_mem rfl),
      if_pos (by simp [hq])]
  | @host t ht =>
    rw [ofText_of_not_mem (ht.head?_ne_bracket) ht.colon_not_mem, if_neg (by simp [ht.not_ipv4])]
  | @hostService t u ht hu =>
    rw [ofText_append_colon ht.head?_ne_bracket ht.colon_not_mem hu.plain, if_neg (by simp [ht.not_ipv4])]

end TextForm

namespace Endpoint

/-- Reading accepts exactly the texts that one of the seven forms has, with the endpoint that the form denotes, and no
text has two forms. -/
theorem ofString_eq_ok_iff_denotes (t : String) :
    (∀ e, ofString t = .ok e ↔ ∃ f, TextForm.Denotes f t.toList e) ∧
      ∀ f g d e, TextForm.Denotes f t.toList d → TextForm.Denotes g t.toList e → f = g := by
  refine ⟨fun e => ofChars_eq_ok_iff, fun f g d e hf hg => ?_⟩
  rw [hf.eq_ofText, hg.eq_ofText]

/-- The port of a bracketed address is read, and the text is of no other form. -/
theorem ofString_bracketed_loopback :
    ofString "[::1]:0443" = .ok (ipv6 ⟨[0, 0, 0, 0, 0, 0, 0, 1], rfl⟩ (some 443)) ∧
      ∀ g e, TextForm.Denotes g "[::1]:0443".toList e → .bracketedPort = g := by
  have h : TextForm.Denotes .bracketedPort "[::1]:0443".toList (ipv6 ⟨[0, 0, 0, 0, 0, 0, 0, 1], rfl⟩ (some 443)) :=
    .bracketedPort (s := "::1".toList) (d := "0443".toList) (by decide) (portText_iff.2 (by decide))
  obtain ⟨accepts, unique⟩ := ofString_eq_ok_iff_denotes "[::1]:0443"
  exact ⟨(accepts _).2 ⟨_, h⟩, fun g e hg => unique _ g _ e h hg⟩

/-! ## Reading back what is written -/

/-- The IPv4 address whose text the hostname of the endpoint is. -/
def namedIPv4? : Endpoint → Option IPv4
  | host h => IPv4.ofChars? h.hostname.toList
  | _ => none

theorem portText_chars (p : Port) : PortText p.chars p := portText_iff.2 (Port.ofChars?_chars p)

/-- The text of an endpoint without a hostname that is the text of an address has a form that denotes the endpoint. -/
theorem exists_denotes_chars {e : Endpoint} (h : e.namedIPv4? = none) : ∃ f, TextForm.Denotes f e.chars e := by
  match e with
  | ipv4 q none => exact ⟨_, .ipv4 (IPv4.ofChars?_chars q)⟩
  | ipv4 q (some p) => exact ⟨_, .ipv4Port (IPv4.ofChars?_chars q) (portText_chars p)⟩
  | ipv6 a none => exact ⟨_, .ipv6 (IPv6.ofChars?_chars a)⟩
  | ipv6 a (some p) =>
    have hd := TextForm.Denotes.bracketedPort (IPv6.ofChars?_chars a) (portText_chars p)
    exact ⟨_, by simpa [chars] using hd⟩
  | host ⟨name, none, hne, hplain, _, _⟩ => exact ⟨_, .host ⟨hne, hplain, h⟩⟩
  | host ⟨name, some u, hne, hplain, hservice, hcolon⟩ =>
    exact ⟨_, .hostService ⟨hne, hplain, h⟩ ⟨by simpa using hservice, by simpa using hcolon⟩⟩

/-- An endpoint reads back as itself, unless its hostname is the text of an address. -/
theorem ofChars_chars {e : Endpoint} (h : e.namedIPv4? = none) : ofChars e.chars = .ok e :=
  ofChars_eq_ok_iff.2 (exists_denotes_chars h)

/-- A hostname that is the text of an address reads back as the address, with the service as its port. -/
theorem ofChars_chars_named {h : HostEndpoint} {q : IPv4} (hq : IPv4.ofChars? h.hostname.toList = some q) :
    ofChars (host h).chars =
      match h.service with
      | none => .ok (ipv4 q none)
      | some u =>
        match Port.ofString? u with
        | some p => .ok (ipv4 q (some p))
        | none => .error (.invalidService u) := by
  obtain ⟨name, service, hne, hplain, hservice, hcolon⟩ := h
  cases service with
  | none => exact ofChars_of_denotes (.ipv4 hq)
  | some u =>
    have hu : u.toList ≠ [] := by simpa using hservice
    simp only [chars]
    rw [ofChars_append_colon (head?_ne_bracket_ipv4 hq) (colon_not_mem hq) (hcolon u rfl), ofParts_ipv4_some hq hu,
      literalPort, Port.ofString?, String.ofList_toList]
    cases Port.ofChars? u.toList <;> rfl

/-- No endpoint that is read has a hostname that is the text of an address. -/
theorem namedIPv4?_of_ofChars {s : List Char} {e : Endpoint} (h : ofChars s = .ok e) : e.namedIPv4? = none := by
  obtain ⟨f, hf⟩ := denotes_of_ofChars h
  cases hf with
  | host ht => exact ht.not_ipv4
  | hostService ht hu => exact ht.not_ipv4
  | _ => rfl

theorem ofString_toString_eq (e : Endpoint) : ofString (toString e) = ofChars e.chars := by
  simp [ofString, toString]

/-- An endpoint reads back from its text, unless its hostname is the text of an address: that reads back as the address,
with the service as its port, and not at all if the service is no port. What has been read always reads back. -/
theorem ofString_toString :
    (∀ e : Endpoint, ofString (toString e) =
      match e with
      | host h =>
        match IPv4.ofChars? h.hostname.toList, h.service with
        | none, _ => .ok (host h)
        | some q, none => .ok (ipv4 q none)
        | some q, some u =>
          match Port.ofString? u with
          | some p => .ok (ipv4 q (some p))
          | none => .error (.invalidService u)
      | literal => .ok literal) ∧
      ∀ t e, ofString t = .ok e → ofString (toString e) = .ok e := by
  refine ⟨fun e => ?_, fun t e h => ?_⟩
  · rw [ofString_toString_eq]
    match e with
    | ipv4 q p => exact ofChars_chars rfl
    | ipv6 a p => exact ofChars_chars rfl
    | host h =>
      dsimp only
      split
      · rename_i hq
        exact ofChars_chars (e := host h) hq
      · rename_i q hq hs
        rw [ofChars_chars_named hq, hs]
      · rename_i q u hq hs
        rw [ofChars_chars_named hq, hs]
  · rw [ofString_toString_eq]
    exact ofChars_chars (namedIPv4?_of_ofChars h)

/-- What is read from the text of a hostname and a service reads back. -/
theorem ofString_toString_vpn :
    ∃ e, ofString "vpn.example.com:openvpn" = .ok e ∧ ofString (toString e) = .ok e := by
  have ht : HostText "vpn.example.com" := ⟨by decide, by decide, by decide⟩
  have hu : ServiceText "openvpn" := ⟨by decide, by decide⟩
  have hread : ofString "vpn.example.com:openvpn" = .ok (host (ht.withService hu)) :=
    ofChars_eq_ok_iff.2 ⟨_, .hostService ht hu⟩
  exact ⟨_, hread, ofString_toString.2 _ _ hread⟩

end Endpoint

end Peering
