import Mathlib.Data.List.Basic
import Peering.Address.Basic

/-!
# Texts of addresses

What the readers of addresses accept, and that they undo the writers:

* `Decimal.digits_value`: a numeral without a leading zero is the text of its value, so an octet has one text
  (`IPv4.octet?_eq_some_iff`) and an IPv4 address has one text (`IPv4.ofChars?_eq_some_iff`);
* `IPv6.ofChars?_chars`: the text of an IPv6 address reads back, be it with an elision, with a dotted quad or plain;
* `IPv6.not_mem_of_ofChars?`, `IPv6.two_le_count_of_ofChars?`: the characters of a text that denotes an IPv6 address, among
  them at least two colons;
* `IPAddress.ofChars?_chars`: so the text of an address reads back without being told the family.
-/

namespace Peering

open Text

/-! ## Decimal texts -/

namespace Text.Decimal

/-- A digit lies ten at most above the zero. -/
theorem digit_bounds {c : Char} (h : c.isDigit = true) : 48 ≤ c.toNat ∧ c.toNat - '0'.toNat < 10 := by
  have hc : 48 ≤ c.toNat ∧ c.toNat ≤ 57 := Char.isDigit_iff_toNat.1 h
  have h0 : '0'.toNat = 48 := rfl
  omega

theorem digitChar_of_isDigit {c : Char} (h : c.isDigit = true) : Nat.digitChar (c.toNat - '0'.toNat) = c := by
  obtain ⟨hle, hlt⟩ := digit_bounds h
  have h0 : '0'.toNat = 48 := rfl
  apply Char.toNat_inj.1
  rw [Nat.toNat_digitChar_of_lt_ten hlt]
  omega

/-- Further digits after a positive number stand at the end of its text. -/
theorem digits_ofDigitChars {s : List Char} {n : Nat} (hs : ∀ c ∈ s, c.isDigit = true) (hn : 0 < n) :
    digits (Nat.ofDigitChars 10 s n) = digits n ++ s := by
  induction s generalizing n with
  | nil => simp
  | cons c r ih =>
    have hc := hs c (List.mem_cons_self ..)
    have hlt := (digit_bounds hc).2
    rw [Nat.ofDigitChars_cons, ih (fun d hd => hs d (List.mem_cons_of_mem _ hd)) (by omega), digits,
      ← Nat.toDigits_append_toDigits (by decide) hn hlt, Nat.toDigits_of_lt_base hlt, digitChar_of_isDigit hc,
      List.append_assoc]
    rfl

/-- A numeral without a leading zero is the text of its value. -/
theorem digits_value {c : Char} {r : List Char} (hs : IsNumeral (c :: r)) (hc : c ≠ '0') :
    digits (value (c :: r)) = c :: r := by
  have hd := hs.2 c (List.mem_cons_self ..)
  obtain ⟨hle, hlt⟩ := digit_bounds hd
  have hpos : 0 < c.toNat - '0'.toNat := by
    have h0 : '0'.toNat = 48 := rfl
    have hne : c.toNat ≠ '0'.toNat := fun h => hc (Char.toNat_inj.1 h)
    omega
  rw [value, Nat.ofDigitChars_cons, Nat.mul_zero, Nat.zero_add,
    digits_ofDigitChars (fun d h => hs.2 d (List.mem_cons_of_mem _ h)) hpos, digits, Nat.toDigits_of_lt_base hlt,
    digitChar_of_isDigit hd, List.singleton_append]

/-- Only the text of zero begins with a zero. -/
theorem head?_digits_eq_zero {n : Nat} (h : (digits n).head? = some '0') : n = 0 := by
  induction n using Nat.base_induction 10 (by decide) with
  | single m hm =>
    rw [digits, Nat.toDigits_of_lt_base hm] at h
    have := congrArg (Option.map Char.toNat) h
    simpa [Nat.toNat_digitChar_of_lt_ten hm] using this
  | digit m k hk hm ih =>
    rw [digits, ← Nat.toDigits_append_toDigits (by decide) hm hk,
      List.head?_append_of_ne_nil _ Nat.toDigits_ne_nil] at h
    exact absurd (ih h) (by omega)

end Text.Decimal

/-! ## IPv4 addresses -/

namespace IPv4

/-- An octet is read from its decimal text and from nothing else. -/
theorem octet?_eq_some_iff {s : List Char} {o : UInt8} : octet? s = some o ↔ s = Decimal.digits o.toNat := by
  have ho : o.toNat < 256 := o.toNat_lt
  constructor
  · intro h
    unfold octet? at h
    split at h
    · cases h
    rename_i hzero
    obtain ⟨n, hn, rfl⟩ := Option.map_eq_some_iff.1 h
    obtain ⟨hs, rfl, hb⟩ := Decimal.readUpTo_eq_some_iff.1 hn
    rw [UInt8.toNat_ofNat_of_lt' (by simpa using Nat.lt_succ_of_le hb)]
    obtain _ | ⟨c, r⟩ := s
    · exact absurd rfl hs.1
    by_cases hc : c = '0'
    · subst hc
      have hr : '0' :: r = ['0'] := by simpa using hzero
      rw [hr]
      rfl
    · exact (Decimal.digits_value hs hc).symm
  · rintro rfl
    have hzero : ¬ ((Decimal.digits o.toNat).head? = some '0' ∧ Decimal.digits o.toNat ≠ ['0']) := by
      rintro ⟨hhead, hne⟩
      rw [Decimal.head?_digits_eq_zero hhead] at hne
      exact hne rfl
    rw [octet?, if_neg hzero, Decimal.readUpTo_digits (by omega), Option.map_some, UInt8.ofNat_toNat]

/-- The text of an octet holds no dot. -/
theorem dot_not_mem_digits (n : Nat) : '.' ∉ Decimal.digits n := fun h =>
  absurd ((Decimal.isNumeral_digits n).2 _ h) (by decide)

theorem chars_eq (q : IPv4) :
    q.chars = ['.'].intercalate [Decimal.digits q.a.toNat, Decimal.digits q.b.toNat, Decimal.digits q.c.toNat,
      Decimal.digits q.d.toNat] := rfl

/-- An address is read from its own text and from nothing else. -/
theorem ofChars?_eq_some_iff {s : List Char} {q : IPv4} : ofChars? s = some q ↔ s = q.chars := by
  constructor
  · intro h
    unfold ofChars? at h
    split at h
    · rename_i a b c d hs
      obtain ⟨oa, ha, h⟩ := Option.bind_eq_some_iff.1 h
      obtain ⟨ob, hb, h⟩ := Option.bind_eq_some_iff.1 h
      obtain ⟨oc, hc, h⟩ := Option.bind_eq_some_iff.1 h
      obtain ⟨od, hd, h⟩ := Option.bind_eq_some_iff.1 h
      cases h
      have hjoin : ['.'].intercalate (s.splitOn '.') = s := List.intercalate_splitOn '.'
      rw [← hjoin, hs, chars_eq, octet?_eq_some_iff.1 ha, octet?_eq_some_iff.1 hb,
        octet?_eq_some_iff.1 hc, octet?_eq_some_iff.1 hd]
    · cases h
  · rintro rfl
    have hdots : ∀ l ∈ [Decimal.digits q.a.toNat, Decimal.digits q.b.toNat, Decimal.digits q.c.toNat,
        Decimal.digits q.d.toNat], '.' ∉ l := by
      simp [dot_not_mem_digits]
    rw [ofChars?, chars_eq, List.splitOn_intercalate '.' hdots (by simp)]
    simp only [octet?_eq_some_iff.2 rfl]
    rfl

theorem ofChars?_chars (q : IPv4) : ofChars? q.chars = some q := ofChars?_eq_some_iff.2 rfl

/-- The text of an address is made of digits and dots. -/
theorem mem_chars {q : IPv4} {c : Char} (h : c ∈ q.chars) : c = '.' ∨ c.isDigit = true := by
  have hd : ∀ n, c ∈ Decimal.digits n → c = '.' ∨ c.isDigit = true := fun n hc =>
    .inr ((Decimal.isNumeral_digits n).2 c hc)
  simp only [chars_eq, List.intercalate_cons_cons, List.intercalate_singleton, List.mem_append,
    List.mem_singleton] at h
  grind

/-- The text of an address holds a dot. -/
theorem dot_mem_chars (q : IPv4) : '.' ∈ q.chars := by
  simp [chars_eq]

/-- What is neither a dot nor a digit does not stand in a text that denotes an address. -/
theorem not_mem_of_ofChars? {s : List Char} {q : IPv4} (h : ofChars? s = some q) {c : Char} (hdot : c ≠ '.')
    (hdigit : c.isDigit = false) : c ∉ s := by
  rw [ofChars?_eq_some_iff.1 h]
  intro hc
  rcases mem_chars hc with rfl | hd
  · exact hdot rfl
  · simp [hdigit] at hd

end IPv4

/-! ## Hexadecimal texts -/

namespace Text.Hexadecimal

theorem digit?_digitChar : ∀ n < 16, digit? (Nat.digitChar n) = some n := by decide

theorem extend_append (n : Nat) (s t : List Char) : extend n (s ++ t) = (extend n s).bind (extend · t) := by
  induction s generalizing n with
  | nil => rfl
  | cons c r ih =>
    simp only [List.cons_append, extend]
    cases digit? c with
    | none => rfl
    | some d => exact ih _

theorem extend_digits (n : Nat) : extend 0 (digits n) = some n := by
  induction n using Nat.base_induction 16 (by decide) with
  | single m hm =>
    rw [digits, Nat.toDigits_of_lt_base hm]
    simp only [extend, digit?_digitChar m hm, Nat.mul_zero, Nat.zero_add]
  | digit m k hk hm ih =>
    rw [digits] at ih
    rw [digits, ← Nat.toDigits_append_toDigits (by decide) hm hk, extend_append, ih, Nat.toDigits_of_lt_base hk]
    simp only [Option.bind_some, extend, digit?_digitChar k hk]

theorem digits_ne_nil (n : Nat) : digits n ≠ [] := Nat.toDigits_ne_nil

theorem read?_eq_extend {s : List Char} (h : s ≠ []) : read? s = extend 0 s := by
  obtain _ | ⟨c, r⟩ := s
  · exact absurd rfl h
  · rfl

/-- A number is read back from its text. -/
theorem read?_digits (n : Nat) : read? (digits n) = some n := by
  rw [read?_eq_extend (digits_ne_nil n), extend_digits]

theorem isSome_of_extend {n m : Nat} {s : List Char} (h : extend n s = some m) : ∀ c ∈ s, (digit? c).isSome := by
  induction s generalizing n with
  | nil => simp
  | cons c r ih =>
    rw [extend] at h
    split at h
    · rename_i d hd
      intro e he
      rcases List.mem_cons.1 he with rfl | he
      · simp [hd]
      · exact ih h e he
    · cases h

/-- What is read is made of hexadecimal digits. -/
theorem isSome_of_read? {s : List Char} {n : Nat} (h : read? s = some n) : ∀ c ∈ s, (digit? c).isSome := by
  obtain _ | ⟨c, r⟩ := s
  · simp
  · exact isSome_of_extend h

theorem isSome_of_mem_digits {n : Nat} {c : Char} (h : c ∈ digits n) : (digit? c).isSome :=
  isSome_of_read? (read?_digits n) c h

end Text.Hexadecimal

/-! ## IPv6 addresses: what is accepted -/

namespace IPv6

/-- A group is read from the text of its value. -/
theorem group?_digits (g : UInt16) : group? (Hexadecimal.digits g.toNat) = some g := by
  have hlen : (Hexadecimal.digits g.toNat).length ≤ 4 :=
    (Nat.length_toDigits_le_iff (by decide) (by decide)).2 g.toNat_lt
  rw [group?, if_pos hlen, Hexadecimal.read?_digits, Option.map_some, UInt16.ofNat_toNat]

theorem isSome_of_group? {s : List Char} {g : UInt16} (h : group? s = some g) :
    ∀ c ∈ s, (Hexadecimal.digit? c).isSome := by
  unfold group? at h
  split at h
  · obtain ⟨n, hn, -⟩ := Option.map_eq_some_iff.1 h
    exact Hexadecimal.isSome_of_read? hn
  · cases h

/-- Whether a character may stand within a piece of an address. -/
def IsPieceChar (c : Char) : Prop := c = '.' ∨ (Hexadecimal.digit? c).isSome

instance (c : Char) : Decidable (IsPieceChar c) := inferInstanceAs (Decidable (_ ∨ _))

theorem isPieceChar_of_ofChars? {s : List Char} {q : IPv4} (h : IPv4.ofChars? s = some q) :
    ∀ c ∈ s, IsPieceChar c := by
  intro c hc
  rw [IPv4.ofChars?_eq_some_iff.1 h] at hc
  exact (IPv4.mem_chars hc).imp_right fun hd => by simp [Hexadecimal.digit?, hd]

theorem isPieceChar_of_plainGroups? {ps : List (List Char)} {gs : List UInt16} (h : plainGroups? ps = some gs) :
    ∀ p ∈ ps, ∀ c ∈ p, IsPieceChar c := by
  induction ps generalizing gs with
  | nil => simp
  | cons p ps ih =>
    obtain ⟨g, hg, h⟩ := Option.bind_eq_some_iff.1 h
    obtain ⟨gs', hgs, -⟩ := Option.bind_eq_some_iff.1 h
    intro p' hp'
    rcases List.mem_cons.1 hp' with rfl | hp'
    · exact fun c hc => .inr (isSome_of_group? hg c hc)
    · exact ih hgs p' hp'

/-- The pieces of a part that is accepted hold no other characters, and all but the last are one group each. -/
theorem finalGroups?_spec {ps : List (List Char)} {gs : List UInt16} (h : finalGroups? ps = some gs) :
    (∀ p ∈ ps, ∀ c ∈ p, IsPieceChar c) ∧ gs.length ≤ ps.length + 1 := by
  fun_induction finalGroups? ps generalizing gs with
  | case1 => cases h; simp
  | case2 s q hq =>
    cases h
    simpa [ofQuad] using isPieceChar_of_ofChars? hq
  | case3 s hq =>
    obtain ⟨g, hg, rfl⟩ := Option.map_eq_some_iff.1 h
    have hs : ∀ c ∈ s, IsPieceChar c := fun c hc => .inr (isSome_of_group? hg c hc)
    simpa using hs
  | case4 s r hr ih =>
    obtain ⟨g, hg, h⟩ := Option.bind_eq_some_iff.1 h
    obtain ⟨gs', hgs, h⟩ := Option.bind_eq_some_iff.1 h
    cases h
    obtain ⟨hc, hlen⟩ := ih hgs
    refine ⟨fun p hp => ?_, by simpa using hlen⟩
    rcases List.mem_cons.1 hp with rfl | hp
    · exact fun c hc => .inr (isSome_of_group? hg c hc)
    · exact hc p hp

/-- A character other than the separator stands in one of the parts between separators. -/
theorem exists_mem_splitOn {c d : Char} {s : List Char} (hc : c ∈ s) (hd : c ≠ d) : ∃ p ∈ s.splitOn d, c ∈ p := by
  have key : ∀ ps : List (List Char), c ∈ [d].intercalate ps → ∃ p ∈ ps, c ∈ p := by
    intro ps
    induction ps with
    | nil => simp
    | cons p r ih =>
      intro h
      obtain _ | ⟨q, r⟩ := r
      · exact ⟨p, by simpa using h⟩
      · rw [List.intercalate_cons_cons, List.append_assoc, List.mem_append, List.mem_append,
          List.mem_singleton] at h
        rcases h with h | h | h
        · exact ⟨p, List.mem_cons_self .., h⟩
        · exact absurd h hd
        · obtain ⟨p', hp', hcp⟩ := ih h
          exact ⟨p', List.mem_cons_of_mem _ hp', hcp⟩
  have hjoin : [d].intercalate (s.splitOn d) = s := List.intercalate_splitOn d
  rw [← hjoin] at hc
  exact key _ hc

theorem length_splitOn (d : Char) (s : List Char) : (s.splitOn d).length = s.count d + 1 := by
  induction s with
  | nil => simp
  | cons c r ih =>
    rw [List.splitOn_cons_eq_if_modifyHead]
    by_cases h : c = d
    · simp [h, ih]
    · simp [h, ih]

theorem exists_mem_pieces {c : Char} {s : List Char} (hc : c ∈ s) (hd : c ≠ ':') : ∃ p ∈ pieces s, c ∈ p := by
  obtain _ | ⟨e, r⟩ := s
  · cases hc
  · exact exists_mem_splitOn hc hd

/-- The parts around the first elision give the text back. -/
theorem splitElision_spec {s a b : List Char} (h : splitElision s = some (a, b)) : s = a ++ ':' :: ':' :: b := by
  fun_induction splitElision s generalizing a with
  | case1 => cases h
  | case2 r => cases h; rfl
  | case3 c r _ ih =>
    obtain ⟨⟨a', b'⟩, hr, h⟩ := Option.map_eq_some_iff.1 h
    cases h
    rw [ih hr, List.cons_append]

/-- What a text that denotes an address is made of: pieces around at least two colons. -/
theorem ofChars?_spec {s : List Char} {a : IPv6} (h : ofChars? s = some a) :
    (∀ c ∈ s, c = ':' ∨ IsPieceChar c) ∧ 2 ≤ s.count ':' := by
  unfold ofChars? at h
  split at h
  · obtain ⟨gs, hgs, h⟩ := Option.bind_eq_some_iff.1 h
    obtain ⟨hchars, hlen⟩ := finalGroups?_spec hgs
    have h8 : gs.length = 8 := by
      split at h
      · assumption
      · cases h
    rw [length_splitOn] at hlen
    refine ⟨fun c hc => ?_, by omega⟩
    by_cases hd : c = ':'
    · exact .inl hd
    · obtain ⟨p, hp, hcp⟩ := exists_mem_splitOn hc hd
      exact .inr (hchars p hp c hcp)
  · rename_i front back hs
    obtain ⟨gs, hgs, h⟩ := Option.bind_eq_some_iff.1 h
    obtain ⟨hs', hhs, -⟩ := Option.bind_eq_some_iff.1 h
    rw [splitElision_spec hs]
    refine ⟨fun c hc => ?_, by simp [List.count_append]; omega⟩
    by_cases hd : c = ':'
    · exact .inl hd
    rcases List.mem_append.1 hc with hc | hc
    · obtain ⟨p, hp, hcp⟩ := exists_mem_pieces hc hd
      exact .inr (isPieceChar_of_plainGroups? hgs p hp c hcp)
    · have hc : c ∈ back := by simpa [hd] using hc
      obtain ⟨p, hp, hcp⟩ := exists_mem_pieces hc hd
      exact .inr ((finalGroups?_spec hhs).1 p hp c hcp)

/-- A text that denotes an address holds no brackets. -/
theorem not_mem_of_ofChars? {s : List Char} {a : IPv6} (h : ofChars? s = some a) {c : Char} (hcolon : c ≠ ':')
    (hc : ¬ IsPieceChar c) : c ∉ s := fun hm =>
  ((ofChars?_spec h).1 c hm).elim hcolon hc

theorem two_le_count_of_ofChars? {s : List Char} {a : IPv6} (h : ofChars? s = some a) : 2 ≤ s.count ':' :=
  (ofChars?_spec h).2

/-! ## IPv6 addresses: what is written -/

/-- The pieces that groups are written as. -/
def groupTexts (gs : List UInt16) : List (List Char) := gs.map fun g => Hexadecimal.digits g.toNat

theorem groupChars_eq (gs : List UInt16) : groupChars gs = [':'].intercalate (groupTexts gs) := rfl

theorem colon_not_mem_digits (n : Nat) : ':' ∉ Hexadecimal.digits n := fun h =>
  absurd (Hexadecimal.isSome_of_mem_digits h) (by decide)

theorem groupChars_cons_cons (g g' : UInt16) (gs : List UInt16) :
    groupChars (g :: g' :: gs) = Hexadecimal.digits g.toNat ++ ':' :: groupChars (g' :: gs) := by
  simp [groupChars, List.intercalate_cons_cons]

/-- The text of some groups does not begin with a colon. -/
theorem head?_groupChars (g : UInt16) (gs : List UInt16) (t : List Char) :
    (groupChars (g :: gs) ++ t).head? ≠ some ':' := by
  have hg : ∀ u, (Hexadecimal.digits g.toNat ++ u).head? ≠ some ':' := by
    intro u h
    rw [List.head?_append_of_ne_nil _ (Hexadecimal.digits_ne_nil _)] at h
    exact colon_not_mem_digits _ (List.mem_of_head? h)
  obtain _ | ⟨g', gs⟩ := gs
  · simpa [groupChars] using hg t
  · rw [groupChars_cons_cons, List.append_assoc]
    exact hg _

/-- Cutting a text of groups gives the pieces back. -/
theorem splitOn_groupChars {gs : List UInt16} (h : gs ≠ []) : (groupChars gs).splitOn ':' = groupTexts gs := by
  rw [groupChars_eq]
  refine List.splitOn_intercalate ':' (fun l hl => ?_) (by simpa [groupTexts] using h)
  obtain ⟨g, -, rfl⟩ := List.mem_map.1 hl
  exact colon_not_mem_digits _

theorem pieces_groupChars (gs : List UInt16) : pieces (groupChars gs) = groupTexts gs := by
  obtain _ | ⟨g, gs⟩ := gs
  · rfl
  have hne : groupChars (g :: gs) ≠ [] := by
    obtain _ | ⟨g', gs⟩ := gs
    · simpa [groupChars] using Hexadecimal.digits_ne_nil _
    · simp [groupChars_cons_cons]
  rw [pieces, if_neg (by simpa using hne), splitOn_groupChars (by simp)]

theorem plainGroups?_groupTexts (gs : List UInt16) : plainGroups? (groupTexts gs) = some gs := by
  induction gs with
  | nil => rfl
  | cons g gs ih =>
    simp only [groupTexts, List.map_cons] at ih ⊢
    simp [plainGroups?, group?_digits, ih]

/-- A group is no dotted quad. -/
theorem ofChars?_digits (n : Nat) : IPv4.ofChars? (Hexadecimal.digits n) = none := by
  cases h : IPv4.ofChars? (Hexadecimal.digits n) with
  | none => rfl
  | some q =>
    have hdot : '.' ∈ Hexadecimal.digits n := by
      rw [IPv4.ofChars?_eq_some_iff.1 h]
      exact IPv4.dot_mem_chars q
    exact absurd (Hexadecimal.isSome_of_mem_digits hdot) (by decide)

theorem finalGroups?_groupTexts (gs : List UInt16) : finalGroups? (groupTexts gs) = some gs := by
  induction gs with
  | nil => rfl
  | cons g gs ih =>
    obtain _ | ⟨g', gs⟩ := gs
    · simp [groupTexts, finalGroups?, ofChars?_digits, group?_digits]
    · simp only [groupTexts, List.map_cons] at ih ⊢
      rw [finalGroups?]
      · simp [group?_digits, ih]
      · simp

/-! ## IPv6 addresses: reading back -/

/-- An elision after a piece without colons is found behind it. -/
theorem splitElision_append {w : List Char} (hw : ':' ∉ w) (t : List Char) :
    splitElision (w ++ t) = (splitElision t).map fun (a, b) => (w ++ a, b) := by
  induction w with
  | nil => simp
  | cons c w ih =>
    simp only [List.mem_cons, not_or] at hw
    rw [List.cons_append, splitElision, ih hw.2]
    · simp [Function.comp_def]
    · exact fun r h => absurd h (Ne.symm hw.1)

/-- A single colon is no elision. -/
theorem splitElision_colon {t : List Char} (ht : t.head? ≠ some ':') :
    splitElision (':' :: t) = (splitElision t).map fun (a, b) => (':' :: a, b) := by
  rw [splitElision]
  rintro r - rfl
  exact ht rfl

/-- There is no elision in groups as such, and one after them is found. -/
theorem splitElision_groupChars (gs : List UInt16) (t : List Char) :
    splitElision (groupChars gs ++ t) = (splitElision t).map fun (a, b) => (groupChars gs ++ a, b) := by
  induction gs with
  | nil => simp [groupChars]
  | cons g gs ih =>
    obtain _ | ⟨g', gs⟩ := gs
    · simpa [groupChars] using splitElision_append (colon_not_mem_digits _) t
    · rw [groupChars_cons_cons, List.append_assoc, splitElision_append (colon_not_mem_digits _), List.cons_append,
        splitElision_colon (head?_groupChars g' gs t), ih]
      simp [Function.comp_def]

/-- Where the first longest run of zeros stands, there are zeros. -/
theorem take_append_zeros_append_drop (gs : List UInt16) :
    gs.take (longestZeroRun gs).1 ++ List.replicate (longestZeroRun gs).2 0
      ++ gs.drop ((longestZeroRun gs).1 + (longestZeroRun gs).2) = gs := by
  induction gs with
  | nil => rfl
  | cons g r ih =>
    rcases hrun : longestZeroRun r with ⟨start, n⟩
    simp only [hrun] at ih
    simp only [longestZeroRun, hrun]
    split
    · rw [List.take_succ_cons, Nat.add_right_comm, List.drop_succ_cons, List.cons_append, List.cons_append, ih]
    · have hall : ∀ x ∈ (g :: r).takeWhile (· == 0), x = 0 := fun x hx => by
        simpa using List.all_eq_true.1 (List.all_takeWhile (p := (· == (0 : UInt16)))) x hx
      have hzeros : List.replicate ((g :: r).takeWhile (· == 0)).length 0 = (g :: r).takeWhile (· == 0) :=
        (List.eq_replicate_of_mem hall).symm
      rw [hzeros, List.take_zero, List.nil_append, Nat.zero_add]
      exact List.prefix_iff_eq_append.1 (List.takeWhile_prefix _)

theorem length_le_of_longestZeroRun (gs : List UInt16) :
    (longestZeroRun gs).1 + (longestZeroRun gs).2 ≤ gs.length := by
  induction gs with
  | nil => simp [longestZeroRun]
  | cons g r ih =>
    rcases hrun : longestZeroRun r with ⟨start, n⟩
    simp only [hrun] at ih
    simp only [longestZeroRun, hrun]
    split
    · simp only [List.length_cons]
      omega
    · rw [Nat.zero_add]
      exact (List.takeWhile_prefix _).length_le

/-- The two groups of a dotted quad are the groups that the quad was taken from. -/
theorem ofQuad_ofNat (x y : UInt16) : ofQuad (IPv4.ofNat (x.toNat * 0x10000 + y.toNat)) = [x, y] := by
  have hx := x.toNat_lt
  have hy := y.toNat_lt
  simp only [ofQuad, IPv4.ofNat, UInt8.toNat_ofNat']
  congr 1
  · apply UInt16.toNat_inj.1
    rw [UInt16.toNat_ofNat']
    omega
  · congr 1
    apply UInt16.toNat_inj.1
    rw [UInt16.toNat_ofNat']
    omega

/-- The groups of an address that maps an IPv4 address. -/
theorem groups_of_mappedQuad? {a : IPv6} {q : IPv4} (h : a.mappedQuad? = some q) :
    a.groups = List.replicate 5 0 ++ 0xffff :: ofQuad q := by
  unfold mappedQuad? at h
  split at h
  · rename_i g₀ g₁ g₂ g₃ g₄ g₅ x y hg
    split at h
    · rename_i hm
      cases h
      simp only [List.cons.injEq, and_true] at hm
      obtain ⟨rfl, rfl, rfl, rfl, rfl, rfl⟩ := hm
      rw [hg, ofQuad_ofNat]
      rfl
    · cases h
  · cases h

/-- A dotted quad is taken back from its two groups. -/
theorem ofNat_ofQuad (q : IPv4) :
    IPv4.ofNat ((UInt16.ofNat (q.a.toNat * 256 + q.b.toNat)).toNat * 0x10000 +
      (UInt16.ofNat (q.c.toNat * 256 + q.d.toNat)).toNat) = q := by
  obtain ⟨a, b, c, d⟩ := q
  have ha := a.toNat_lt
  have hb := b.toNat_lt
  have hc := c.toNat_lt
  have hd := d.toNat_lt
  simp only [IPv4.ofNat, UInt16.toNat_ofNat', IPv4.mk.injEq]
  refine ⟨?_, ?_, ?_, ?_⟩ <;>
  · apply UInt8.toNat_inj.1
    rw [UInt8.toNat_ofNat']
    omega

/-- The address within a mapped one is the address that was mapped. -/
theorem mappedQuad?_ofMapped (q : IPv4) : (ofMapped q).mappedQuad? = some q :=
  congrArg some (ofNat_ofQuad q)

/-- The text of a mapped address holds the text of the address that was mapped. -/
theorem chars_ofMapped (q : IPv4) : (ofMapped q).chars = "::ffff:".toList ++ q.chars := by
  rw [chars, mappedQuad?_ofMapped]

theorem eq_of_groups {a b : IPv6} (h : a.groups = b.groups) : a = b := by
  obtain ⟨gs, hgs⟩ := a
  cases h
  rfl

/-- Reading a text whose groups stand before and after an elision. -/
theorem ofChars?_of_splitElision {s : List Char} {a : IPv6} (front back : List Char) (gs hs : List UInt16)
    (hsplit : splitElision s = some (front, back)) (hfront : plainGroups? (pieces front) = some gs)
    (hback : finalGroups? (pieces back) = some hs) (hlen : gs.length + hs.length ≤ 7)
    (ha : a.groups = gs ++ List.replicate (8 - (gs.length + hs.length)) 0 ++ hs) : ofChars? s = some a := by
  rw [ofChars?, hsplit]
  simp only [hfront, hback, Option.bind_eq_bind, Option.bind_some, dif_pos hlen, Option.some.injEq]
  exact eq_of_groups ha.symm

/-- Reading a text of eight groups. -/
theorem ofChars?_of_splitElision_eq_none {s : List Char} {a : IPv6} (hsplit : splitElision s = none)
    (hgroups : finalGroups? (s.splitOn ':') = some a.groups) : ofChars? s = some a := by
  rw [ofChars?, hsplit]
  simp only [hgroups, Option.bind_eq_bind, Option.bind_some, dif_pos a.length_groups]

/-- The text of an IPv4-mapped address reads back. -/
theorem ofChars?_mapped {a : IPv6} {q : IPv4} (h : a.mappedQuad? = some q) :
    ofChars? ("::ffff:".toList ++ q.chars) = some a := by
  have hcolon : ':' ∉ q.chars := IPv4.not_mem_of_ofChars? (IPv4.ofChars?_chars q) (by decide) (by decide)
  have hpieces : pieces ("ffff:".toList ++ q.chars) = ["ffff".toList, q.chars] := by
    show ("ffff".toList ++ ':' :: q.chars).splitOn ':' = _
    rw [List.splitOn_append_cons_self_of_not_mem (by decide), List.splitOn_eq_singleton hcolon]
  have hback : finalGroups? (pieces ("ffff:".toList ++ q.chars)) = some (0xffff :: ofQuad q) := by
    have hffff : group? "ffff".toList = some 0xffff := by decide
    rw [hpieces]
    simp only [finalGroups?, hffff, IPv4.ofChars?_chars, Option.bind_eq_bind, Option.bind_some]
    rfl
  exact ofChars?_of_splitElision [] _ [] _ rfl rfl hback (by simp [ofQuad]) (groups_of_mappedQuad? h)

/-- The text of an address reads back. -/
theorem ofChars?_chars (a : IPv6) : ofChars? a.chars = some a := by
  unfold chars
  split
  · rename_i q hq
    exact ofChars?_mapped hq
  have hrun := take_append_zeros_append_drop a.groups
  have hle := length_le_of_longestZeroRun a.groups
  rw [a.length_groups] at hle
  generalize longestZeroRun a.groups = run at hrun hle ⊢
  obtain ⟨start, n⟩ := run
  simp only at hrun hle ⊢
  split
  · -- The run that the elision stands for is what reading fills up to eight groups.
    have htake : (a.groups.take start).length = start := by
      rw [List.length_take, a.length_groups]
      omega
    have hdrop : (a.groups.drop (start + n)).length = 8 - (start + n) := by
      rw [List.length_drop, a.length_groups]
    refine ofChars?_of_splitElision (groupChars (a.groups.take start)) (groupChars (a.groups.drop (start + n)))
      (a.groups.take start) (a.groups.drop (start + n)) ?_ ?_ ?_ ?_ ?_
    · rw [List.append_assoc, splitElision_groupChars]
      simp [splitElision]
    · rw [pieces_groupChars, plainGroups?_groupTexts]
    · rw [pieces_groupChars, finalGroups?_groupTexts]
    · omega
    · rw [htake, hdrop, show 8 - (start + (8 - (start + n))) = n by omega, hrun]
  · have hne : a.groups ≠ [] := by
      intro h
      have := a.length_groups
      simp [h] at this
    refine ofChars?_of_splitElision_eq_none ?_ ?_
    · rw [← List.append_nil (groupChars _), splitElision_groupChars]
      rfl
    · rw [splitOn_groupChars hne, finalGroups?_groupTexts]

end IPv6

/-! ## Addresses of either family -/

namespace IPAddress

/-- The text of an address reads back: the text of an IPv6 address has colons, so it is no text of an IPv4 address. -/
theorem ofChars?_chars (a : IPAddress) : ofChars? a.chars = some a := by
  cases a with
  | v4 q => simp [ofChars?, chars, IPv4.ofChars?_chars]
  | v6 a =>
    have hcount := IPv6.two_le_count_of_ofChars? (IPv6.ofChars?_chars a)
    have hcolon : ':' ∈ a.chars := List.count_pos_iff.1 (by omega)
    have hv4 : IPv4.ofChars? a.chars = none := by
      refine Option.eq_none_iff_forall_ne_some.2 fun q hq => ?_
      exact IPv4.not_mem_of_ofChars? hq (by decide) (by decide) hcolon
    simp [ofChars?, chars, hv4, IPv6.ofChars?_chars]

end IPAddress

end Peering
