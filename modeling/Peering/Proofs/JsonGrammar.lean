import Peering.Proofs.JsonText

/-!
# The grammar of documents

Which texts are values of JSON, apart from any reader.

* `CharsText`, `StringText`: the texts of a string, with any escapes;
* `NumberText`, `ScalarText`: numbers, and the three words;
* `ItemsText`, `MemberTexts`: the layout of lists and objects;
* `ValueText`: a value that is checked for its form only. Its strings may hold a half of a surrogate pair, for nobody
  asks what they stand for (`UnitsText`);
* `ListText`, `ObjectText`: lists and objects by the texts of what they hold.

`readChars_eq_ok_iff` says that reading a string accepts exactly the texts of strings.
-/

namespace Peering.Json

open Text

/-! ## Strings -/

/-- What follows the backslash of an escape, and the character that the escape stands for. -/
inductive EscapeText : Char → Input → Prop
  /-- A letter. -/
  | letter {e c : Char} (he : simpleEscape? e = some c) : EscapeText c [e]
  /-- A code unit that is a character by itself. -/
  | unit {ds : Input} {n : Nat} (hds : ds.length = 4) (hn : Hexadecimal.read? ds = some n)
    (hlone : ¬ (0xD800 ≤ n ∧ n ≤ 0xDFFF)) : EscapeText (Char.ofNat n) ('u' :: ds)
  /-- A surrogate pair. -/
  | pair {ds es : Input} {high low : Nat} (hds : ds.length = 4) (hhigh : Hexadecimal.read? ds = some high)
    (hfirst : 0xD800 ≤ high ∧ high ≤ 0xDBFF) (hes : es.length = 4) (hlow : Hexadecimal.read? es = some low)
    (hsecond : 0xDC00 ≤ low ∧ low ≤ 0xDFFF) :
    EscapeText (Char.ofNat (0x10000 + (high - 0xD800) * 0x400 + (low - 0xDC00))) ('u' :: (ds ++ '\\' :: 'u' :: es))

/-- A text from after the opening quote of a string to its end, and the characters of the string. -/
inductive CharsText : List Char → Input → Prop
  | close : CharsText [] ['"']
  | plain {c : Char} {cs u : Input} (hquote : c ≠ '"') (hslash : c ≠ '\\') (hcontrol : isControl c = false)
    (h : CharsText cs u) : CharsText (c :: cs) (c :: u)
  | escape {c : Char} {cs e u : Input} (he : EscapeText c e) (h : CharsText cs u) :
    CharsText (c :: cs) ('\\' :: (e ++ u))

/-- A text of a string, with its quotes. -/
def StringText (t : Input) (s : String) : Prop := ∃ u, t = '"' :: u ∧ CharsText s.toList u

/-! ### Reading strings -/

theorem readHex4_eq_ok_iff {s r : Input} {n : Nat} :
    readHex4 s = .ok (n, r) ↔ ∃ ds, s = ds ++ r ∧ ds.length = 4 ∧ Hexadecimal.read? ds = some n := by
  constructor
  · intro h
    unfold readHex4 at h
    split at h
    · rename_i a b c d t
      split at h
      · rename_i m hm
        cases h
        exact ⟨[a, b, c, d], rfl, rfl, hm⟩
      · cases h
    · split at h <;> cases h
  · rintro ⟨ds, rfl, hds, hn⟩
    match ds, hds with
    | [a, b, c, d], _ => simp [readHex4, hn]

/-- The second half of a pair is an escape of its own. -/
theorem readLowSurrogate_eq_ok {high : Nat} {s r : Input} {c : Char} (h : readLowSurrogate high s = .ok (c, r)) :
    ∃ es low, s = '\\' :: 'u' :: (es ++ r) ∧ es.length = 4 ∧ Hexadecimal.read? es = some low ∧
      (0xDC00 ≤ low ∧ low ≤ 0xDFFF) ∧ Char.ofNat (0x10000 + (high - 0xD800) * 0x400 + (low - 0xDC00)) = c := by
  unfold readLowSurrogate at h
  split at h
  · cases h
  · split at h
    · cases h
    · split at h
      · cases h
      rename_i low t hread
      obtain ⟨es, rfl, hes, hlow⟩ := readHex4_eq_ok_iff.1 hread
      split at h
      · rename_i hsecond
        obtain ⟨hc, rfl⟩ := Prod.mk.inj (Except.ok.inj h)
        exact ⟨es, low, rfl, hes, hlow, hsecond, hc⟩
      · cases h
    · cases h
  · cases h

theorem readUnicodeEscape_eq_ok {s r : Input} {c : Char} (h : readUnicodeEscape s = .ok (c, r)) :
    ∃ e, s = e ++ r ∧ EscapeText c ('u' :: e) := by
  unfold readUnicodeEscape at h
  split at h
  · cases h
  rename_i n t hread
  obtain ⟨ds, rfl, hds, hn⟩ := readHex4_eq_ok_iff.1 hread
  split at h
  · cases h
  rename_i hlow
  split at h
  · rename_i hhigh
    obtain ⟨es, low, rfl, hes, hlow, hsecond, rfl⟩ := readLowSurrogate_eq_ok h
    exact ⟨ds ++ '\\' :: 'u' :: es, by simp, .pair hds hn hhigh hes hlow hsecond⟩
  · rename_i hhigh
    obtain ⟨rfl, rfl⟩ := Prod.mk.inj (Except.ok.inj h)
    exact ⟨ds, rfl, .unit hds hn (by omega)⟩

/-- Reading an escape accepts exactly the texts of escapes. -/
theorem readEscape_eq_ok_iff {s r : Input} {c : Char} :
    readEscape s = .ok (c, r) ↔ ∃ e, s = e ++ r ∧ EscapeText c e := by
  have hu : simpleEscape? 'u' = none := rfl
  constructor
  · intro h
    unfold readEscape at h
    split at h
    · cases h
    rename_i d s
    split at h
    · rename_i c' hd
      cases h
      exact ⟨[d], rfl, .letter hd⟩
    · split at h
      · rename_i hd
        obtain ⟨e, rfl, he⟩ := readUnicodeEscape_eq_ok h
        exact ⟨d :: e, rfl, hd ▸ he⟩
      · cases h
  · rintro ⟨e, rfl, he⟩
    cases he with
    | letter he => simp [readEscape, he]
    | @unit ds n hds hn hlone =>
      have hread : readHex4 (ds ++ r) = .ok (n, r) := readHex4_eq_ok_iff.2 ⟨ds, rfl, hds, hn⟩
      simp only [List.cons_append, readEscape, hu, if_true, readUnicodeEscape, hread]
      rw [if_neg (by omega), if_neg (by omega)]
    | @pair ds es high low hds hhigh hfirst hes hlow hsecond =>
      have hread : readHex4 (ds ++ '\\' :: 'u' :: (es ++ r)) = .ok (high, '\\' :: 'u' :: (es ++ r)) :=
        readHex4_eq_ok_iff.2 ⟨ds, rfl, hds, hhigh⟩
      have hread' : readHex4 (es ++ r) = .ok (low, r) := readHex4_eq_ok_iff.2 ⟨es, rfl, hes, hlow⟩
      simp only [List.cons_append, List.append_assoc, readEscape, hu, if_true, readUnicodeEscape, hread]
      rw [if_neg (by omega), if_pos hfirst]
      simp only [readLowSurrogate, hread']
      rw [if_pos hsecond]

theorem readChars_of_charsText {cs u : Input} (h : CharsText cs u) (r : Input) : readChars (u ++ r) = .ok (cs, r) := by
  induction h with
  | close => rw [List.cons_append, readChars]; rfl
  | plain hquote hslash hcontrol _ ih => exact readChars_cons hquote hslash hcontrol ih
  | @escape c cs e u he _ ih =>
    have hescape : readEscape (e ++ (u ++ r)) = .ok (c, u ++ r) := readEscape_eq_ok_iff.2 ⟨e, rfl, he⟩
    rw [List.cons_append, List.append_assoc]
    exact readChars_backslash hescape ih

theorem charsText_of_readChars {s cs r : Input} (h : readChars s = .ok (cs, r)) : ∃ u, s = u ++ r ∧ CharsText cs u := by
  fun_induction readChars s generalizing cs r with
  | case1 => cases h
  | case2 t =>
    cases h
    exact ⟨['"'], rfl, .close⟩
  | case3 t e he => cases h
  | case4 t c t' he hlt e hread ih => cases h
  | case5 t c t' hescape hlt ds t'' hread ih =>
    cases h
    obtain ⟨u, rfl, hu⟩ := ih hread
    obtain ⟨e, rfl, he⟩ := readEscape_eq_ok_iff.1 hescape
    exact ⟨'\\' :: (e ++ u), by simp, .escape he hu⟩
  | case6 c t hquote hslash hcontrol => cases h
  | case7 c t hquote hslash hcontrol e hread ih => cases h
  | case8 c t hquote hslash hcontrol ds t' hread ih =>
    cases h
    obtain ⟨u, rfl, hu⟩ := ih hread
    exact ⟨c :: u, rfl, .plain (by simpa using hquote) (by simpa using hslash) (by simpa using hcontrol) hu⟩

/-- Reading the characters of a string accepts exactly the texts of strings. -/
theorem readChars_eq_ok_iff {s cs r : Input} : readChars s = .ok (cs, r) ↔ ∃ u, s = u ++ r ∧ CharsText cs u := by
  refine ⟨charsText_of_readChars, ?_⟩
  rintro ⟨u, rfl, hu⟩
  exact readChars_of_charsText hu r

theorem readString_eq_ok_iff {s : String} {t r : Input} :
    readString t = .ok (s, r) ↔ ∃ u, t = u ++ r ∧ CharsText s.toList u := by
  rw [← readChars_eq_ok_iff, readString]
  cases h : readChars t with
  | error e => simp
  | ok x =>
    simp only [Except.ok.injEq, Prod.ext_iff, and_congr_left_iff]
    exact fun _ => ⟨fun hs => by rw [← hs, String.toList_ofList], fun hs => by rw [hs, String.ofList_toList]⟩

/-- The texts of a string are those that are read as the string, whatever comes after them. -/
theorem stringText_iff {t : Input} {s : String} : StringText t s ↔ ReadsString t s := by
  constructor
  · rintro ⟨u, rfl, hu⟩
    exact ⟨u, rfl, fun r => readString_eq_ok_iff.2 ⟨u, rfl, hu⟩⟩
  · rintro ⟨u, rfl, hu⟩
    obtain ⟨v, hv, hchars⟩ := readString_eq_ok_iff.1 (hu [])
    rw [List.append_cancel_right hv]
    exact ⟨v, rfl, hchars⟩

/-- A string is read from each of its texts. -/
theorem StringText.reads {t : Input} {s : String} (h : StringText t s) (wanted : String) :
    Reads (readText wanted) t s :=
  (stringText_iff.1 h).reads_text wanted

/-! ## Strings that are not read -/

/-- A text from after the opening quote to the end of a string that nobody reads: any code units will do. -/
inductive UnitsText : Input → Prop
  | close : UnitsText ['"']
  | plain {c : Char} {u : Input} (hquote : c ≠ '"') (hslash : c ≠ '\\') (hcontrol : isControl c = false)
    (h : UnitsText u) : UnitsText (c :: u)
  | letter {e : Char} {u : Input} (he : (simpleEscape? e).isSome) (h : UnitsText u) : UnitsText ('\\' :: e :: u)
  | unit {ds u : Input} (hds : ds.length = 4) (hdigits : ∀ c ∈ ds, (Hexadecimal.digit? c).isSome) (h : UnitsText u) :
    UnitsText ('\\' :: 'u' :: (ds ++ u))

/-- Characters are code units. -/
theorem CharsText.unitsText {cs u : Input} (h : CharsText cs u) : UnitsText u := by
  induction h with
  | close => exact .close
  | plain hquote hslash hcontrol _ ih => exact .plain hquote hslash hcontrol ih
  | escape he _ ih =>
    cases he with
    | letter he => exact .letter (by simp [he]) ih
    | unit hds hn _ => exact .unit hds (Hexadecimal.isSome_of_read? hn) ih
    | pair hds hhigh _ hes hlow _ =>
      have hrest := UnitsText.unit hes (Hexadecimal.isSome_of_read? hlow) ih
      have htext := UnitsText.unit hds (Hexadecimal.isSome_of_read? hhigh) hrest
      simpa using htext

/-! ## Numbers and words -/

/-- The digits before the point. No zero stands in front of others. -/
inductive WholeText : Input → Prop
  | zero : WholeText ['0']
  | digits {c : Char} {ds : Input} (hc : c.isDigit = true) (hzero : c ≠ '0') (hds : ∀ d ∈ ds, d.isDigit = true) :
    WholeText (c :: ds)

/-- The point and the digits after it, if there are any. -/
inductive FractionText : Input → Prop
  | none : FractionText []
  | digits {ds : Input} (hds : Decimal.IsNumeral ds) : FractionText ('.' :: ds)

/-- The exponent, if there is one. -/
inductive ExponentText : Input → Prop
  | none : ExponentText []
  | some {e : Char} {sign ds : Input} (he : e = 'e' ∨ e = 'E') (hsign : sign = [] ∨ sign = ['+'] ∨ sign = ['-'])
    (hds : Decimal.IsNumeral ds) : ExponentText (e :: (sign ++ ds))

/-- A text of a number. -/
inductive NumberText : Input → Prop
  | parts {sign w f e : Input} (hsign : sign = [] ∨ sign = ['-']) (hw : WholeText w) (hf : FractionText f)
    (he : ExponentText e) : NumberText (sign ++ (w ++ (f ++ e)))

/-- The words that are values. -/
def words : List Input := ["null".toList, "true".toList, "false".toList]

/-- A text of null, a boolean or a number. -/
inductive ScalarText : Input → Prop
  | word {w : Input} (hw : w ∈ words) : ScalarText w
  | number {t : Input} (ht : NumberText t) : ScalarText t

theorem ne_of_isDigit {c d : Char} (hc : c.isDigit = true) (hd : d.isDigit = false) : c ≠ d := by
  rintro rfl
  rw [hc] at hd
  cases hd

theorem isBlank_of_isDigit {c : Char} (hc : c.isDigit = true) : isBlank c = false := by
  refine Bool.eq_false_iff.2 fun hblank => ?_
  have hblank : ((c = ' ' ∨ c = '\t') ∨ c = '\n') ∨ c = '\r' := by simpa [isBlank] using hblank
  obtain ((rfl | rfl) | rfl) | rfl := hblank <;> simp at hc

theorem NumberText.head {t : Input} (h : NumberText t) : ∃ c r, t = c :: r ∧ (c = '-' ∨ c.isDigit = true) := by
  cases h with
  | parts hsign hw _ _ =>
    obtain rfl | rfl := hsign
    · cases hw with
      | zero => exact ⟨'0', _, rfl, .inr rfl⟩
      | digits hc _ _ => exact ⟨_, _, rfl, .inr hc⟩
    · exact ⟨'-', _, rfl, .inl rfl⟩

/-- The first character of a scalar tells it from all other values. -/
theorem ScalarText.head {t : Input} (h : ScalarText t) :
    ∃ c r, t = c :: r ∧ isBlank c = false ∧ c ≠ '"' ∧ c ≠ '[' ∧ c ≠ '{' ∧ c ≠ ']' := by
  cases h with
  | word hw =>
    have hw : t = "null".toList ∨ t = "true".toList ∨ t = "false".toList := by simpa [words] using hw
    obtain rfl | rfl | rfl := hw
    · exact ⟨'n', _, rfl, by decide⟩
    · exact ⟨'t', _, rfl, by decide⟩
    · exact ⟨'f', _, rfl, by decide⟩
  | number h =>
    obtain ⟨c, r, rfl, hc⟩ := h.head
    refine ⟨c, r, rfl, ?_⟩
    obtain rfl | hc := hc
    · decide
    · exact ⟨isBlank_of_isDigit hc, ne_of_isDigit hc rfl, ne_of_isDigit hc rfl, ne_of_isDigit hc rfl,
        ne_of_isDigit hc rfl⟩

/-! ## Lists and objects -/

/-- The texts of items, laid out from after the opening bracket to the end of a list. -/
inductive ItemsText : Bool → List Input → Input → Prop
  | nil {first : Bool} {bs : Input} (hbs : IsBlanks bs) : ItemsText first [] (bs ++ [']'])
  | cons {first : Bool} {sep v u : Input} {vs : List Input} (hsep : Separates first sep)
    (hmore : ItemsText false vs u) : ItemsText first (v :: vs) (sep ++ (v ++ u))

/-- Keys and the texts of their values, laid out from after the opening brace to the end of an object. -/
inductive MemberTexts {κ : Type} (Key : Input → κ → Prop) : Bool → List (κ × Input) → Input → Prop
  | nil {first : Bool} {bs : Input} (hbs : IsBlanks bs) : MemberTexts Key first [] (bs ++ ['}'])
  | cons {first : Bool} {sep k bs bs' v u : Input} {key : κ} {ms : List (κ × Input)} (hsep : Separates first sep)
    (hkey : Key k key) (hbs : IsBlanks bs) (hbs' : IsBlanks bs') (hmore : MemberTexts Key false ms u) :
    MemberTexts Key first ((key, v) :: ms) (sep ++ (k ++ (bs ++ ':' :: (bs' ++ (v ++ u)))))

/-- A text of a string that nobody reads. -/
def UnreadText (t : Input) (_ : Unit) : Prop := ∃ u, t = '"' :: u ∧ UnitsText u

/-- A text of a value whose strings nobody reads. -/
inductive ValueText : Input → Prop
  | scalar {t : Input} (ht : ScalarText t) : ValueText t
  | string {t : Input} (ht : UnreadText t ()) : ValueText t
  | list {vs : List Input} {u : Input} (hu : ItemsText true vs u) (hvs : ∀ v ∈ vs, ValueText v) : ValueText ('[' :: u)
  | object {ms : List (Unit × Input)} {u : Input} (hu : MemberTexts UnreadText true ms u)
    (hms : ∀ m ∈ ms, ValueText m.2) : ValueText ('{' :: u)

/-- A text of a list whose items have these texts. -/
def ListText (t : Input) (vs : List Input) : Prop :=
  ∃ u, t = '[' :: u ∧ ItemsText true vs u ∧ ∀ v ∈ vs, ValueText v

/-- A text of an object with these keys, in order, whose values have these texts. -/
def ObjectText (t : Input) (ms : List (String × Input)) : Prop :=
  ∃ u, t = '{' :: u ∧ MemberTexts StringText true ms u ∧ ∀ m ∈ ms, ValueText m.2

theorem StringText.value {t : Input} {s : String} (h : StringText t s) : ValueText t := by
  obtain ⟨u, rfl, hu⟩ := h
  exact .string ⟨u, rfl, hu.unitsText⟩

theorem ListText.value {t : Input} {vs : List Input} (h : ListText t vs) : ValueText t := by
  obtain ⟨u, rfl, hu, hvs⟩ := h
  exact .list hu hvs

theorem MemberTexts.unread {first : Bool} {ms : List (String × Input)} {u : Input}
    (h : MemberTexts StringText first ms u) : MemberTexts UnreadText first (ms.map fun m => ((), m.2)) u := by
  induction h with
  | nil hbs => exact .nil hbs
  | cons hsep hkey hbs hbs' _ ih =>
    obtain ⟨k, rfl, hk⟩ := hkey
    exact .cons hsep ⟨k, rfl, hk.unitsText⟩ hbs hbs' ih

theorem ObjectText.value {t : Input} {ms : List (String × Input)} (h : ObjectText t ms) : ValueText t := by
  obtain ⟨u, rfl, hu, hms⟩ := h
  exact .object hu.unread (List.forall_mem_map.2 hms)

/-- A value begins with itself, and not with the end of a list. -/
theorem ValueText.head {v : Input} (h : ValueText v) : ∃ c r, v = c :: r ∧ isBlank c = false ∧ c ≠ ']' := by
  cases h with
  | scalar h =>
    obtain ⟨c, r, rfl, hblank, -, -, -, hend⟩ := h.head
    exact ⟨c, r, rfl, hblank, hend⟩
  | string h =>
    obtain ⟨u, rfl, -⟩ := h
    exact ⟨'"', u, rfl, by decide⟩
  | list _ _ => exact ⟨'[', _, rfl, by decide⟩
  | object _ _ => exact ⟨'{', _, rfl, by decide⟩

/-! ## Plain layout -/

/-- Members laid out up to the end of an object with no blanks and no escapes that can be done without. -/
def layoutMembers : Bool → List (String × Input) → Input
  | _, [] => ['}']
  | first, (key, v) :: ms => (if first then [] else [',']) ++ (quote key ++ ':' :: (v ++ layoutMembers false ms))

/-- An object with these members. -/
def layout (ms : List (String × Input)) : Input := '{' :: layoutMembers true ms

theorem separates_plain (first : Bool) : Separates first (if first then [] else [',']) := by
  cases first with
  | true => exact .first isBlanks_nil
  | false => exact .next isBlanks_nil isBlanks_nil

theorem memberTexts_layoutMembers (first : Bool) (ms : List (String × Input)) :
    MemberTexts StringText first ms (layoutMembers first ms) := by
  induction ms generalizing first with
  | nil => exact .nil isBlanks_nil
  | cons m ms ih =>
    exact .cons (separates_plain first) (stringText_iff.2 (readsString_quote m.1)) isBlanks_nil isBlanks_nil (ih false)

/-- Any members can be laid out. -/
theorem objectText_layout (ms : List (String × Input)) (hms : ∀ m ∈ ms, ValueText m.2) :
    ObjectText (layout ms) ms :=
  ⟨_, rfl, memberTexts_layoutMembers true ms, hms⟩

/-! ## Reading lists -/

/-- What comes after an item can follow a value. -/
theorem ItemsText.follows {vs : List Input} {u : Input} (h : ItemsText false vs u) (r : Input) : Follows (u ++ r) := by
  cases h with
  | nil hbs =>
    rw [List.append_assoc]
    exact follows_append hbs (by simp) _
  | cons hsep _ =>
    rw [List.append_assoc]
    exact hsep.follows _

theorem MemberTexts.follows {κ : Type} {Key : Input → κ → Prop} {ms : List (κ × Input)} {u : Input}
    (h : MemberTexts Key false ms u) (r : Input) : Follows (u ++ r) := by
  cases h with
  | nil hbs =>
    rw [List.append_assoc]
    exact follows_append hbs (by simp) _
  | cons hsep _ _ _ _ =>
    rw [List.append_assoc]
    exact hsep.follows _

/-- Items that are read one by one are read as the elements of the list. -/
theorem ItemsText.elementsText {α : Type} {item : Reader α} {first : Bool} {vs : List Input} {u : Input} {xs : List α}
    (h : ItemsText first vs u) (hvs : List.Forall₂ (Reads item) vs xs) : ElementsText item first u xs := by
  induction h generalizing xs with
  | nil hbs =>
    cases hvs
    exact .nil hbs
  | cons hsep _ ih =>
    cases hvs with
    | cons hv hvs => exact .cons hsep hv (ih hvs)

/-- A list is read from the texts of its items. -/
theorem ListText.reads {α : Type} {item : Reader α} {t : Input} {vs : List Input} {xs : List α} (h : ListText t vs)
    (hvs : List.Forall₂ (Reads item) vs xs) : Reads (readList item) t xs := by
  obtain ⟨u, rfl, hu, -⟩ := h
  exact reads_list (hu.elementsText hvs)

end Peering.Json
