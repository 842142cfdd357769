import Peering.Proofs.SkippedValues

/-!
# What is skipped is a value

Skipping accepts nothing but the values of the grammar, and the blanks before them.

* `Closes`: what the open lists and objects demand of the text after a value within them;
* `RestText`, `Completes`: what a state of the automaton demands of the text from there on;
* `Skip.completes_step`: each step meets the demand of the state that it leaves by that of the state that it goes to.

`skipValue_eq_ok_iff` puts this together with `ValueText.skipped`: up to what can follow it, a text is skipped exactly if
it is a value behind blanks.
-/

namespace Peering.Json

open Text

/-! ## Demands -/

/-- What is left of a list or an object, from after its opening character or from after a value in it. -/
def FrameText (first : Bool) : Frame → Input → Prop
  | .list, t => ∃ vs, ItemsText first vs t ∧ ∀ v ∈ vs, ValueText v
  | .object, t => ∃ ms, MemberTexts UnreadText first ms t ∧ ∀ m ∈ ms, ValueText m.2

/-- What is left of the lists and objects that are open after a value in them. -/
inductive Closes : List Frame → Input → Prop
  | nil : Closes [] []
  | cons {f : Frame} {stack : List Frame} {t w : Input} (ht : FrameText false f t) (hw : Closes stack w) :
    Closes (f :: stack) (t ++ w)

/-- What comes after a string within the member that it is the key of, if it is a key. -/
inductive AfterString : Bool → Input → Prop
  | value : AfterString false []
  | key {bs bs' v : Input} (hbs : IsBlanks bs) (hbs' : IsBlanks bs') (hv : ValueText v) :
    AfterString true (bs ++ ':' :: (bs' ++ v))

/-- What is left of a value, or of a member from its key on. -/
inductive RestText : Skip.State → Input → Prop
  | value {bs v : Input} (hbs : IsBlanks bs) (hv : ValueText v) : RestText .value (bs ++ v)
  | after : RestText .after []
  | key {bs k m : Input} (hbs : IsBlanks bs) (hk : UnreadText k ()) (hm : AfterString true m) :
    RestText .key (bs ++ (k ++ m))
  | colon {m : Input} (hm : AfterString true m) : RestText .colon m
  | word (w : Input) : RestText (.word w) w
  | string {isKey : Bool} {u m : Input} (hu : UnitsText u) (hm : AfterString isKey m) :
    RestText (.string isKey) (u ++ m)
  | escape {isKey : Bool} {u m : Input} (hu : UnitsText ('\\' :: u)) (hm : AfterString isKey m) :
    RestText (.escape isKey) (u ++ m)
  | hex {isKey : Bool} {n : Nat} {ds u m : Input} (hds : ds.length = max n 1)
    (hdigits : ∀ c ∈ ds, (Hexadecimal.digit? c).isSome) (hu : UnitsText u) (hm : AfterString isKey m) :
    RestText (.hex isKey n) (ds ++ (u ++ m))
  | minus {x f e : Input} (hx : WholeText x) (hf : FractionText f) (he : ExponentText e) :
    RestText .minus (x ++ (f ++ e))
  | zero {f e : Input} (hf : FractionText f) (he : ExponentText e) : RestText .zero (f ++ e)
  | whole {ds f e : Input} (hds : ∀ d ∈ ds, d.isDigit = true) (hf : FractionText f) (he : ExponentText e) :
    RestText .whole (ds ++ (f ++ e))
  | point {ds e : Input} (hds : Decimal.IsNumeral ds) (he : ExponentText e) : RestText .point (ds ++ e)
  | fraction {ds e : Input} (hds : ∀ d ∈ ds, d.isDigit = true) (he : ExponentText e) : RestText .fraction (ds ++ e)
  | exponent {sign ds : Input} (hsign : sign = [] ∨ sign = ['+'] ∨ sign = ['-']) (hds : Decimal.IsNumeral ds) :
    RestText .exponent (sign ++ ds)
  | exponentSign {ds : Input} (hds : Decimal.IsNumeral ds) : RestText .exponentSign ds
  | power {ds : Input} (hds : ∀ d ∈ ds, d.isDigit = true) : RestText .power ds

theorem RestText.noWhole {f e : Input} (hf : FractionText f) (he : ExponentText e) : RestText .whole (f ++ e) := by
  have hds : ∀ d ∈ ([] : Input), d.isDigit = true := nofun
  exact .whole hds hf he

theorem RestText.noFraction {e : Input} (he : ExponentText e) : RestText .fraction e := by
  have hds : ∀ d ∈ ([] : Input), d.isDigit = true := nofun
  exact .fraction hds he

/-- What makes the texts from here on complete: what is left of the value that the state stands in, and of what is open
around it. -/
inductive Completes : Skip.State → List Frame → Input → Prop
  | rest {state : Skip.State} {stack : List Frame} {t w : Input} (ht : RestText state t) (hw : Closes stack w) :
    Completes state stack (t ++ w)
  | opened {f : Frame} {stack : List Frame} {t w : Input} (ht : FrameText true f t) (hw : Closes stack w) :
    Completes .opened (f :: stack) (t ++ w)
  | bare : Completes .opened [] []

/-! ## Lists and objects -/

theorem isBlanks_cons {c : Char} {bs : Input} (hc : isBlank c = true) (hbs : IsBlanks bs) : IsBlanks (c :: bs) :=
  List.forall_mem_cons.2 ⟨hc, hbs⟩

theorem Separates.blank {first : Bool} {sep : Input} {c : Char} (hc : isBlank c = true) (h : Separates first sep) :
    Separates first (c :: sep) := by
  cases h with
  | first hbs => exact .first (isBlanks_cons hc hbs)
  | next hbs hbs' => exact .next (isBlanks_cons hc hbs) hbs'

namespace FrameText

variable {first : Bool} {f : Frame} {sep k m v t : Input}

/-- Blanks may come first. -/
theorem blank {c : Char} (hc : isBlank c = true) (h : FrameText first f t) : FrameText first f (c :: t) := by
  cases f with
  | list =>
    obtain ⟨vs, h, hvs⟩ := h
    refine ⟨vs, ?_, hvs⟩
    cases h with
    | nil hbs => exact .nil (isBlanks_cons hc hbs)
    | cons hsep hmore => exact .cons (hsep.blank hc) hmore
  | object =>
    obtain ⟨ms, h, hms⟩ := h
    refine ⟨ms, ?_, hms⟩
    cases h with
    | nil hbs => exact .nil (isBlanks_cons hc hbs)
    | cons hsep hkey hbs hbs' hmore => exact .cons (hsep.blank hc) hkey hbs hbs' hmore

theorem closing (first : Bool) (f : Frame) : FrameText first f [f.closing] := by
  cases f with
  | list => exact ⟨[], .nil isBlanks_nil, nofun⟩
  | object => exact ⟨[], .nil isBlanks_nil, nofun⟩

theorem item (hsep : Separates first sep) (hv : ValueText v) (ht : FrameText false .list t) :
    FrameText first .list (sep ++ (v ++ t)) := by
  obtain ⟨vs, h, hvs⟩ := ht
  exact ⟨v :: vs, .cons hsep h, List.forall_mem_cons.2 ⟨hv, hvs⟩⟩

theorem member (hsep : Separates first sep) (hk : UnreadText k ()) (hm : AfterString true m)
    (ht : FrameText false .object t) : FrameText first .object (sep ++ (k ++ (m ++ t))) := by
  obtain ⟨ms, h, hms⟩ := ht
  cases hm with
  | @key bs bs' v hbs hbs' hv =>
    have hall := MemberTexts.cons (v := v) hsep hk hbs hbs' h
    exact ⟨((), v) :: ms, by simpa using hall, List.forall_mem_cons.2 ⟨hv, hms⟩⟩

end FrameText

/-! ## Steps -/

/-- Whatever completes the text after the step of `c` completes the text from `c` on to one of which `P` holds. -/
def Leads (P : Input → Prop) (c : Char) : Skip.Step → Prop
  | .next state stack => ∀ u, Completes state stack u → P (c :: u)
  | .last => P [c]
  | .before => P []
  | .fail _ => True

namespace Skip

variable {P Q : Input → Prop} {c : Char} {state state' : State} {stack : List Frame}

theorem leads_ite {p : Prop} [Decidable p] {a b : Step} (ha : p → Leads P c a) (hb : ¬p → Leads P c b) :
    Leads P c (if p then a else b) := by
  split
  · exact ha ‹p›
  · exact hb ‹¬p›

theorem leads_mono {a : Step} (h : Leads P c a) (hPQ : ∀ u, P u → Q u) : Leads Q c a := by
  cases a with
  | next state stack => exact fun u hu => hPQ _ (h u hu)
  | last => exact hPQ _ h
  | before => exact hPQ _ h
  | fail e => trivial

/-- A step within what is left of a value. -/
theorem leads_rest (hstate : state' ≠ .opened) (h : ∀ t, RestText state' t → RestText state (c :: t)) :
    Leads (Completes state stack) c (.next state' stack) := by
  intro u hu
  cases hu with
  | rest ht hw => exact .rest (h _ ht) hw
  | opened _ _ => exact absurd rfl hstate
  | bare => exact absurd rfl hstate

theorem leads_ended (h : ∀ w, Closes stack w → P (c :: w)) : Leads P c (ended stack) := by
  cases stack with
  | nil => exact h [] .nil
  | cons f stack =>
    intro u hu
    cases hu with
    | rest ht hw =>
      cases ht
      exact h _ hw

/-- A step that ends what is left of a value. -/
theorem leads_last (h : RestText state [c]) : Leads (Completes state stack) c (ended stack) :=
  leads_ended fun _ hw => .rest h hw

theorem leads_stepAfter (stack : List Frame) (c : Char) : Leads (Closes stack) c (stepAfter stack c) := by
  cases stack with
  | nil => exact .nil
  | cons f stack =>
    refine leads_ite (fun hblank u hu => ?_) fun _ => leads_ite (fun hcomma u hu => ?_) fun _ =>
      leads_ite (fun hclose => ?_) fun _ => trivial
    · cases hu with
      | rest ht hw =>
        cases ht
        cases hw with
        | cons ht hw => exact .cons (ht.blank hblank) hw
    · subst hcomma
      cases f with
      | list =>
        cases hu with
        | rest ht hw =>
          cases ht with
          | value hbs hv =>
            cases hw with
            | cons ht hw =>
              have hall := Closes.cons (ht.item (.next isBlanks_nil hbs) hv) hw
              simpa using hall
      | object =>
        cases hu with
        | rest ht hw =>
          cases ht with
          | key hbs hk hm =>
            cases hw with
            | cons ht hw =>
              have hall := Closes.cons (ht.member (.next isBlanks_nil hbs) hk hm) hw
              simpa using hall
    · subst hclose
      exact leads_ended fun w hw => .cons (.closing false f) hw

/-- A step before anything of a value, or after all of it. -/
theorem leads_after (h : RestText state []) : Leads (Completes state stack) c (stepAfter stack c) :=
  leads_mono (leads_stepAfter stack c) fun _ hw => .rest h hw

/-! ### Values -/

theorem completes_value {v w : Input} (hv : ValueText v) (hw : Closes stack w) : Completes .value stack (v ++ w) :=
  .rest (.value isBlanks_nil hv) hw

/-- A character that a value begins with, without opening anything. -/
theorem leads_begin (hstate : state' ≠ .opened) (h : ∀ t, RestText state' t → ValueText (c :: t)) :
    Leads (Completes .value stack) c (.next state' stack) :=
  leads_rest hstate fun t ht => .value isBlanks_nil (h t ht)

theorem leads_stepValue (stack : List Frame) (c : Char) : Leads (Completes .value stack) c (stepValue stack c) := by
  have hword {w : Input} (hw : c :: w ∈ words) (t : Input) (ht : RestText (.word w) t) : ValueText (c :: t) := by
    cases ht
    exact .scalar (.word hw)
  have hnumber {sign x f e : Input} (hsign : sign = [] ∨ sign = ['-']) (hx : WholeText x) (hf : FractionText f)
      (he : ExponentText e) : ValueText (sign ++ (x ++ (f ++ e))) := .scalar (.number (.parts hsign hx hf he))
  refine leads_ite (fun hblank => ?_) fun _ => leads_ite (fun hc u hu => ?_) fun _ => leads_ite (fun hc u hu => ?_) fun _ =>
    leads_ite (fun hc => ?_) fun _ => leads_ite (fun hc => ?_) fun _ => leads_ite (fun hc => ?_) fun _ =>
    leads_ite (fun hc => ?_) fun _ => leads_ite (fun hc => ?_) fun _ => leads_ite (fun hc => ?_) fun hzero =>
    leads_ite (fun hdigit => ?_) fun _ => trivial
  · refine leads_rest (by simp) fun t ht => ?_
    cases ht with
    | value hbs hv => exact .value (isBlanks_cons hblank hbs) hv
  · subst hc
    cases hu with
    | rest ht _ => cases ht
    | opened ht hw =>
      obtain ⟨vs, h, hvs⟩ := ht
      exact completes_value (.list h hvs) hw
  · subst hc
    cases hu with
    | rest ht _ => cases ht
    | opened ht hw =>
      obtain ⟨ms, h, hms⟩ := ht
      exact completes_value (.object h hms) hw
  · subst hc
    refine leads_begin (by simp) fun t ht => ?_
    cases ht with
    | string hu hm =>
      cases hm
      rw [List.append_nil]
      exact .string ⟨_, rfl, hu⟩
  · exact leads_begin (by simp) (hword (by subst hc; decide))
  · exact leads_begin (by simp) (hword (by subst hc; decide))
  · exact leads_begin (by simp) (hword (by subst hc; decide))
  · subst hc
    refine leads_begin (by simp) fun t ht => ?_
    cases ht with
    | minus hx hf he => exact hnumber (.inr rfl) hx hf he
  · subst hc
    refine leads_begin (by simp) fun t ht => ?_
    cases ht with
    | zero hf he => exact hnumber (.inl rfl) .zero hf he
  · refine leads_begin (by simp) fun t ht => ?_
    cases ht with
    | whole hds hf he => exact hnumber (.inl rfl) (.digits hdigit hzero hds) hf he

theorem leads_stepKey (stack : List Frame) (c : Char) : Leads (Completes .key stack) c (stepKey stack c) := by
  refine leads_ite (fun hblank => ?_) fun _ => leads_ite (fun hc => ?_) fun _ => trivial
  · refine leads_rest (by simp) fun t ht => ?_
    cases ht with
    | key hbs hk hm => exact .key (isBlanks_cons hblank hbs) hk hm
  · subst hc
    refine leads_rest (by simp) fun t ht => ?_
    cases ht with
    | string hu hm => exact .key isBlanks_nil ⟨_, rfl, hu⟩ hm

theorem leads_stepOpened (stack : List Frame) (c : Char) : Leads (Completes .opened stack) c (stepOpened stack c) := by
  cases stack with
  | nil => exact .bare
  | cons f stack =>
    refine leads_ite (fun hblank u hu => ?_) fun _ => leads_ite (fun hclose => ?_) fun _ =>
      leads_ite (fun hf => ?_) fun hf => ?_
    · cases hu with
      | rest ht _ => cases ht
      | opened ht hw => exact .opened (ht.blank hblank) hw
    · subst hclose
      exact leads_ended fun w hw => .opened (.closing true f) hw
    · subst hf
      refine leads_mono (leads_stepKey _ c) fun u hu => ?_
      cases hu with
      | rest ht hw =>
        cases ht with
        | key hbs hk hm =>
          cases hw with
          | cons ht hw =>
            have hall := Completes.opened (ht.member (.first hbs) hk hm) hw
            simpa using hall
    · obtain rfl : f = .list := by cases f <;> simp_all
      refine leads_mono (leads_stepValue _ c) fun u hu => ?_
      cases hu with
      | rest ht hw =>
        cases ht with
        | value hbs hv =>
          cases hw with
          | cons ht hw =>
            have hall := Completes.opened (ht.item (.first hbs) hv) hw
            simpa using hall

/-! ### Strings -/

theorem leads_stepString (isKey : Bool) (stack : List Frame) (c : Char) (r : Input) :
    Leads (Completes (.string isKey) stack) c (step (.string isKey) stack c r) := by
  refine leads_ite (fun hc => ?_) fun hquote => leads_ite (fun hc => ?_) fun hslash => leads_ite (fun _ => trivial)
    fun hcontrol => ?_
  · subst hc
    cases isKey with
    | true =>
      refine leads_rest (by simp) fun t ht => ?_
      cases ht with
      | colon hm => exact .string .close hm
    | false => exact leads_last (.string .close .value)
  · subst hc
    refine leads_rest (by simp) fun t ht => ?_
    cases ht with
    | escape hu hm => exact .string hu hm
  · refine leads_rest (by simp) fun t ht => ?_
    cases ht with
    | string hu hm => exact .string (.plain hquote hslash (by simpa using hcontrol) hu) hm

theorem leads_stepEscape (isKey : Bool) (stack : List Frame) (c : Char) (r : Input) :
    Leads (Completes (.escape isKey) stack) c (step (.escape isKey) stack c r) := by
  refine leads_ite (fun hc => ?_) fun _ => leads_ite (fun _ => trivial) fun hu => leads_ite (fun _ => trivial) fun _ => ?_
  · refine leads_rest (by simp) fun t ht => ?_
    cases ht with
    | string hu hm => exact .escape (.letter hc hu) hm
  · obtain rfl : c = 'u' := by simpa using hu
    refine leads_rest (by simp) fun t ht => ?_
    cases ht with
    | @hex _ _ ds u m hds hdigits hu hm =>
      have hall := RestText.escape (.unit hds hdigits hu) hm
      simpa using hall

theorem leads_stepHex (isKey : Bool) (n : Nat) (stack : List Frame) (c : Char) (r : Input) :
    Leads (Completes (.hex isKey n) stack) c (step (.hex isKey n) stack c r) := by
  refine leads_ite (fun _ => trivial) fun hc => ?_
  have hdigit : (Hexadecimal.digit? c).isSome := by simpa [Option.isSome_iff_ne_none] using hc
  refine leads_ite (fun hn => ?_) fun hn => ?_
  · refine leads_rest (by simp) fun t ht => ?_
    cases ht with
    | string hu hm =>
      have hlength : [c].length = max n 1 := by simp; omega
      exact .hex hlength (List.forall_mem_singleton.2 hdigit) hu hm
  · refine leads_rest (by simp) fun t ht => ?_
    cases ht with
    | @hex _ _ ds u m hds hdigits hu hm =>
      have hlength : (c :: ds).length = max n 1 := by rw [List.length_cons, hds]; omega
      exact .hex hlength (List.forall_mem_cons.2 ⟨hdigit, hdigits⟩) hu hm

/-! ### Numbers -/

theorem isNumeral_cons {ds : Input} (hc : c.isDigit = true) (hds : ∀ d ∈ ds, d.isDigit = true) :
    Decimal.IsNumeral (c :: ds) :=
  ⟨by simp, List.forall_mem_cons.2 ⟨hc, hds⟩⟩

/-- The character after the digits before the point; `state` asks for no more than a fraction and an exponent. -/
theorem leads_stepWholeEnd (h : ∀ f e, FractionText f → ExponentText e → RestText state (f ++ e)) :
    Leads (Completes state stack) c (stepWholeEnd stack c) := by
  refine leads_ite (fun hc => ?_) fun _ => leads_ite (fun hc => ?_) fun _ => leads_after (h [] [] .none .none)
  · subst hc
    refine leads_rest (by simp) fun t ht => ?_
    cases ht with
    | point hds he => exact h _ _ (.digits hds) he
  · refine leads_rest (by simp) fun t ht => ?_
    cases ht with
    | exponent hsign hds => exact h [] _ .none (.some hc hsign hds)

theorem leads_stepMinus (stack : List Frame) (c : Char) (r : Input) :
    Leads (Completes .minus stack) c (step .minus stack c r) := by
  refine leads_ite (fun hc => ?_) fun hzero => leads_ite (fun hdigit => ?_) fun _ => trivial
  · subst hc
    refine leads_rest (by simp) fun t ht => ?_
    cases ht with
    | zero hf he => exact .minus .zero hf he
  · refine leads_rest (by simp) fun t ht => ?_
    cases ht with
    | whole hds hf he => exact .minus (.digits hdigit hzero hds) hf he

theorem leads_stepWhole (stack : List Frame) (c : Char) (r : Input) :
    Leads (Completes .whole stack) c (step .whole stack c r) := by
  refine leads_ite (fun hdigit => ?_) fun _ => leads_stepWholeEnd fun f e hf he => .noWhole hf he
  refine leads_rest (by simp) fun t ht => ?_
  cases ht with
  | whole hds hf he => exact .whole (List.forall_mem_cons.2 ⟨hdigit, hds⟩) hf he

theorem leads_stepFraction (stack : List Frame) (c : Char) (r : Input) :
    Leads (Completes .fraction stack) c (step .fraction stack c r) := by
  refine leads_ite (fun hdigit => ?_) fun _ => leads_ite (fun hc => ?_) fun _ => leads_after (.noFraction .none)
  · refine leads_rest (by simp) fun t ht => ?_
    cases ht with
    | fraction hds he => exact .fraction (List.forall_mem_cons.2 ⟨hdigit, hds⟩) he
  · refine leads_rest (by simp) fun t ht => ?_
    cases ht with
    | exponent hsign hds => exact .noFraction (.some hc hsign hds)

theorem leads_stepExponent (stack : List Frame) (c : Char) (r : Input) :
    Leads (Completes .exponent stack) c (step .exponent stack c r) := by
  refine leads_ite (fun hc => ?_) fun _ => leads_ite (fun hdigit => ?_) fun _ => trivial
  · refine leads_rest (by simp) fun t ht => ?_
    cases ht with
    | exponentSign hds =>
      have hsign : [c] = [] ∨ [c] = ['+'] ∨ [c] = ['-'] := by simpa using hc
      exact .exponent hsign hds
  · refine leads_rest (by simp) fun t ht => ?_
    cases ht with
    | power hds => exact .exponent (.inl rfl) (isNumeral_cons hdigit hds)

/-- A digit of an exponent. -/
theorem leads_power (hc : c.isDigit = true) (h : ∀ ds, Decimal.IsNumeral ds → RestText state ds) :
    Leads (Completes state stack) c (.next .power stack) := by
  refine leads_rest (by simp) fun t ht => ?_
  cases ht with
  | power hds => exact h _ (isNumeral_cons hc hds)

/-! ### All steps -/

/-- What completes the text after a step completes it with the character of the step before it. -/
theorem completes_step (state : State) (stack : List Frame) (c : Char) (r : Input) :
    Leads (Completes state stack) c (step state stack c r) := by
  cases state with
  | value => exact leads_stepValue stack c
  | opened => exact leads_stepOpened stack c
  | after => exact leads_after .after
  | key => exact leads_stepKey stack c
  | colon =>
    refine leads_ite (fun hblank => ?_) fun _ => leads_ite (fun hc => ?_) fun _ => trivial
    · refine leads_rest (by simp) fun t ht => ?_
      cases ht with
      | colon hm =>
        cases hm with
        | key hbs hbs' hv => exact .colon (.key (isBlanks_cons hblank hbs) hbs' hv)
    · subst hc
      refine leads_rest (by simp) fun t ht => ?_
      cases ht with
      | value hbs hv => exact .colon (.key isBlanks_nil hbs hv)
  | word w =>
    cases w with
    | nil => exact leads_after (.word [])
    | cons d w =>
      refine leads_ite (fun _ => trivial) fun hc => leads_ite (fun hw => ?_) fun _ => ?_
      · obtain rfl : c = d := by simpa using hc
        obtain rfl : w = [] := by simpa using hw
        exact leads_last (.word [c])
      · obtain rfl : c = d := by simpa using hc
        refine leads_rest (by simp) fun t ht => ?_
        cases ht
        exact .word (c :: w)
  | string isKey => exact leads_stepString isKey stack c r
  | escape isKey => exact leads_stepEscape isKey stack c r
  | hex isKey n => exact leads_stepHex isKey n stack c r
  | minus => exact leads_stepMinus stack c r
  | zero => exact leads_ite (fun _ => trivial) fun _ => leads_stepWholeEnd fun f e hf he => .zero hf he
  | whole => exact leads_stepWhole stack c r
  | point =>
    refine leads_ite (fun hdigit => ?_) fun _ => trivial
    refine leads_rest (by simp) fun t ht => ?_
    cases ht with
    | fraction hds he => exact .point (isNumeral_cons hdigit hds) he
  | fraction => exact leads_stepFraction stack c r
  | exponent => exact leads_stepExponent stack c r
  | exponentSign => exact leads_ite (fun hdigit => leads_power hdigit fun ds hds => .exponentSign hds) fun _ => trivial
  | power =>
    exact leads_ite (fun hdigit => leads_power hdigit fun ds hds => .power hds.2) fun _ => leads_after (.power nofun)

/-! ## Runs -/

theorem completes_atEnd {r : Input} (h : atEnd state stack = .ok r) : r = [] ∧ Completes state stack [] := by
  have hafter (h : atEndAfter stack = .ok r) : r = [] ∧ stack = [] := by
    cases stack with
    | nil => exact ⟨(Except.ok.inj h).symm, rfl⟩
    | cons f stack => cases h
  have hrest (ht : RestText state []) (h : atEndAfter stack = .ok r) : r = [] ∧ Completes state stack [] := by
    obtain ⟨rfl, rfl⟩ := hafter h
    exact ⟨rfl, .rest ht .nil⟩
  cases state with
  | opened =>
    obtain ⟨rfl, rfl⟩ := hafter h
    exact ⟨rfl, .bare⟩
  | after => exact hrest .after h
  | zero => exact hrest (.zero .none .none) h
  | whole => exact hrest (.noWhole .none .none) h
  | fraction => exact hrest (.noFraction .none) h
  | power => exact hrest (.power nofun) h
  | _ => cases h

/-- The automaton takes nothing but what completes the text. -/
theorem exists_completes {s r : Input} (h : run state stack s = .ok r) : ∃ u, s = u ++ r ∧ Completes state stack u := by
  induction s generalizing state stack with
  | nil =>
    obtain ⟨rfl, hu⟩ := completes_atEnd h
    exact ⟨[], rfl, hu⟩
  | cons c s ih =>
    have hstep := completes_step state stack c s
    rw [run] at h
    split at h
    · rename_i state' stack' hnext
      obtain ⟨u, rfl, hu⟩ := ih h
      rw [hnext] at hstep
      exact ⟨c :: u, rfl, hstep u hu⟩
    · rename_i hlast
      obtain rfl := Except.ok.inj h
      rw [hlast] at hstep
      exact ⟨[c], rfl, hstep⟩
    · rename_i hbefore
      obtain rfl := Except.ok.inj h
      rw [hbefore] at hstep
      exact ⟨[], rfl, hstep⟩
    · cases h

end Skip

/-- Before what can follow a value, exactly the values of the grammar are skipped, with the blanks before them. -/
theorem skipValue_eq_ok_iff {s r : Input} (hr : Follows r) :
    skipValue s = .ok r ↔ ∃ bs v, IsBlanks bs ∧ ValueText v ∧ s = bs ++ (v ++ r) := by
  constructor
  · intro h
    obtain ⟨u, rfl, hu⟩ := Skip.exists_completes h
    cases hu with
    | rest ht hw =>
      cases ht with
      | value hbs hv =>
        cases hw
        exact ⟨_, _, hbs, hv, by simp⟩
  · rintro ⟨bs, v, hbs, hv, rfl⟩
    exact hv.skipped.skipValue hbs hr

end Peering.Json
