import Peering.Proofs.JsonGrammar

/-!
# Values that are skipped

Skipping is an automaton over single characters; the grammar says what is a value. Here the two are brought together.

* `Skip.run_unitsText`, `Skip.run_numberText`: strings and numbers are skipped to their ends;
* `ValueText.skipped`: so is every value, whatever lists and objects are open around it;
* `ObjectText.unique`: so the members of an object are where one finds them, and no text is two objects;
* `Skip.run_append`: what is skipped on its own is skipped in the same way within lists and objects.
-/

namespace Peering.Json

open Text

/-! ## Single steps -/

namespace Skip

variable {state : State} {stack : List Frame} {c : Char} {r : Input}

theorem run_next (state' : State) (stack' : List Frame) (h : step state stack c r = .next state' stack') :
    run state stack (c :: r) = run state' stack' r := by
  rw [run, h]

/-- Outside of lists and objects nothing is taken after a value. -/
@[simp] theorem run_after_nil (r : Input) : run .after [] r = .ok r := by cases r <;> rfl

theorem run_ended {outer : List Frame} (h : step state stack c r = ended outer) :
    run state stack (c :: r) = run .after outer r := by
  rw [run, h]
  cases outer with
  | nil => exact (run_after_nil r).symm
  | cons f outer => rfl

/-- What the automaton does with the text from here on is what it does after a value. -/
theorem run_eq_after (hend : atEnd state stack = atEndAfter stack)
    (hstep : ∀ c s, r = c :: s → step state stack c s = stepAfter stack c) : run state stack r = run .after stack r := by
  cases r with
  | nil => exact hend
  | cons c s =>
    rw [run, hstep c s rfl]
    rfl

/-! ## Blanks -/

/-- In this state blanks are skipped. -/
def Idles (state : State) (stack : List Frame) : Prop :=
  ∀ c r, isBlank c = true → step state stack c r = .next state stack

theorem Idles.run_append (h : Idles state stack) {bs : Input} (hbs : IsBlanks bs) (s : Input) :
    run state stack (bs ++ s) = run state stack s := by
  induction bs with
  | nil => rfl
  | cons b bs ih =>
    rw [List.cons_append, run_next state _ (h b _ (hbs b List.mem_cons_self)), ih fun c hc => hbs c (List.mem_cons_of_mem b hc)]

theorem Idles.run_skipBlanks (h : Idles state stack) (s : Input) :
    run state stack (skipBlanks s) = run state stack s := by
  have hsplit : s.takeWhile isBlank ++ skipBlanks s = s := List.takeWhile_append_dropWhile
  have hblank : IsBlanks (s.takeWhile isBlank) := List.all_eq_true.1 List.all_takeWhile
  conv_rhs => rw [← hsplit]
  exact (h.run_append hblank _).symm

theorem idles_value (stack : List Frame) : Idles .value stack := fun c r h => by simp [step, stepValue, h]

theorem idles_key (stack : List Frame) : Idles .key stack := fun c r h => by simp [step, stepKey, h]

theorem idles_colon (stack : List Frame) : Idles .colon stack := fun c r h => by simp [step, h]

/-- Where the automaton stands in a list or an object before its first item, and before any other. -/
def between (first : Bool) : State := if first then .opened else .after

theorem idles_between (first : Bool) (f : Frame) (stack : List Frame) : Idles (between first) (f :: stack) := by
  intro c r h
  cases first <;> simp [between, step, stepOpened, stepAfter, h]

/-- The end of a list or an object. -/
theorem run_closing (first : Bool) (f : Frame) (stack : List Frame) (r : Input) :
    run (between first) (f :: stack) (f.closing :: r) = run .after stack r := by
  refine run_ended ?_
  cases first <;> cases f <;> rfl

/-! ## Strings -/

/-- Where the automaton stands at the end of a string. -/
def afterString (isKey : Bool) : State := if isKey then .colon else .after

theorem run_close (isKey : Bool) (stack : List Frame) (r : Input) :
    run (.string isKey) stack ('"' :: r) = run (afterString isKey) stack r := by
  cases isKey with
  | true => exact run_next .colon _ rfl
  | false => exact run_ended rfl

theorem run_hex {isKey : Bool} {ds : Input} (hdigits : ∀ c ∈ ds, (Hexadecimal.digit? c).isSome) (hne : ds ≠ [])
    (s : Input) : run (.hex isKey ds.length) stack (ds ++ s) = run (.string isKey) stack s := by
  induction ds with
  | nil => exact absurd rfl hne
  | cons d ds ih =>
    rw [List.forall_mem_cons] at hdigits
    have hd : (Hexadecimal.digit? d).isNone = false := by simpa [Option.isNone_iff_eq_none, Option.ne_none_iff_isSome]
      using hdigits.1
    rw [List.cons_append]
    cases ds with
    | nil => exact run_next (.string isKey) _ (by simp [step, hd])
    | cons e ds =>
      rw [run_next (.hex isKey (e :: ds).length) stack (by simp [step, hd])]
      exact ih hdigits.2 (by simp)

/-- Each character takes a byte. -/
theorem length_le_utf8ByteSize (cs : List Char) : cs.length ≤ (String.ofList cs).utf8ByteSize := by
  induction cs with
  | nil => simp
  | cons c cs ih =>
    have hc := c.utf8Size_pos
    rw [String.ofList_cons, String.utf8ByteSize_append, String.utf8ByteSize_singleton, List.length_cons]
    omega

theorem run_unicodeEscape {isKey : Bool} {ds : Input} (hds : ds.length = 4)
    (hdigits : ∀ c ∈ ds, (Hexadecimal.digit? c).isSome) (s : Input) :
    run (.escape isKey) stack ('u' :: (ds ++ s)) = run (.string isKey) stack s := by
  have htake : (ds ++ s).take 4 = ds := List.take_left' hds
  have hbytes : ¬ (String.ofList ds).utf8ByteSize < 4 := by
    have hle := length_le_utf8ByteSize ds
    omega
  have hu : (simpleEscape? 'u').isSome = false := rfl
  rw [run_next (.hex isKey ds.length) stack (by simp only [step, hu, htake, hbytes, hds]; rfl)]
  exact run_hex hdigits (by rintro rfl; simp at hds) s

/-- A string is skipped up to its closing quote. -/
theorem run_unitsText {isKey : Bool} {u : Input} (h : UnitsText u) (r : Input) :
    run (.string isKey) stack (u ++ r) = run (afterString isKey) stack r := by
  induction h with
  | close => exact run_close isKey stack r
  | plain hquote hslash hcontrol _ ih =>
    rw [List.cons_append, run_next (.string isKey) stack (by simp [step, hquote, hslash, hcontrol]), ih]
  | letter he _ ih =>
    rw [List.cons_append, List.cons_append, run_next (.escape isKey) stack (by simp [step]),
      run_next (.string isKey) stack (by simp [step, he]), ih]
  | unit hds hdigits _ ih =>
    rw [List.cons_append, List.cons_append, List.append_assoc,
      run_next (.escape isKey) stack (by simp [step]), run_unicodeEscape hds hdigits, ih]

/-! ## Numbers and words -/

/-- What can follow a value is no part of a number. -/
theorem not_number_of_follows (h : Follows (c :: r)) : c.isDigit = false ∧ c ≠ '.' ∧ c ≠ 'e' ∧ c ≠ 'E' := by
  have hc : (((c = ' ' ∨ c = '\t') ∨ c = '\n') ∨ c = '\r') ∨ c = ',' ∨ c = ']' ∨ c = '}' := by
    simpa [isBlank] using h c rfl
  obtain (((rfl | rfl) | rfl) | rfl) | rfl | rfl | rfl := hc <;> decide

/-- Digits are skipped where they may stand. -/
theorem run_digits (hstep : ∀ c r, c.isDigit = true → step state stack c r = .next state stack) {ds : Input}
    (hds : ∀ d ∈ ds, d.isDigit = true) (s : Input) : run state stack (ds ++ s) = run state stack s := by
  induction ds with
  | nil => rfl
  | cons d ds ih =>
    rw [List.forall_mem_cons] at hds
    rw [List.cons_append, run_next state _ (hstep d _ hds.1), ih hds.2]

/-- The digits of an exponent end a number. -/
theorem run_power {ds : Input} (hds : ∀ d ∈ ds, d.isDigit = true) (hr : Follows r) :
    run .power stack (ds ++ r) = run .after stack r := by
  rw [run_digits (fun c r hc => by simp [step, hc]) hds]
  refine run_eq_after rfl fun c s hcs => ?_
  subst hcs
  simp [step, (not_number_of_follows hr).1]

/-- In these states a number can end, and an exponent can begin. -/
def BeforeExponent (state : State) : Prop := state = .zero ∨ state = .whole ∨ state = .fraction

theorem run_exponentText (hstate : BeforeExponent state) {e : Input} (h : ExponentText e) (hr : Follows r) :
    run state stack (e ++ r) = run .after stack r := by
  cases h with
  | none =>
    refine run_eq_after (by obtain rfl | rfl | rfl := hstate <;> rfl) fun c s hcs => ?_
    subst hcs
    obtain ⟨hdigit, hpoint, he, hE⟩ := not_number_of_follows hr
    obtain rfl | rfl | rfl := hstate <;> simp [step, stepWholeEnd, hdigit, hpoint, he, hE]
  | @some c sign ds he hsign hds =>
    have hbegin (s : Input) : step state stack c s = .next .exponent stack := by
      obtain rfl | rfl := he <;> obtain rfl | rfl | rfl := hstate <;> rfl
    obtain ⟨hne, hdigits⟩ := hds
    obtain _ | ⟨d, ds⟩ := ds
    · exact absurd rfl hne
    rw [List.forall_mem_cons] at hdigits
    rw [List.cons_append, List.append_assoc, run_next .exponent _ (hbegin _), ← run_power hdigits.2 hr]
    obtain rfl | rfl | rfl := hsign
    · have hplus : d ≠ '+' ∧ d ≠ '-' := ⟨ne_of_isDigit hdigits.1 rfl, ne_of_isDigit hdigits.1 rfl⟩
      exact run_next .power _ (by simp [step, hdigits.1, hplus])
    · rw [List.cons_append, run_next .exponentSign stack (by simp [step])]
      exact run_next .power _ (by simp [step, hdigits.1])
    · rw [List.cons_append, run_next .exponentSign stack (by simp [step])]
      exact run_next .power _ (by simp [step, hdigits.1])

theorem run_fractionText (hstate : state = .zero ∨ state = .whole) {f e : Input} (hf : FractionText f)
    (he : ExponentText e) (hr : Follows r) : run state stack (f ++ (e ++ r)) = run .after stack r := by
  cases hf with
  | none => exact run_exponentText (by obtain rfl | rfl := hstate <;> simp [BeforeExponent]) he hr
  | @digits ds hds =>
    obtain ⟨hne, hdigits⟩ := hds
    obtain _ | ⟨d, ds⟩ := ds
    · exact absurd rfl hne
    rw [List.forall_mem_cons] at hdigits
    have hpoint : step state stack '.' (d :: ds ++ (e ++ r)) = .next .point stack := by
      obtain rfl | rfl := hstate <;> rfl
    rw [List.cons_append, run_next .point _ hpoint, List.cons_append,
      run_next .fraction stack (by simp [step, hdigits.1]),
      run_digits (fun c r hc => by simp [step, hc]) hdigits.2]
    exact run_exponentText (.inr (.inr rfl)) he hr

/-- A number is skipped to its end. -/
theorem run_numberText {t : Input} (h : NumberText t) (hr : Follows r) :
    run .value stack (t ++ r) = run .after stack r := by
  cases h with
  | @parts sign w f e hsign hw hf he =>
    -- The digits before the point begin a value, or come after the sign.
    have hwhole (state : State) (hstate : state = .value ∨ state = .minus) :
        run state stack (w ++ (f ++ (e ++ r))) = run .after stack r := by
      cases hw with
      | zero =>
        rw [← run_fractionText (.inl rfl) hf he hr]
        obtain rfl | rfl := hstate <;> exact run_next .zero _ rfl
      | @digits c ds hc hzero hds =>
        have hmore : run .whole stack (ds ++ (f ++ (e ++ r))) = run .after stack r := by
          rw [run_digits (fun c r hc => by simp [step, hc]) hds, run_fractionText (.inr rfl) hf he hr]
        rw [List.cons_append, ← hmore]
        have hother (d : Char) (hd : d.isDigit = false) : c ≠ d := ne_of_isDigit hc hd
        have hblank : isBlank c = false := isBlank_of_isDigit hc
        obtain rfl | rfl := hstate
        · refine run_next .whole _ ?_
          simp [step, stepValue, hc, hzero, hblank, hother '[' rfl, hother '{' rfl, hother '"' rfl, hother 'n' rfl,
            hother 't' rfl, hother 'f' rfl, hother '-' rfl]
        · exact run_next .whole _ (by simp [step, hc, hzero])
    simp only [List.append_assoc]
    obtain rfl | rfl := hsign
    · exact hwhole .value (.inl rfl)
    · rw [List.cons_append, run_next .minus stack rfl]
      exact hwhole .minus (.inr rfl)

theorem run_word {w : Input} (hw : w ≠ []) (r : Input) : run (.word w) stack (w ++ r) = run .after stack r := by
  induction w with
  | nil => exact absurd rfl hw
  | cons c w ih =>
    cases w with
    | nil => exact run_ended (by simp [step])
    | cons d w =>
      rw [List.cons_append, run_next (.word (d :: w)) stack (by simp [step])]
      exact ih (by simp)

theorem run_scalarText {t : Input} (h : ScalarText t) (hr : Follows r) :
    run .value stack (t ++ r) = run .after stack r := by
  cases h with
  | word hw =>
    have hw : t = 'n' :: "ull".toList ∨ t = 't' :: "rue".toList ∨ t = 'f' :: "alse".toList := by
      simpa [words] using hw
    obtain rfl | rfl | rfl := hw
    · rw [List.cons_append, run_next (.word "ull".toList) stack rfl, run_word (by decide)]
    · rw [List.cons_append, run_next (.word "rue".toList) stack rfl, run_word (by decide)]
    · rw [List.cons_append, run_next (.word "alse".toList) stack rfl, run_word (by decide)]
  | number h => exact run_numberText h hr

/-! ## Lists and objects -/

/-- What stands before an item is skipped up to the item. -/
theorem run_separator {first : Bool} {sep : Input} (hsep : Separates first sep) (hblank : isBlank c = false)
    (hend : c ≠ ']') : run (between first) (.list :: stack) (sep ++ c :: r) = run .value (.list :: stack) (c :: r) := by
  cases hsep with
  | first hbs =>
    have hstep : step .opened (.list :: stack) c r = step .value (.list :: stack) c r := by
      simp [step, stepOpened, hblank, Frame.closing, hend]
    rw [(idles_between true .list stack).run_append hbs, between, if_pos rfl, run, run, hstep]
  | next hbs hbs' =>
    have hcomma (s : Input) : step .after (.list :: stack) ',' s = .next .value (.list :: stack) := rfl
    rw [List.append_assoc, List.cons_append, (idles_between false .list stack).run_append hbs, between,
      if_neg (by decide), run_next .value _ (hcomma _), (idles_value _).run_append hbs']

/-- What stands before a key is skipped with the opening quote of the key. -/
theorem run_keySeparator {first : Bool} {sep : Input} (hsep : Separates first sep) :
    run (between first) (.object :: stack) (sep ++ '"' :: r) = run (.string true) (.object :: stack) r := by
  cases hsep with
  | first hbs =>
    rw [(idles_between true .object stack).run_append hbs]
    exact run_next (.string true) _ rfl
  | next hbs hbs' =>
    have hcomma (s : Input) : step .after (.object :: stack) ',' s = .next .key (.object :: stack) := rfl
    rw [List.append_assoc, List.cons_append, (idles_between false .object stack).run_append hbs, between,
      if_neg (by decide), run_next .key _ (hcomma _), (idles_key _).run_append hbs']
    exact run_next (.string true) _ rfl

theorem run_colon {bs bs' : Input} (hbs : IsBlanks bs) (hbs' : IsBlanks bs') :
    run .colon stack (bs ++ ':' :: (bs' ++ r)) = run .value stack r := by
  rw [(idles_colon stack).run_append hbs, run_next .value stack rfl, (idles_value stack).run_append hbs']

end Skip

/-- With any lists and objects around it, the text is skipped to its end. -/
structure Skipped (v : Input) : Prop where
  head : ∃ c r, v = c :: r ∧ isBlank c = false ∧ c ≠ ']'
  run : ∀ {stack r}, Follows r → Skip.run .value stack (v ++ r) = Skip.run .after stack r

namespace Skip

/-- Items that are skipped one by one are skipped with the end of the list. -/
theorem run_itemsText {first : Bool} {vs : List Input} {u : Input} (h : ItemsText first vs u)
    (hvs : ∀ v ∈ vs, Skipped v) (stack : List Frame) (r : Input) :
    run (between first) (.list :: stack) (u ++ r) = run .after stack r := by
  induction h with
  | @nil first bs hbs =>
    rw [List.append_assoc, (idles_between first .list stack).run_append hbs]
    exact run_closing first .list stack r
  | @cons first sep v u vs hsep hmore ih =>
    rw [List.forall_mem_cons] at hvs
    obtain ⟨c, t, rfl, hblank, hend⟩ := hvs.1.head
    have hv : run .value (.list :: stack) (c :: t ++ (u ++ r)) = run .after (.list :: stack) (u ++ r) :=
      hvs.1.run (hmore.follows r)
    simp only [List.append_assoc, List.cons_append] at hv ⊢
    rw [run_separator hsep hblank hend, hv]
    exact ih hvs.2

/-- Members whose values are skipped one by one are skipped with the end of the object. -/
theorem run_memberTexts {first : Bool} {ms : List (Unit × Input)} {u : Input} (h : MemberTexts UnreadText first ms u)
    (hms : ∀ m ∈ ms, Skipped m.2) (stack : List Frame) (r : Input) :
    run (between first) (.object :: stack) (u ++ r) = run .after stack r := by
  induction h with
  | @nil first bs hbs =>
    rw [List.append_assoc, (idles_between first .object stack).run_append hbs]
    exact run_closing first .object stack r
  | @cons first sep k bs bs' v u key ms hsep hkey hbs hbs' hmore ih =>
    rw [List.forall_mem_cons] at hms
    obtain ⟨k, rfl, hk⟩ := hkey
    simp only [List.append_assoc, List.cons_append]
    rw [run_keySeparator hsep, run_unitsText hk]
    show run .colon _ _ = _
    rw [run_colon hbs hbs', hms.1.run (hmore.follows r)]
    exact ih hms.2

end Skip

/-- A value is skipped to its end. -/
theorem ValueText.skipped {v : Input} (h : ValueText v) : Skipped v := by
  refine ⟨h.head, fun {stack r} hr => ?_⟩
  induction h generalizing stack r with
  | scalar h => exact Skip.run_scalarText h hr
  | string h =>
    obtain ⟨u, rfl, hu⟩ := h
    rw [List.cons_append, Skip.run_next (.string false) stack rfl, Skip.run_unitsText hu]
    rfl
  | @list vs u hu hvs ih =>
    rw [List.cons_append, Skip.run_next .opened (.list :: stack) rfl]
    exact Skip.run_itemsText hu (fun v hv => ⟨(hvs v hv).head, ih v hv⟩) stack r
  | @object ms u hu hms ih =>
    rw [List.cons_append, Skip.run_next .opened (.object :: stack) rfl]
    exact Skip.run_memberTexts hu (fun m hm => ⟨(hms m hm).head, ih m hm⟩) stack r

/-- So is what is skipped on its own. -/
theorem Skipped.skipValue {v : Input} (h : Skipped v) {bs r : Input} (hbs : IsBlanks bs) (hr : Follows r) :
    skipValue (bs ++ (v ++ r)) = .ok r := by
  rw [Json.skipValue, (Skip.idles_value []).run_append hbs, h.run hr, Skip.run_after_nil]

/-! ## Objects are laid out in one way -/

/-- The key of the next member, the text from its value on, and the text from after the value on. -/
def nextMember (first : Bool) (s : Input) : Except Error (Option (String × Input × Input)) := do
  match ← atMember first s with
  | none => return none
  | some r =>
    let (key, r) ← readString r
    let r ← readColon r
    return some (key, skipBlanks r, ← skipValue r)

namespace MemberTexts

variable {first : Bool} {m : String × Input} {ms ms' : List (String × Input)} {u u' : Input}

theorem nextMember_nil (h : MemberTexts StringText first [] u) (r : Input) : nextMember first (u ++ r) = .ok none := by
  cases h with
  | nil hbs =>
    rw [List.append_assoc, nextMember, List.singleton_append, atMember_end hbs]
    rfl

theorem nextMember_cons (h : MemberTexts StringText first (m :: ms) u) (hm : ValueText m.2) (r : Input) :
    ∃ u', MemberTexts StringText false ms u' ∧
      nextMember first (u ++ r) = .ok (some (m.1, m.2 ++ (u' ++ r), u' ++ r)) := by
  cases h with
  | @cons first sep k bs bs' v u key ms hsep hkey hbs hbs' hmore =>
    obtain ⟨k, rfl, hname⟩ := stringText_iff.1 hkey
    have hskip := hm.skipped.skipValue hbs' (hmore.follows r)
    have hvalue : skipBlanks (bs' ++ (v ++ (u ++ r))) = v ++ (u ++ r) := by
      obtain ⟨c, t, rfl, hblank, -⟩ := hm.head
      exact skipBlanks_append hbs' hblank _
    refine ⟨u, hmore, ?_⟩
    simp [nextMember, atMember_key hsep, hname, readColon_colon hbs, hskip, hvalue]

/-- A text is laid out as members in one way. -/
theorem unique (h : MemberTexts StringText first ms u) (hms : ∀ m ∈ ms, ValueText m.2)
    (h' : MemberTexts StringText first ms' u') (hms' : ∀ m ∈ ms', ValueText m.2) {r r' : Input}
    (htext : u ++ r = u' ++ r') : ms = ms' := by
  induction ms generalizing first ms' u u' with
  | nil =>
    cases ms' with
    | nil => rfl
    | cons m' ms' =>
      obtain ⟨_, -, hnext⟩ := h'.nextMember_cons (hms' m' List.mem_cons_self) r'
      rw [← htext, h.nextMember_nil] at hnext
      cases hnext
  | cons m ms ih =>
    rw [List.forall_mem_cons] at hms
    obtain ⟨u₁, hmore, hnext⟩ := h.nextMember_cons hms.1 r
    cases ms' with
    | nil =>
      rw [htext, h'.nextMember_nil] at hnext
      cases hnext
    | cons m' ms' =>
      rw [List.forall_mem_cons] at hms'
      obtain ⟨u₁', hmore', hnext'⟩ := h'.nextMember_cons hms'.1 r'
      rw [htext, hnext', Except.ok.injEq, Option.some.injEq, Prod.mk.injEq, Prod.mk.injEq] at hnext
      obtain ⟨hkey, hvalue, hrest⟩ := hnext
      rw [hrest] at hvalue
      rw [Prod.ext hkey.symm (List.append_cancel_right hvalue).symm, ih hmore hms.2 hmore' hms'.2 hrest.symm]

end MemberTexts

/-- A text is an object in one way, whatever comes after it. -/
theorem ObjectText.unique {t t' r r' : Input} {ms ms' : List (String × Input)} (h : ObjectText t ms)
    (h' : ObjectText t' ms') (htext : t ++ r = t' ++ r') : ms = ms' := by
  obtain ⟨u, rfl, hu, hms⟩ := h
  obtain ⟨u', rfl, hu', hms'⟩ := h'
  exact hu.unique hms hu' hms' (List.cons.inj htext).2

/-! ## What is skipped within something else -/

namespace Skip

/-- What a step does, and what it does with more lists and objects around it: the same, but that a value which has ended
is followed by what follows it there. -/
inductive Lifts (outer : List Frame) (c : Char) : Step → Step → Prop
  | next {state : State} {stack : List Frame} (hopened : state = .opened → stack ≠ []) :
    Lifts outer c (.next state stack) (.next state (stack ++ outer))
  | last : Lifts outer c .last (ended outer)
  | before : Lifts outer c .before (stepAfter outer c)
  | fail (e : Error) : Lifts outer c (.fail e) (.fail e)

section Lifts

variable {state : State} {stack : List Frame} {outer : List Frame} {c : Char}

/-- Where the character decides what is done, it decides alike. -/
theorem Lifts.ite {p : Prop} [Decidable p] {own all own' all' : Step} (h : Lifts outer c own all)
    (h' : Lifts outer c own' all') : Lifts outer c (if p then own else own') (if p then all else all') := by
  split
  · exact h
  · exact h'

theorem lifts_ended (stack : List Frame) : Lifts outer c (ended stack) (ended (stack ++ outer)) := by
  cases stack with
  | nil => exact .last
  | cons f stack => exact .next nofun

theorem lifts_stepAfter (stack : List Frame) : Lifts outer c (stepAfter stack c) (stepAfter (stack ++ outer) c) := by
  cases stack with
  | nil => exact .before
  | cons f stack =>
    have hopened {state : State} : state = .opened → f :: stack ≠ [] := fun _ => List.cons_ne_nil f stack
    exact .ite (.next hopened) (.ite (.next hopened) (.ite (lifts_ended stack) (.fail _)))

theorem lifts_stepWholeEnd (stack : List Frame) :
    Lifts outer c (stepWholeEnd stack c) (stepWholeEnd (stack ++ outer) c) :=
  .ite (.next nofun) (.ite (.next nofun) (lifts_stepAfter stack))

theorem lifts_stepValue (stack : List Frame) : Lifts outer c (stepValue stack c) (stepValue (stack ++ outer) c) := by
  have hopened (f : Frame) : State.opened = .opened → f :: stack ≠ [] := fun _ => List.cons_ne_nil f stack
  unfold stepValue
  refine .ite (.next nofun) (.ite (.next (hopened .list)) (.ite (.next (hopened .object)) ?_))
  -- No other value opens anything.
  iterate 7 refine .ite (.next nofun) ?_
  exact .fail _

theorem lifts_stepKey (stack : List Frame) : Lifts outer c (stepKey stack c) (stepKey (stack ++ outer) c) :=
  .ite (.next nofun) (.ite (.next nofun) (.fail _))

theorem lifts_stepOpened (hstack : stack ≠ []) :
    Lifts outer c (stepOpened stack c) (stepOpened (stack ++ outer) c) := by
  cases stack with
  | nil => exact absurd rfl hstack
  | cons f stack =>
    have hkey : Lifts outer c (stepKey (f :: stack) c) (stepKey (f :: stack ++ outer) c) := lifts_stepKey (f :: stack)
    exact .ite (.next fun _ => hstack) (.ite (lifts_ended stack) (.ite hkey (lifts_stepValue (f :: stack))))

theorem lifts_step (hopened : state = .opened → stack ≠ []) (r : Input) :
    Lifts outer c (step state stack c r) (step state (stack ++ outer) c r) := by
  cases state with
  | value => exact lifts_stepValue stack
  | opened => exact lifts_stepOpened (hopened rfl)
  | after => exact lifts_stepAfter stack
  | key => exact lifts_stepKey stack
  | colon => exact .ite (.next nofun) (.ite (.next nofun) (.fail _))
  | word w =>
    cases w with
    | nil => exact lifts_stepAfter stack
    | cons w ws => exact .ite (.fail _) (.ite (lifts_ended stack) (.next nofun))
  | string isKey =>
    refine .ite (.ite (.next nofun) (lifts_ended stack)) ?_
    exact .ite (.next nofun) (.ite (.fail _) (.next nofun))
  | escape isKey => exact .ite (.next nofun) (.ite (.fail _) (.ite (.fail _) (.next nofun)))
  | hex isKey n => exact .ite (.fail _) (.ite (.next nofun) (.next nofun))
  | minus => exact .ite (.next nofun) (.ite (.next nofun) (.fail _))
  | zero => exact .ite (.fail _) (lifts_stepWholeEnd stack)
  | whole => exact .ite (.next nofun) (lifts_stepWholeEnd stack)
  | point => exact .ite (.next nofun) (.fail _)
  | fraction => exact .ite (.next nofun) (.ite (.next nofun) (lifts_stepAfter stack))
  | exponent => exact .ite (.next nofun) (.ite (.next nofun) (.fail _))
  | exponentSign => exact .ite (.next nofun) (.fail _)
  | power => exact .ite (.next nofun) (lifts_stepAfter stack)

end Lifts

/-- Where a text may end on its own, it may end with more lists and objects around it that are closed later. -/
theorem run_nil_append {state : State} {stack : List Frame} {r : Input} (hopened : state = .opened → stack ≠ [])
    (h : run state stack [] = .ok r) (outer : List Frame) : run state (stack ++ outer) [] = run .after outer r := by
  have hend : atEnd state stack = .ok r := h
  have hafter (hstack : atEndAfter stack = .ok r) : stack = [] ∧ r = [] := by
    cases stack with
    | nil =>
      cases hstack
      exact ⟨rfl, rfl⟩
    | cons f stack => cases hstack
  -- In all states in which a text may end, its end means the same as after a value.
  cases state with
  | opened => exact absurd (hafter hend).1 (hopened rfl)
  | after =>
    obtain ⟨rfl, rfl⟩ := hafter hend
    rfl
  | zero =>
    obtain ⟨rfl, rfl⟩ := hafter hend
    rfl
  | whole =>
    obtain ⟨rfl, rfl⟩ := hafter hend
    rfl
  | fraction =>
    obtain ⟨rfl, rfl⟩ := hafter hend
    rfl
  | power =>
    obtain ⟨rfl, rfl⟩ := hafter hend
    rfl
  | _ => cases hend

/-- What is skipped on its own is skipped with more lists and objects around it. -/
theorem run_append {state : State} {stack : List Frame} {s r : Input} (hopened : state = .opened → stack ≠ [])
    (h : run state stack s = .ok r) (outer : List Frame) : run state (stack ++ outer) s = run .after outer r := by
  induction s generalizing state stack with
  | nil => exact run_nil_append hopened h outer
  | cons c s ih =>
    have hlifts : Lifts outer c (step state stack c s) (step state (stack ++ outer) c s) := lifts_step hopened s
    rw [run] at h
    generalize hown : step state stack c s = own at h hlifts
    generalize hall : step state (stack ++ outer) c s = all at hlifts
    cases hlifts with
    | next hopened =>
      rw [run_next _ _ hall]
      exact ih hopened h
    | last =>
      obtain rfl := Except.ok.inj h
      exact run_ended hall
    | before =>
      obtain rfl := Except.ok.inj h
      rw [run, run, hall]
      rfl
    | fail e => cases h

end Skip

end Peering.Json
