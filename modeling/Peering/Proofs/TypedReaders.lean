import Peering.Proofs.SkippedValues

/-!
# Readers of typed values

What typed readers do with the texts of the grammar, whatever else these hold.

* `Consumes`: a reader takes what skipping takes. This holds of the readers of strings, variants, lists and records
  (`consumes_readText`, `consumes_readVariant`, `Consumes.list`, `consumes_record`), so after a value that they accept
  they have left what comes after the value (`Consumes.eq_rest`);
* `ObjectText.reads`: a record is read from an object whose known members fill its fields (`Fills`) and whose other
  members are any values.
-/

namespace Peering.Json

/-! ## What readers take -/

/-- What the reader takes is what skipping takes, whatever it makes of it. -/
def Consumes {α : Type} (item : Reader α) : Prop :=
  ∀ s x r, item s = .ok (x, r) → ∀ stack, Skip.run .value stack s = Skip.run .after stack r

section Readers

open Skip

variable {α : Type} {item : Reader α} {stack : List Frame} {s r : Input} {first : Bool}

/-- After a value that is skipped, a reader that takes what skipping takes has left what comes after the value. -/
theorem Consumes.eq_rest (h : Consumes item) {v : Input} (hv : Skipped v) (hr : Follows r) {x : α} {r' : Input}
    (hread : item (v ++ r) = .ok (x, r')) : r' = r := by
  have hrun := h _ _ _ hread []
  rw [hv.run hr, run_after_nil, run_after_nil] at hrun
  exact (Except.ok.inj hrun).symm

/-- A reader that makes something of what another one reads, or refuses it. -/
def refined {β : Type} (item : Reader α) (f : α → Except Error β) : Reader β := fun s => do
  let (x, r) ← item s
  return (← f x, r)

theorem refined_eq_ok_iff {β : Type} {f : α → Except Error β} {y : β} :
    refined item f s = .ok (y, r) ↔ ∃ x, item s = .ok (x, r) ∧ f x = .ok y := by
  constructor
  · intro h
    obtain ⟨⟨x, t⟩, hx, h⟩ := bind_eq_ok.1 h
    obtain ⟨z, hz, h⟩ := bind_eq_ok.1 h
    obtain ⟨rfl, rfl⟩ : z = y ∧ t = r := by simpa using h
    exact ⟨x, hx, hz⟩
  · rintro ⟨x, hx, hy⟩
    simp [refined, hx, hy]

theorem Consumes.refined {β : Type} (h : Consumes item) (f : α → Except Error β) : Consumes (refined item f) := by
  intro s y r hread
  obtain ⟨x, hx, -⟩ := refined_eq_ok_iff.1 hread
  exact h _ _ _ hx

theorem Reads.refined {β : Type} {t : Input} {x : α} {y : β} {f : α → Except Error β} (h : Reads item t x)
    (hf : f x = .ok y) : Reads (refined item f) t y :=
  h.map fun _ _ hread => refined_eq_ok_iff.2 ⟨x, hread, hf⟩

theorem run_of_skipValue (h : skipValue s = .ok r) (stack : List Frame) :
    run .value stack s = run .after stack r := by
  have hopened : State.value = .opened → ([] : List Frame) ≠ [] := nofun
  exact run_append hopened h stack

/-! ### Strings and variants -/

theorem run_of_readString {t : String} (h : readString s = .ok (t, r)) (isKey : Bool) (stack : List Frame) :
    run (.string isKey) stack s = run (afterString isKey) stack r := by
  obtain ⟨u, rfl, hu⟩ := readString_eq_ok_iff.1 h
  exact run_unitsText hu.unitsText r

/-- Reading a string takes the string. -/
theorem consumes_readText (wanted : String) : Consumes (readText wanted) := by
  intro s t r h stack
  rw [← (idles_value stack).run_skipBlanks s]
  unfold readText at h
  split at h
  · rename_i u hu
    rw [hu, run_next (.string false) stack rfl]
    exact run_of_readString h false stack
  · cases h

theorem readWord_eq_ok {w : Input} (h : readWord w s = .ok r) : s = w ++ r := by
  induction w generalizing s with
  | nil => exact Except.ok.inj h
  | cons c w ih =>
    obtain _ | ⟨d, s⟩ := s
    · cases h
    rw [readWord] at h
    split at h
    · rename_i hd
      rw [hd, ih h, List.cons_append]
    · cases h

theorem run_of_readNull {wanted : String} (h : readNull wanted s = .ok r) (stack : List Frame) :
    run .value stack s = run .after stack r := by
  rw [← (idles_value stack).run_skipBlanks s]
  unfold readNull at h
  split at h
  · rename_i u hu
    rw [hu, readWord_eq_ok h, run_next (.word ['u', 'l', 'l']) stack rfl, run_word (by decide)]
  · cases h

theorem run_of_readColon (h : readColon s = .ok r) (stack : List Frame) : run .colon stack s = run .value stack r := by
  rw [← (idles_colon stack).run_skipBlanks s]
  unfold readColon at h
  split at h
  · cases h
  · rename_i c u hu
    split at h
    · rename_i hc
      obtain rfl := Except.ok.inj h
      rw [hu, hc]
      exact run_next .value _ rfl
    · cases h

theorem run_of_atMember (h : atMember first s = .ok (some r)) (stack : List Frame) :
    run (between first) (.object :: stack) s = run (.string true) (.object :: stack) r := by
  rw [← (idles_between first .object stack).run_skipBlanks s]
  unfold atMember at h
  split at h
  · cases h
  rename_i c u hu
  rw [hu]
  split at h
  · cases h
  cases first with
  | true =>
    simp only [if_true] at h
    split at h
    · rename_i hc
      obtain rfl := Option.some.inj (Except.ok.inj h)
      rw [hc]
      exact run_next (.string true) _ rfl
    · cases h
  | false =>
    simp only [Bool.false_eq_true, if_false] at h
    split at h
    · rename_i hc
      rw [hc, between, if_neg (by decide), run_next .key (.object :: stack) rfl,
        ← (idles_key _).run_skipBlanks u]
      split at h
      · cases h
      rename_i d t ht
      rw [ht]
      split at h
      · rename_i hd
        obtain rfl := Option.some.inj (Except.ok.inj h)
        rw [hd]
        exact run_next (.string true) _ rfl
      · split at h <;> cases h
    · cases h

/-- The end of an object closes it. -/
theorem run_of_brace {u : Input} (h : skipBlanks s = '}' :: u) (first : Bool) (stack : List Frame) :
    run (between first) (.object :: stack) s = run .after stack u := by
  rw [← (idles_between first .object stack).run_skipBlanks s, h]
  exact run_closing first .object stack u

/-- Reading a variant takes its name, or the object that it is the key of. -/
theorem consumes_readVariant (variants : List (String × α)) : Consumes (readVariant variants) := by
  intro s x r h stack
  rw [← (idles_value stack).run_skipBlanks s]
  unfold readVariant at h
  split at h
  · cases h
  rename_i c u hu
  rw [hu]
  split at h
  · rename_i hc
    obtain ⟨⟨name, t⟩, hname, h⟩ := bind_eq_ok.1 h
    obtain ⟨y, -, h⟩ := bind_eq_ok.1 h
    obtain ⟨-, rfl⟩ : y = x ∧ t = r := by simpa using h
    rw [hc, run_next (.string false) stack rfl]
    exact run_of_readString hname false stack
  split at h
  · rename_i hc
    obtain ⟨next, hnext, h⟩ := bind_eq_ok.1 h
    cases next with
    | none => cases h
    | some t =>
      obtain ⟨⟨name, t₁⟩, hname, h⟩ := bind_eq_ok.1 h
      obtain ⟨y, -, h⟩ := bind_eq_ok.1 h
      obtain ⟨t₂, hcolon, h⟩ := bind_eq_ok.1 h
      obtain ⟨t₃, hnull, h⟩ := bind_eq_ok.1 h
      split at h
      · cases h
      rename_i d t₄ hend
      split at h
      · rename_i hd
        obtain ⟨-, rfl⟩ : y = x ∧ t₄ = r := by simpa using h
        rw [hc, run_next .opened (.object :: stack) rfl]
        rw [hd] at hend
        calc run (between true) (.object :: stack) u
            = run .colon (.object :: stack) t₁ := by rw [run_of_atMember hnext, run_of_readString hname]; rfl
          _ = run .after (.object :: stack) t₃ := by rw [run_of_readColon hcolon, run_of_readNull hnull]
          _ = run .after stack t₄ := run_of_brace hend false stack
      · cases h
  · cases h

/-! ### Lists -/

theorem run_of_readListEnd (h : readListEnd s = .ok r) (first : Bool) (stack : List Frame) :
    run (between first) (.list :: stack) s = run .after stack r := by
  rw [← (idles_between first .list stack).run_skipBlanks s]
  unfold readListEnd at h
  split at h
  · cases h
  rename_i c u hu
  split at h
  · rename_i hc
    obtain rfl := Except.ok.inj h
    rw [hu, hc]
    exact run_closing first .list stack u
  · split at h <;> cases h

theorem run_of_atElement {more : Bool} (h : atElement first s = .ok (more, r)) (stack : List Frame) :
    run (between first) (.list :: stack) s =
      run (if more then .value else between first) (.list :: stack) r := by
  rw [← (idles_between first .list stack).run_skipBlanks s]
  unfold atElement at h
  split at h
  · cases h
  rename_i c u hu
  have hblank : isBlank c = false := by
    have := List.head?_dropWhile_not isBlank s
    rw [show s.dropWhile isBlank = c :: u from hu] at this
    simpa using this
  rw [hu]
  split at h
  · cases h
    rfl
  rename_i hend
  cases first with
  | true =>
    cases h
    have hsep : Separates true [] := .first isBlanks_nil
    exact run_separator hsep hblank hend
  | false =>
    simp only [Bool.false_eq_true, if_false] at h
    split at h
    · rename_i hc
      rw [hc, between, if_neg (by decide), run_next .value (.list :: stack) rfl,
        ← (idles_value _).run_skipBlanks u]
      split at h
      · cases h
      rename_i d t ht
      split at h
      · cases h
      · cases h
        rw [ht]
        rfl
    · cases h

/-- Reading elements up to the end of a list takes them, if reading each takes it. -/
theorem Consumes.run_of_readElements (h : Consumes item) {fuel : Nat} {xs : List α} {t : Input}
    (hread : readElements item fuel first s = .ok (xs, t)) (hend : readListEnd t = .ok r) (stack : List Frame) :
    run (between first) (.list :: stack) s = run .after stack r := by
  induction fuel generalizing first s xs with
  | zero => cases hread
  | succ fuel ih =>
    rw [readElements] at hread
    obtain ⟨⟨more, s₁⟩, hmore, hread⟩ := bind_eq_ok.1 hread
    rw [run_of_atElement hmore]
    cases more with
    | false =>
      obtain ⟨-, rfl⟩ : [] = xs ∧ s₁ = t := by simpa using hread
      exact run_of_readListEnd hend first stack
    | true =>
      obtain ⟨⟨x, s₂⟩, hx, hread⟩ := bind_eq_ok.1 hread
      obtain ⟨⟨ys, s₃⟩, hys, hread⟩ := bind_eq_ok.1 hread
      obtain ⟨-, rfl⟩ : x :: ys = xs ∧ s₃ = t := by simpa using hread
      rw [if_pos rfl, h _ _ _ hx]
      exact ih hys

/-- Reading a list takes the list. -/
theorem Consumes.list (h : Consumes item) : Consumes (readList item) := by
  intro s xs r hread stack
  rw [← (idles_value stack).run_skipBlanks s]
  unfold readList at hread
  split at hread
  · rename_i u hu
    obtain ⟨⟨ys, t⟩, hys, hread⟩ := bind_eq_ok.1 hread
    obtain ⟨t', hend, hread⟩ := bind_eq_ok.1 hread
    obtain ⟨-, rfl⟩ : ys = xs ∧ t' = r := by simpa using hread
    rw [hu, run_next .opened (.list :: stack) rfl]
    exact h.run_of_readElements hys hend stack
  · cases hread

/-! ### Records -/

variable {δ : Type} {fields : List (RecordField δ)}

/-- A field whose values are read by `item` and put into the draft. -/
def valueField (name : String) (isSet : δ → Bool) (item : Reader α) (put : δ → α → δ) : RecordField δ :=
  ⟨name, isSet, fun d => refined item fun x => .ok (put d x)⟩

theorem valueField_read (name : String) (isSet : δ → Bool) (item : Reader α) (put : δ → α → δ) (d : δ) :
    (valueField name isSet item put).read d = refined item fun x => .ok (put d x) :=
  rfl

theorem Consumes.valueField {name : String} {isSet : δ → Bool} {put : δ → α → δ} (h : Consumes item) (d : δ) :
    Consumes ((Json.valueField name isSet item put).read d) := by
  rw [valueField_read]
  exact h.refined _

theorem run_of_readObjectEnd (h : readObjectEnd s = .ok r) (first : Bool) (stack : List Frame) :
    run (between first) (.object :: stack) s = run .after stack r := by
  unfold readObjectEnd at h
  split at h
  · cases h
  rename_i c u hu
  split at h
  · rename_i hc
    obtain rfl := Except.ok.inj h
    exact run_of_brace (hc ▸ hu) first stack
  · split at h <;> cases h

theorem run_of_readMember {key : String} {draft draft' : δ} (hfields : ∀ f ∈ fields, ∀ d, Consumes (f.read d))
    (h : readMember fields key draft s = .ok (draft', r)) (stack : List Frame) :
    run .colon stack s = run .after stack r := by
  unfold readMember at h
  split at h
  · rename_i f hf
    have hread : ∃ t, readColon s = .ok t ∧ f.read draft t = .ok (draft', r) := by
      split at h
      · cases h
      · obtain ⟨t, ht, h⟩ := bind_eq_ok.1 h
        exact ⟨t, ht, h⟩
    obtain ⟨t, ht, h⟩ := hread
    rw [run_of_readColon ht, hfields f (List.mem_of_find?_eq_some hf) draft _ _ _ h]
  · obtain ⟨t, ht, h⟩ := bind_eq_ok.1 h
    obtain ⟨t', hskip, h⟩ := bind_eq_ok.1 h
    obtain ⟨-, rfl⟩ : draft = draft' ∧ t' = r := by simpa using h
    rw [run_of_readColon ht, run_of_skipValue hskip]

theorem run_of_readMembers (hfields : ∀ f ∈ fields, ∀ d, Consumes (f.read d)) {fuel : Nat} {draft draft' : δ}
    {t : Input} (h : readMembers fields fuel first draft s = .ok (draft', t)) (hend : readObjectEnd t = .ok r)
    (stack : List Frame) : run (between first) (.object :: stack) s = run .after stack r := by
  induction fuel generalizing first s draft with
  | zero => cases h
  | succ fuel ih =>
    rw [readMembers] at h
    obtain ⟨next, hnext, h⟩ := bind_eq_ok.1 h
    cases next with
    | none =>
      obtain ⟨-, rfl⟩ : draft = draft' ∧ s = t := by simpa using h
      exact run_of_readObjectEnd hend first stack
    | some s₁ =>
      obtain ⟨⟨key, s₂⟩, hkey, h⟩ := bind_eq_ok.1 h
      obtain ⟨⟨d, s₃⟩, hmember, h⟩ := bind_eq_ok.1 h
      rw [run_of_atMember hnext, run_of_readString hkey]
      show run .colon _ _ = _
      rw [run_of_readMember hfields hmember]
      exact ih h

theorem run_of_readPositions (hfields : ∀ f ∈ fields, ∀ d, Consumes (f.read d)) {draft draft' : δ} {t : Input}
    (h : readPositions fields first draft s = .ok (draft', t)) (hend : readListEnd t = .ok r) (stack : List Frame) :
    run (between first) (.list :: stack) s = run .after stack r := by
  induction fields generalizing first s draft with
  | nil =>
    obtain ⟨-, rfl⟩ : draft = draft' ∧ s = t := by simpa [readPositions] using h
    exact run_of_readListEnd hend first stack
  | cons f fields ih =>
    rw [readPositions] at h
    obtain ⟨⟨more, s₁⟩, hmore, h⟩ := bind_eq_ok.1 h
    rw [run_of_atElement hmore]
    cases more with
    | false =>
      obtain ⟨-, rfl⟩ : draft = draft' ∧ s₁ = t := by simpa using h
      exact run_of_readListEnd hend first stack
    | true =>
      obtain ⟨⟨d, s₂⟩, hd, h⟩ := bind_eq_ok.1 h
      rw [if_pos rfl, hfields f List.mem_cons_self draft _ _ _ hd]
      exact ih (fun g hg => hfields g (List.mem_cons_of_mem f hg)) h

/-- Reading a record takes the record, be it an object or a list. -/
theorem consumes_record (wanted : String) (hfields : ∀ f ∈ fields, ∀ d, Consumes (f.read d)) (empty : δ) :
    Consumes (readRecord wanted fields empty) := by
  intro s x r h stack
  rw [← (idles_value stack).run_skipBlanks s]
  unfold readRecord at h
  split at h
  · rename_i u hu
    obtain ⟨⟨d, t⟩, hd, h⟩ := bind_eq_ok.1 h
    obtain ⟨t', hend, h⟩ := bind_eq_ok.1 h
    obtain ⟨-, rfl⟩ : d = x ∧ t' = r := by simpa using h
    rw [hu, run_next .opened (.object :: stack) rfl]
    exact run_of_readMembers hfields hd hend stack
  · rename_i u hu
    obtain ⟨⟨d, t⟩, hd, h⟩ := bind_eq_ok.1 h
    obtain ⟨t', hend, h⟩ := bind_eq_ok.1 h
    obtain ⟨-, rfl⟩ : d = x ∧ t' = r := by simpa using h
    rw [hu, run_next .opened (.list :: stack) rfl]
    exact run_of_readPositions hfields hd hend stack
  · cases h

end Readers

/-! ## Records from objects -/

section Fields

variable {δ : Type} {fields : List (RecordField δ)}

/-- How the members of an object change a draft: each known one fills its field, and the others do nothing. -/
inductive Drafted (fields : List (RecordField δ)) : δ → List (String × Input) → δ → Prop
  | nil (draft : δ) : Drafted fields draft [] draft
  | known {key : String} {v : Input} {ms : List (String × Input)} {f : RecordField δ} {draft draft' last : δ}
    (hf : fields.find? (·.name == key) = some f) (hset : f.isSet draft = false) (hv : Reads (f.read draft) v draft')
    (hms : Drafted fields draft' ms last) : Drafted fields draft ((key, v) :: ms) last
  | unknown {key : String} {v : Input} {ms : List (String × Input)} {draft last : δ}
    (hf : fields.find? (·.name == key) = none) (hms : Drafted fields draft ms last) :
    Drafted fields draft ((key, v) :: ms) last

/-- A member that is no field is skipped. -/
theorem readsMember_unknown {key : String} {draft : δ} (hf : fields.find? (·.name == key) = none) {bs bs' v : Input}
    (hbs : IsBlanks bs) (hbs' : IsBlanks bs') (hv : Skipped v) :
    ReadsMember fields key draft (bs ++ ':' :: (bs' ++ v)) draft := by
  intro r hr
  have hcolon : readColon (bs ++ ':' :: (bs' ++ (v ++ r))) = .ok (bs' ++ (v ++ r)) := readColon_colon hbs _
  simp [readMember, hf, hcolon, hv.skipValue hbs' hr]

theorem MemberTexts.membersText {first : Bool} {ms : List (String × Input)} {u : Input} {draft last : δ}
    (h : MemberTexts StringText first ms u) (hms : ∀ m ∈ ms, ValueText m.2) (hdraft : Drafted fields draft ms last) :
    MembersText fields first draft u last := by
  induction h generalizing draft with
  | nil hbs =>
    cases hdraft
    exact .nil hbs
  | @cons first sep k bs bs' v u key ms hsep hkey hbs hbs' hmore ih =>
    rw [List.forall_mem_cons] at hms
    have htext : bs ++ ':' :: (bs' ++ (v ++ u)) = (bs ++ ':' :: (bs' ++ v)) ++ u := by simp
    rw [htext]
    cases hdraft with
    | known hf hset hv hdraft => exact .cons hsep (stringText_iff.1 hkey) (readsMember_field hf hset hbs hbs' hv) (ih hms.2 hdraft)
    | unknown hf hdraft =>
      exact .cons hsep (stringText_iff.1 hkey) (readsMember_unknown hf hbs hbs' hms.1.skipped) (ih hms.2 hdraft)

/-- A record is read from an object, whatever else the object holds. -/
theorem ObjectText.reads {t : Input} {ms : List (String × Input)} {empty last : δ} (h : ObjectText t ms)
    (wanted : String) (hdraft : Drafted fields empty ms last) : Reads (readRecord wanted fields empty) t last := by
  obtain ⟨u, rfl, hu, hms⟩ := h
  exact reads_record wanted (hu.membersText hms hdraft)

/-! ### Three fields -/

/-- What the members of an object make of the value of a field: a member with the key of the field gives it a value that
it must not have yet. -/
def Fills {α : Type} (item : Reader α) (key : String) : List (String × Input) → Option α → Option α → Prop
  | [], x, y => x = y
  | (k, v) :: ms, x, y =>
    if k = key then x = none ∧ ∃ z, Reads item v z ∧ Fills item key ms (some z) y else Fills item key ms x y

theorem fills_of_not_mem {α : Type} {item : Reader α} {key : String} {ms : List (String × Input)}
    (h : key ∉ ms.map Prod.fst) (x : Option α) : Fills item key ms x x := by
  induction ms with
  | nil => rfl
  | cons m ms ih =>
    obtain ⟨k, v⟩ := m
    obtain ⟨hk, hms⟩ : key ≠ k ∧ key ∉ ms.map Prod.fst := by simpa using h
    rw [Fills, if_neg (Ne.symm hk)]
    exact ih hms

theorem not_mem_of_count_le {key : String} {keys : List String} (h : (key :: keys).count key ≤ 1) : key ∉ keys := by
  rw [List.count_cons_self] at h
  rw [← List.count_eq_zero]
  omega

/-- A field whose key comes once gets the value that comes with the key. -/
theorem fills_of_mem {α : Type} {item : Reader α} {key : String} {v : Input} {ms : List (String × Input)} {x : α}
    (honce : (ms.map Prod.fst).count key ≤ 1) (hv : (key, v) ∈ ms) (hx : Reads item v x) :
    Fills item key ms none (some x) := by
  induction ms with
  | nil => cases hv
  | cons m ms ih =>
    obtain ⟨k, w⟩ := m
    rw [List.mem_cons, Prod.mk.injEq] at hv
    by_cases hk : k = key
    · subst hk
      have hmore : k ∉ ms.map Prod.fst := not_mem_of_count_le honce
      rcases hv with ⟨-, rfl⟩ | hv
      · rw [Fills, if_pos rfl]
        exact ⟨rfl, x, hx, fills_of_not_mem hmore (some x)⟩
      · exact absurd (List.mem_map_of_mem hv) hmore
    · rw [Fills, if_neg hk]
      rcases hv with ⟨rfl, -⟩ | hv
      · exact absurd rfl hk
      · rw [List.map_cons, List.count_cons] at honce
        exact ih ((Nat.le_add_right _ _).trans honce) hv

/-- A field of a draft, apart from the other fields: `put` is the draft by the value of the field. -/
def FieldReads {α : Type} (fields : List (RecordField δ)) (key : String) (item : Reader α) (put : Option α → δ) : Prop :=
  ∃ f, fields.find? (·.name == key) = some f ∧ f.isSet (put none) = false ∧
    ∀ v x, Reads item v x → Reads (f.read (put none)) v (put (some x))

theorem fieldReads_valueField {α : Type} {key : String} {isSet : δ → Bool} {item : Reader α} {set : δ → α → δ}
    {put : Option α → δ} (hf : fields.find? (·.name == key) = some (valueField key isSet item set))
    (hset : isSet (put none) = false) (hput : ∀ x, set (put none) x = put (some x)) :
    FieldReads fields key item put := by
  refine ⟨_, hf, hset, fun v x hv => ?_⟩
  rw [valueField_read, ← hput]
  exact hv.refined rfl

variable {α β γ : Type}

/-- The fields are these three, each of which is read apart from the others. -/
structure ThreeFields (fields : List (RecordField δ)) (a b c : String) (itemA : Reader α) (itemB : Reader β)
    (itemC : Reader γ) (make : Option α → Option β → Option γ → δ) : Prop where
  first : ∀ y z, FieldReads fields a itemA fun x => make x y z
  second : ∀ x z, FieldReads fields b itemB fun y => make x y z
  third : ∀ x y, FieldReads fields c itemC fun z => make x y z
  other : ∀ key, key ≠ a → key ≠ b → key ≠ c → fields.find? (·.name == key) = none
  distinct : [a, b, c].Nodup

namespace ThreeFields

variable {a b c : String} {itemA : Reader α} {itemB : Reader β} {itemC : Reader γ}
  {make : Option α → Option β → Option γ → δ} {ms : List (String × Input)}

/-- Three fields are drafted field by field. -/
theorem drafted (h : ThreeFields fields a b c itemA itemB itemC make) {x x' : Option α} {y y' : Option β}
    {z z' : Option γ} (hx : Fills itemA a ms x x') (hy : Fills itemB b ms y y') (hz : Fills itemC c ms z z') :
    Drafted fields (make x y z) ms (make x' y' z') := by
  obtain ⟨hab, hac, hbc⟩ : a ≠ b ∧ a ≠ c ∧ b ≠ c := by
    have hdistinct := h.distinct
    simp only [List.nodup_cons, List.mem_cons, List.not_mem_nil, or_false, not_or] at hdistinct
    exact ⟨hdistinct.1.1, hdistinct.1.2, hdistinct.2.1⟩
  induction ms generalizing x y z with
  | nil =>
    obtain rfl : x = x' := hx
    obtain rfl : y = y' := hy
    obtain rfl : z = z' := hz
    exact .nil _
  | cons m ms ih =>
    obtain ⟨key, v⟩ := m
    rw [Fills] at hx hy hz
    by_cases hka : key = a
    · subst hka
      rw [if_pos rfl] at hx
      rw [if_neg hab] at hy
      rw [if_neg hac] at hz
      obtain ⟨rfl, w, hw, hx⟩ := hx
      obtain ⟨f, hf, hset, hread⟩ := h.first y z
      exact .known hf hset (hread v w hw) (ih hx hy hz)
    by_cases hkb : key = b
    · subst hkb
      rw [if_neg hka] at hx
      rw [if_pos rfl] at hy
      rw [if_neg hbc] at hz
      obtain ⟨rfl, w, hw, hy⟩ := hy
      obtain ⟨f, hf, hset, hread⟩ := h.second x z
      exact .known hf hset (hread v w hw) (ih hx hy hz)
    by_cases hkc : key = c
    · subst hkc
      rw [if_neg hka] at hx
      rw [if_neg hkb] at hy
      rw [if_pos rfl] at hz
      obtain ⟨rfl, w, hw, hz⟩ := hz
      obtain ⟨f, hf, hset, hread⟩ := h.third x y
      exact .known hf hset (hread v w hw) (ih hx hy hz)
    · rw [if_neg hka] at hx
      rw [if_neg hkb] at hy
      rw [if_neg hkc] at hz
      exact .unknown (h.other key hka hkb hkc) (ih hx hy hz)

end ThreeFields

end Fields

end Peering.Json
