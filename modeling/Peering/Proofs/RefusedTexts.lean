import Peering.Proofs.TypedReaders

/-!
# Texts that are refused

A text is refused by a reader that does not get past it (`Refuses`). Since a reader takes what skipping takes, a list or
an object with one part that is refused is refused, whatever its other parts are (`ListText.refuses`,
`ObjectText.refuses`), and so is a document of it (`Refuses.document`).

`MisfitText`, `MisfitList` and `MisfitObject` are texts that hold something of no use: a scalar in the place of a string,
a list or an object, or a part that is refused.
-/

namespace Peering.Json

/-- A text that the reader does not get past. -/
def Refuses {α : Type} (item : Reader α) (v : Input) : Prop :=
  ∀ bs r, IsBlanks bs → Follows r → ∀ x r', item (bs ++ (v ++ r)) ≠ .ok (x, r')

/-- A scalar, or a string of which something holds. -/
inductive MisfitText (Bad : String → Prop) : Input → Prop
  | scalar {t : Input} (ht : ScalarText t) : MisfitText Bad t
  | string {t : Input} {s : String} (ht : StringText t s) (hs : Bad s) : MisfitText Bad t

/-- A scalar, or a list with an item of which something holds. -/
inductive MisfitList (Bad : Input → Prop) : Input → Prop
  | scalar {t : Input} (ht : ScalarText t) : MisfitList Bad t
  | item {t v : Input} {vs : List Input} (ht : ListText t vs) (hv : v ∈ vs) (hbad : Bad v) : MisfitList Bad t

/-- A scalar, or an object with a member of which something holds. -/
inductive MisfitObject (Bad : String → Input → Prop) : Input → Prop
  | scalar {t : Input} (ht : ScalarText t) : MisfitObject Bad t
  | member {t v : Input} {key : String} {ms : List (String × Input)} (ht : ObjectText t ms) (hm : (key, v) ∈ ms)
    (hbad : Bad key v) : MisfitObject Bad t

section Refuses

variable {α β : Type} {item : Reader α} {v : Input}

/-- A reader that goes no further than another does not get past what the other does not get past. -/
theorem Refuses.of_reads (h : Refuses item v) {other : Reader β}
    (hother : ∀ s y r, other s = .ok (y, r) → ∃ x r', item s = .ok (x, r')) : Refuses other v := by
  intro bs r hbs hr y r' hread
  obtain ⟨x, r', hitem⟩ := hother _ _ _ hread
  exact h bs r hbs hr x r' hitem

theorem Refuses.refined (h : Refuses item v) (f : α → Except Error β) : Refuses (refined item f) v :=
  h.of_reads fun s y r hread => by
    obtain ⟨x, hx, -⟩ := refined_eq_ok_iff.1 hread
    exact ⟨x, r, hx⟩

theorem Refuses.valueField {δ : Type} {name : String} {isSet : δ → Bool} {put : δ → α → δ} (h : Refuses item v) (d : δ) :
    Refuses ((Json.valueField name isSet item put).read d) v := by
  rw [valueField_read]
  exact h.refined _

theorem refuses_of_head {c : Char} {t : Input} (hblank : isBlank c = false)
    (h : ∀ s u x r', skipBlanks s = c :: u → item s ≠ .ok (x, r')) : Refuses item (c :: t) := by
  intro bs r hbs _ x r'
  exact h _ (t ++ r) x r' (by rw [List.cons_append, skipBlanks_append hbs hblank])

/-! ## Scalars and strings -/

/-- No string is a scalar. -/
theorem ScalarText.refuses_readText (h : ScalarText v) (wanted : String) : Refuses (readText wanted) v := by
  obtain ⟨c, t, rfl, hblank, hquote, -, -, -⟩ := h.head
  refine refuses_of_head hblank fun s u x r' hs hread => ?_
  unfold readText at hread
  split at hread
  · rename_i hu
    exact hquote (List.cons.inj (hs.symm.trans hu)).1
  · cases hread

/-- No variant is a scalar. -/
theorem ScalarText.refuses_readVariant (h : ScalarText v) (variants : List (String × α)) :
    Refuses (readVariant variants) v := by
  obtain ⟨c, t, rfl, hblank, hquote, -, hbrace, -⟩ := h.head
  refine refuses_of_head hblank fun s u x r' hs hread => ?_
  rw [readVariant, hs] at hread
  simp only [if_neg hquote, if_neg hbrace] at hread
  cases hread

/-- No list is a scalar. -/
theorem ScalarText.refuses_readList (h : ScalarText v) (item : Reader α) : Refuses (readList item) v := by
  obtain ⟨c, t, rfl, hblank, -, hbracket, -, -⟩ := h.head
  refine refuses_of_head hblank fun s u x r' hs hread => ?_
  unfold readList at hread
  split at hread
  · rename_i hu
    exact hbracket (List.cons.inj (hs.symm.trans hu)).1
  · cases hread

/-- No record is a scalar. -/
theorem ScalarText.refuses_readRecord {δ : Type} (h : ScalarText v) (wanted : String) (fields : List (RecordField δ))
    (empty : δ) : Refuses (readRecord wanted fields empty) v := by
  obtain ⟨c, t, rfl, hblank, -, hbracket, hbrace, -⟩ := h.head
  refine refuses_of_head hblank fun s u x r' hs hread => ?_
  unfold readRecord at hread
  split at hread
  · rename_i hu
    exact hbrace (List.cons.inj (hs.symm.trans hu)).1
  · rename_i hu
    exact hbracket (List.cons.inj (hs.symm.trans hu)).1
  · cases hread

/-- What a reader does with a string depends on what the string says. -/
theorem StringText.refuses {s : String} (h : StringText v s)
    (hitem : ∀ t u r, skipBlanks t = '"' :: u → readString u = .ok (s, r) → ∀ x r', item t ≠ .ok (x, r')) :
    Refuses item v := by
  obtain ⟨u, rfl, hu⟩ := h
  intro bs r hbs _
  exact hitem _ (u ++ r) r (skipBlanks_append hbs rfl (u ++ r)) (readString_eq_ok_iff.2 ⟨u, rfl, hu⟩)

/-- A string of which nothing can be made is refused. -/
theorem StringText.refuses_refined {s : String} (h : StringText v s) (wanted : String) {f : String → Except Error β}
    (hf : ∀ y, f s ≠ .ok y) : Refuses (Json.refined (readText wanted) f) v := by
  refine h.refuses fun t u r ht hu y r' hread => ?_
  obtain ⟨x, hx, hy⟩ := refined_eq_ok_iff.1 hread
  rw [readText, ht] at hx
  obtain rfl : s = x := congrArg Prod.fst (Except.ok.inj (hu.symm.trans hx))
  exact hf y hy

/-- A string that names no variant is refused. -/
theorem StringText.refuses_readVariant {s : String} (h : StringText v s) {variants : List (String × α)}
    (hs : ∀ x, variantOfName variants s ≠ .ok x) : Refuses (readVariant variants) v := by
  refine h.refuses fun t u r ht hu x r' hread => ?_
  rw [readVariant, ht] at hread
  simp only [if_true, hu, ok_bind] at hread
  obtain ⟨y, hy, -⟩ := bind_eq_ok.1 hread
  exact hs y hy

/-! ## Lists -/

/-- Items of each of which something can be made are read as what is made of them. -/
theorem readElements_refined {f : α → Except Error β} {fuel : Nat} {first : Bool} {s r : Input} {xs : List α}
    (h : readElements item fuel first s = .ok (xs, r)) (hf : ∀ x ∈ xs, ∃ y, f x = .ok y) :
    ∃ ys, readElements (refined item f) fuel first s = .ok (ys, r) := by
  induction fuel generalizing first s xs with
  | zero => cases h
  | succ fuel ih =>
    rw [readElements] at h ⊢
    obtain ⟨⟨more, s₁⟩, hmore, h⟩ := bind_eq_ok.1 h
    simp only [hmore, ok_bind]
    cases more with
    | false =>
      obtain ⟨-, rfl⟩ : [] = xs ∧ s₁ = r := by simpa using h
      exact ⟨[], rfl⟩
    | true =>
      obtain ⟨⟨x, s₂⟩, hx, h⟩ := bind_eq_ok.1 h
      obtain ⟨⟨xs', s₃⟩, hxs, h⟩ := bind_eq_ok.1 h
      obtain ⟨rfl, rfl⟩ : x :: xs' = xs ∧ s₃ = r := by simpa using h
      rw [List.forall_mem_cons] at hf
      obtain ⟨y, hy⟩ := hf.1
      obtain ⟨ys, hys⟩ := ih hxs hf.2
      have hitem : refined item f s₁ = .ok (y, s₂) := refined_eq_ok_iff.2 ⟨x, hx, hy⟩
      exact ⟨y :: ys, by simp [hitem, hys]⟩

/-- What refuses the items of a list one by one refuses them together. -/
theorem Refuses.refined_list {γ : Type} {f : α → Except Error β} (h : Refuses (readList (Json.refined item f)) v)
    {g : List α → Except Error γ} (hg : ∀ xs y, g xs = .ok y → ∀ x ∈ xs, ∃ y, f x = .ok y) :
    Refuses (Json.refined (readList item) g) v := by
  refine h.of_reads fun s y r hread => ?_
  obtain ⟨xs, hxs, hy⟩ := refined_eq_ok_iff.1 hread
  unfold readList at hxs ⊢
  split at hxs
  · obtain ⟨⟨xs', t⟩, helements, hxs⟩ := bind_eq_ok.1 hxs
    obtain ⟨t', hend, hxs⟩ := bind_eq_ok.1 hxs
    obtain ⟨rfl, rfl⟩ : xs' = xs ∧ t' = r := by simpa using hxs
    obtain ⟨ys, hys⟩ := readElements_refined helements (hg _ y hy)
    exact ⟨ys, t', by simp [hys, hend]⟩
  · cases hxs

/-- Items one of which the reader does not get past are not read. -/
theorem ItemsText.readElements_ne {first : Bool} {vs : List Input} {u : Input} (h : ItemsText first vs u)
    (hvs : ∀ v ∈ vs, ValueText v) (hitem : Consumes item) (hv : v ∈ vs) (hbad : Refuses item v) (fuel : Nat)
    (r : Input) (xs : List α) (r' : Input) : readElements item fuel first (u ++ r) ≠ .ok (xs, r') := by
  induction h generalizing fuel xs with
  | nil => cases hv
  | @cons first sep w u vs hsep hmore ih =>
    intro hread
    rw [List.forall_mem_cons] at hvs
    have hw := hvs.1.skipped
    obtain _ | fuel := fuel
    · cases hread
    rw [readElements, List.append_assoc, List.append_assoc, atElement_item hsep hw.head] at hread
    simp only [ok_bind, if_true] at hread
    obtain ⟨⟨x, s⟩, hx, hread⟩ := bind_eq_ok.1 hread
    obtain rfl : s = u ++ r := hitem.eq_rest hw (hmore.follows r) hx
    obtain ⟨⟨ys, s⟩, hys, hread⟩ := bind_eq_ok.1 hread
    obtain ⟨-, rfl⟩ : x :: ys = xs ∧ s = r' := by simpa using hread
    rcases List.mem_cons.1 hv with rfl | hv
    · exact hbad [] (u ++ r) isBlanks_nil (hmore.follows r) _ _ hx
    · exact ih hvs.2 hv fuel ys hys

/-- A list with an item that the reader does not get past is refused, whatever the other items are. -/
theorem ListText.refuses {t : Input} {vs : List Input} (h : ListText t vs) (hitem : Consumes item) (hv : v ∈ vs)
    (hbad : Refuses item v) : Refuses (readList item) t := by
  obtain ⟨u, rfl, hu, hvs⟩ := h
  intro bs r hbs _ xs r' hread
  rw [readList, List.cons_append, skipBlanks_append hbs rfl] at hread
  obtain ⟨⟨ys, s⟩, hys, -⟩ := bind_eq_ok.1 hread
  exact hu.readElements_ne hvs hitem hv hbad _ r ys s hys

theorem MisfitList.refuses {Bad : Input → Prop} (h : MisfitList Bad v) (hitem : Consumes item)
    (hbad : ∀ w, Bad w → Refuses item w) : Refuses (readList item) v := by
  cases h with
  | scalar ht => exact ht.refuses_readList item
  | item ht hv hw => exact ht.refuses hitem hv (hbad _ hw)

/-! ## Objects -/

variable {δ : Type} {fields : List (RecordField δ)}

/-- A member whose field does not get past its value is not read. -/
theorem readMember_ne {key : String} {draft : δ} {f : RecordField δ} (hf : fields.find? (·.name == key) = some f)
    (hbad : Refuses (f.read draft) v) {bs bs' r : Input} (hbs : IsBlanks bs) (hbs' : IsBlanks bs') (hr : Follows r)
    (x : δ × Input) : readMember fields key draft (bs ++ ':' :: (bs' ++ (v ++ r))) ≠ .ok x := by
  intro h
  have hcolon : readColon (bs ++ ':' :: (bs' ++ (v ++ r))) = .ok (bs' ++ (v ++ r)) := readColon_colon hbs _
  rw [readMember, hf] at h
  dsimp only at h
  split at h
  · cases h
  · rw [hcolon] at h
    exact hbad bs' r hbs' hr x.1 x.2 h

/-- Members one of which its field does not get past are not read. -/
theorem MemberTexts.readMembers_ne {first : Bool} {ms : List (String × Input)} {u : Input}
    (h : MemberTexts StringText first ms u) (hms : ∀ m ∈ ms, ValueText m.2)
    (hfields : ∀ f ∈ fields, ∀ d, Consumes (f.read d)) {m : String × Input} (hm : m ∈ ms) {f : RecordField δ}
    (hf : fields.find? (·.name == m.1) = some f) (hbad : ∀ d, Refuses (f.read d) m.2) (fuel : Nat) (draft : δ)
    (r : Input) (x : δ × Input) : readMembers fields fuel first draft (u ++ r) ≠ .ok x := by
  induction h generalizing fuel draft with
  | nil => cases hm
  | @cons first sep k bs bs' v u key ms hsep hkey hbs hbs' hmore ih =>
    intro hread
    rw [List.forall_mem_cons] at hms
    obtain ⟨k, rfl, hname⟩ := stringText_iff.1 hkey
    obtain _ | fuel := fuel
    · cases hread
    simp only [List.append_assoc, List.cons_append] at hread
    rw [readMembers, atMember_key hsep] at hread
    simp only [ok_bind, hname] at hread
    obtain ⟨⟨d, s⟩, hmember, hread⟩ := bind_eq_ok.1 hread
    have hv := hms.1.skipped
    -- Reading the member takes what skipping it takes.
    have hrest : s = u ++ r := by
      have hrun := run_of_readMember hfields hmember []
      rw [Skip.run_colon hbs hbs', hv.run (hmore.follows r), Skip.run_after_nil, Skip.run_after_nil] at hrun
      exact (Except.ok.inj hrun).symm
    subst hrest
    rcases List.mem_cons.1 hm with rfl | hm
    · exact readMember_ne hf (hbad draft) hbs hbs' (hmore.follows r) _ hmember
    · exact ih hms.2 hm fuel d hread

/-- An object with a member that its field does not get past is refused, whatever the other members are. -/
theorem ObjectText.refuses {t : Input} {ms : List (String × Input)} (h : ObjectText t ms) (wanted : String) (empty : δ)
    (hfields : ∀ f ∈ fields, ∀ d, Consumes (f.read d)) {m : String × Input} (hm : m ∈ ms) {f : RecordField δ}
    (hf : fields.find? (·.name == m.1) = some f) (hbad : ∀ d, Refuses (f.read d) m.2) :
    Refuses (readRecord wanted fields empty) t := by
  obtain ⟨u, rfl, hu, hms⟩ := h
  intro bs r hbs _ x r' hread
  rw [readRecord, List.cons_append, skipBlanks_append hbs rfl] at hread
  obtain ⟨x, hx, -⟩ := bind_eq_ok.1 hread
  exact hu.readMembers_ne hms hfields hm hf hbad _ empty r x hx

theorem MisfitObject.refuses {Bad : String → Input → Prop} (h : MisfitObject Bad v) (wanted : String) (empty : δ)
    (hfields : ∀ f ∈ fields, ∀ d, Consumes (f.read d))
    (hbad : ∀ key w, Bad key w → ∃ f, fields.find? (·.name == key) = some f ∧ ∀ d, Refuses (f.read d) w) :
    Refuses (readRecord wanted fields empty) v := by
  cases h with
  | scalar ht => exact ht.refuses_readRecord wanted fields empty
  | member ht hm hw =>
    obtain ⟨f, hf, hrefuses⟩ := hbad _ _ hw
    exact ht.refuses wanted empty hfields hm hf hrefuses

/-! ## Documents -/

/-- A document of a text that the reader does not get past is an error. -/
theorem Refuses.document (h : Refuses item v) {s : String} {bs bs' : Input} (hbs : IsBlanks bs) (hbs' : IsBlanks bs')
    (hs : s.toList = bs ++ (v ++ bs')) : ∃ e, readDocument item s = .error e := by
  cases hread : readDocument item s with
  | error e => exact ⟨e, rfl⟩
  | ok x =>
    rw [readDocument, hs] at hread
    obtain ⟨⟨y, r⟩, hitem, -⟩ := bind_eq_ok.1 hread
    exact absurd hitem (h bs bs' hbs (follows_of_isBlanks hbs') y r)

end Refuses

end Peering.Json
