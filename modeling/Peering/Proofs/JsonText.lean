import Mathlib.Data.List.Forall2
import Mathlib.Data.List.TakeWhile
import Peering.Json.Value
import Peering.Proofs.AddressText

/-!
# Texts that documents are read from

Which texts the readers of documents accept, apart from how they go about it. `Reads item t x` says that the reader
`item` reads the text `t` as `x`, with any blanks before it and anything after it that can follow a value. From there:

* `readString_escape`: the escapes of a string are undone, whatever its characters are;
* `ElementsText`, `reads_list`: the texts of a list, element by element;
* `MembersText`, `reads_record`: the texts of a record, member by member;
* `Value.reads_pretty_list`, `Value.reads_pretty_object`: what is written with an item a line is among these texts;
* `Gives`: what a reader can give at all, whatever the text is.
-/

namespace Peering.Json

/-! ## Reading on after what has been read -/

@[simp] theorem ok_bind {α β : Type} (a : α) (f : α → Except Error β) : (Except.ok a >>= f) = f a := rfl

@[simp] theorem error_bind {α β : Type} (e : Error) (f : α → Except Error β) :
    (Except.error e >>= f) = .error e := rfl

@[simp] theorem pure_eq_ok {α : Type} (a : α) : (pure a : Except Error α) = .ok a := rfl

@[simp] theorem throw_eq_error {α : Type} (e : Error) : (throw e : Except Error α) = .error e := rfl

theorem bind_eq_ok {α β : Type} {x : Except Error α} {f : α → Except Error β} {b : β} :
    (x >>= f) = .ok b ↔ ∃ a, x = .ok a ∧ f a = .ok b := by
  cases x <;> simp

theorem mapError_eq_ok {ε ε' α : Type} {f : ε → ε'} {x : Except ε α} {a : α} : x.mapError f = .ok a ↔ x = .ok a := by
  cases x <;> simp [Except.mapError]

/-! ## Blanks and what follows a value -/

/-- A text of blanks only. -/
def IsBlanks (bs : Input) : Prop := ∀ c ∈ bs, isBlank c = true

theorem isBlanks_nil : IsBlanks [] := by simp [IsBlanks]

theorem isBlanks_newline (depth : Nat) : IsBlanks (Value.newline depth) := by
  intro c hc
  rcases List.mem_cons.1 hc with rfl | hc
  · rfl
  · rw [List.eq_of_mem_replicate hc]
    rfl

/-- Blanks are skipped up to the first character that is none. -/
theorem skipBlanks_append {bs : Input} (hbs : IsBlanks bs) {c : Char} (hc : isBlank c = false) (r : Input) :
    skipBlanks (bs ++ c :: r) = c :: r := by
  rw [skipBlanks, List.dropWhile_append_of_pos hbs, List.dropWhile_cons_of_neg (by simp [hc])]

/-- A text that can follow a value: it is empty or goes on with a blank, a comma or a closing bracket or brace. -/
def Follows (s : Input) : Prop := ∀ c ∈ s.head?, isBlank c = true ∨ c = ',' ∨ c = ']' ∨ c = '}'

theorem follows_of_isBlanks {bs : Input} (hbs : IsBlanks bs) : Follows bs :=
  fun c hc => .inl (hbs c (List.mem_of_mem_head? hc))

theorem follows_append {bs : Input} (hbs : IsBlanks bs) {c : Char} (hc : c = ',' ∨ c = ']' ∨ c = '}') (r : Input) :
    Follows (bs ++ c :: r) := by
  intro d hd
  obtain _ | ⟨b, bs⟩ := bs
  · cases hd
    exact .inr hc
  · cases hd
    exact .inl (hbs d (List.mem_cons_self ..))

/-! ## Strings -/

/-- A character that stands for itself goes to the front of what is read. -/
theorem readChars_cons {c : Char} (hquote : c ≠ '"') (hslash : c ≠ '\\') (hcontrol : isControl c = false)
    {s cs r : Input} (h : readChars s = .ok (cs, r)) : readChars (c :: s) = .ok (c :: cs, r) := by
  rw [readChars]
  · simp [hcontrol, h]
  · exact hquote
  · exact hslash

/-- The character of an escape goes to the front of what is read. -/
theorem readChars_backslash {c : Char} {s s' cs r : Input} (hescape : readEscape s = .ok (c, s'))
    (h : readChars s' = .ok (cs, r)) : readChars ('\\' :: s) = .ok (c :: cs, r) := by
  rw [readChars]
  split
  · rename_i hf
    simp [hescape] at hf
  · rename_i d t hd
    obtain ⟨rfl, rfl⟩ : c = d ∧ s' = t := by simpa [hescape] using hd
    simp [h]

/-- A control character is read from its code. -/
theorem readEscape_control {c : Char} (h : isControl c = true) (s : Input) :
    readEscape ('u' :: '0' :: '0' :: Nat.digitChar (c.toNat / 16) :: Nat.digitChar (c.toNat % 16) :: s)
      = .ok (c, s) := by
  have hc : c.toNat < 0x20 := by simpa [isControl] using h
  have hhex : Text.Hexadecimal.read? ['0', '0', Nat.digitChar (c.toNat / 16), Nat.digitChar (c.toNat % 16)]
      = some c.toNat := by
    have hzero : Text.Hexadecimal.digit? '0' = some 0 := rfl
    simp only [Text.Hexadecimal.read?, Text.Hexadecimal.extend, hzero,
      Text.Hexadecimal.digit?_digitChar _ (show c.toNat / 16 < 16 by omega),
      Text.Hexadecimal.digit?_digitChar _ (show c.toNat % 16 < 16 by omega), Option.some.injEq]
    omega
  have hsimple : simpleEscape? 'u' = none := rfl
  simp only [readEscape, hsimple, if_true, readUnicodeEscape, readHex4, hhex]
  rw [if_neg (by omega), if_neg (by omega), Char.ofNat_toNat]

/-- A character is read from its escape. -/
theorem readChars_escape (c : Char) {s cs r : Input} (h : readChars s = .ok (cs, r)) :
    readChars (escape c ++ s) = .ok (c :: cs, r) := by
  unfold escape
  split
  · rename_i hc
    rcases hc with rfl | rfl
    · exact readChars_backslash rfl h
    · exact readChars_backslash rfl h
  rename_i hplain
  iterate 5
    split
    · subst c
      exact readChars_backslash rfl h
  split
  · rename_i hcontrol
    exact readChars_backslash (readEscape_control hcontrol s) h
  · rename_i hcontrol
    exact readChars_cons (fun hq => hplain (.inl hq)) (fun hs => hplain (.inr hs)) (by simpa using hcontrol) h

/-- Characters are read back from their escapes. -/
theorem readChars_flatMap_escape (s : List Char) (r : Input) :
    readChars (s.flatMap escape ++ '"' :: r) = .ok (s, r) := by
  induction s with
  | nil => rw [List.flatMap_nil, List.nil_append, readChars]
  | cons c s ih =>
    rw [List.flatMap_cons, List.append_assoc]
    exact readChars_escape c ih

/-- A string is read back from its text, after the opening quote. -/
theorem readString_escape (s : String) (r : Input) : readString (s.toList.flatMap escape ++ '"' :: r) = .ok (s, r) := by
  rw [readString, readChars_flatMap_escape]
  simp

/-! ## Texts of values -/

/-- The reader reads the text as the value, with any blanks before it and whatever can follow a value after it. -/
structure Reads {α : Type} (item : Reader α) (t : Input) (x : α) : Prop where
  /-- The text begins with the value, and not with the end of a list. -/
  head : ∃ c r, t = c :: r ∧ isBlank c = false ∧ c ≠ ']'
  read : ∀ {bs r : Input}, IsBlanks bs → Follows r → item (bs ++ (t ++ r)) = .ok (x, r)

namespace Reads

variable {α : Type} {item : Reader α} {t : Input} {x : α}

theorem ne_nil (h : Reads item t x) : t ≠ [] := by
  obtain ⟨c, r, rfl, -⟩ := h.head
  simp

/-- The reader needs no blanks. -/
theorem read_self (h : Reads item t x) {r : Input} (hr : Follows r) : item (t ++ r) = .ok (x, r) :=
  h.read isBlanks_nil hr

/-- What is read is made into something else by a function that accepts it. -/
theorem map {β : Type} {other : Reader β} {y : β} (h : Reads item t x)
    (hother : ∀ s r, item s = .ok (x, r) → other s = .ok (y, r)) : Reads other t y :=
  ⟨h.head, fun hbs hr => hother _ _ (h.read hbs hr)⟩

end Reads

/-! ## Strings and variants -/

/-- A text that is read as the string, whatever comes after it. -/
def ReadsString (t : Input) (s : String) : Prop := ∃ u, t = '"' :: u ∧ ∀ r, readString (u ++ r) = .ok (s, r)

/-- A string is read from its text. -/
theorem readsString_quote (s : String) : ReadsString (quote s) s := by
  refine ⟨s.toList.flatMap escape ++ ['"'], by rw [quote, List.cons_append], fun r => ?_⟩
  rw [List.append_assoc]
  exact readString_escape s r

namespace ReadsString

variable {t : Input} {s : String}

theorem reads_text (h : ReadsString t s) (wanted : String) : Reads (readText wanted) t s := by
  obtain ⟨u, rfl, hu⟩ := h
  refine ⟨⟨'"', u, rfl, rfl, by decide⟩, fun {bs r} hbs _ => ?_⟩
  rw [readText, List.cons_append, skipBlanks_append hbs rfl]
  exact hu r

/-- The name of a variant is read as the variant. -/
theorem reads_variant {α : Type} (h : ReadsString t s) {variants : List (String × α)} {x : α}
    (hx : variantOfName variants s = .ok x) : Reads (readVariant variants) t x := by
  obtain ⟨u, rfl, hu⟩ := h
  refine ⟨⟨'"', u, rfl, rfl, by decide⟩, fun {bs r} hbs _ => ?_⟩
  rw [readVariant, List.cons_append, skipBlanks_append hbs rfl]
  simp [hu, hx]

end ReadsString

/-! ## Lists -/

/-- What stands before an element or a member: blanks, and before all but the first a comma. -/
inductive Separates : Bool → Input → Prop
  | first {bs : Input} (hbs : IsBlanks bs) : Separates true bs
  | next {bs bs' : Input} (hbs : IsBlanks bs) (hbs' : IsBlanks bs') : Separates false (bs ++ ',' :: bs')

/-- A separator after a value can follow it. -/
theorem Separates.follows {sep : Input} (h : Separates false sep) (r : Input) : Follows (sep ++ r) := by
  cases h with
  | next hbs hbs' =>
    rw [List.append_assoc, List.cons_append]
    exact follows_append hbs (by simp) _

/-- The texts of the elements of a list up to the end of the list, and what they are read as. -/
inductive ElementsText {α : Type} (item : Reader α) : Bool → Input → List α → Prop
  | nil {first : Bool} {bs : Input} (hbs : IsBlanks bs) : ElementsText item first (bs ++ [']']) []
  | cons {first : Bool} {sep t u : Input} {x : α} {xs : List α} (hsep : Separates first sep) (hx : Reads item t x)
    (hxs : ElementsText item false u xs) : ElementsText item first (sep ++ (t ++ u)) (x :: xs)

theorem atElement_end {bs : Input} (hbs : IsBlanks bs) (first : Bool) (r : Input) :
    atElement first (bs ++ ']' :: r) = .ok (false, ']' :: r) := by
  rw [atElement, skipBlanks_append hbs rfl]
  rfl

section Elements

variable {α : Type} {item : Reader α} {t u : Input} {x : α} {xs : List α} {first : Bool}

theorem atElement_item {sep : Input} (hsep : Separates first sep)
    (ht : ∃ c s, t = c :: s ∧ isBlank c = false ∧ c ≠ ']') (r : Input) :
    atElement first (sep ++ (t ++ r)) = .ok (true, t ++ r) := by
  obtain ⟨c, s, rfl, hc, hne⟩ := ht
  cases hsep with
  | first hbs =>
    rw [atElement, List.cons_append, skipBlanks_append hbs hc]
    simp [hne]
  | next hbs hbs' =>
    rw [atElement, List.append_assoc, List.cons_append, List.cons_append, skipBlanks_append hbs rfl]
    simp [skipBlanks_append hbs' hc, hne]

/-- What comes after an element can follow a value. -/
theorem ElementsText.follows (h : ElementsText item false u xs) (r : Input) : Follows (u ++ r) := by
  cases h with
  | nil hbs =>
    rw [List.append_assoc]
    exact follows_append hbs (by simp) _
  | cons hsep hx hxs =>
    rw [List.append_assoc]
    exact hsep.follows _

/-- Each element takes a character. -/
theorem ElementsText.length_lt (h : ElementsText item first u xs) : xs.length < u.length := by
  induction h with
  | nil => simp
  | cons hsep hx _ ih =>
    have ht := List.length_pos_of_ne_nil hx.ne_nil
    simp only [List.length_cons, List.length_append]
    omega

/-- The elements are read up to the end of the list. -/
theorem readElements_text (h : ElementsText item first u xs) {fuel : Nat} (hfuel : xs.length < fuel) (r : Input) :
    readElements item fuel first (u ++ r) = .ok (xs, ']' :: r) := by
  induction h generalizing fuel with
  | nil hbs =>
    obtain _ | fuel := fuel
    · omega
    · rw [readElements, List.append_assoc]
      simp [atElement_end hbs]
  | cons hsep hx hxs ih =>
    obtain _ | fuel := fuel
    · omega
    · rw [readElements, List.append_assoc, List.append_assoc]
      simp [atElement_item hsep hx.head, hx.read_self (hxs.follows r), ih (by simpa using hfuel)]

/-- A list is read from the texts of its elements. -/
theorem reads_list (h : ElementsText item true u xs) : Reads (readList item) ('[' :: u) xs := by
  refine ⟨⟨'[', u, rfl, rfl, by decide⟩, fun {bs r} hbs _ => ?_⟩
  have hfuel : xs.length < (u ++ r).length + 1 := by
    have hlt := h.length_lt
    rw [List.length_append]
    omega
  have hend : readListEnd (']' :: r) = .ok r := rfl
  rw [readList, List.cons_append, skipBlanks_append hbs rfl]
  simp only [readElements_text h hfuel, hend, ok_bind, pure_eq_ok]

end Elements

/-! ## Records -/

/-- The reader of members reads the text after a key, from its colon on, and goes from one draft to another. -/
def ReadsMember {δ : Type} (fields : List (RecordField δ)) (key : String) (draft : δ) (t : Input) (draft' : δ) : Prop :=
  ∀ r, Follows r → readMember fields key draft (t ++ r) = .ok (draft', r)

/-- The texts of the members of an object up to the end of the object, and how they change the draft of a record. -/
inductive MembersText {δ : Type} (fields : List (RecordField δ)) : Bool → δ → Input → δ → Prop
  | nil {first : Bool} {draft : δ} {bs : Input} (hbs : IsBlanks bs) : MembersText fields first draft (bs ++ ['}']) draft
  | cons {first : Bool} {sep k t u : Input} {key : String} {draft draft' last : δ} (hsep : Separates first sep)
    (hkey : ReadsString k key) (hmember : ReadsMember fields key draft t draft')
    (hmore : MembersText fields false draft' u last) : MembersText fields first draft (sep ++ (k ++ (t ++ u))) last

section Members

variable {δ : Type} {fields : List (RecordField δ)} {t u : Input} {draft draft' last : δ} {first : Bool}

theorem readColon_colon {bs : Input} (hbs : IsBlanks bs) (r : Input) : readColon (bs ++ ':' :: r) = .ok r := by
  rw [readColon, skipBlanks_append hbs rfl]
  rfl

/-- A field's own reader reads its value, if the draft has none yet. -/
theorem readsMember_field {key : String} {f : RecordField δ} (hf : fields.find? (·.name == key) = some f)
    (hset : f.isSet draft = false) {bs bs' : Input} (hbs : IsBlanks bs) (hbs' : IsBlanks bs')
    (ht : Reads (f.read draft) t draft') : ReadsMember fields key draft (bs ++ ':' :: (bs' ++ t)) draft' := by
  intro r hr
  have hcolon : readColon (bs ++ ':' :: (bs' ++ (t ++ r))) = .ok (bs' ++ (t ++ r)) := readColon_colon hbs _
  simp [readMember, hf, hset, hcolon, ht.read hbs' hr]

theorem atMember_end {bs : Input} (hbs : IsBlanks bs) (first : Bool) (r : Input) :
    atMember first (bs ++ '}' :: r) = .ok none := by
  rw [atMember, skipBlanks_append hbs rfl]
  rfl

theorem atMember_key {sep : Input} (hsep : Separates first sep) (r : Input) :
    atMember first (sep ++ '"' :: r) = .ok (some r) := by
  cases hsep with
  | first hbs =>
    rw [atMember, skipBlanks_append hbs rfl]
    rfl
  | next hbs hbs' =>
    rw [atMember, List.append_assoc, List.cons_append, skipBlanks_append hbs rfl]
    simp [skipBlanks_append hbs' (show isBlank '"' = false from rfl)]

theorem MembersText.follows (h : MembersText fields false draft u last) (r : Input) : Follows (u ++ r) := by
  cases h with
  | nil hbs =>
    rw [List.append_assoc]
    exact follows_append hbs (by simp) _
  | cons hsep _ _ _ =>
    rw [List.append_assoc]
    exact hsep.follows _

/-- The members are read up to the end of the object. -/
theorem readMembers_text (h : MembersText fields first draft u last) {fuel : Nat} (hfuel : u.length < fuel)
    (r : Input) : ∃ bs, IsBlanks bs ∧ readMembers fields fuel first draft (u ++ r) = .ok (last, bs ++ '}' :: r) := by
  induction h generalizing fuel with
  | @nil first draft bs hbs =>
    obtain _ | fuel := fuel
    · omega
    · refine ⟨bs, hbs, ?_⟩
      rw [readMembers, List.append_assoc]
      simp [atMember_end hbs]
  | cons hsep hkey hmember hmore ih =>
    obtain ⟨key, rfl, hkey⟩ := hkey
    obtain _ | fuel := fuel
    · omega
    · simp only [List.length_append, List.length_cons] at hfuel
      obtain ⟨bs, hbs, hread⟩ := ih (show _ < fuel by omega)
      refine ⟨bs, hbs, ?_⟩
      rw [readMembers]
      simp only [List.append_assoc, List.cons_append]
      simp [atMember_key hsep, hkey, hmember _ (hmore.follows r), hread]

/-- A record is read from the texts of its members. -/
theorem reads_record (wanted : String) (h : MembersText fields true draft u last) :
    Reads (readRecord wanted fields draft) ('{' :: u) last := by
  refine ⟨⟨'{', u, rfl, rfl, by decide⟩, fun {bs r} hbs _ => ?_⟩
  have hfuel : u.length < (u ++ r).length + 1 := by
    rw [List.length_append]
    omega
  obtain ⟨bs', hbs', hread⟩ := readMembers_text h hfuel r
  have hend : readObjectEnd (bs' ++ '}' :: r) = .ok r := by
    rw [readObjectEnd, skipBlanks_append hbs' rfl]
    rfl
  rw [readRecord, List.cons_append, skipBlanks_append hbs rfl]
  simp only [hread, hend, ok_bind, pure_eq_ok]

end Members

/-- A document of one value between blanks is read as the value. -/
theorem Reads.document {α : Type} {item : Reader α} {t : Input} {x : α} (h : Reads item t x) {s : String}
    {bs bs' : Input} (hbs : IsBlanks bs) (hbs' : IsBlanks bs') (hs : s.toList = bs ++ (t ++ bs')) :
    readDocument item s = .ok x := by
  have hend : skipBlanks bs' = [] := List.dropWhile_eq_nil_iff.2 hbs'
  rw [readDocument, hs, h.read hbs (follows_of_isBlanks hbs')]
  simp [hend]

/-- A document of one value is read as the value. -/
theorem readDocument_of_reads {α : Type} {item : Reader α} {s : String} {x : α} (h : Reads item s.toList x) :
    readDocument item s = .ok x :=
  h.document isBlanks_nil isBlanks_nil (by simp)

/-! ## What is written with an item a line -/

namespace Value

variable {α : Type} {item : Reader α}

/-- A list of values, an item a line, is a text of the elements that the items are read as. -/
theorem elementsText_pretty {depth : Nat} {vs : List Value} {xs : List α}
    (h : List.Forall₂ (fun v x => Reads item (v.pretty depth) x) vs xs) (hne : vs ≠ []) {bs : Input}
    (hbs : IsBlanks bs) :
    ElementsText item true (prettyItems depth vs ++ (bs ++ [']'])) xs ∧
      ElementsText item false (',' :: prettyItems depth vs ++ (bs ++ [']'])) xs := by
  induction h with
  | nil => exact absurd rfl hne
  | @cons v x vs xs hv hvs ih =>
    have hnewline := isBlanks_newline depth
    have hnext := Separates.next isBlanks_nil hnewline
    cases hvs with
    | nil =>
      have htext : prettyItems depth [v] ++ (bs ++ [']']) = newline depth ++ (v.pretty depth ++ (bs ++ [']'])) := by
        simp [prettyItems]
      rw [List.cons_append, htext]
      exact ⟨.cons (.first hnewline) hv (.nil hbs), .cons hnext hv (.nil hbs)⟩
    | @cons w y vs xs hw hws =>
      have htext : prettyItems depth (v :: w :: vs) ++ (bs ++ [']'])
          = newline depth ++ (v.pretty depth ++ (',' :: prettyItems depth (w :: vs) ++ (bs ++ [']']))) := by
        simp [prettyItems]
      have hmore := (ih (by simp)).2
      rw [List.cons_append, htext]
      exact ⟨.cons (.first hnewline) hv hmore, .cons hnext hv hmore⟩

/-- A list is read back if its items are. -/
theorem reads_pretty_list {depth : Nat} {vs : List Value} {xs : List α}
    (h : List.Forall₂ (fun v x => Reads item (v.pretty (depth + 1)) x) vs xs) :
    Reads (readList item) ((list vs).pretty depth) xs := by
  cases h with
  | nil =>
    rw [pretty]
    exact reads_list (.nil isBlanks_nil)
  | @cons v x vs xs hv hvs =>
    have htext := (elementsText_pretty (.cons hv hvs) (by simp) (isBlanks_newline depth)).1
    rw [pretty, List.cons_append, List.cons_append, List.append_assoc]
    exact reads_list htext

/-- Members of a record, the value of each read by its field when the draft has none yet. -/
inductive MembersRead {δ : Type} (fields : List (RecordField δ)) (depth : Nat) : δ → List (String × Value) → δ → Prop
  | nil (draft : δ) : MembersRead fields depth draft [] draft
  | cons {key : String} {v : Value} {ms : List (String × Value)} {f : RecordField δ} {draft draft' last : δ}
    (hf : fields.find? (·.name == key) = some f) (hset : f.isSet draft = false)
    (hv : Reads (f.read draft) (v.pretty depth) draft') (hms : MembersRead fields depth draft' ms last) :
    MembersRead fields depth draft ((key, v) :: ms) last

/-- Members, one a line, are a text of the members that they are read as. -/
theorem membersText_pretty {δ : Type} {fields : List (RecordField δ)} {depth : Nat} {draft last : δ}
    {ms : List (String × Value)} (h : MembersRead fields depth draft ms last) (hne : ms ≠ []) {bs : Input}
    (hbs : IsBlanks bs) :
    MembersText fields true draft (prettyMembers depth ms ++ (bs ++ ['}'])) last ∧
      MembersText fields false draft (',' :: prettyMembers depth ms ++ (bs ++ ['}'])) last := by
  induction h with
  | nil => exact absurd rfl hne
  | @cons key v ms f draft draft' last hf hset hv hms ih =>
    have hnewline := isBlanks_newline depth
    have hnext := Separates.next isBlanks_nil hnewline
    have hspace : IsBlanks [' '] := by simp [IsBlanks, isBlank]
    have hkey := readsString_quote key
    have hmember := readsMember_field hf hset isBlanks_nil hspace hv
    cases hms with
    | nil =>
      have htext : prettyMembers depth [(key, v)] ++ (bs ++ ['}'])
          = newline depth ++ (quote key ++ (([] ++ ':' :: ([' '] ++ v.pretty depth)) ++ (bs ++ ['}']))) := by
        simp [prettyMembers]
      rw [List.cons_append, htext]
      exact ⟨.cons (.first hnewline) hkey hmember (.nil hbs), .cons hnext hkey hmember (.nil hbs)⟩
    | @cons key' w ms g _ _ _ hg hset' hw hms =>
      have htext : prettyMembers depth ((key, v) :: (key', w) :: ms) ++ (bs ++ ['}'])
          = newline depth ++ (quote key ++ (([] ++ ':' :: ([' '] ++ v.pretty depth))
            ++ (',' :: prettyMembers depth ((key', w) :: ms) ++ (bs ++ ['}'])))) := by
        simp [prettyMembers]
      have hmore := (ih (by simp)).2
      rw [List.cons_append, htext]
      exact ⟨.cons (.first hnewline) hkey hmember hmore, .cons hnext hkey hmember hmore⟩

/-- A record is read back if its members are. -/
theorem reads_pretty_object {δ : Type} {fields : List (RecordField δ)} {depth : Nat} {draft last : δ}
    {ms : List (String × Value)} (wanted : String) (h : MembersRead fields (depth + 1) draft ms last) :
    Reads (readRecord wanted fields draft) ((object ms).pretty depth) last := by
  cases h with
  | nil =>
    rw [pretty]
    exact reads_record wanted (.nil isBlanks_nil)
  | cons hf hset hv hms =>
    have htext := (membersText_pretty (.cons hf hset hv hms) (by simp) (isBlanks_newline depth)).1
    rw [pretty, List.cons_append, List.cons_append, List.append_assoc]
    exact reads_record wanted htext

end Value

/-! ## What a reader can give -/

/-- Whatever the reader reads has the property. -/
def Gives {α : Type} (item : Reader α) (P : α → Prop) : Prop := ∀ s x r, item s = .ok (x, r) → P x

section Gives

variable {α : Type} {item : Reader α} {P : α → Prop}

theorem Gives.elements (h : Gives item P) (fuel : Nat) (first : Bool) :
    Gives (readElements item fuel first) fun xs => ∀ x ∈ xs, P x := by
  induction fuel generalizing first with
  | zero =>
    intro s xs r hread
    simp [readElements] at hread
  | succ fuel ih =>
    intro s xs r hread
    rw [readElements] at hread
    obtain ⟨⟨more, s₁⟩, -, hread⟩ := bind_eq_ok.1 hread
    cases more with
    | false =>
      obtain ⟨rfl, -⟩ : [] = xs ∧ s₁ = r := by simpa using hread
      simp
    | true =>
      obtain ⟨⟨x, s₂⟩, hx, hread⟩ := bind_eq_ok.1 hread
      obtain ⟨⟨ys, s₃⟩, hys, hread⟩ := bind_eq_ok.1 hread
      obtain ⟨rfl, -⟩ : x :: ys = xs ∧ s₃ = r := by simpa using hread
      intro y hy
      rcases List.mem_cons.1 hy with rfl | hy
      · exact h _ _ _ hx
      · exact ih false _ _ _ hys y hy

/-- A list that is read has only elements that its reader can give. -/
theorem Gives.list (h : Gives item P) : Gives (readList item) fun xs => ∀ x ∈ xs, P x := by
  intro s xs r hread
  rw [readList] at hread
  split at hread
  · obtain ⟨⟨ys, s₁⟩, hys, hread⟩ := bind_eq_ok.1 hread
    obtain ⟨s₂, -, hread⟩ := bind_eq_ok.1 hread
    obtain ⟨rfl, -⟩ : ys = xs ∧ s₂ = r := by simpa using hread
    exact h.elements _ _ _ _ _ hys
  · cases hread

variable {δ : Type} {fields : List (RecordField δ)} {Q : δ → Prop}

theorem gives_members (h : ∀ f ∈ fields, ∀ d, Q d → Gives (f.read d) Q) (fuel : Nat) (first : Bool) {draft : δ}
    (hdraft : Q draft) : Gives (readMembers fields fuel first draft) Q := by
  induction fuel generalizing first draft with
  | zero =>
    intro s x r hread
    simp [readMembers] at hread
  | succ fuel ih =>
    intro s x r hread
    rw [readMembers] at hread
    obtain ⟨next, -, hread⟩ := bind_eq_ok.1 hread
    cases next with
    | none =>
      obtain ⟨rfl, -⟩ : draft = x ∧ s = r := by simpa using hread
      exact hdraft
    | some s₁ =>
      obtain ⟨⟨key, s₂⟩, -, hread⟩ := bind_eq_ok.1 hread
      obtain ⟨⟨draft', s₃⟩, hmember, hread⟩ := bind_eq_ok.1 hread
      refine ih false ?_ _ _ _ hread
      -- The member is one of a field, or one that is skipped and leaves the draft as it was.
      simp only [readMember] at hmember
      split at hmember
      · rename_i f hf
        split at hmember
        · simp at hmember
        · obtain ⟨s₄, -, hmember⟩ := bind_eq_ok.1 hmember
          exact h f (List.mem_of_find?_eq_some hf) draft hdraft _ _ _ hmember
      · obtain ⟨s₄, -, hmember⟩ := bind_eq_ok.1 hmember
        obtain ⟨s₅, -, hmember⟩ := bind_eq_ok.1 hmember
        obtain ⟨rfl, -⟩ : draft = draft' ∧ s₅ = s₃ := by simpa using hmember
        exact hdraft

theorem gives_positions (h : ∀ f ∈ fields, ∀ d, Q d → Gives (f.read d) Q) (first : Bool) {draft : δ}
    (hdraft : Q draft) : Gives (readPositions fields first draft) Q := by
  induction fields generalizing first draft with
  | nil =>
    intro s x r hread
    obtain ⟨rfl, -⟩ : draft = x ∧ s = r := by simpa [readPositions] using hread
    exact hdraft
  | cons f fields ih =>
    intro s x r hread
    rw [readPositions] at hread
    obtain ⟨⟨more, s₁⟩, -, hread⟩ := bind_eq_ok.1 hread
    cases more with
    | false =>
      obtain ⟨rfl, -⟩ : draft = x ∧ s₁ = r := by simpa using hread
      exact hdraft
    | true =>
      obtain ⟨⟨draft', s₂⟩, hf, hread⟩ := bind_eq_ok.1 hread
      have hdraft' := h f (List.mem_cons_self ..) draft hdraft _ _ _ hf
      exact ih (fun g hg => h g (List.mem_cons_of_mem _ hg)) false hdraft' _ _ _ hread

/-- A property of drafts that each field's reader keeps holds of every record that is read. -/
theorem gives_record (wanted : String) (h : ∀ f ∈ fields, ∀ d, Q d → Gives (f.read d) Q) {draft : δ}
    (hdraft : Q draft) : Gives (readRecord wanted fields draft) Q := by
  intro s x r hread
  rw [readRecord] at hread
  split at hread
  · obtain ⟨⟨d, s₁⟩, hd, hread⟩ := bind_eq_ok.1 hread
    obtain ⟨s₂, -, hread⟩ := bind_eq_ok.1 hread
    obtain ⟨rfl, -⟩ : d = x ∧ s₂ = r := by simpa using hread
    exact gives_members h _ _ hdraft _ _ _ hd
  · obtain ⟨⟨d, s₁⟩, hd, hread⟩ := bind_eq_ok.1 hread
    obtain ⟨s₂, -, hread⟩ := bind_eq_ok.1 hread
    obtain ⟨rfl, -⟩ : d = x ∧ s₂ = r := by simpa using hread
    exact gives_positions h _ hdraft _ _ _ hd
  · cases hread

theorem Gives.document (h : Gives item P) {s : String} {x : α} (hread : readDocument item s = .ok x) : P x := by
  rw [readDocument] at hread
  obtain ⟨⟨y, r⟩, hy, hread⟩ := bind_eq_ok.1 hread
  have hyx : y = x := by
    dsimp only at hread
    split at hread
    · simpa using hread
    · cases hread
  exact hyx ▸ h _ _ _ hy

end Gives

end Peering.Json
