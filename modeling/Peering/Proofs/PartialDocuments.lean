import Peering.Proofs.ConfigDocument
import Peering.Proofs.RefusedTexts

/-!
# Documents of some fields

A document of a configuration need not name every field. What it is read as is settled field by field (`Settles`): a
field whose key is there has the value that its text denotes, and any other field has its default, for the configuration
as for the options in it. Other members are of no account, and neither is the order (`Rearranged`). One value that
denotes nothing is enough for there to be no configuration (`PeerConfig.Misfit`). `PeerConfig.load_present_over_default`
puts this together.
-/

namespace Peering

open Json Text

/-! ## Fields and members -/

section Fields

variable {α : Type} {IsText : Input → α → Prop} {standard : α} {key : String} {ms ms' : List (String × Input)}

/-- The members settle the value of the field `key`, whose values have the texts `IsText`: there is at most one member
with the key. The field has the value that it denotes, or the standard one if there is none. -/
structure Settles (IsText : Input → α → Prop) (standard : α) (key : String) (ms : List (String × Input)) (x : α) :
    Prop where
  once : (ms.map Prod.fst).count key ≤ 1
  present : ∀ v, (key, v) ∈ ms → IsText v x
  absent : key ∉ ms.map Prod.fst → x = standard

/-- There is at most one member with the key, and its value is valid. -/
structure Fits (IsValid : Input → Prop) (key : String) (ms : List (String × Input)) : Prop where
  once : (ms.map Prod.fst).count key ≤ 1
  valid : ∀ v, (key, v) ∈ ms → IsValid v

/-- A key that comes at most once comes with one value. -/
theorem eq_of_mem_of_count_le (honce : (ms.map Prod.fst).count key ≤ 1) {v w : Input} (hv : (key, v) ∈ ms)
    (hw : (key, w) ∈ ms) : v = w := by
  induction ms with
  | nil => cases hv
  | cons m ms ih =>
    rcases List.mem_cons.1 hv with rfl | hv
    · rcases List.mem_cons.1 hw with hw | hw
      · exact (Prod.mk.inj hw).2.symm
      · exact absurd (List.mem_map_of_mem (f := Prod.fst) hw) (not_mem_of_count_le honce)
    · rcases List.mem_cons.1 hw with hw | hw
      · obtain ⟨rfl, rfl⟩ := Prod.mk.inj hw
        exact absurd (List.mem_map_of_mem (f := Prod.fst) hv) (not_mem_of_count_le honce)
      · rw [List.map_cons, List.count_cons] at honce
        exact ih ((Nat.le_add_right _ _).trans honce) hv hw

theorem settles_of_mem (honce : (ms.map Prod.fst).count key ≤ 1) {v : Input} (hv : (key, v) ∈ ms) {x : α}
    (hx : IsText v x) (standard : α) : Settles IsText standard key ms x :=
  ⟨honce, fun _ hw => eq_of_mem_of_count_le honce hv hw ▸ hx, fun habsent => absurd (List.mem_map_of_mem hv) habsent⟩

theorem settles_of_not_mem (hkey : key ∉ ms.map Prod.fst) : Settles IsText standard key ms standard :=
  ⟨by simp [List.count_eq_zero.2 hkey], fun _ hv => absurd (List.mem_map_of_mem hv) hkey, fun _ => rfl⟩

/-- Members that fit settle a field. -/
theorem Fits.exists_settles {IsValid : Input → Prop} (h : Fits IsValid key ms)
    (hvalid : ∀ v, IsValid v → ∃ x, IsText v x) (standard : α) : ∃ x, Settles IsText standard key ms x := by
  by_cases hkey : key ∈ ms.map Prod.fst
  · obtain ⟨⟨k, v⟩, hv, rfl⟩ := List.mem_map.1 hkey
    obtain ⟨x, hx⟩ := hvalid v (h.valid v hv)
    exact ⟨x, settles_of_mem h.once hv hx standard⟩
  · exact ⟨standard, settles_of_not_mem hkey⟩

theorem Settles.fits {x : α} (h : Settles IsText standard key ms x) : Fits (fun v => ∃ x, IsText v x) key ms :=
  ⟨h.once, fun v hv => ⟨x, h.present v hv⟩⟩

/-- A field that is settled is filled, but for its default. -/
theorem Settles.fills {x : α} (h : Settles IsText standard key ms x) {item : Reader α}
    (hitem : ∀ v y, IsText v y → Reads item v y) : ∃ y, Fills item key ms none y ∧ y.getD standard = x := by
  by_cases hkey : key ∈ ms.map Prod.fst
  · obtain ⟨⟨k, v⟩, hv, rfl⟩ := List.mem_map.1 hkey
    exact ⟨some x, fills_of_mem h.once hv (hitem v x (h.present v hv)), rfl⟩
  · exact ⟨none, fills_of_not_mem hkey none, (h.absent hkey).symm⟩

/-! ### Other members, and another order -/

/-- The members with these keys. -/
def known (keys : List String) (ms : List (String × Input)) : List (String × Input) := ms.filter fun m => m.1 ∈ keys

/-- Members that differ in their order, in what has none of the keys, and in values that are `Alike`. -/
def Rearranged (keys : List String) (Alike : String → Input → Input → Prop) (ms ms' : List (String × Input)) : Prop :=
  ∃ ns, List.Forall₂ (fun m n => m.1 = n.1 ∧ Alike m.1 m.2 n.2) (known keys ms) ns ∧ ns.Perm (known keys ms')

theorem count_known {keys : List String} (hkey : key ∈ keys) (ms : List (String × Input)) :
    ((known keys ms).map Prod.fst).count key = (ms.map Prod.fst).count key := by
  have hmap : (known keys ms).map Prod.fst = (ms.map Prod.fst).filter (· ∈ keys) := by
    rw [List.filter_map]
    rfl
  rw [hmap, List.count_filter (by simpa using hkey)]

theorem mem_known {keys : List String} (hkey : key ∈ keys) {v : Input} : (key, v) ∈ known keys ms ↔ (key, v) ∈ ms := by
  simp [known, hkey]

theorem exists_rel_of_mem {β γ : Type} {R : β → γ → Prop} {xs : List β} {ys : List γ} (h : List.Forall₂ R xs ys)
    {y : γ} (hy : y ∈ ys) : ∃ x ∈ xs, R x y := by
  induction h with
  | nil => cases hy
  | @cons x y' xs ys hx hxs ih =>
    rcases List.mem_cons.1 hy with rfl | hy
    · exact ⟨x, List.mem_cons_self, hx⟩
    · obtain ⟨x', hx', hR⟩ := ih hy
      exact ⟨x', List.mem_cons_of_mem x hx', hR⟩

namespace Rearranged

variable {keys : List String} {Alike : String → Input → Input → Prop}

theorem count_eq (h : Rearranged keys Alike ms ms') (hkey : key ∈ keys) :
    (ms'.map Prod.fst).count key = (ms.map Prod.fst).count key := by
  obtain ⟨ns, hns, hperm⟩ := h
  have hkeys : (known keys ms).map Prod.fst = ns.map Prod.fst := by
    rw [← List.forall₂_eq_eq_eq, List.forall₂_map_left_iff, List.forall₂_map_right_iff]
    exact hns.imp fun _ _ h => h.1
  rw [← count_known hkey ms', ← count_known hkey ms, hkeys, (hperm.map Prod.fst).count_eq]

theorem exists_alike (h : Rearranged keys Alike ms ms') (hkey : key ∈ keys) {w : Input} (hw : (key, w) ∈ ms') :
    ∃ v, (key, v) ∈ ms ∧ Alike key v w := by
  obtain ⟨ns, hns, hperm⟩ := h
  obtain ⟨⟨k, v⟩, hv, rfl, halike⟩ := exists_rel_of_mem hns (hperm.mem_iff.2 ((mem_known hkey).2 hw))
  exact ⟨v, (mem_known hkey).1 hv, halike⟩

/-- Rearranging leaves a field at its value. -/
theorem settles (hms : Rearranged keys Alike ms ms') (hkey : key ∈ keys) {x : α}
    (halike : ∀ v w, Alike key v w → IsText v x → IsText w x) (h : Settles IsText standard key ms x) :
    Settles IsText standard key ms' x := by
  have hcount := hms.count_eq hkey
  refine ⟨hcount ▸ h.once, fun w hw => ?_, fun habsent => h.absent ?_⟩
  · obtain ⟨v, hv, hvw⟩ := hms.exists_alike hkey hw
    exact halike v w hvw (h.present v hv)
  · rw [← List.count_eq_zero] at habsent ⊢
    exact hcount ▸ habsent

end Rearranged

end Fields

/-! ## Texts of values -/

/-- A text of a list whose items have texts as `IsText` says. -/
def ListOf {α : Type} (IsText : Input → α → Prop) (t : Input) (xs : List α) : Prop :=
  ∃ vs, ListText t vs ∧ List.Forall₂ IsText vs xs

theorem ListOf.reads {α : Type} {IsText : Input → α → Prop} {item : Reader α}
    (hitem : ∀ v x, IsText v x → Reads item v x) {t : Input} {xs : List α} (h : ListOf IsText t xs) :
    Reads (readList item) t xs := by
  obtain ⟨vs, ht, hvs⟩ := h
  exact ht.reads (hvs.imp hitem)

namespace Endpoint

/-- A text of an endpoint: a string that is one. -/
def IsText (t : Input) (e : Endpoint) : Prop := ∃ s, StringText t s ∧ ofString s = .ok e

/-- A string that is no endpoint, or no string. -/
def Misfit : Input → Prop := MisfitText fun s => ∀ e, ofString s ≠ .ok e

theorem consumes_read : Consumes Endpoint.read := (consumes_readText "a string").refined checked

theorem IsText.reads {t : Input} {e : Endpoint} (h : IsText t e) : Reads Endpoint.read t e := by
  obtain ⟨s, hs, he⟩ := h
  exact Reads.refined (hs.reads "a string") (checked_eq_ok_iff.2 he)

theorem Misfit.refuses {t : Input} (h : Misfit t) : Refuses Endpoint.read t := by
  cases h with
  | scalar ht => exact (ht.refuses_readText "a string").refined checked
  | string ht hs => exact ht.refuses_refined "a string" fun e he => hs e (checked_eq_ok_iff.1 he)

end Endpoint

namespace Protocol

/-- A text of a family: its name. -/
def IsText (t : Input) (p : Protocol) : Prop := StringText t p.name

/-- A string that is the name of no family, or no string. -/
def Misfit : Input → Prop := MisfitText fun s => ∀ p : Protocol, p.name ≠ s

theorem consumes_read : Consumes Protocol.read := consumes_readVariant variants

theorem IsText.reads {t : Input} {p : Protocol} (h : IsText t p) : Reads Protocol.read t p :=
  (stringText_iff.1 h).reads_variant (by cases p <;> decide)

theorem name_of_variantOfName {s : String} {p : Protocol} (h : variantOfName variants s = .ok p) : p.name = s := by
  unfold variantOfName at h
  split at h
  · rename_i v hv
    obtain ⟨q, -, rfl⟩ := List.mem_map.1 (List.mem_of_find?_eq_some hv)
    obtain rfl : q = p := Except.ok.inj h
    simpa using List.find?_some hv
  · cases h

theorem Misfit.refuses {t : Input} (h : Misfit t) : Refuses Protocol.read t := by
  cases h with
  | scalar ht => exact ht.refuses_readVariant variants
  | string ht hs => exact ht.refuses_readVariant fun p hp => hs p (name_of_variantOfName hp)

end Protocol

namespace Flag

/-- A text of a flag: its name, in any case. -/
def IsText (t : Input) (f : Flag) : Prop := ∃ n, StringText t n ∧ ofName? n = some f

/-- A string that is the name of no flag, or no string. -/
def Misfit : Input → Prop := MisfitText fun n => ofName? n = none

/-- The flag of a name in a document. -/
def checked (n : String) : Except Error Flag :=
  match ofName? n with
  | some f => .ok f
  | none => .error (.refused (FlagSet.unknownMessage n))

theorem Misfit.refuses {t : Input} (h : Misfit t) : Refuses (refined (readText "a string") checked) t := by
  cases h with
  | scalar ht => exact (ht.refuses_readText "a string").refined checked
  | @string n ht hn => exact ht.refuses_refined "a string" fun f hf => by simp [checked, hn] at hf

end Flag

namespace FlagSet

/-- A text of a set: a list of its flags. -/
def IsText (t : Input) (s : FlagSet) : Prop := ∃ fs, ListOf Flag.IsText t fs ∧ s = .ofList fs

/-- A list with an item that is no flag, or no list. -/
def Misfit : Input → Prop := MisfitList Flag.Misfit

theorem consumes_read : Consumes FlagSet.read := (consumes_readText "a string").list.refined checked

/-- The names of flags are read as the set of the flags, whatever case they are in. -/
theorem ofNames_eq_ok {names : List String} {fs : List Flag}
    (h : List.Forall₂ (fun n f => Flag.ofName? n = some f) names fs) : ofNames names = .ok (ofList fs) := by
  induction h with
  | nil => rfl
  | @cons n f _ fs hf _ ih =>
    have hset : singleton f ∪ ofList fs = ofList (f :: fs) := ext_has fun g => by simp [eq_comm]
    rw [ofNames, hf, ih, ← hset]
    rfl

theorem IsText.reads {t : Input} {s : FlagSet} (h : IsText t s) : Reads FlagSet.read t s := by
  obtain ⟨fs, ⟨vs, ht, hvs⟩, rfl⟩ := h
  obtain ⟨names, hnames, hfs⟩ : ∃ names, List.Forall₂ (Reads (readText "a string")) vs names ∧
      List.Forall₂ (fun n f => Flag.ofName? n = some f) names fs := by
    clear ht
    induction hvs with
    | nil => exact ⟨[], .nil, .nil⟩
    | cons hf _ ih =>
      obtain ⟨n, hn, hf⟩ := hf
      obtain ⟨names, hnames, hfs⟩ := ih
      exact ⟨n :: names, .cons (hn.reads "a string") hnames, .cons hf hfs⟩
  exact Reads.refined (ht.reads hnames) (checked_eq_ok_iff.2 (ofNames_eq_ok hfs))

theorem Misfit.refuses {t : Input} (h : Misfit t) : Refuses FlagSet.read t := by
  have hitem : Consumes (refined (readText "a string") Flag.checked) := (consumes_readText "a string").refined _
  have hlist := MisfitList.refuses h hitem fun w hw => hw.refuses
  refine hlist.refined_list fun names s hs n hn => ?_
  obtain ⟨f, hf⟩ := Flag.isKnown_iff.1 ((ofNames_eq_ok_iff.1 (checked_eq_ok_iff.1 hs)).1 n hn)
  exact ⟨f, by rw [Flag.checked, hf]⟩

end FlagSet

/-! ## Options -/

namespace ResolveOptions

/-- The members of an object settle the options, field by field. -/
structure SettledBy (ms : List (String × Input)) (o : ResolveOptions) : Prop where
  protocol : Settles Protocol.IsText default.protocol "protocol" ms o.protocol
  flags : Settles FlagSet.IsText default.flags "flags" ms o.flags
  defaultService : Settles StringText default.defaultService "default_service" ms o.defaultService

/-- A text of options: an object whose members settle them. -/
def IsText (t : Input) (o : ResolveOptions) : Prop := ∃ ms, ObjectText t ms ∧ SettledBy ms o

/-- Each field comes at most once, with a valid value. -/
structure AreFit (ms : List (String × Input)) : Prop where
  protocol : Fits (fun v => ∃ p, Protocol.IsText v p) "protocol" ms
  flags : Fits (fun v => ∃ s, FlagSet.IsText v s) "flags" ms
  defaultService : Fits (fun v => ∃ s, StringText v s) "default_service" ms

/-- Objects that differ in the order of the fields and in other members. -/
def Alike (t t' : Input) : Prop :=
  ∃ ms ms', ObjectText t ms ∧ ObjectText t' ms' ∧
    Rearranged (fields.map RecordField.name) (fun _ v w => v = w) ms ms'

/-- A member whose value denotes nothing. -/
inductive Misfit : String → Input → Prop
  | protocol {v : Input} (hv : Protocol.Misfit v) : Misfit "protocol" v
  | flags {v : Input} (hv : FlagSet.Misfit v) : Misfit "flags" v
  | defaultService {v : Input} (hv : ScalarText v) : Misfit "default_service" v

/-- The members of an object settle options exactly if they fit. -/
theorem areFit_iff {ms : List (String × Input)} : AreFit ms ↔ ∃ o, SettledBy ms o := by
  constructor
  · intro h
    obtain ⟨p, hp⟩ := h.protocol.exists_settles (fun _ h => h) default.protocol
    obtain ⟨s, hs⟩ := h.flags.exists_settles (fun _ h => h) default.flags
    obtain ⟨d, hd⟩ := h.defaultService.exists_settles (fun _ h => h) default.defaultService
    exact ⟨⟨p, s, d⟩, hp, hs, hd⟩
  · rintro ⟨o, h⟩
    exact ⟨h.protocol.fits, h.flags.fits, h.defaultService.fits⟩

theorem SettledBy.rearranged {ms ms' : List (String × Input)} {o : ResolveOptions} (h : SettledBy ms o)
    (hms : Rearranged (fields.map RecordField.name) (fun _ v w => v = w) ms ms') : SettledBy ms' o where
  protocol := hms.settles (by decide) (fun _ _ hvw hv => hvw ▸ hv) h.protocol
  flags := hms.settles (by decide) (fun _ _ hvw hv => hvw ▸ hv) h.flags
  defaultService := hms.settles (by decide) (fun _ _ hvw hv => hvw ▸ hv) h.defaultService

theorem Alike.isText {t t' : Input} (h : Alike t t') {o : ResolveOptions} (ho : IsText t o) : IsText t' o := by
  obtain ⟨ms, ms', ht, ht', hms⟩ := h
  obtain ⟨os, hos, hsettled⟩ := ho
  obtain rfl : os = ms := hos.unique ht (rfl : t ++ [] = t ++ [])
  exact ⟨ms', ht', hsettled.rearranged hms⟩

/-- Each field is read by the reader of its values. -/
theorem fields_eq :
    fields =
      [valueField "protocol" (fun d => d.protocol.isSome) Protocol.read fun d x => { d with protocol := some x },
        valueField "flags" (fun d => d.flags.isSome) FlagSet.read fun d x => { d with flags := some x },
        valueField "default_service" (fun d => d.defaultService.isSome) (readText "a string")
          fun d x => { d with defaultService := some x }] :=
  rfl

theorem threeFields :
    ThreeFields fields "protocol" "flags" "default_service" Protocol.read FlagSet.read (readText "a string")
      Draft.mk where
  first y z := fieldReads_valueField (by rw [fields_eq]; rfl) rfl fun _ => rfl
  second x z := fieldReads_valueField (by rw [fields_eq]; rfl) rfl fun _ => rfl
  third x y := fieldReads_valueField (by rw [fields_eq]; rfl) rfl fun _ => rfl
  other key ha hb hc := by simp [fields, ha.symm, hb.symm, hc.symm]
  distinct := by decide

theorem consumes_fields : ∀ f ∈ fields, ∀ d, Consumes (f.read d) := by
  simp only [fields_eq, List.forall_mem_cons, List.not_mem_nil, false_implies, implies_true, and_true]
  exact ⟨Protocol.consumes_read.valueField, FlagSet.consumes_read.valueField,
    (consumes_readText "a string").valueField⟩

theorem consumes_read : Consumes ResolveOptions.read :=
  (consumes_record "struct ResolveOptions" consumes_fields .empty).refined fun d => .ok d.finish

theorem IsText.reads {t : Input} {o : ResolveOptions} (h : IsText t o) : Reads ResolveOptions.read t o := by
  obtain ⟨ms, ht, hms⟩ := h
  obtain ⟨x, hx, hprotocol⟩ := hms.protocol.fills fun _ _ h => h.reads
  obtain ⟨y, hy, hflags⟩ := hms.flags.fills fun _ _ h => h.reads
  obtain ⟨z, hz, hservice⟩ := hms.defaultService.fills fun _ _ h => h.reads "a string"
  have hfinish : Draft.finish ⟨x, y, z⟩ = o := by rw [Draft.finish, hprotocol, hflags, hservice]
  have hdraft := threeFields.drafted hx hy hz
  exact (ht.reads "struct ResolveOptions" hdraft).refined (f := fun d => .ok d.finish) (congrArg Except.ok hfinish)

theorem Misfit.exists_field {key : String} {v : Input} (h : Misfit key v) :
    ∃ f, fields.find? (·.name == key) = some f ∧ ∀ d, Refuses (f.read d) v := by
  rw [fields_eq]
  cases h with
  | protocol hv => exact ⟨_, rfl, hv.refuses.valueField⟩
  | flags hv => exact ⟨_, rfl, hv.refuses.valueField⟩
  | defaultService hv => exact ⟨_, rfl, (hv.refuses_readText "a string").valueField⟩

theorem refuses_of_misfit {t : Input} (h : MisfitObject Misfit t) : Refuses ResolveOptions.read t :=
  (h.refuses "struct ResolveOptions" Draft.empty consumes_fields fun _ _ hw => hw.exists_field).refined
    fun d => .ok d.finish

end ResolveOptions

/-! ## Configurations -/

/-- A document of an object with these members, with any blanks around it. -/
def DocumentText (t : String) (ms : List (String × Input)) : Prop :=
  ∃ bs obj bs', IsBlanks bs ∧ ObjectText obj ms ∧ IsBlanks bs' ∧ t.toList = bs ++ (obj ++ bs')

theorem documentText_layout (ms : List (String × Input)) (hms : ∀ m ∈ ms, ValueText m.2) {t : String}
    (ht : t.toList = layout ms) : DocumentText t ms :=
  ⟨[], layout ms, [], isBlanks_nil, objectText_layout ms hms, isBlanks_nil, by simp [ht]⟩

namespace PeerConfig

/-- The members of an object settle the configuration, field by field. -/
structure SettledBy (ms : List (String × Input)) (c : PeerConfig) : Prop where
  listenOn : Settles Endpoint.IsText default.listenOn "listen_on" ms c.listenOn
  contacts : Settles (ListOf Endpoint.IsText) default.contacts "contacts" ms c.contacts
  resolve : Settles ResolveOptions.IsText default.resolve "resolve" ms c.resolve

/-- Each field comes at most once, with a valid value; so does each field of the options. -/
structure AreFit (ms : List (String × Input)) : Prop where
  listenOn : Fits (fun v => ∃ e, Endpoint.IsText v e) "listen_on" ms
  contacts : Fits (fun v => ∃ es, ListOf Endpoint.IsText v es) "contacts" ms
  resolve : Fits (fun v => ∃ os, ObjectText v os ∧ ResolveOptions.AreFit os) "resolve" ms

/-- Values of a field that count as the same: options may differ in the order of their fields and in other members. -/
def Alike (key : String) (v w : Input) : Prop := v = w ∨ key = "resolve" ∧ ResolveOptions.Alike v w

/-- A member whose value denotes nothing. -/
inductive Misfit : String → Input → Prop
  | listenOn {v : Input} (hv : Endpoint.Misfit v) : Misfit "listen_on" v
  | contacts {v : Input} (hv : MisfitList Endpoint.Misfit v) : Misfit "contacts" v
  | resolve {v : Input} (hv : MisfitObject ResolveOptions.Misfit v) : Misfit "resolve" v

/-- The members of an object settle a configuration exactly if they fit. -/
theorem areFit_iff {ms : List (String × Input)} : AreFit ms ↔ ∃ c, SettledBy ms c := by
  constructor
  · intro h
    have hoptions : ∀ v, (∃ os, ObjectText v os ∧ ResolveOptions.AreFit os) → ∃ o, ResolveOptions.IsText v o := by
      rintro v ⟨os, hv, hos⟩
      obtain ⟨o, ho⟩ := ResolveOptions.areFit_iff.1 hos
      exact ⟨o, os, hv, ho⟩
    obtain ⟨e, he⟩ := h.listenOn.exists_settles (fun _ h => h) default.listenOn
    obtain ⟨es, hes⟩ := h.contacts.exists_settles (fun _ h => h) default.contacts
    obtain ⟨o, ho⟩ := h.resolve.exists_settles hoptions default.resolve
    exact ⟨⟨e, es, o⟩, he, hes, ho⟩
  · rintro ⟨c, h⟩
    refine ⟨h.listenOn.fits, h.contacts.fits, h.resolve.once, fun v hv => ?_⟩
    obtain ⟨os, hos, ho⟩ := h.resolve.present v hv
    exact ⟨os, hos, ResolveOptions.areFit_iff.2 ⟨_, ho⟩⟩

theorem Alike.eq {key : String} {v w : Input} (h : Alike key v w) (hkey : key ≠ "resolve") : v = w :=
  h.resolve_right fun h => hkey h.1

theorem SettledBy.rearranged {ms ms' : List (String × Input)} {c : PeerConfig} (h : SettledBy ms c)
    (hms : Rearranged (fields.map RecordField.name) Alike ms ms') : SettledBy ms' c where
  listenOn := hms.settles (by decide) (fun _ _ hvw hv => hvw.eq (by decide) ▸ hv) h.listenOn
  contacts := hms.settles (by decide) (fun _ _ hvw hv => hvw.eq (by decide) ▸ hv) h.contacts
  resolve := by
    refine hms.settles (by decide) (fun v w hvw hv => ?_) h.resolve
    rcases hvw with rfl | ⟨-, hvw⟩
    · exact hv
    · exact hvw.isText hv

/-- Each field is read by the reader of its values. -/
theorem fields_eq :
    fields =
      [valueField "listen_on" (fun d => d.listenOn.isSome) Endpoint.read fun d x => { d with listenOn := some x },
        valueField "contacts" (fun d => d.contacts.isSome) (readList Endpoint.read)
          fun d x => { d with contacts := some x },
        valueField "resolve" (fun d => d.resolve.isSome) ResolveOptions.read fun d x => { d with resolve := some x }] :=
  rfl

theorem threeFields :
    ThreeFields fields "listen_on" "contacts" "resolve" Endpoint.read (readList Endpoint.read) ResolveOptions.read
      Draft.mk where
  first y z := fieldReads_valueField (by rw [fields_eq]; rfl) rfl fun _ => rfl
  second x z := fieldReads_valueField (by rw [fields_eq]; rfl) rfl fun _ => rfl
  third x y := fieldReads_valueField (by rw [fields_eq]; rfl) rfl fun _ => rfl
  other key ha hb hc := by simp [fields, ha.symm, hb.symm, hc.symm]
  distinct := by decide

theorem consumes_fields : ∀ f ∈ fields, ∀ d, Consumes (f.read d) := by
  simp only [fields_eq, List.forall_mem_cons, List.not_mem_nil, false_implies, implies_true, and_true]
  exact ⟨Endpoint.consumes_read.valueField, Endpoint.consumes_read.list.valueField,
    ResolveOptions.consumes_read.valueField⟩

/-- An object is read as the configuration that its members settle. -/
theorem SettledBy.reads {t : Input} {ms : List (String × Input)} {c : PeerConfig} (h : SettledBy ms c)
    (ht : ObjectText t ms) : Reads PeerConfig.read t c := by
  obtain ⟨x, hx, hlisten⟩ := h.listenOn.fills fun _ _ h => h.reads
  obtain ⟨y, hy, hcontacts⟩ := h.contacts.fills fun _ _ h => h.reads fun _ _ h => h.reads
  obtain ⟨z, hz, hresolve⟩ := h.resolve.fills fun _ _ h => h.reads
  have hfinish : Draft.finish ⟨x, y, z⟩ = c := by rw [Draft.finish_eq, hlisten, hcontacts, hresolve]
  have hdraft := threeFields.drafted hx hy hz
  exact (ht.reads "struct PeerConfig" hdraft).refined (f := fun d => .ok d.finish) (congrArg Except.ok hfinish)

theorem Misfit.exists_field {key : String} {v : Input} (h : Misfit key v) :
    ∃ f, fields.find? (·.name == key) = some f ∧ ∀ d, Refuses (f.read d) v := by
  rw [fields_eq]
  cases h with
  | listenOn hv => exact ⟨_, rfl, hv.refuses.valueField⟩
  | contacts hv =>
    have hlist := hv.refuses Endpoint.consumes_read fun _ hw => hw.refuses
    exact ⟨_, rfl, hlist.valueField⟩
  | resolve hv => exact ⟨_, rfl, (ResolveOptions.refuses_of_misfit hv).valueField⟩

/-- An object with a value that denotes nothing is no configuration. -/
theorem Misfit.refuses {key : String} {t v : Input} {ms : List (String × Input)} (h : Misfit key v)
    (ht : ObjectText t ms) (hm : (key, v) ∈ ms) : Refuses PeerConfig.read t := by
  have hobject : MisfitObject Misfit t := .member ht hm h
  have hrecord := hobject.refuses "struct PeerConfig" Draft.empty consumes_fields fun _ _ hw => hw.exists_field
  exact hrecord.refined fun d => .ok d.finish

/-- A document is read as the configuration that its members settle. -/
theorem SettledBy.load {t : String} {ms : List (String × Input)} {c : PeerConfig} (h : SettledBy ms c)
    (ht : DocumentText t ms) : load t = .ok c := by
  obtain ⟨bs, obj, bs', hbs, hobj, hbs', htext⟩ := ht
  have hread : ofJson t = .ok c := (h.reads hobj).document hbs hbs' htext
  rw [PeerConfig.load, hread]
  rfl

/-- Reading a document is reading the fields that are there over the defaults. The members settle a configuration exactly
if each field comes at most once and with a valid value, and the document is read as that configuration: it has the value
of each field that is there, and the default of any other, and so have its options. Another order of the fields, other
members, or either in the options, make no difference. If the value of some field denotes nothing, the document is
refused, whatever else it holds. -/
theorem load_present_over_default {t : String} {ms : List (String × Input)} (ht : DocumentText t ms) :
    (AreFit ms ↔ ∃ c, SettledBy ms c) ∧
    (∀ c, SettledBy ms c → load t = .ok c) ∧
    (∀ t' ms', DocumentText t' ms' → Rearranged (fields.map RecordField.name) Alike ms ms' → AreFit ms →
      load t' = load t) ∧
    ∀ key v, (key, v) ∈ ms → Misfit key v → ∃ cause, load t = .error (.json cause) := by
  refine ⟨areFit_iff, fun c hc => hc.load ht, fun t' ms' ht' hms hfit => ?_, fun key v hv hmisfit => ?_⟩
  · obtain ⟨c, hc⟩ := areFit_iff.1 hfit
    rw [hc.load ht, (hc.rearranged hms).load ht']
  · obtain ⟨bs, obj, bs', hbs, hobj, hbs', htext⟩ := ht
    obtain ⟨e, he⟩ := (hmisfit.refuses hobj hv).document hbs hbs' htext
    refine ⟨e, ?_⟩
    rw [load, ofJson, he]
    rfl

/-- A document of a family alone, with half a surrogate pair in a member that is no field, then with another such member
beside the family; and one with a contact that is null. -/
theorem load_present_over_default_family :
    load "\x7b\"x\":\"\\ud800\",\"resolve\":\x7b\"protocol\":\"v6\"\x7d\x7d" =
      .ok ⟨standardListenOn, [], ⟨.v6, .default, "12000"⟩⟩ ∧
    load "\x7b\"resolve\":\x7b\"y\":null,\"protocol\":\"v6\"\x7d\x7d" =
      .ok ⟨standardListenOn, [], ⟨.v6, .default, "12000"⟩⟩ ∧
    ∃ cause, load "\x7b\"contacts\":[null]\x7d" = .error (.json cause) := by
  let os : List (String × Input) := [("protocol", quote "v6")]
  let os' : List (String × Input) := [("y", "null".toList), ("protocol", quote "v6")]
  let ms : List (String × Input) := [("x", "\"\\ud800\"".toList), ("resolve", layout os)]
  let ms' : List (String × Input) := [("resolve", layout os')]
  let ms'' : List (String × Input) := [("contacts", "[null]".toList)]
  have hv6 : StringText (quote "v6") "v6" := stringText_iff.2 (readsString_quote "v6")
  have hnull : ScalarText "null".toList := .word (by decide)
  have hdigits : Hexadecimal.read? ['d', '8', '0', '0'] = some 0xd800 := by decide
  have hhalf : UnitsText ('\\' :: 'u' :: (['d', '8', '0', '0'] ++ ['"'])) :=
    .unit rfl (Hexadecimal.isSome_of_read? hdigits) .close
  have hx : ValueText "\"\\ud800\"".toList := .string ⟨_, rfl, hhalf⟩
  have hlist : ListText "[null]".toList ["null".toList] :=
    ⟨_, rfl, .cons (.first isBlanks_nil) (.nil isBlanks_nil), List.forall_mem_singleton.2 (.scalar hnull)⟩
  have hos : ObjectText (layout os) os := objectText_layout os (List.forall_mem_singleton.2 hv6.value)
  have hos' : ObjectText (layout os') os' :=
    objectText_layout os' (List.forall_mem_cons.2 ⟨.scalar hnull, List.forall_mem_singleton.2 hv6.value⟩)
  have hdoc : DocumentText "\x7b\"x\":\"\\ud800\",\"resolve\":\x7b\"protocol\":\"v6\"\x7d\x7d" ms :=
    documentText_layout ms (List.forall_mem_cons.2 ⟨hx, List.forall_mem_singleton.2 hos.value⟩) (by decide)
  have hdoc' : DocumentText "\x7b\"resolve\":\x7b\"y\":null,\"protocol\":\"v6\"\x7d\x7d" ms' :=
    documentText_layout ms' (List.forall_mem_singleton.2 hos'.value) (by decide)
  have hdoc'' : DocumentText "\x7b\"contacts\":[null]\x7d" ms'' :=
    documentText_layout ms'' (List.forall_mem_singleton.2 hlist.value) (by decide)
  have hoptions : ResolveOptions.IsText (layout os) ⟨.v6, .default, "12000"⟩ := by
    refine ⟨os, hos, ?_, settles_of_not_mem (by decide), settles_of_not_mem (by decide)⟩
    exact settles_of_mem (by decide) List.mem_cons_self (show Protocol.IsText (quote "v6") .v6 from hv6) _
  have hsettled : SettledBy ms ⟨standardListenOn, [], ⟨.v6, .default, "12000"⟩⟩ := by
    refine ⟨settles_of_not_mem (by decide), settles_of_not_mem (by decide), ?_⟩
    exact settles_of_mem (by decide) (List.mem_cons_of_mem _ List.mem_cons_self) hoptions _
  have halike : Rearranged (fields.map RecordField.name) Alike ms ms' := by
    refine ⟨ms', .cons ⟨rfl, .inr ⟨rfl, os, os', hos, hos', ?_⟩⟩ .nil, .refl _⟩
    exact ⟨os, .cons ⟨rfl, rfl⟩ .nil, .refl _⟩
  obtain ⟨hfit, hload, hsame, -⟩ := load_present_over_default hdoc
  have hread := hload _ hsettled
  refine ⟨hread, (hsame _ ms' hdoc' halike (hfit.2 ⟨_, hsettled⟩)).trans hread, ?_⟩
  exact (load_present_over_default hdoc'').2.2.2 "contacts" _ List.mem_cons_self
    (.contacts (.item hlist List.mem_cons_self (.scalar hnull)))

end PeerConfig

end Peering
