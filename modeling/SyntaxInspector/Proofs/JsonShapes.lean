import Mathlib.Data.List.Forall2
import SyntaxInspector.Json.Decode
import SyntaxInspector.Proofs.JsonCompleteness

/-! # Values of a known shape

What decoders accept, said of JSON values.  A `Shape` relates the values it fits to what they stand
for; it knows nothing of faults, of breaks, or of the order in which a decoder looks at things.

* `TextShape`, `OptionalShape`, `ListShape` are texts, values that may be `null`, and lists;
* `FieldShape` is a field of a record: a member that an object has once or not at all, or the next
  item of an array.  `RecordShape₁` and `RecordShape₂` are records of such fields;
* `Decodes` says of a decoder that it accepts the unbroken values of a shape and no others;
* `decode_eq_ok_iff`: then a text is accepted if and only if it is JSON of such a value. -/

namespace SyntaxInspector.Json

variable {α β : Type}

/-- Which values fit, and what they stand for. -/
abbrev Shape (α : Type) := Draft → α → Prop

/-- A quoted text without unpaired surrogates. -/
inductive TextShape : Shape String
  | text (s : String) : TextShape (.text (some s)) s

/-- A value that may be `null`. -/
inductive OptionalShape (shape : Shape α) : Shape (Option α)
  | null : OptionalShape shape .null none
  | value {d : Draft} {a : α} : d ≠ .null → shape d a → OptionalShape shape d (some a)

/-- An array whose items all fit. -/
inductive ListShape (shape : Shape α) : Shape (List α)
  | array {items : List Draft} {values : List α} (e : Ending) :
      List.Forall₂ shape items values → ListShape shape (.array items e) values

/-- A field of a record: its name, what its values are, what it is in an object without it, and what
it is in an array that ends before it. -/
structure FieldShape (α : Type) where
  name : String
  shape : Shape α
  absent : Option α
  short : Option α

namespace FieldShape

/-- A field that has to be there. -/
def required (name : String) (shape : Shape α) : FieldShape α := ⟨name, shape, none, none⟩

/-- A field that may be `null`, or left out of an object. -/
def optional (name : String) (shape : Shape α) : FieldShape (Option α) :=
  ⟨name, OptionalShape shape, some none, none⟩

/-- A field that is an empty list if it is left out. -/
def listed (name : String) (shape : Shape α) : FieldShape (List α) :=
  ⟨name, ListShape shape, some [], some []⟩

end FieldShape

/-- The values of the members with a key. -/
def valuesOf (key : String) (members : List (Option String × Draft)) : List Draft :=
  (members.filter (·.1 = some key)).map Prod.snd

/-- The field among the members of an object: there once, or absent. -/
inductive FieldShape.InObject (f : FieldShape α) (members : List (Option String × Draft)) :
    α → Prop
  | present {d : Draft} {a : α} : valuesOf f.name members = [d] → f.shape d a → InObject f members a
  | absent {a : α} : valuesOf f.name members = [] → f.absent = some a → InObject f members a

/-- The field as the first of the items of an array, and the items behind it. -/
inductive FieldShape.Heads (f : FieldShape α) : List Draft → α → List Draft → Prop
  | item {d : Draft} {ds : List Draft} {a : α} : f.shape d a → Heads f (d :: ds) a ds
  | short {a : α} : f.short = some a → Heads f [] a []

/-- The keys of an object are texts without unpaired surrogates. -/
def KeysReadable (members : List (Option String × Draft)) : Prop := ∀ m ∈ members, m.1.isSome

/-- A record of one field: an object with it, among other members, or an array of it. -/
inductive RecordShape₁ (f : FieldShape α) : Shape α
  | object {members : List (Option String × Draft)} {a : α} (e : Ending) :
      KeysReadable members → f.InObject members a → RecordShape₁ f (.object members e) a
  | array {items : List Draft} {a : α} (e : Ending) :
      f.Heads items a [] → RecordShape₁ f (.array items e) a

/-- A record of two fields: an object with them, among other members, or an array of them in
order. -/
inductive RecordShape₂ (f : FieldShape α) (g : FieldShape β) : Shape (α × β)
  | object {members : List (Option String × Draft)} {a : α} {b : β} (e : Ending) :
      KeysReadable members → f.InObject members a → g.InObject members b →
      RecordShape₂ f g (.object members e) (a, b)
  | array {items rest : List Draft} {a : α} {b : β} (e : Ending) :
      f.Heads items a rest → g.Heads rest b [] → RecordShape₂ f g (.array items e) (a, b)

/-- The decoder accepts the unbroken values of the shape, and no others. -/
def Decodes (decode : Decoder α) (shape : Shape α) : Prop :=
  ∀ d a, decode d = .ok a ↔ d.skim = none ∧ shape d a

/-! ### Endings -/

theorem close_eq_ok_iff {e : Ending} : e.close = .ok () ↔ e.skimmed = none := by
  cases e <;> simp [Ending.close, Ending.skimmed]

theorem closeFixed_eq_ok_iff {e : Ending} : e.closeFixed = .ok () ↔ e.skimmed = none := by
  cases e <;> simp [Ending.closeFixed, Ending.skimmed]

theorem skimMember_eq_ok_iff {d : Draft} : skimMember d = .ok () ↔ d.skim = none := by
  unfold skimMember
  cases d.skim <;> simp

/-! ### Scalars and lists -/

theorem decodes_text : Decodes decodeText TextShape := by
  intro d s
  constructor
  · intro h
    unfold decodeText at h
    split at h
    · cases h
      exact ⟨rfl, .text s⟩
    · cases h
  · rintro ⟨-, ⟨⟩⟩
    rfl

theorem decodeOptional_of_ne_null {decode : Decoder α} {d : Draft} (h : d ≠ .null) :
    decodeOptional decode d = (decode d).map some := by
  cases d with
  | null => exact absurd rfl h
  | _ => rfl

theorem Decodes.optional {decode : Decoder α} {shape : Shape α} (h : Decodes decode shape) :
    Decodes (decodeOptional decode) (OptionalShape shape) := by
  intro d o
  by_cases hd : d = .null
  · subst hd
    constructor
    · intro ho
      cases ho
      exact ⟨rfl, .null⟩
    · rintro ⟨-, ho⟩
      cases ho with
      | null => rfl
      | value hne => exact absurd rfl hne
  · rw [decodeOptional_of_ne_null hd, map_eq_ok_iff]
    constructor
    · rintro ⟨a, ha, rfl⟩
      obtain ⟨hskim, ha⟩ := (h d a).mp ha
      exact ⟨hskim, .value hd ha⟩
    · rintro ⟨hskim, ho⟩
      cases ho with
      | null => exact absurd rfl hd
      | value _ ha => exact ⟨_, (h d _).mpr ⟨hskim, ha⟩, rfl⟩

theorem mapM_eq_ok_iff {decode : Decoder α} {shape : Shape α} (h : Decodes decode shape)
    {items : List Draft} {values : List α} :
    items.mapM decode = .ok values ↔
      Draft.skimItems items = none ∧ List.Forall₂ shape items values := by
  induction items generalizing values with
  | nil =>
      rw [List.mapM_nil, List.forall₂_nil_left_iff]
      constructor
      · intro hv
        cases hv
        exact ⟨rfl, rfl⟩
      · rintro ⟨-, rfl⟩
        rfl
  | cons d ds ih =>
      rw [List.mapM_cons, bind_eq_ok_iff, List.forall₂_cons_left_iff, Draft.skimItems,
        Option.or_eq_none_iff]
      constructor
      · rintro ⟨a, ha, hds⟩
        obtain ⟨as, has, hvalues⟩ := bind_eq_ok_iff.mp hds
        cases hvalues
        obtain ⟨hskim, ha⟩ := (h d a).mp ha
        obtain ⟨hskims, has⟩ := ih.mp has
        exact ⟨⟨hskim, hskims⟩, a, as, ha, has, rfl⟩
      · rintro ⟨⟨hskim, hskims⟩, a, as, ha, has, rfl⟩
        exact ⟨a, (h d a).mpr ⟨hskim, ha⟩, bind_eq_ok_iff.mpr ⟨as, ih.mpr ⟨hskims, has⟩, rfl⟩⟩

theorem Decodes.list {decode : Decoder α} {shape : Shape α} (h : Decodes decode shape) :
    Decodes (decodeList decode) (ListShape shape) := by
  intro d values
  constructor
  · intro hd
    unfold decodeList at hd
    split at hd
    · rename_i items e
      obtain ⟨as, has, hd⟩ := bind_eq_ok_iff.mp hd
      obtain ⟨⟨⟩, hclose, hd⟩ := bind_eq_ok_iff.mp hd
      cases hd
      obtain ⟨hskim, has⟩ := (mapM_eq_ok_iff h).mp has
      exact ⟨Option.or_eq_none_iff.mpr ⟨hskim, close_eq_ok_iff.mp hclose⟩, .array e has⟩
    · cases hd
  · rintro ⟨hskim, ⟨e, has⟩⟩
    obtain ⟨hskim, he⟩ := Option.or_eq_none_iff.mp hskim
    exact bind_eq_ok_iff.mpr ⟨_, (mapM_eq_ok_iff h).mpr ⟨hskim, has⟩,
      bind_eq_ok_iff.mpr ⟨(), close_eq_ok_iff.mpr he, rfl⟩⟩

/-! ### Fields -/

/-- The field is asked for as its shape has it. -/
structure RecordField.Has (f : RecordField α) (s : FieldShape α) : Prop where
  name : f.name = s.name
  decodes : Decodes f.decode s.shape
  absent : f.absent = s.absent
  short : f.short = s.short

theorem has_required {decode : Decoder α} {shape : Shape α} (name : String)
    (h : Decodes decode shape) :
    (RecordField.required name decode).Has (FieldShape.required name shape) :=
  ⟨rfl, h, rfl, rfl⟩

theorem has_optional {decode : Decoder α} {shape : Shape α} (name : String)
    (h : Decodes decode shape) :
    (RecordField.optional name decode).Has (FieldShape.optional name shape) :=
  ⟨rfl, h.optional, rfl, rfl⟩

theorem has_listed {decode : Decoder α} {shape : Shape α} (name : String)
    (h : Decodes decode shape) :
    (RecordField.listed name decode).Has (FieldShape.listed name shape) :=
  ⟨rfl, h.list, rfl, rfl⟩

/-- What is found of a field among members, if `earlier` was found before. -/
def FieldShape.Finds (s : FieldShape α) (members : List (Option String × Draft))
    (earlier found : Option α) : Prop :=
  (valuesOf s.name members = [] ∧ found = earlier) ∨
    ∃ d a, earlier = none ∧ valuesOf s.name members = [d] ∧ s.shape d a ∧ found = some a

theorem valuesOf_cons_self (key : String) (d : Draft) (ms : List (Option String × Draft)) :
    valuesOf key ((some key, d) :: ms) = d :: valuesOf key ms := by
  simp [valuesOf]

theorem valuesOf_cons_of_ne {key key' : String} (h : key' ≠ key) (d : Draft)
    (ms : List (Option String × Draft)) :
    valuesOf key ((some key', d) :: ms) = valuesOf key ms := by
  simp [valuesOf, h]

theorem keysReadable_cons {key : String} {d : Draft} {ms : List (Option String × Draft)} :
    KeysReadable ((some key, d) :: ms) ↔ KeysReadable ms := by
  simp [KeysReadable]

theorem fill_eq_ok_iff {f : RecordField α} {earlier found : Option α} {d : Draft} :
    f.fill earlier d = .ok found ↔ earlier = none ∧ ∃ a, f.decode d = .ok a ∧ some a = found := by
  unfold RecordField.fill
  cases earlier with
  | none => simp [map_eq_ok_iff]
  | some a => simp

theorem findField₁_cons_self (f : RecordField α) (earlier : Option α) (d : Draft)
    (ms : List (Option String × Draft)) :
    findField₁ f earlier ((some f.name, d) :: ms) =
      (f.fill earlier d >>= fun a => findField₁ f a ms) := by
  simp [findField₁]

theorem findField₁_cons_of_ne {f : RecordField α} {key : String} (h : key ≠ f.name)
    (earlier : Option α) (d : Draft) (ms : List (Option String × Draft)) :
    findField₁ f earlier ((some key, d) :: ms) =
      (skimMember d >>= fun _ => findField₁ f earlier ms) := by
  simp [findField₁, h]

theorem finds_cons_of_ne {s : FieldShape α} {key : String} (h : key ≠ s.name) (d : Draft)
    (ms : List (Option String × Draft)) (earlier found : Option α) :
    s.Finds ((some key, d) :: ms) earlier found ↔ s.Finds ms earlier found := by
  rw [FieldShape.Finds, FieldShape.Finds, valuesOf_cons_of_ne h]

/-- A member of the field's name has to be the only one. -/
theorem finds_cons_self (s : FieldShape α) (d : Draft) (ms : List (Option String × Draft))
    (earlier found : Option α) :
    s.Finds ((some s.name, d) :: ms) earlier found ↔
      earlier = none ∧ ∃ a, s.shape d a ∧ s.Finds ms (some a) found := by
  rw [FieldShape.Finds, valuesOf_cons_self]
  constructor
  · rintro (⟨hnil, -⟩ | ⟨d', a, hearlier, hvalues, ha, rfl⟩)
    · cases hnil
    · obtain ⟨rfl, hnil⟩ := List.cons.inj hvalues
      exact ⟨hearlier, a, ha, .inl ⟨hnil, rfl⟩⟩
  · rintro ⟨hearlier, a, ha, ⟨hnil, rfl⟩ | ⟨d', a', hsome, -⟩⟩
    · exact .inr ⟨d, a, hearlier, by rw [hnil], ha, rfl⟩
    · cases hsome

theorem findField₁_eq_ok_iff {f : RecordField α} {s : FieldShape α} (h : f.Has s)
    {members : List (Option String × Draft)} {earlier found : Option α} :
    findField₁ f earlier members = .ok found ↔
      KeysReadable members ∧ Draft.skimMembers members = none ∧ s.Finds members earlier found := by
  induction members generalizing earlier with
  | nil =>
      have hkeys : KeysReadable [] := by simp [KeysReadable]
      have hfinds : s.Finds [] earlier found ↔ found = earlier := by
        simp [FieldShape.Finds, valuesOf]
      rw [findField₁, Except.ok.injEq, hfinds, eq_comm]
      exact ⟨fun h => ⟨hkeys, rfl, h⟩, fun h => h.2.2⟩
  | cons m ms ih =>
      obtain ⟨_ | key, d⟩ := m
      · simp [findField₁, KeysReadable]
      rw [keysReadable_cons, Draft.skimMembers, Option.or_eq_none_iff]
      by_cases hkey : key = f.name
      · subst hkey
        rw [findField₁_cons_self, bind_eq_ok_iff, h.name, finds_cons_self]
        constructor
        · rintro ⟨o, hfill, hms⟩
          obtain ⟨hearlier, a, ha, rfl⟩ := fill_eq_ok_iff.mp hfill
          obtain ⟨hskim, ha⟩ := (h.decodes d a).mp ha
          obtain ⟨hkeys, hskims, hfinds⟩ := ih.mp hms
          exact ⟨hkeys, ⟨hskim, hskims⟩, hearlier, a, ha, hfinds⟩
        · rintro ⟨hkeys, ⟨hskim, hskims⟩, hearlier, a, ha, hfinds⟩
          have ha := (h.decodes d a).mpr ⟨hskim, ha⟩
          exact ⟨some a, fill_eq_ok_iff.mpr ⟨hearlier, a, ha, rfl⟩,
            ih.mpr ⟨hkeys, hskims, hfinds⟩⟩
      · rw [findField₁_cons_of_ne hkey, bind_eq_ok_iff, finds_cons_of_ne (h.name ▸ hkey)]
        constructor
        · rintro ⟨⟨⟩, hskim, hms⟩
          obtain ⟨hkeys, hskims, hfinds⟩ := ih.mp hms
          exact ⟨hkeys, ⟨skimMember_eq_ok_iff.mp hskim, hskims⟩, hfinds⟩
        · rintro ⟨hkeys, ⟨hskim, hskims⟩, hfinds⟩
          exact ⟨(), skimMember_eq_ok_iff.mpr hskim, ih.mpr ⟨hkeys, hskims, hfinds⟩⟩

theorem exists_eq_ok_of_fill {f : RecordField α} {s : FieldShape α} (h : f.Has s)
    {earlier found : Option α} {d : Draft} (hd : f.fill earlier d = .ok found) :
    skimMember d = .ok () := by
  obtain ⟨-, a, ha, -⟩ := fill_eq_ok_iff.mp hd
  exact skimMember_eq_ok_iff.mpr ((h.decodes d a).mp ha).1

/-- Two fields are looked for as each of them alone. -/
theorem findField₂_eq_ok_iff {f : RecordField α} {g : RecordField β} {s : FieldShape α}
    {t : FieldShape β} (hf : f.Has s) (hg : g.Has t) (hne : f.name ≠ g.name)
    {members : List (Option String × Draft)} {a a' : Option α} {b b' : Option β} :
    findField₂ f g a b members = .ok (a', b') ↔
      findField₁ f a members = .ok a' ∧ findField₁ g b members = .ok b' := by
  induction members generalizing a b with
  | nil => simp [findField₁, findField₂]
  | cons m ms ih =>
      obtain ⟨_ | key, d⟩ := m
      · simp [findField₁, findField₂]
      -- One of the two takes the value and the other skips it, or both skip it.
      by_cases hkey : key = f.name
      · subst hkey
        have hread : findField₂ f g a b ((some f.name, d) :: ms) =
            (f.fill a d >>= fun a => findField₂ f g a b ms) := by simp [findField₂]
        rw [hread, findField₁_cons_self, findField₁_cons_of_ne hne]
        simp only [bind_eq_ok_iff, ih]
        constructor
        · rintro ⟨o, ho, hms, hms'⟩
          exact ⟨⟨o, ho, hms⟩, (), exists_eq_ok_of_fill hf ho, hms'⟩
        · rintro ⟨⟨o, ho, hms⟩, ⟨⟩, -, hms'⟩
          exact ⟨o, ho, hms, hms'⟩
      by_cases hkey' : key = g.name
      · subst hkey'
        have hread : findField₂ f g a b ((some g.name, d) :: ms) =
            (g.fill b d >>= fun b => findField₂ f g a b ms) := by simp [findField₂, hkey]
        rw [hread, findField₁_cons_self, findField₁_cons_of_ne hkey]
        simp only [bind_eq_ok_iff, ih]
        constructor
        · rintro ⟨o, ho, hms, hms'⟩
          exact ⟨⟨(), exists_eq_ok_of_fill hg ho, hms⟩, o, ho, hms'⟩
        · rintro ⟨⟨⟨⟩, -, hms⟩, o, ho, hms'⟩
          exact ⟨o, ho, hms, hms'⟩
      · have hread : findField₂ f g a b ((some key, d) :: ms) =
            (skimMember d >>= fun _ => findField₂ f g a b ms) := by
          simp [findField₂, hkey, hkey']
        rw [hread, findField₁_cons_of_ne hkey, findField₁_cons_of_ne hkey']
        simp only [bind_eq_ok_iff, ih]
        constructor
        · rintro ⟨⟨⟩, hskim, hms, hms'⟩
          exact ⟨⟨(), hskim, hms⟩, (), hskim, hms'⟩
        · rintro ⟨⟨⟨⟩, hskim, hms⟩, ⟨⟩, -, hms'⟩
          exact ⟨(), hskim, hms, hms'⟩

theorem settle_eq_ok_iff {f : RecordField α} {found : Option α} {a : α} :
    f.settle found = .ok a ↔ found.or f.absent = some a := by
  unfold RecordField.settle
  cases found.or f.absent <;> simp

/-- What is found among all members and settled is the field in the object. -/
theorem inObject_iff {s : FieldShape α} {members : List (Option String × Draft)} {a : α} :
    s.InObject members a ↔ ∃ found, s.Finds members none found ∧ found.or s.absent = some a := by
  constructor
  · rintro (⟨hvalues, ha⟩ | ⟨hvalues, ha⟩)
    · exact ⟨some a, .inr ⟨_, a, rfl, hvalues, ha, rfl⟩, rfl⟩
    · exact ⟨none, .inl ⟨hvalues, rfl⟩, ha⟩
  · rintro ⟨found, ⟨hvalues, rfl⟩ | ⟨d, a', -, hvalues, ha, rfl⟩, hsettle⟩
    · exact .absent hvalues hsettle
    · obtain rfl : a' = a := Option.some.inj hsettle
      exact .present hvalues ha

/-! ### Records -/

theorem heads_of_next {f : RecordField α} {s : FieldShape α} (h : f.Has s) {e : Ending}
    {items rest : List Draft} {a : α} (hnext : f.next e items = .ok (a, rest)) :
    s.Heads items a rest ∧ (Draft.skimItems rest = none → Draft.skimItems items = none) := by
  cases items with
  | nil =>
      unfold RecordField.next at hnext
      obtain ⟨⟨⟩, -, hnext⟩ := bind_eq_ok_iff.mp hnext
      split at hnext
      · rename_i hshort
        cases hnext
        exact ⟨.short (h.short ▸ hshort), id⟩
      · cases hnext
  | cons d ds =>
      obtain ⟨a', ha, hpair⟩ := map_eq_ok_iff.mp hnext
      cases hpair
      obtain ⟨hskim, ha⟩ := (h.decodes d a).mp ha
      exact ⟨.item ha, fun hskims => Option.or_eq_none_iff.mpr ⟨hskim, hskims⟩⟩

theorem next_of_heads {f : RecordField α} {s : FieldShape α} (h : f.Has s) {e : Ending}
    {items rest : List Draft} {a : α} (hheads : s.Heads items a rest)
    (hitems : Draft.skimItems items = none) (he : e.skimmed = none) :
    f.next e items = .ok (a, rest) ∧ Draft.skimItems rest = none := by
  cases hheads with
  | item ha =>
      obtain ⟨hskim, hskims⟩ := Option.or_eq_none_iff.mp hitems
      exact ⟨map_eq_ok_iff.mpr ⟨a, (h.decodes _ a).mpr ⟨hskim, ha⟩, rfl⟩, hskims⟩
  | short ha =>
      refine ⟨bind_eq_ok_iff.mpr ⟨(), close_eq_ok_iff.mpr he, ?_⟩, rfl⟩
      rw [h.short, ha]
      rfl

theorem closeRecord_eq_ok_iff {e : Ending} {items : List Draft} :
    closeRecord e items = .ok () ↔ items = [] ∧ e.skimmed = none := by
  cases items with
  | nil => simp [closeRecord, closeFixed_eq_ok_iff]
  | cons d ds => simp [closeRecord]

theorem decodes_record₁ {f : RecordField α} {s : FieldShape α} (h : f.Has s) :
    Decodes (decodeRecord₁ f) (RecordShape₁ s) := by
  intro d a
  constructor
  · intro hd
    unfold decodeRecord₁ at hd
    split at hd
    · rename_i members e
      obtain ⟨found, hfound, hd⟩ := bind_eq_ok_iff.mp hd
      obtain ⟨⟨⟩, hclose, hsettle⟩ := bind_eq_ok_iff.mp hd
      obtain ⟨hkeys, hskim, hfinds⟩ := (findField₁_eq_ok_iff h).mp hfound
      rw [settle_eq_ok_iff, h.absent] at hsettle
      exact ⟨Option.or_eq_none_iff.mpr ⟨hskim, close_eq_ok_iff.mp hclose⟩,
        .object e hkeys (inObject_iff.mpr ⟨found, hfinds, hsettle⟩)⟩
    · rename_i items e
      obtain ⟨⟨a', rest⟩, hnext, hd⟩ := bind_eq_ok_iff.mp hd
      obtain ⟨⟨⟩, hclose, hd⟩ := bind_eq_ok_iff.mp hd
      cases hd
      obtain ⟨rfl, he⟩ := closeRecord_eq_ok_iff.mp hclose
      obtain ⟨hheads, hskim⟩ := heads_of_next h hnext
      exact ⟨Option.or_eq_none_iff.mpr ⟨hskim rfl, he⟩, .array e hheads⟩
    · cases hd
  · rintro ⟨hskim, ⟨e, hkeys, hobject⟩ | ⟨e, hheads⟩⟩
    · obtain ⟨hskim, he⟩ := Option.or_eq_none_iff.mp hskim
      obtain ⟨found, hfinds, hsettle⟩ := inObject_iff.mp hobject
      have hfound := (findField₁_eq_ok_iff h).mpr ⟨hkeys, hskim, hfinds⟩
      exact bind_eq_ok_iff.mpr ⟨found, hfound, bind_eq_ok_iff.mpr ⟨(), close_eq_ok_iff.mpr he,
        settle_eq_ok_iff.mpr (h.absent ▸ hsettle)⟩⟩
    · obtain ⟨hskim, he⟩ := Option.or_eq_none_iff.mp hskim
      obtain ⟨hnext, -⟩ := next_of_heads h hheads hskim he
      exact bind_eq_ok_iff.mpr ⟨_, hnext, bind_eq_ok_iff.mpr ⟨(),
        closeRecord_eq_ok_iff.mpr ⟨rfl, he⟩, rfl⟩⟩

theorem decodes_record₂ {f : RecordField α} {g : RecordField β} {s : FieldShape α}
    {t : FieldShape β} (hf : f.Has s) (hg : g.Has t) (hne : f.name ≠ g.name) :
    Decodes (decodeRecord₂ f g) (RecordShape₂ s t) := by
  rintro d ⟨a, b⟩
  constructor
  · intro hd
    unfold decodeRecord₂ at hd
    split at hd
    · rename_i members e
      obtain ⟨⟨found, found'⟩, hfound, hd⟩ := bind_eq_ok_iff.mp hd
      obtain ⟨⟨⟩, hclose, hd⟩ := bind_eq_ok_iff.mp hd
      obtain ⟨a', hsettle, hd⟩ := bind_eq_ok_iff.mp hd
      obtain ⟨b', hsettle', hd⟩ := bind_eq_ok_iff.mp hd
      cases hd
      obtain ⟨hfound, hfound'⟩ := (findField₂_eq_ok_iff hf hg hne).mp hfound
      obtain ⟨hkeys, hskim, hfinds⟩ := (findField₁_eq_ok_iff hf).mp hfound
      obtain ⟨-, -, hfinds'⟩ := (findField₁_eq_ok_iff hg).mp hfound'
      rw [settle_eq_ok_iff, hf.absent] at hsettle
      rw [settle_eq_ok_iff, hg.absent] at hsettle'
      exact ⟨Option.or_eq_none_iff.mpr ⟨hskim, close_eq_ok_iff.mp hclose⟩,
        .object e hkeys (inObject_iff.mpr ⟨found, hfinds, hsettle⟩)
          (inObject_iff.mpr ⟨found', hfinds', hsettle'⟩)⟩
    · rename_i items e
      obtain ⟨⟨a', rest⟩, hnext, hd⟩ := bind_eq_ok_iff.mp hd
      obtain ⟨⟨b', rest'⟩, hnext', hd⟩ := bind_eq_ok_iff.mp hd
      obtain ⟨⟨⟩, hclose, hd⟩ := bind_eq_ok_iff.mp hd
      cases hd
      obtain ⟨rfl, he⟩ := closeRecord_eq_ok_iff.mp hclose
      obtain ⟨hheads, hskim⟩ := heads_of_next hf hnext
      obtain ⟨hheads', hskim'⟩ := heads_of_next hg hnext'
      exact ⟨Option.or_eq_none_iff.mpr ⟨hskim (hskim' rfl), he⟩, .array e hheads hheads'⟩
    · cases hd
  · rintro ⟨hskim, ⟨e, hkeys, hobject, hobject'⟩ | ⟨e, hheads, hheads'⟩⟩
    · obtain ⟨hskim, he⟩ := Option.or_eq_none_iff.mp hskim
      obtain ⟨found, hfinds, hsettle⟩ := inObject_iff.mp hobject
      obtain ⟨found', hfinds', hsettle'⟩ := inObject_iff.mp hobject'
      have hfound := (findField₂_eq_ok_iff hf hg hne).mpr
        ⟨(findField₁_eq_ok_iff hf).mpr ⟨hkeys, hskim, hfinds⟩,
          (findField₁_eq_ok_iff hg).mpr ⟨hkeys, hskim, hfinds'⟩⟩
      refine bind_eq_ok_iff.mpr ⟨(found, found'), hfound, bind_eq_ok_iff.mpr
        ⟨(), close_eq_ok_iff.mpr he, ?_⟩⟩
      exact bind_eq_ok_iff.mpr ⟨a, settle_eq_ok_iff.mpr (hf.absent ▸ hsettle),
        bind_eq_ok_iff.mpr ⟨b, settle_eq_ok_iff.mpr (hg.absent ▸ hsettle'), rfl⟩⟩
    · obtain ⟨hskim, he⟩ := Option.or_eq_none_iff.mp hskim
      obtain ⟨hnext, hskim'⟩ := next_of_heads hf hheads hskim he
      obtain ⟨hnext', -⟩ := next_of_heads hg hheads' hskim' he
      exact bind_eq_ok_iff.mpr ⟨_, hnext, bind_eq_ok_iff.mpr ⟨_, hnext', bind_eq_ok_iff.mpr
        ⟨(), closeRecord_eq_ok_iff.mpr ⟨rfl, he⟩, rfl⟩⟩⟩

/-! ### Whole texts -/

/-- A text is decoded if and only if it is JSON of a value that fits. -/
theorem decode_eq_ok_iff {decode : Decoder α} {shape : Shape α} (h : Decodes decode shape)
    (s : String) (a : α) : (read s).decode decode = .ok a ↔ ∃ d, IsJson s d ∧ shape d a := by
  constructor
  · intro hs
    obtain ⟨a', ha, hs⟩ := bind_eq_ok_iff.mp hs
    split at hs
    · cases hs
    · rename_i htrailing
      cases hs
      obtain ⟨hskim, hfits⟩ := (h _ _).mp ha
      refine ⟨(read s).value, isJson_iff.mpr ⟨?_, hskim⟩, hfits⟩
      rw [Bool.not_eq_true] at htrailing
      rw [← htrailing]
  · rintro ⟨d, hs, hfits⟩
    obtain ⟨hread, hskim⟩ := isJson_iff.mp hs
    rw [hread]
    exact bind_eq_ok_iff.mpr ⟨a, (h d a).mpr ⟨hskim, hfits⟩, rfl⟩

end SyntaxInspector.Json
