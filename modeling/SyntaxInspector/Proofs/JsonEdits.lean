import SyntaxInspector.Proofs.JsonShapes

/-! # Edited JSON

Values of a known shape are changed in places that their decoders do not look at, or in ways that
make no difference to what they stand for.

* `ItemEdit` changes one item of an array.  `MembersEdit` adds members that no field is named after,
  replaces their values, brings members into another order, or does with a field what its
  `FieldEdit` allows; `RecordEdit` does so with a record.
* `Functional` says that a value of a shape stands for one thing only.
* `Preserves` says that what a value stands for changes under an edit at most up to some relation,
  and `FieldEdit.Preserves` says so of a field.  `Preserves.list`, `Preserves.optional`,
  `preserves_record₁` and `preserves_record₂` carry this from the parts of a value to the value. -/

namespace SyntaxInspector.Json

variable {α β : Type}

/-- Which values may be replaced by which others. -/
abbrev Edit := Draft → Draft → Prop

/-- An object as its members. -/
abbrev Members := List (Option String × Draft)

/-- One item of an array is changed. -/
inductive ItemEdit (edit : Edit) : Edit
  | mk (before after : List Draft) {d d' : Draft} :
      edit d d' → ItemEdit edit (.array (before ++ d :: after) .closed)
        (.array (before ++ d' :: after) .closed)

/-- How the value of a field may be changed, and what may be put in where the field is absent. -/
structure FieldEdit where
  changed : Edit
  given : Draft → Prop

/-- A field that is left as it is. -/
def FieldEdit.none : FieldEdit := ⟨fun _ _ => False, fun _ => False⟩

/-- Members of an object are changed.  The fields have some names, and with each may be done what
its edit allows; nothing else matters. -/
inductive MembersEdit (names : List String) (edit : String → FieldEdit) : Members → Members → Prop
  | added (before after : Members) {key : String} (d : Draft) :
      key ∉ names → MembersEdit names edit (before ++ after) (before ++ (some key, d) :: after)
  | ignored (before after : Members) {key : String} (d d' : Draft) :
      key ∉ names → MembersEdit names edit (before ++ (some key, d) :: after)
        (before ++ (some key, d') :: after)
  | reordered {members members' : Members} :
      members.Perm members' → MembersEdit names edit members members'
  | field (before after : Members) {key : String} {d d' : Draft} :
      key ∈ names → (edit key).changed d d' →
      MembersEdit names edit (before ++ (some key, d) :: after) (before ++ (some key, d') :: after)
  | given (before after : Members) {key : String} {d : Draft} :
      key ∈ names → valuesOf key (before ++ after) = [] → (edit key).given d →
      MembersEdit names edit (before ++ after) (before ++ (some key, d) :: after)

/-- A record is changed: an object in its members, an array of the fields in the value of one. -/
inductive RecordEdit (names : List String) (edit : String → FieldEdit) : Edit
  | object {members members' : Members} :
      MembersEdit names edit members members' →
      RecordEdit names edit (.object members .closed) (.object members' .closed)
  | array (before after : List Draft) {key : String} {d d' : Draft} :
      names[before.length]? = some key → (edit key).changed d d' →
      RecordEdit names edit (.array (before ++ d :: after) .closed)
        (.array (before ++ d' :: after) .closed)

/-! ### What a value stands for -/

/-- A value stands for one thing only. -/
def Functional (shape : Shape α) : Prop :=
  ∀ ⦃d : Draft⦄ ⦃a a' : α⦄, shape d a → shape d a' → a = a'

theorem functional_text : Functional TextShape := by
  rintro _ _ _ ⟨⟩ ⟨⟩
  rfl

theorem Functional.optional {shape : Shape α} (h : Functional shape) :
    Functional (OptionalShape shape) := by
  intro d a a' ha ha'
  cases ha with
  | null =>
      cases ha' with
      | null => rfl
      | value hne => exact absurd rfl hne
  | value hne ha =>
      cases ha' with
      | null => exact absurd rfl hne
      | value _ ha' => rw [h ha ha']

theorem Functional.inObject {f : FieldShape α} (h : Functional f.shape) {members : Members}
    {a a' : α} (ha : f.InObject members a) (ha' : f.InObject members a') : a = a' := by
  cases ha with
  | present hd ha =>
      cases ha' with
      | present hd' ha' =>
          obtain ⟨rfl, -⟩ := List.cons.inj (hd.symm.trans hd')
          exact h ha ha'
      | absent hnil => cases hd.symm.trans hnil
  | absent hnil ha =>
      cases ha' with
      | present hd' => cases hnil.symm.trans hd'
      | absent _ ha' => exact Option.some.inj (ha.symm.trans ha')

theorem Functional.heads {f : FieldShape α} (h : Functional f.shape) {items rest rest' : List Draft}
    {a a' : α} (ha : f.Heads items a rest) (ha' : f.Heads items a' rest') : a = a' := by
  cases ha with
  | item ha =>
      cases ha' with
      | item ha' => exact h ha ha'
  | short ha =>
      cases ha' with
      | short ha' => exact Option.some.inj (ha.symm.trans ha')

theorem Functional.record₁ {f : FieldShape α} (h : Functional f.shape) :
    Functional (RecordShape₁ f) := by
  intro d a a' ha ha'
  cases ha with
  | object _ _ ha =>
      cases ha' with
      | object _ _ ha' => exact h.inObject ha ha'
  | array _ ha =>
      cases ha' with
      | array _ ha' => exact h.heads ha ha'

theorem Functional.forall₂ {shape : Shape α} (h : Functional shape) {items : List Draft}
    {as as' : List α} (has : List.Forall₂ shape items as) (has' : List.Forall₂ shape items as') :
    as = as' := by
  induction has generalizing as' with
  | nil => cases has' with | nil => rfl
  | cons ha _ ih => cases has' with | cons ha' has' => rw [h ha ha', ih has']

/-! ### Members -/

theorem valuesOf_append (key : String) (ms ms' : Members) :
    valuesOf key (ms ++ ms') = valuesOf key ms ++ valuesOf key ms' := by
  simp [valuesOf]

theorem keysReadable_append {ms ms' : Members} :
    KeysReadable (ms ++ ms') ↔ KeysReadable ms ∧ KeysReadable ms' := by
  simp [KeysReadable, or_imp, forall_and]

theorem MembersEdit.keysReadable {names : List String} {edit : String → FieldEdit}
    {ms ms' : Members} (h : MembersEdit names edit ms ms') (hms : KeysReadable ms) :
    KeysReadable ms' := by
  cases h with
  | added before after | given before after =>
      rwa [keysReadable_append, keysReadable_cons, ← keysReadable_append]
  | ignored before after d d' | field before after =>
      rwa [keysReadable_append, keysReadable_cons] at hms ⊢
  | reordered hperm => exact fun m hm => hms m (hperm.mem_iff.mpr hm)

theorem FieldShape.InObject.congr {f : FieldShape α} {ms ms' : Members} {a : α}
    (h : valuesOf f.name ms' = valuesOf f.name ms) (ha : f.InObject ms a) : f.InObject ms' a := by
  cases ha with
  | present hd ha => exact .present (h.trans hd) ha
  | absent hnil ha => exact .absent (h.trans hnil) ha

theorem valuesOf_perm (key : String) {ms ms' : Members} (h : ms.Perm ms') :
    (valuesOf key ms).Perm (valuesOf key ms') :=
  (h.filter _).map _

theorem FieldShape.InObject.perm {f : FieldShape α} {ms ms' : Members} {a : α} (h : ms.Perm ms')
    (ha : f.InObject ms a) : f.InObject ms' a := by
  have hvalues := valuesOf_perm f.name h
  cases ha with
  | present hd ha =>
      rw [hd] at hvalues
      exact .present (List.perm_singleton.mp hvalues.symm) ha
  | absent hnil ha =>
      rw [hnil] at hvalues
      exact .absent (List.perm_nil.mp hvalues.symm) ha

/-- A field that is there is the only one of its name. -/
theorem FieldShape.InObject.inv {f : FieldShape α} {before after : Members} {d : Draft} {a : α}
    (h : f.InObject (before ++ (some f.name, d) :: after) a) :
    f.shape d a ∧ valuesOf f.name before = [] ∧ valuesOf f.name after = [] := by
  have hvalues : valuesOf f.name (before ++ (some f.name, d) :: after) =
      valuesOf f.name before ++ d :: valuesOf f.name after := by
    rw [valuesOf_append, valuesOf_cons_self]
  cases h with
  | @present d' _ hd ha =>
      rw [hvalues] at hd
      rcases List.append_eq_singleton_iff.mp hd with ⟨hbefore, hd⟩ | ⟨-, hd⟩
      · obtain ⟨rfl, hafter⟩ := List.cons.inj hd
        exact ⟨ha, hbefore, hafter⟩
      · cases hd
  | absent hnil =>
      rw [hvalues] at hnil
      cases (List.append_eq_nil_iff.mp hnil).2

/-! ### What edits preserve -/

/-- An edited value of the shape is again one of the shape, and what it stands for is the same as
far as the relation tells. -/
def Preserves (edit : Edit) (shape : Shape α) (same : α → α → Prop) : Prop :=
  ∀ ⦃d d' : Draft⦄ ⦃a : α⦄, edit d d' → shape d a → ∃ a', shape d' a' ∧ same a a'

/-- A value of a shape with another name for what it stands for. -/
theorem Preserves.map {edit : Edit} {shape : Shape α} {same : α → α → Prop}
    (h : Preserves edit shape same) (make : α → β) (parts : β → α)
    (hparts : ∀ a, parts (make a) = a) :
    Preserves edit (fun d b => shape d (parts b)) (fun b b' => same (parts b) (parts b')) := by
  intro d d' b hd hb
  obtain ⟨a', ha', hsame⟩ := h hd hb
  refine ⟨make a', ?_, ?_⟩
  · change shape d' (parts (make a'))
    rwa [hparts]
  · change same (parts b) (parts (make a'))
    rwa [hparts]

theorem Preserves.mono {edit : Edit} {shape : Shape α} {same same' : α → α → Prop}
    (h : Preserves edit shape same) (hsame : ∀ {a a'}, same a a' → same' a a') :
    Preserves edit shape same' := by
  intro d d' a hd ha
  obtain ⟨a', ha', haa'⟩ := h hd ha
  exact ⟨a', ha', hsame haa'⟩

/-- One of several values is edited. -/
theorem Preserves.forall₂ {edit : Edit} {shape : Shape α} {same : α → α → Prop}
    (h : Preserves edit shape same) (hrefl : ∀ a, same a a) {before after : List Draft}
    {d d' : Draft} (hd : edit d d') {as : List α}
    (has : List.Forall₂ shape (before ++ d :: after) as) :
    ∃ as', List.Forall₂ shape (before ++ d' :: after) as' ∧ List.Forall₂ same as as' := by
  induction before generalizing as with
  | nil =>
      obtain ⟨a, rest, ha, hrest, rfl⟩ := List.forall₂_cons_left_iff.mp has
      obtain ⟨a', ha', hsame⟩ := h hd ha
      exact ⟨a' :: rest, .cons ha' hrest, .cons hsame (List.forall₂_same.mpr fun a _ => hrefl a)⟩
  | cons b before ih =>
      obtain ⟨a, rest, ha, hrest, rfl⟩ := List.forall₂_cons_left_iff.mp has
      obtain ⟨rest', hrest', hsame⟩ := ih hrest
      exact ⟨a :: rest', .cons ha hrest', .cons (hrefl a) hsame⟩

theorem Preserves.list {edit : Edit} {shape : Shape α} {same : α → α → Prop}
    (h : Preserves edit shape same) (hrefl : ∀ a, same a a) :
    Preserves (ItemEdit edit) (ListShape shape) (List.Forall₂ same) := by
  rintro _ _ as ⟨before, after, hd⟩ ⟨_, has⟩
  obtain ⟨as', has', hsame⟩ := h.forall₂ hrefl hd has
  exact ⟨as', .array _ has', hsame⟩

theorem RecordEdit.ne_null {names : List String} {edit : String → FieldEdit} {d d' : Draft}
    (h : RecordEdit names edit d d') : d ≠ .null ∧ d' ≠ .null := by
  cases h <;> exact ⟨nofun, nofun⟩

/-- A value that may be `null` is edited where it is not. -/
theorem Preserves.optional {edit : Edit} {shape : Shape α} {same : α → α → Prop}
    (h : Preserves edit shape same) (hnull : ∀ {d d'}, edit d d' → d ≠ .null ∧ d' ≠ .null) :
    Preserves edit (OptionalShape shape) (Option.Rel same) := by
  intro d d' o hd ho
  cases ho with
  | null => exact absurd rfl (hnull hd).1
  | value _ ha =>
      obtain ⟨a', ha', hsame⟩ := h hd ha
      exact ⟨some a', .value (hnull hd).2 ha', .some hsame⟩

/-- What a field stands for changes at most up to the relation: where its value is changed, and
where it is put in. -/
structure FieldEdit.Preserves (e : FieldEdit) (f : FieldShape α) (same : α → α → Prop) : Prop where
  refl : ∀ a, same a a
  changed : Json.Preserves e.changed f.shape same
  given : ∀ {d a}, e.given d → f.absent = some a → ∃ a', f.shape d a' ∧ same a a'

theorem FieldEdit.preserves_none (f : FieldShape α) : FieldEdit.none.Preserves f Eq :=
  ⟨fun _ => rfl, fun _ _ _ h => h.elim, fun h => h.elim⟩

section Records

variable {names : List String} {edit : String → FieldEdit} {f : FieldShape α} {g : FieldShape β}
  {same : α → α → Prop} {same' : β → β → Prop}

/-- A field of an object, one of several. -/
theorem MembersEdit.inObject (hf : (edit f.name).Preserves f same) (hname : f.name ∈ names)
    {ms ms' : Members} (h : MembersEdit names edit ms ms') {a : α} (ha : f.InObject ms a) :
    ∃ a', f.InObject ms' a' ∧ same a a' := by
  -- A member of another name does not count.
  have hother : ∀ (before after : Members) {key : String} (d : Draft), key ≠ f.name →
      valuesOf f.name (before ++ (some key, d) :: after) = valuesOf f.name (before ++ after) := by
    intro before after key d hne
    rw [valuesOf_append, valuesOf_append, valuesOf_cons_of_ne hne]
  have hignored : ∀ {key : String}, key ∉ names → key ≠ f.name :=
    fun hkey heq => hkey (heq ▸ hname)
  cases h with
  | added before after d hkey =>
      exact ⟨a, ha.congr (hother before after d (hignored hkey)), hf.refl a⟩
  | ignored before after d d' hkey =>
      refine ⟨a, ha.congr ?_, hf.refl a⟩
      rw [hother before after d' (hignored hkey), hother before after d (hignored hkey)]
  | reordered hperm => exact ⟨a, ha.perm hperm, hf.refl a⟩
  | @field before after key d d' hkey hd =>
      by_cases heq : key = f.name
      · subst heq
        obtain ⟨hshape, hbefore, hafter⟩ := ha.inv
        obtain ⟨a', ha', hsame⟩ := hf.changed hd hshape
        refine ⟨a', .present ?_ ha', hsame⟩
        rw [valuesOf_append, valuesOf_cons_self, hbefore, hafter, List.nil_append]
      · refine ⟨a, ha.congr ?_, hf.refl a⟩
        rw [hother before after d' heq, hother before after d heq]
  | @given before after key d hkey hnil hd =>
      by_cases heq : key = f.name
      · subst heq
        cases ha with
        | present hvalues => cases hnil.symm.trans hvalues
        | absent _ habsent =>
            obtain ⟨a', ha', hsame⟩ := hf.given hd habsent
            rw [valuesOf_append, List.append_eq_nil_iff] at hnil
            refine ⟨a', .present ?_ ha', hsame⟩
            rw [valuesOf_append, valuesOf_cons_self, hnil.1, hnil.2, List.nil_append]
      · exact ⟨a, ha.congr (hother before after d heq), hf.refl a⟩

/-- A field that is the next item of an array. -/
theorem FieldShape.Heads.edited (hf : (edit f.name).Preserves f same) {d d' : Draft}
    {after rest : List Draft} {a : α} (hd : (edit f.name).changed d d')
    (ha : f.Heads (d :: after) a rest) :
    rest = after ∧ ∃ a', f.Heads (d' :: after) a' after ∧ same a a' := by
  cases ha with
  | item ha =>
      obtain ⟨a', ha', hsame⟩ := hf.changed hd ha
      exact ⟨rfl, a', .item ha', hsame⟩

theorem preserves_record₁ (hnames : names = [f.name]) (hf : (edit f.name).Preserves f same) :
    Preserves (RecordEdit names edit) (RecordShape₁ f) same := by
  subst hnames
  intro d d' a hd ha
  cases hd with
  | object hms =>
      obtain ⟨_, hkeys, ha⟩ | _ := ha
      obtain ⟨a', ha', hsame⟩ := hms.inObject hf (List.mem_singleton_self _) ha
      exact ⟨a', .object _ (hms.keysReadable hkeys) ha', hsame⟩
  | array before after hkey hd =>
      obtain _ | ⟨_, ha⟩ := ha
      cases before with
      | nil =>
          obtain rfl : f.name = _ := Option.some.inj hkey
          obtain ⟨rfl, a', ha', hsame⟩ := ha.edited hf hd
          exact ⟨a', .array _ ha', hsame⟩
      | cons _ before => cases hkey

theorem preserves_record₂ (hnames : names = [f.name, g.name])
    (hf : (edit f.name).Preserves f same) (hg : (edit g.name).Preserves g same') :
    Preserves (RecordEdit names edit) (RecordShape₂ f g)
      (fun p p' => same p.1 p'.1 ∧ same' p.2 p'.2) := by
  subst hnames
  rintro d d' ⟨a, b⟩ hd hab
  cases hd with
  | object hms =>
      obtain ⟨_, hkeys, ha, hb⟩ | _ := hab
      obtain ⟨a', ha', hsame⟩ := hms.inObject hf (by simp) ha
      obtain ⟨b', hb', hsame'⟩ := hms.inObject hg (by simp) hb
      exact ⟨(a', b'), .object _ (hms.keysReadable hkeys) ha' hb', hsame, hsame'⟩
  | array before after hkey hd =>
      obtain _ | ⟨_, ha, hb⟩ := hab
      cases before with
      | nil =>
          obtain rfl : f.name = _ := Option.some.inj hkey
          obtain ⟨rfl, a', ha', hsame⟩ := ha.edited hf hd
          exact ⟨(a', b), .array _ ha' hb, hsame, hg.refl b⟩
      | cons x before =>
          cases before with
          | nil =>
              obtain rfl : g.name = _ := Option.some.inj hkey
              cases ha with
              | item ha =>
                  obtain ⟨rfl, b', hb', hsame'⟩ := hb.edited hg hd
                  exact ⟨(a, b'), .array _ (.item ha) hb', hf.refl a, hsame'⟩
          | cons _ before => cases hkey

end Records

end SyntaxInspector.Json
