import Mathlib.Data.List.Basic
import SyntaxInspector.Proofs.OptionWords

/-! # The key on the command line

Two command lines that differ in the API key only: in its value, in the way it is given, or in
whether it is given there or in the environment.  If both can be read, the arguments differ in the
key only.

* `KeyWords` are the words that give a key, and `SameButKey` says that command lines are the same
  but for such words;
* `Reading.Alike` is what one word preserves (`Reading.Alike.word`, `Reading.Alike.key`) and
  `Reading.words_alike` what follows for all words;
* `Args.withoutKey_parse` is the result. -/

namespace SyntaxInspector

/-- The values without that of the key. -/
def Given.withoutKey (g : Given) : Given := { g with apiKey := none }

/-- The environment without the key. -/
def Environment.withoutKey (e : Environment) : Environment := { e with apiKey := none }

/-- The arguments without the key. -/
def Args.withoutKey (a : Args) : Args := { a with apiKey := none }

/-- The words for a key: none, one, or two. -/
inductive KeyWords : List String → Prop
  | absent : KeyWords []
  | joined (key : String) : KeyWords ["--api-key=" ++ key]
  | separate (key : String) : KeyWords ["--api-key", key]

/-- The same words, but for those that give a key. -/
inductive SameButKey : List String → List String → Prop
  | nil : SameButKey [] []
  | word (w : String) {ws ws' : List String} : SameButKey ws ws' → SameButKey (w :: ws) (w :: ws')
  | key {ks ks' ws ws' : List String} :
      KeyWords ks → KeyWords ks' → SameButKey ws ws' → SameButKey (ks ++ ws) (ks' ++ ws')

/-! ### Values -/

namespace Given

theorem withoutKey_eq_iff {g g' : Given} :
    g.withoutKey = g'.withoutKey ↔ ∃ key, g' = { g with apiKey := key } := by
  constructor
  · intro h
    refine ⟨g'.apiKey, ?_⟩
    cases g
    cases g'
    simpa [withoutKey, eq_comm] using h
  · rintro ⟨key, rfl⟩
    rfl

/-- What an option is given does not depend on the key, unless the option is the key. -/
theorem withoutKey_assign {g g' g₁ g₁' : Given} {s : Switch} {value value' : String}
    (h : g.withoutKey = g'.withoutKey) (hvalue : s ≠ .apiKey → value = value')
    (h₁ : g.assign s value = .ok g₁) (h₁' : g'.assign s value' = .ok g₁') :
    g₁.withoutKey = g₁'.withoutKey := by
  obtain ⟨key, rfl⟩ := withoutKey_eq_iff.mp h
  cases s with
  | apiKey =>
      obtain ⟨_, -, hg⟩ := bind_eq_ok_iff.mp h₁
      obtain ⟨_, -, hg'⟩ := bind_eq_ok_iff.mp h₁'
      cases hg
      cases hg'
      rfl
  | listLanguages | verbose | help | version => cases h₁
  | inputPath | language | target | maxDepth | outputPath | image | format | model | apiBase
    | timeout =>
      obtain rfl := hvalue nofun
      obtain ⟨found, hfound, hg⟩ := bind_eq_ok_iff.mp h₁
      obtain ⟨found', hfound', hg'⟩ := bind_eq_ok_iff.mp h₁'
      obtain rfl : found = found' := Except.ok.inj (hfound.symm.trans hfound')
      cases hg
      cases hg'
      rfl

theorem withoutKey_flag {g g' g₁ g₁' : Given} {s : Switch} (h : g.withoutKey = g'.withoutKey)
    (h₁ : g.flag s = .ok g₁) (h₁' : g'.flag s = .ok g₁') : g₁.withoutKey = g₁'.withoutKey := by
  obtain ⟨key, rfl⟩ := withoutKey_eq_iff.mp h
  cases s with
  | listLanguages =>
      obtain ⟨found, hfound, hg⟩ := bind_eq_ok_iff.mp h₁
      obtain ⟨found', hfound', hg'⟩ := bind_eq_ok_iff.mp h₁'
      obtain rfl : found = found' := Except.ok.inj (hfound.symm.trans hfound')
      cases hg
      cases hg'
      rfl
  | verbose =>
      cases h₁
      cases h₁'
      rfl
  | _ => cases h₁

end Given

namespace Reading

variable {r r' s s' r₁ r₁' : Reading}

/-! ### Two readings -/

/-- Two readings with nothing pending have the same values but for the key. -/
structure SameValues (r r' : Reading) : Prop where
  pending : r.pending = none
  pending' : r'.pending = none
  given : r.given.withoutKey = r'.given.withoutKey
  finished : r.finished = r'.finished

/-- Two readings have the same values but for the key, or will have once the pending ones are looked
at, or wait for a value of the same option. -/
inductive Alike (r r' : Reading) : Prop
  | settled {s s' : Reading} :
      r.settle = .ok s → r'.settle = .ok s' → s.SameValues s' → Alike r r'
  | awaiting (o : Switch) :
      r.pending = some (o, none) → r'.pending = some (o, none) →
      r.given.withoutKey = r'.given.withoutKey → r.finished = r'.finished → Alike r r'

theorem SameValues.alike (h : r.SameValues r') : r.Alike r' :=
  .settled (settle_of_none h.pending) (settle_of_none h.pending') h

theorem SameValues.withFlag (h : r.SameValues r') {o : Switch} (h₁ : r.withFlag o = .ok r₁)
    (h₁' : r'.withFlag o = .ok r₁') : r₁.SameValues r₁' := by
  rw [withFlag_eq (settle_of_none h.pending)] at h₁
  rw [withFlag_eq (settle_of_none h.pending')] at h₁'
  obtain ⟨g, hg, rfl⟩ := map_eq_ok_iff.mp h₁
  obtain ⟨g', hg', rfl⟩ := map_eq_ok_iff.mp h₁'
  exact ⟨h.pending, h.pending', Given.withoutKey_flag h.given hg hg', h.finished⟩

theorem SameValues.assign (h : r.SameValues r') {o : Switch} {value value' : String} {g g' : Given}
    (hvalue : o ≠ .apiKey → value = value') (hg : r.given.assign o value = .ok g)
    (hg' : r'.given.assign o value' = .ok g') :
    ({ r with given := g } : Reading).SameValues { r' with given := g' } :=
  ⟨h.pending, h.pending', Given.withoutKey_assign h.given hvalue hg hg', h.finished⟩

theorem SameValues.option {f : Reading → Except Refusal Reading} (hf : OptionWord f)
    (h : r.SameValues r') (h₁ : f r = .ok r₁) (h₁' : f r' = .ok r₁') : r₁.Alike r₁' := by
  induction hf generalizing r r' with
  | refused e hf =>
      rw [hf] at h₁
      cases h₁
  | expects o hf =>
      rw [hf, expectValue_eq (settle_of_none h.pending)] at h₁
      rw [hf, expectValue_eq (settle_of_none h.pending')] at h₁'
      cases h₁
      cases h₁'
      exact .awaiting o rfl rfl h.given h.finished
  | value o value hf =>
      rw [hf, withValue_eq (settle_of_none h.pending)] at h₁
      rw [hf, withValue_eq (settle_of_none h.pending')] at h₁'
      obtain ⟨g, hg, rfl⟩ := map_eq_ok_iff.mp h₁
      obtain ⟨g', hg', rfl⟩ := map_eq_ok_iff.mp h₁'
      exact (h.assign (fun _ => rfl) hg hg').alike
  | flag o hf =>
      rw [hf] at h₁ h₁'
      exact (h.withFlag h₁ h₁').alike
  | flags o _ hf ih =>
      rw [hf] at h₁ h₁'
      obtain ⟨r₂, h₂, h₁⟩ := bind_eq_ok_iff.mp h₁
      obtain ⟨r₂', h₂', h₁'⟩ := bind_eq_ok_iff.mp h₁'
      exact ih (h.withFlag h₂ h₂') h₁ h₁'

theorem SameValues.word {w : String} (h : r.SameValues r') (h₁ : r.word w = .ok r₁)
    (h₁' : r'.word w = .ok r₁') : r₁.Alike r₁' := by
  by_cases hr : r.finished = true
  · rw [word_finished hr] at h₁
    cases h₁
  rw [Bool.not_eq_true] at hr
  have hr' : r'.finished = false := h.finished ▸ hr
  cases wordKind w with
  | stop hword =>
      rw [hword r hr] at h₁
      rw [hword r' hr'] at h₁'
      cases h₁
      cases h₁'
      exact SameValues.alike ⟨h.pending, h.pending', h.given, rfl⟩
  | option hf hword =>
      rw [hword r hr] at h₁
      rw [hword r' hr'] at h₁'
      exact h.option hf h₁ h₁'
  | plain hword =>
      rw [hword r hr, plain_of_settle (settle_of_none h.pending)] at h₁
      cases h₁

/-- The same word keeps two readings alike. -/
theorem Alike.word {w : String} {ws ws' : List String} (h : r.Alike r')
    (hs : r.words (w :: ws) = .ok s) (hs' : r'.words (w :: ws') = .ok s') :
    ∃ r₁ r₁' : Reading, r₁.Alike r₁' ∧ r₁.words ws = .ok s ∧ r₁'.words ws' = .ok s' := by
  cases h with
  | settled ht ht' hsame =>
      rw [words_settle ht] at hs
      rw [words_settle ht'] at hs'
      obtain ⟨r₁, h₁, hs⟩ := bind_eq_ok_iff.mp hs
      obtain ⟨r₁', h₁', hs'⟩ := bind_eq_ok_iff.mp hs'
      exact ⟨r₁, r₁', hsame.word h₁ h₁', hs, hs'⟩
  | awaiting o hpending hpending' hgiven hfinished =>
      obtain ⟨o₁, _, _, hws, ho₁, hs⟩ := words_of_unsettled (settle_of_awaiting hpending) hs
      obtain ⟨o₁', _, _, hws', ho₁', hs'⟩ := words_of_unsettled (settle_of_awaiting hpending') hs'
      cases hws
      cases hws'
      cases hpending.symm.trans ho₁
      cases hpending'.symm.trans ho₁'
      obtain ⟨g, hg, hsettle⟩ := settle_of_words rfl hs
      obtain ⟨g', hg', hsettle'⟩ := settle_of_words rfl hs'
      refine ⟨_, _, .settled hsettle hsettle' ⟨rfl, rfl, ?_, hfinished⟩, hs, hs'⟩
      exact Given.withoutKey_assign hgiven (fun _ => rfl) hg hg'

/-- The reading with another key. -/
def withKey (r : Reading) (key : Option String) : Reading :=
  { r with given := { r.given with apiKey := key } }

theorem word_joined (h : r.finished = false) (key : String) :
    r.word ("--api-key=" ++ key) = r.withValue .apiKey key := by
  have hword : "--api-key=" ++ key = "--" ++ Switch.apiKey.longName ++ "=" ++ key := by rfl
  rw [hword, word_name_value h .apiKey rfl]

theorem word_separate (h : r.finished = false) : r.word "--api-key" = r.expectValue .apiKey :=
  word_name h .apiKey rfl

theorem assign_apiKey {g g₁ : Given} {key : String} (h : g.assign .apiKey key = .ok g₁) :
    g₁ = { g with apiKey := some key } := by
  obtain ⟨found, hfound, hg⟩ := bind_eq_ok_iff.mp h
  cases hg
  unfold CommandLine.once at hfound
  split at hfound
  · cases hfound
  · cases hfound
    rfl

/-- Words for a key give a key, if there are any, and that is all. -/
theorem words_key {ks ws : List String} (hks : KeyWords ks) (hs : r.words (ks ++ ws) = .ok s) :
    (∃ t key, r.settle = .ok t ∧ (t.withKey key).words ws = .ok s) ∨ r.words ws = .ok s := by
  by_cases hr : r.finished = true
  · cases hks with
    | absent => exact .inr hs
    | joined | separate =>
        rw [List.cons_append, words_cons_finished hr] at hs
        cases hs
  rw [Bool.not_eq_true] at hr
  cases hks with
  | absent => exact .inr hs
  | joined key =>
      obtain ⟨r₁, hword, hs⟩ := bind_eq_ok_iff.mp hs
      rw [word_joined hr] at hword
      obtain ⟨t, g, ht, hg, rfl⟩ := withValue_eq_ok hword
      obtain rfl := assign_apiKey hg
      exact .inl ⟨t, some key, ht, hs⟩
  | separate key =>
      obtain ⟨r₁, hword, hs⟩ := bind_eq_ok_iff.mp hs
      rw [word_separate hr] at hword
      obtain ⟨t, value, ws₁, g, hws, ht, hg, hs⟩ := words_of_expectValue hword hs
      cases hws
      obtain rfl := assign_apiKey hg
      exact .inl ⟨t, some key, ht, hs⟩

theorem Alike.symm (h : r.Alike r') : r'.Alike r := by
  cases h with
  | settled ht ht' h =>
      exact .settled ht' ht ⟨h.pending', h.pending, h.given.symm, h.finished.symm⟩
  | awaiting o hpending hpending' hgiven hfinished =>
      exact .awaiting o hpending' hpending hgiven.symm hfinished.symm

/-- Who is alike to a reading that can be settled, can be settled, and has the same values. -/
theorem Alike.settle (h : r.Alike r') (hs : r.settle = .ok s) :
    ∃ s', r'.settle = .ok s' ∧ s.SameValues s' := by
  cases h with
  | settled ht ht' hsame =>
      cases ht.symm.trans hs
      exact ⟨_, ht', hsame⟩
  | awaiting o hpending => cases (settle_of_awaiting hpending).symm.trans hs

/-- A key more or less keeps two readings alike. -/
theorem Alike.withKey (h : r.Alike r') (hs : r.settle = .ok s) (key : Option String) :
    (s.withKey key).Alike r' := by
  obtain ⟨s', hs', hsame⟩ := h.settle hs
  exact .settled (settle_of_none hsame.pending) hs'
    ⟨hsame.pending, hsame.pending', hsame.given, hsame.finished⟩

/-- Words for a key keep two readings alike. -/
theorem Alike.key {ks ks' ws ws' : List String} (h : r.Alike r') (hks : KeyWords ks)
    (hks' : KeyWords ks') (hs : r.words (ks ++ ws) = .ok s) (hs' : r'.words (ks' ++ ws') = .ok s') :
    ∃ r₁ r₁' : Reading, r₁.Alike r₁' ∧ r₁.words ws = .ok s ∧ r₁'.words ws' = .ok s' := by
  have hleft : ∃ r₁ : Reading, r₁.Alike r' ∧ r₁.words ws = .ok s := by
    obtain ⟨t, key, ht, hs⟩ | hs := words_key hks hs
    · exact ⟨_, h.withKey ht key, hs⟩
    · exact ⟨r, h, hs⟩
  obtain ⟨r₁, h₁, hs⟩ := hleft
  obtain ⟨t, key, ht, hs'⟩ | hs' := words_key hks' hs'
  · exact ⟨r₁, _, (h₁.symm.withKey ht key).symm, hs, hs'⟩
  · exact ⟨r₁, r', h₁, hs, hs'⟩

theorem words_alike {ws ws' : List String} (hws : SameButKey ws ws') (h : r.Alike r')
    (hs : r.words ws = .ok s) (hs' : r'.words ws' = .ok s') :
    s.given.withoutKey = s'.given.withoutKey := by
  induction hws generalizing r r' with
  | nil =>
      cases h with
      | settled ht ht' hsame =>
          cases ht.symm.trans hs
          cases ht'.symm.trans hs'
          exact hsame.given
      | awaiting o hpending => cases (settle_of_awaiting hpending).symm.trans hs
  | word w _ ih =>
      obtain ⟨r₁, r₁', h₁, hs, hs'⟩ := h.word hs hs'
      exact ih h₁ hs hs'
  | key hks hks' _ ih =>
      obtain ⟨r₁, r₁', h₁, hs, hs'⟩ := h.key hks hks' hs hs'
      exact ih h₁ hs hs'

end Reading

/-- Two command lines and environments that differ in the key only: if they yield arguments, the
arguments differ in the key only. -/
theorem Args.withoutKey_parse {ws ws' : List String} {e e' : Environment} {a a' : Args}
    (hws : SameButKey ws ws') (he : e.withoutKey = e'.withoutKey) (ha : Args.parse ws e = .ok a)
    (ha' : Args.parse ws' e' = .ok a') : a.withoutKey = a'.withoutKey := by
  obtain ⟨s, hs, -, rfl⟩ := Args.parse_eq_ok_iff.mp ha
  obtain ⟨s', hs', -, rfl⟩ := Args.parse_eq_ok_iff.mp ha'
  have hempty : ({} : Reading).SameValues {} := ⟨rfl, rfl, rfl, rfl⟩
  obtain ⟨key, hgiven⟩ := Given.withoutKey_eq_iff.mp (Reading.words_alike hws hempty.alike hs hs')
  cases e
  cases e'
  simp only [Environment.withoutKey, Environment.mk.injEq, true_and] at he
  obtain ⟨rfl, rfl⟩ := he
  rw [hgiven]
  rfl

end SyntaxInspector
