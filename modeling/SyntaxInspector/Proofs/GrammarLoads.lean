import SyntaxInspector.Proofs.Outcomes
import SyntaxInspector.Run

/-! # Loading grammars on request

What becomes of a cache that is used again and again, when any attempt to load a grammar may fail.

* `Grammars.recorded` are grammars that record the attempts to load them.  They may have a state of
  their own, so one attempt need not turn out like another.
* `CacheUse` is a use of a cache, and `Session` is what there is between two uses.  Every use comes
  down to requests for grammars, one after the other (`requests_step`, `requests_after`), and
  `Session.request` says what one request does.
* `Requests.attempts_eq`, `Requests.keeps`, `Requests.spares` and `Requests.tries` say what several
  requests do, and `Session.loads_on_request` says it of all uses. -/

namespace SyntaxInspector

variable {σ : Type} {m : Type → Type} [Monad m]

/-! ### Uses of a cache -/

/-- An attempt to load a grammar, and how it went. -/
structure LoadAttempt where
  language : Language
  outcome : Except String Unit

/-- The language whose grammar is loaded by the attempt. -/
def LoadAttempt.loaded? (a : LoadAttempt) : Option Language :=
  match a.outcome with
  | .ok () => some a.language
  | .error _ => none

theorem LoadAttempt.loaded?_eq_some_iff {a : LoadAttempt} {l : Language} :
    a.loaded? = some l ↔ a = ⟨l, .ok ()⟩ := by
  obtain ⟨language, outcome⟩ := a
  cases outcome <;> simp [loaded?]

/-- The state of grammars, and the attempts to load them so far. -/
structure LoadLog (σ : Type) where
  world : σ
  attempts : List LoadAttempt := []

/-- Grammars that record the attempts to load them. -/
def Grammars.recorded (g : Grammars (StateM σ)) : Grammars (StateM (LoadLog σ)) where
  load l := fun r =>
    let (outcome, world) := (g.load l).run r.world
    (outcome, { world, attempts := r.attempts ++ [⟨l, outcome⟩] })
  parse l source := fun r =>
    let (tree, world) := (g.parse l source).run r.world
    (tree, { r with world })

/-- A use of a cache. -/
inductive CacheUse where
  | require (l : Language)
  | parse (l : Language) (source : String)
  /-- Blank texts are refused. -/
  | parseSource (l : Language) (source : String)
  | loadAll

/-- What a use of a cache yields. -/
inductive CacheAnswer where
  | required (outcome : Except ParseError Unit)
  | parsed (outcome : Except ParseError ParsedSource)
  | sourceParsed (outcome : Except RunError ParsedSource)
  | statuses (statuses : List LoadStatus)

namespace CacheUse

/-- Uses a cache. -/
def run (g : Grammars m) (c : Cache) : CacheUse → m (CacheAnswer × Cache)
  | require l => do
    let (outcome, c) ← c.require g l
    return (.required outcome, c)
  | parse l source => do
    let (outcome, c) ← c.parse g l source
    return (.parsed outcome, c)
  | parseSource l source => do
    let (outcome, c) ← SyntaxInspector.parseSource g l source c
    return (.sourceParsed outcome, c)
  | loadAll => do
    let (statuses, c) ← c.loadAll g
    return (.statuses statuses, c)

/-- The languages whose grammars a use asks for. -/
def requested : CacheUse → List Language
  | require l | parse l _ => [l]
  | parseSource l source => if Text.isBlankText source then [] else [l]
  | loadAll => Language.all

theorem nodup_requested (u : CacheUse) : u.requested.Nodup := by
  cases u with
  | require l => simp [requested]
  | parse l source => simp [requested]
  | parseSource l source => cases h : Text.isBlankText source <;> simp [requested, h]
  | loadAll => decide

end CacheUse

/-- What there is between two uses of a cache. -/
structure Session (σ : Type) extends LoadLog σ where
  cache : Cache := {}

namespace Session

/-- The next use of the cache: what it yields and what there is after it. -/
def step (g : Grammars (StateM σ)) (s : Session σ) (u : CacheUse) : CacheAnswer × Session σ :=
  let ((answer, cache), record) := (u.run g.recorded s.cache).run s.toLoadLog
  (answer, { record with cache })

/-- What there is after some uses of the cache. -/
def after (g : Grammars (StateM σ)) (s : Session σ) (us : List CacheUse) : Session σ :=
  us.foldl (fun s u => (s.step g u).2) s

/-- The attempts to load the grammar of a language. -/
def attemptsOn (s : Session σ) (l : Language) : List LoadAttempt :=
  s.attempts.filter (·.language = l)

variable {g : Grammars (StateM σ)} {s s' s'' : Session σ} {l : Language} {ls ls' : List Language}

/-! ### One request -/

/-- What a request for a grammar leaves behind: if the grammar is not loaded, one more attempt to
load it. -/
def request (g : Grammars (StateM σ)) (l : Language) (s : Session σ) : Session σ :=
  if s.cache.isLoaded l then s
  else
    let (outcome, world) := (g.load l).run s.world
    { world
      attempts := s.attempts ++ [⟨l, outcome⟩]
      cache := ⟨(LoadAttempt.mk l outcome).loaded?.toList ++ s.cache.loaded⟩ }

/-- The outcome of a request for a grammar. -/
def granted (g : Grammars (StateM σ)) (l : Language) (s : Session σ) : Except ParseError Unit :=
  if s.cache.isLoaded l then .ok ()
  else ((g.load l).run s.world).1.mapError (.grammarNotLoaded l)

theorem run_require (g : Grammars (StateM σ)) (l : Language) (s : Session σ) :
    (s.cache.require g.recorded l).run s.toLoadLog =
      ((s.granted g l, (s.request g l).cache), (s.request g l).toLoadLog) := by
  have hload : (g.recorded.load l).run s.toLoadLog =
      (((g.load l).run s.world).1, ⟨((g.load l).run s.world).2,
        s.attempts ++ [⟨l, ((g.load l).run s.world).1⟩]⟩) := rfl
  unfold Cache.require granted request
  cases s.cache.isLoaded l with
  | true => rfl
  | false =>
      simp only [Bool.false_eq_true, if_false]
      rw [run_bind_of_run hload]
      rcases (g.load l).run s.world with ⟨_ | _, w⟩ <;> rfl

/-- What a request does: nothing if the grammar is loaded, and else it tries to load it. -/
theorem request_cases (g : Grammars (StateM σ)) (l : Language) (s : Session σ) :
    (s.cache.isLoaded l = true ∧ s.request g l = s) ∨
    (s.cache.isLoaded l = false ∧ ∃ outcome world, (g.load l).run s.world = (outcome, world) ∧
      s.request g l =
        { world
          attempts := s.attempts ++ [⟨l, outcome⟩]
          cache := ⟨(LoadAttempt.mk l outcome).loaded?.toList ++ s.cache.loaded⟩ }) := by
  unfold request
  cases s.cache.isLoaded l with
  | true => exact .inl ⟨rfl, rfl⟩
  | false => exact .inr ⟨rfl, _, _, rfl, rfl⟩

theorem isLoaded_iff {c : Cache} : c.isLoaded l = true ↔ l ∈ c.loaded := by
  rw [Cache.isLoaded, List.contains_iff_mem]

theorem isLoaded_eq_false_iff {c : Cache} : c.isLoaded l = false ↔ l ∉ c.loaded := by
  rw [← Bool.not_eq_true, isLoaded_iff]

/-! ### Several requests -/

/-- The second session comes about from the first one by requests for grammars, in order.  The
state of the grammars may change in between. -/
inductive Requests (g : Grammars (StateM σ)) : List Language → Session σ → Session σ → Prop
  | done (s : Session σ) : Requests g [] s s
  | elsewhere {ls : List Language} {s s' : Session σ} (w : σ) :
      Requests g ls { s with world := w } s' → Requests g ls s s'
  | request {l : Language} {ls : List Language} {s s' : Session σ} :
      Requests g ls (s.request g l) s' → Requests g (l :: ls) s s'

theorem Requests.trans (h : Requests g ls s s') (h' : Requests g ls' s' s'') :
    Requests g (ls ++ ls') s s'' := by
  induction h with
  | done s => exact h'
  | elsewhere w _ ih => exact .elsewhere w (ih h')
  | request _ ih => exact .request (ih h')

/-- What is loaded after some requests: what was loaded before, and what the new attempts have
loaded, the latest first. -/
theorem Requests.attempts_eq (h : Requests g ls s s') :
    ∃ new, s'.attempts = s.attempts ++ new ∧
      s'.cache.loaded = (new.filterMap LoadAttempt.loaded?).reverse ++ s.cache.loaded := by
  induction h with
  | done s => exact ⟨[], by simp, by simp⟩
  | elsewhere w _ ih => exact ih
  | @request l ls s s' _ ih =>
      obtain ⟨new, hattempts, hloaded⟩ := ih
      obtain ⟨-, hs⟩ | ⟨-, outcome, w, -, hs⟩ := s.request_cases g l
      · exact ⟨new, hs ▸ hattempts, hs ▸ hloaded⟩
      · refine ⟨⟨l, outcome⟩ :: new, ?_, ?_⟩
        · rw [hattempts, hs, List.append_assoc]
          rfl
        · rw [hloaded, hs]
          cases outcome <;> simp [List.filterMap_cons, LoadAttempt.loaded?]

/-- If no attempt succeeds, the cache is as before. -/
theorem Requests.cache_eq_of_failed (h : Requests g ls s s') :
    ∃ new, s'.attempts = s.attempts ++ new ∧
      ((∀ a ∈ new, a.outcome ≠ .ok ()) → s'.cache = s.cache) := by
  obtain ⟨new, hattempts, hloaded⟩ := h.attempts_eq
  refine ⟨new, hattempts, fun hfailed => ?_⟩
  have hnone : new.filterMap LoadAttempt.loaded? = [] := by
    rw [List.filterMap_eq_nil_iff]
    intro a ha
    rw [Option.eq_none_iff_forall_ne_some]
    intro l hl
    obtain rfl := LoadAttempt.loaded?_eq_some_iff.mp hl
    exact hfailed _ ha rfl
  rw [hnone] at hloaded
  cases hcache : s'.cache
  rw [hcache] at hloaded
  exact congrArg Cache.mk hloaded

/-- The grammar of a language is as it was: nobody tried to load it. -/
structure Spares (l : Language) (s s' : Session σ) : Prop where
  attempts : s'.attemptsOn l = s.attemptsOn l
  isLoaded : s'.cache.isLoaded l = s.cache.isLoaded l

/-- There was one attempt to load the grammar of a language, which decides whether it is loaded. -/
def Tries (l : Language) (s s' : Session σ) : Prop :=
  ∃ outcome, s'.attemptsOn l = s.attemptsOn l ++ [⟨l, outcome⟩] ∧
    (s'.cache.isLoaded l = true ↔ outcome = .ok ())

theorem spares_elsewhere (l : Language) (s : Session σ) (w : σ) :
    Spares l s { s with world := w } := ⟨rfl, rfl⟩

theorem Spares.trans (h : Spares l s s') (h' : Spares l s' s'') : Spares l s s'' :=
  ⟨h'.attempts.trans h.attempts, h'.isLoaded.trans h.isLoaded⟩

theorem Spares.trans_tries (h : Spares l s s') (h' : Tries l s' s'') : Tries l s s'' := by
  obtain ⟨outcome, hattempts, hloaded⟩ := h'
  exact ⟨outcome, by rw [hattempts, h.attempts], hloaded⟩

theorem Tries.trans_spares (h : Tries l s s') (h' : Spares l s' s'') : Tries l s s'' := by
  obtain ⟨outcome, hattempts, hloaded⟩ := h
  exact ⟨outcome, h'.attempts.trans hattempts, by rw [h'.isLoaded, hloaded]⟩

theorem spares_request_of_isLoaded (g : Grammars (StateM σ)) (l' : Language)
    (h : s.cache.isLoaded l = true) : Spares l s (s.request g l') := by
  obtain ⟨-, hs⟩ | ⟨hnot, outcome, w, -, hs⟩ := s.request_cases g l'
  · rw [hs]
    exact spares_elsewhere l s s.world
  · have hne : l' ≠ l := by
      rintro rfl
      rw [h] at hnot
      cases hnot
    rw [isLoaded_iff] at h
    refine ⟨by simp [hs, attemptsOn, hne], ?_⟩
    rw [isLoaded_iff.mpr h, isLoaded_iff, hs]
    exact List.mem_append_right _ h

theorem spares_request_of_ne (g : Grammars (StateM σ)) (s : Session σ) {l' : Language}
    (h : l' ≠ l) : Spares l s (s.request g l') := by
  obtain ⟨-, hs⟩ | ⟨-, outcome, w, -, hs⟩ := s.request_cases g l'
  · rw [hs]
    exact spares_elsewhere l s s.world
  · refine ⟨by simp [hs, attemptsOn, h], ?_⟩
    rw [Bool.eq_iff_iff, isLoaded_iff, isLoaded_iff, hs]
    cases outcome <;> simp [LoadAttempt.loaded?, h.symm]

theorem tries_request (g : Grammars (StateM σ)) (h : s.cache.isLoaded l = false) :
    Tries l s (s.request g l) := by
  obtain ⟨hloaded, -⟩ | ⟨-, outcome, w, -, hs⟩ := s.request_cases g l
  · rw [h] at hloaded
    cases hloaded
  · refine ⟨outcome, by simp [hs, attemptsOn], ?_⟩
    rw [isLoaded_eq_false_iff] at h
    rw [isLoaded_iff, hs]
    cases outcome <;> simp [LoadAttempt.loaded?, h]

/-- A loaded grammar is not loaded again. -/
theorem Requests.keeps (h : Requests g ls s s') (hl : s.cache.isLoaded l = true) :
    Spares l s s' := by
  induction h with
  | done s => exact spares_elsewhere l s s.world
  | @elsewhere ls s s' w _ ih => exact (spares_elsewhere l s w).trans (ih hl)
  | @request l' ls s s' _ ih =>
      have hrequest := spares_request_of_isLoaded g l' hl
      exact hrequest.trans (ih (hrequest.isLoaded.trans hl))

/-- Nobody loads a grammar that is not asked for. -/
theorem Requests.spares (h : Requests g ls s s') (hl : l ∉ ls) : Spares l s s' := by
  induction h with
  | done s => exact spares_elsewhere l s s.world
  | @elsewhere ls s s' w _ ih => exact (spares_elsewhere l s w).trans (ih hl)
  | @request l' ls s s' _ ih =>
      rw [List.mem_cons, not_or] at hl
      exact (spares_request_of_ne g s (Ne.symm hl.1)).trans (ih hl.2)

/-- A grammar that is not loaded and asked for once is tried once. -/
theorem Requests.tries (h : Requests g ls s s') (hls : ls.Nodup) (hl : l ∈ ls)
    (hnot : s.cache.isLoaded l = false) : Tries l s s' := by
  induction h with
  | done s => cases hl
  | elsewhere w _ ih => exact ih hls hl hnot
  | @request l' ls s s' hrest ih =>
      rw [List.nodup_cons] at hls
      by_cases heq : l' = l
      · subst heq
        exact (tries_request g hnot).trans_spares (hrest.spares hls.1)
      · have hrequest := spares_request_of_ne g s heq
        have hl : l ∈ ls := (List.mem_cons.mp hl).resolve_left (Ne.symm heq)
        exact hrequest.trans_tries (ih hls.2 hl (hrequest.isLoaded.trans hnot))

/-- If loading always turns out the same, so did every attempt. -/
theorem Requests.outcomes {loads : Language → Except String Unit}
    (hloads : ∀ l w, ((g.load l).run w).1 = loads l) (h : Requests g ls s s')
    (hs : ∀ a ∈ s.attempts, a.outcome = loads a.language) :
    ∀ a ∈ s'.attempts, a.outcome = loads a.language := by
  induction h with
  | done s => exact hs
  | elsewhere w _ ih => exact ih hs
  | @request l ls s s' _ ih =>
      refine ih fun a ha => ?_
      obtain ⟨-, hrequest⟩ | ⟨-, outcome, w, hload, hrequest⟩ := s.request_cases g l
      · exact hs a (hrequest ▸ ha)
      · rw [hrequest, List.mem_append, List.mem_singleton] at ha
        rcases ha with ha | rfl
        · exact hs a ha
        · rw [← hloads l s.world, hload]

/-! ### What the uses do -/

/-- What parsing makes of the answer of a grammar. -/
def treeOutcome (l : Language) (source : String) :
    Option ParsedTree → Except ParseError ParsedSource
  | some tree => .ok { tree with language := l, source }
  | none => .error (.noTree l)

/-- The outcome of parsing a source text: the grammar is asked for, and then asked. -/
def parsed (g : Grammars (StateM σ)) (l : Language) (source : String) (s : Session σ) :
    Except ParseError ParsedSource := do
  s.granted g l
  treeOutcome l source ((g.parse l source).run (s.request g l).world).1

theorem granted_eq_ok_iff (g : Grammars (StateM σ)) (l : Language) (s : Session σ) :
    s.granted g l = .ok () ↔ (s.request g l).cache.isLoaded l = true := by
  rw [granted]
  obtain ⟨hloaded, hs⟩ | ⟨hnot, outcome, w, hload, hs⟩ := s.request_cases g l
  · simp [hloaded, hs]
  · rw [hnot, hload, hs, isLoaded_iff, if_neg Bool.false_ne_true, mapError_eq_ok_iff]
    rw [isLoaded_eq_false_iff] at hnot
    cases outcome <;> simp [LoadAttempt.loaded?, hnot]

theorem run_parse (g : Grammars (StateM σ)) (l : Language) (source : String) (s : Session σ) :
    ∃ w, (s.cache.parse g.recorded l source).run s.toLoadLog =
      ((s.parsed g l source, (s.request g l).cache), ⟨w, (s.request g l).attempts⟩) := by
  unfold Cache.parse parsed
  rw [run_bind_of_run (s.run_require g l)]
  cases s.granted g l with
  | error e => exact ⟨_, rfl⟩
  | ok =>
      refine ⟨((g.parse l source).run (s.request g l).world).2, ?_⟩
      have hparse : (g.recorded.parse l source).run (s.request g l).toLoadLog =
          (((g.parse l source).run (s.request g l).world).1,
            ⟨((g.parse l source).run (s.request g l).world).2, (s.request g l).attempts⟩) := rfl
      dsimp only
      rw [run_bind_of_run hparse]
      cases ((g.parse l source).run (s.request g l).world).1 <;> rfl

/-- Loading several grammars requests one after the other, and tells for each whether it is loaded
in the end. -/
theorem run_loadEach (g : Grammars (StateM σ)) (hls : ls.Nodup) (s : Session σ) :
    ∃ statuses s', (Cache.loadEach g.recorded ls s.cache).run s.toLoadLog =
        ((statuses, s'.cache), s'.toLoadLog) ∧
      Requests g ls s s' ∧ statuses.map LoadStatus.language = ls ∧
      ∀ st ∈ statuses, st.failure = none ↔ s'.cache.isLoaded st.language = true := by
  induction ls generalizing s with
  | nil => exact ⟨[], s, rfl, .done s, rfl, nofun⟩
  | cons l ls ih =>
      rw [List.nodup_cons] at hls
      obtain ⟨statuses, s', hrun, hrequests, hlanguages, hstatuses⟩ := ih hls.2 (s.request g l)
      -- The other languages do not change whether this one is loaded.
      have hl : s.granted g l = .ok () ↔ s'.cache.isLoaded l = true := by
        rw [granted_eq_ok_iff, (hrequests.spares hls.1).isLoaded]
      unfold Cache.loadEach
      rw [run_bind_of_run (s.run_require g l)]
      dsimp only
      rw [run_bind_of_run hrun]
      refine ⟨_, s', rfl, .request hrequests, ?_, ?_⟩
      · rw [List.map_cons, hlanguages]
        cases s.granted g l <;> rfl
      · refine List.forall_mem_cons.mpr ⟨?_, hstatuses⟩
        cases hgranted : s.granted g l <;> simp_all

theorem step_require (g : Grammars (StateM σ)) (l : Language) (s : Session σ) :
    s.step g (.require l) = (.required (s.granted g l), s.request g l) := by
  unfold step CacheUse.run
  rw [run_bind_of_run (s.run_require g l)]
  rfl

theorem step_parse (g : Grammars (StateM σ)) (l : Language) (source : String) (s : Session σ) :
    ∃ w, s.step g (.parse l source) =
      (.parsed (s.parsed g l source), { s.request g l with world := w }) := by
  obtain ⟨w, hrun⟩ := s.run_parse g l source
  refine ⟨w, ?_⟩
  unfold step CacheUse.run
  rw [run_bind_of_run hrun]
  rfl

theorem step_parseSource_of_blank (g : Grammars (StateM σ)) (l : Language) {source : String}
    (h : Text.isBlankText source = true) (s : Session σ) :
    s.step g (.parseSource l source) = (.sourceParsed (.error .emptyInput), s) := by
  have hrun : (SyntaxInspector.parseSource g.recorded l source s.cache).run s.toLoadLog =
      ((.error .emptyInput, s.cache), s.toLoadLog) := by
    rw [SyntaxInspector.parseSource, if_pos h]
    rfl
  unfold step CacheUse.run
  rw [run_bind_of_run hrun]
  rfl

theorem step_parseSource (g : Grammars (StateM σ)) (l : Language) {source : String}
    (h : Text.isBlankText source = false) (s : Session σ) :
    ∃ w, s.step g (.parseSource l source) =
      (.sourceParsed ((s.parsed g l source).mapError .parse),
        { s.request g l with world := w }) := by
  obtain ⟨w, hparse⟩ := s.run_parse g l source
  refine ⟨w, ?_⟩
  have hrun : (SyntaxInspector.parseSource g.recorded l source s.cache).run s.toLoadLog =
      (((s.parsed g l source).mapError .parse, (s.request g l).cache),
        ⟨w, (s.request g l).attempts⟩) := by
    rw [SyntaxInspector.parseSource, if_neg (by rw [h]; decide), run_bind_of_run hparse]
    rfl
  unfold step CacheUse.run
  rw [run_bind_of_run hrun]
  rfl

/-- The answer to a source text: a blank one is refused, and any other is parsed. -/
theorem answer_parseSource (g : Grammars (StateM σ)) (l : Language) (source : String)
    (s : Session σ) :
    (s.step g (.parseSource l source)).1 = .sourceParsed
      (if Text.isBlankText source then .error .emptyInput
        else (s.parsed g l source).mapError .parse) := by
  cases hblank : Text.isBlankText source with
  | true =>
      rw [step_parseSource_of_blank g l hblank]
      rfl
  | false =>
      obtain ⟨w, hstep⟩ := s.step_parseSource g l hblank
      rw [hstep]
      rfl

theorem step_loadAll (g : Grammars (StateM σ)) (s : Session σ) :
    ∃ statuses s', s.step g .loadAll = (.statuses statuses, s') ∧
      Requests g Language.all s s' ∧ statuses.map LoadStatus.language = Language.all ∧
      ∀ st ∈ statuses, st.failure = none ↔ s'.cache.isLoaded st.language = true := by
  have hall : Language.all.Nodup := by decide
  obtain ⟨statuses, s', hrun, h⟩ := s.run_loadEach g hall
  refine ⟨statuses, s', ?_, h⟩
  unfold step CacheUse.run Cache.loadAll
  rw [run_bind_of_run hrun]
  rfl

/-- A use comes down to requests for grammars. -/
theorem requests_step (g : Grammars (StateM σ)) (s : Session σ) (u : CacheUse) :
    Requests g u.requested s (s.step g u).2 := by
  have hone (l : Language) (w : σ) : Requests g [l] s { s.request g l with world := w } :=
    .request (.elsewhere w (.done _))
  cases u with
  | require l =>
      rw [step_require]
      exact .request (.done _)
  | parse l source =>
      obtain ⟨w, hstep⟩ := s.step_parse g l source
      rw [hstep]
      exact hone l w
  | parseSource l source =>
      cases hblank : Text.isBlankText source with
      | true =>
          rw [step_parseSource_of_blank g l hblank, CacheUse.requested, if_pos hblank]
          exact .done s
      | false =>
          obtain ⟨w, hstep⟩ := s.step_parseSource g l hblank
          rw [hstep, CacheUse.requested, if_neg (by rw [hblank]; decide)]
          exact hone l w
  | loadAll =>
      obtain ⟨statuses, s', hstep, hrequests, -⟩ := s.step_loadAll g
      rw [hstep]
      exact hrequests

/-- So do several uses. -/
theorem requests_after (g : Grammars (StateM σ)) (s : Session σ) (us : List CacheUse) :
    Requests g (us.flatMap CacheUse.requested) s (s.after g us) := by
  induction us generalizing s with
  | nil => exact .done s
  | cons u us ih =>
      rw [List.flatMap_cons]
      exact (s.requests_step g u).trans (ih (s.step g u).2)

/-! ### Sessions from an empty cache -/

theorem mem_attemptsOn {a : LoadAttempt} :
    a ∈ s.attemptsOn l ↔ a ∈ s.attempts ∧ a.language = l := by
  rw [attemptsOn, List.mem_filter, decide_eq_true_eq]

/-- What is loaded is what an attempt has loaded. -/
theorem isLoaded_after_iff (g : Grammars (StateM σ)) (w : σ) (us : List CacheUse) (l : Language) :
    (({ world := w } : Session σ).after g us).cache.isLoaded l = true ↔
      ⟨l, .ok ()⟩ ∈ (({ world := w } : Session σ).after g us).attempts := by
  obtain ⟨new, hattempts, hloaded⟩ := (requests_after g { world := w } us).attempts_eq
  rw [isLoaded_iff, hloaded, hattempts]
  simp [List.mem_filterMap, LoadAttempt.loaded?_eq_some_iff]

theorem requested_of_attempt (g : Grammars (StateM σ)) (w : σ) (us : List CacheUse)
    {a : LoadAttempt} (h : a ∈ (({ world := w } : Session σ).after g us).attempts) :
    ∃ u ∈ us, a.language ∈ u.requested := by
  rw [← List.mem_flatMap]
  refine Classical.byContradiction fun hnot => ?_
  have hnone := ((requests_after g { world := w } us).spares hnot).attempts
  have hmem := mem_attemptsOn.mpr ⟨h, rfl⟩
  rw [hnone] at hmem
  cases hmem

theorem parseOnce_eq (g : Grammars (StateM σ)) (l : Language) (source : String) (w : σ) :
    ((Cache.parseOnce g l source).run w).1 = ({ world := w } : Session σ).parsed g l source := by
  have hnot : ({} : Cache).isLoaded l = false := rfl
  unfold Cache.parseOnce Cache.parse Cache.require parsed granted request
  rw [hnot]
  simp only [Bool.false_eq_true, if_false, bind_assoc]
  rcases hload : (g.load l).run w with ⟨_ | _, w'⟩
  · rw [run_bind_of_run hload]
    rfl
  · rw [run_bind_of_run hload]
    rcases hparse : (g.parse l source).run w' with ⟨_ | tree, w''⟩
    all_goals
      simp only [pure_bind, bind_assoc]
      rw [run_bind_of_run hparse]
      rfl

variable {parses : Language → String → Option ParsedTree}

/-- If the tree depends on the grammar and the text only, so does the outcome of parsing, once the
grammar is there. -/
theorem parsed_eq (hparses : ∀ l source w, ((g.parse l source).run w).1 = parses l source)
    (l : Language) (source : String) (s : Session σ) :
    s.parsed g l source = s.granted g l >>= fun _ => treeOutcome l source (parses l source) := by
  rw [parsed, hparses]

/-- Then it makes no difference whether there was a cache before, if the grammar is granted. -/
theorem parseOnce_of_granted
    (hparses : ∀ l source w, ((g.parse l source).run w).1 = parses l source) {l : Language}
    (source : String) {w : σ}
    (h : ({ world := w } : Session σ).granted g l = s.granted g l) :
    ((Cache.parseOnce g l source).run w).1 = s.parsed g l source := by
  rw [parseOnce_eq, parsed_eq hparses, parsed_eq hparses, h]

/-- If loading always turns out the same, so does every request. -/
theorem granted_after {loads : Language → Except String Unit}
    (hloads : ∀ l w, ((g.load l).run w).1 = loads l) (w : σ) (us : List CacheUse) (l : Language) :
    (({ world := w } : Session σ).after g us).granted g l =
      (loads l).mapError (.grammarNotLoaded l) := by
  rw [granted, hloads]
  split
  · rename_i hloaded
    have hattempt := (isLoaded_after_iff g w us l).mp hloaded
    have hok := (requests_after g { world := w } us).outcomes hloads nofun _ hattempt
    rw [← hok]
    rfl
  · rfl

/-- **Grammars are loaded on request**, whatever comes of the attempts.

A grammar is loaded exactly if it was asked for and an attempt to load it succeeded.  Then it stays
so, and nobody tries to load it again.

A use of the cache tries each grammar that it asks for and that is not loaded, also after a failure,
and the attempt decides whether the grammar is loaded; all other grammars are as before.  If no
attempt succeeds, the cache is as before, and a blank text changes nothing at all.  Loading all
grammars tells of each language in turn whether its grammar is loaded in the end.

If the tree depends on the grammar and the text only, parsing has the same outcome in every session
that is granted the grammar alike, and so has parsing without a cache.  If loading depends on the
language only, it is always the same. -/
theorem loads_on_request (g : Grammars (StateM σ)) (w : σ) (us : List CacheUse) :
    let s := ({ world := w } : Session σ).after g us
    (∀ l, s.cache.isLoaded l = true ↔
      (∃ u ∈ us, l ∈ u.requested) ∧ ⟨l, .ok ()⟩ ∈ s.attempts) ∧
    (∀ l, s.cache.isLoaded l = true → ∀ us', Spares l s (s.after g us') ∧
      (s.after g us').cache.isLoaded l = true) ∧
    (∀ u l, (l ∈ u.requested ∧ s.cache.isLoaded l = false → Tries l s (s.step g u).2) ∧
      (¬ (l ∈ u.requested ∧ s.cache.isLoaded l = false) → Spares l s (s.step g u).2)) ∧
    (∀ u, ∃ new, (s.step g u).2.attempts = s.attempts ++ new ∧
      ((∀ a ∈ new, a.outcome ≠ .ok ()) → (s.step g u).2.cache = s.cache)) ∧
    (∀ l source, Text.isBlankText source = true →
      s.step g (.parseSource l source) = (.sourceParsed (.error .emptyInput), s)) ∧
    (∃ statuses, (s.step g .loadAll).1 = .statuses statuses ∧
      statuses.map LoadStatus.language = Language.all ∧
      ∀ st ∈ statuses,
        st.failure = none ↔ (s.step g .loadAll).2.cache.isLoaded st.language = true) ∧
    ∀ parses : Language → String → Option ParsedTree,
      (∀ l source w, ((g.parse l source).run w).1 = parses l source) →
      ∀ l source, ∃ granted outcome,
        (s.step g (.require l)).1 = .required granted ∧
        (s.step g (.parse l source)).1 = .parsed outcome ∧
        (s.step g (.parseSource l source)).1 = .sourceParsed
          (if Text.isBlankText source then .error .emptyInput else outcome.mapError .parse) ∧
        outcome = (granted >>= fun _ => treeOutcome l source (parses l source)) ∧
        (∀ w', (({ world := w' } : Session σ).step g (.require l)).1 = .required granted →
          ((Cache.parseOnce g l source).run w').1 = outcome) ∧
        ∀ loads : Language → Except String Unit, (∀ l w, ((g.load l).run w).1 = loads l) →
          ∀ w', ((Cache.parseOnce g l source).run w').1 = outcome := by
  intro s
  refine ⟨fun l => ?loaded, fun l hl us' => ?kept, fun u l => ⟨?tried, ?spared⟩,
    fun u => (s.requests_step g u).cache_eq_of_failed,
    fun l source h => step_parseSource_of_blank g l h s, ?all, ?parsing⟩
  case loaded =>
    rw [isLoaded_after_iff]
    exact ⟨fun h => ⟨requested_of_attempt g w us h, h⟩, And.right⟩
  case kept =>
    have hspares := (s.requests_after g us').keeps hl
    exact ⟨hspares, hspares.isLoaded.trans hl⟩
  case tried =>
    rintro ⟨hasked, hnot⟩
    exact (s.requests_step g u).tries u.nodup_requested hasked hnot
  case spared =>
    intro hnot
    rw [not_and, Bool.not_eq_false] at hnot
    by_cases hasked : l ∈ u.requested
    · exact (s.requests_step g u).keeps (hnot hasked)
    · exact (s.requests_step g u).spares hasked
  case all =>
    obtain ⟨statuses, s', hstep, -, hlanguages, hstatuses⟩ := s.step_loadAll g
    rw [hstep]
    exact ⟨statuses, rfl, hlanguages, hstatuses⟩
  case parsing =>
    intro parses hparses l source
    obtain ⟨w₁, hparse⟩ := s.step_parse g l source
    refine ⟨s.granted g l, s.parsed g l source, by rw [step_require], by rw [hparse],
      s.answer_parseSource g l source, parsed_eq hparses l source s, fun w' h => ?_,
      fun loads hloads w' => parseOnce_of_granted hparses source ?_⟩
    · rw [step_require] at h
      exact parseOnce_of_granted hparses source (CacheAnswer.required.inj h)
    · rw [granted_after hloads w us]
      exact granted_after hloads w' [] l

/-- Grammars of which the first that is asked for does not load; the state counts the attempts. -/
def flaky : Grammars (StateM Nat) where
  load _ := fun n => (if n = 0 then .error "not yet" else .ok (), n + 1)
  parse _ _ := fun n => (none, n)

/-- Python is the first of all grammars and does not load.  A blank text does not load it either,
but the next text does. -/
theorem loads_on_request_after_failure :
    let s := ({ world := 0 } : Session Nat).after flaky [.loadAll, .parseSource .python " "]
    let s' := (s.step flaky (.parse .python "x")).2
    s.attemptsOn .python = [⟨.python, .error "not yet"⟩] ∧ s.cache.isLoaded .python = false ∧
      s.cache.isLoaded .java = true ∧
      s'.attemptsOn .python = [⟨.python, .error "not yet"⟩, ⟨.python, .ok ()⟩] ∧
      s'.cache.isLoaded .python = true ∧ Spares .java s s' ∧
      ((Cache.parseOnce flaky .python "x").run 7).1 = .error (.noTree .python) ∧
      (s.step flaky (.parse .python "x")).1 = .parsed (.error (.noTree .python)) := by
  intro s s'
  obtain ⟨-, hkept, huse, -, -, -, hparse⟩ :=
    loads_on_request flaky 0 [.loadAll, .parseSource .python " "]
  have hnot : s.cache.isLoaded .python = false := by rfl
  have hjava : s.cache.isLoaded .java = true := by rfl
  have hattempts : s.attemptsOn .python = [⟨.python, .error "not yet"⟩] := by rfl
  obtain ⟨outcome, htried, hloaded⟩ := (huse (.parse .python "x") .python).1 ⟨by decide, hnot⟩
  obtain rfl : outcome = .ok () := hloaded.mp (by rfl)
  obtain ⟨granted, outcome, hgranted, hparsed, -, houtcome, honce, -⟩ :=
    hparse (fun _ _ => none) (fun _ _ _ => rfl) .python "x"
  obtain rfl : .ok () = granted := CacheAnswer.required.inj hgranted
  obtain rfl : outcome = .error (.noTree .python) := houtcome
  exact ⟨hattempts, hnot, hjava, htried.trans (by rw [hattempts]; rfl), hloaded.mpr rfl,
    (hkept .java hjava [.parse .python "x"]).1, honce 7 rfl, hparsed⟩

end Session
end SyntaxInspector
