import SyntaxInspector.Proofs.Delivery
import SyntaxInspector.Proofs.KeyWords

/-! # The key stays secret

Two runs that differ in the API key only are the same but for one thing: the request for a review
carries the key.

* `SendsNothing` says of a computation that it sends no request and that what was done before makes
  no difference to it; `sendsNothing_deliverResult` and `sendsNothing_listLanguages` say so of what
  is done besides computing the text;
* `SameButRequests` compares two runs, and `exec_withKey` says that they are the same but for the
  key in the request;
* `exec_differs_in_header_only` is the result for whole command lines. -/

namespace SyntaxInspector

/-- The arguments with a key. -/
def Args.withKey (a : Args) (k : ApiKey) : Args := { a with apiKey := some k }

/-- The request for a prompt, before a key is put in. -/
def ReviewConfig.unsigned? (c : ReviewConfig) (prompt : String) : Option HttpRequest :=
  (WebAddress.ofText? c.endpoint).map fun address => ⟨address, "", requestBody prompt⟩

/-- The request with a key. -/
def HttpRequest.withKey (r : HttpRequest) (k : ApiKey) : HttpRequest :=
  { r with apiKey := k.secret }

/-- The event with a key, if it is a request. -/
def Event.withKey (k : ApiKey) : Event → Event
  | .requested r => .requested (r.withKey k)
  | e => e

/-- The event is a request. -/
def Event.isRequest : Event → Bool
  | .requested _ => true
  | _ => false

theorem Event.withKey_of_not_isRequest {e : Event} (h : e.isRequest = false) (k : ApiKey) :
    e.withKey k = e := by
  cases e with
  | requested => cases h
  | _ => rfl

theorem Event.map_withKey {es : List Event} (h : ∀ e ∈ es, e.isRequest = false) (k : ApiKey) :
    es.map (Event.withKey k) = es := by
  have hid : es.map (Event.withKey k) = es.map id :=
    List.map_congr_left fun e he => Event.withKey_of_not_isRequest (h e he) k
  rw [hid, List.map_id]

namespace World

variable {α β ε ε' : Type}

/-! ### Computations that send nothing -/

/-- The computation sends no request, and comes to a good result.  Whatever was done before makes no
difference to it: it adds its own events behind. -/
def SendsNothing (x : StateM World α) (good : α → Prop) : Prop :=
  ∀ w : World, ∃ (a : α) (w' : World) (es : List Event), good a ∧
    (∀ e ∈ es, e.isRequest = false) ∧
    ∀ earlier, x.run { w with events := earlier } = (a, { w' with events := earlier ++ es })

theorem sendsNothing_pure {good : α → Prop} {a : α} (h : good a) :
    SendsNothing (pure a) good := by
  intro w
  refine ⟨a, w, [], h, nofun, fun earlier => ?_⟩
  rw [List.append_nil]
  rfl

theorem SendsNothing.bind {x : StateM World α} {f : α → StateM World β} {good : α → Prop}
    {good' : β → Prop} (hx : SendsNothing x good) (hf : ∀ a, good a → SendsNothing (f a) good') :
    SendsNothing (x >>= f) good' := by
  intro w
  obtain ⟨a, w₁, es₁, ha, hes₁, hx⟩ := hx w
  obtain ⟨b, w₂, es₂, hb, hes₂, hf⟩ := hf a ha w₁
  refine ⟨b, w₂, es₁ ++ es₂, hb, ?_, fun earlier => ?_⟩
  · intro e he
    exact (List.mem_append.mp he).elim (hes₁ e) (hes₂ e)
  · rw [StateT.run_bind, hx]
    exact (hf _).trans (by rw [List.append_assoc])

theorem SendsNothing.map {x : StateM World α} {f : α → β} {good : α → Prop} {good' : β → Prop}
    (hx : SendsNothing x good) (hf : ∀ a, good a → good' (f a)) : SendsNothing (f <$> x) good' :=
  hx.bind fun a ha => sendsNothing_pure (hf a ha)

/-- A computation that may fail sends nothing, and what it yields is good. -/
def Silent (x : ExceptT ε (StateM World) α) (good : α → Prop) : Prop :=
  SendsNothing x.run fun outcome => ∀ a, outcome = .ok a → good a

theorem Silent.bind {x : ExceptT ε (StateM World) α} {f : α → ExceptT ε (StateM World) β}
    {good : α → Prop} {good' : β → Prop} (hx : Silent x good)
    (hf : ∀ a, good a → Silent (f a) good') : Silent (x >>= f) good' := by
  unfold Silent
  rw [ExceptT.run_bind]
  refine SendsNothing.bind hx fun outcome hgood => ?_
  cases outcome with
  | ok a => exact hf a (hgood a rfl)
  | error e => exact sendsNothing_pure nofun

theorem silent_outcome {x : Except ε α} {good : α → Prop} (h : ∀ a, x = .ok a → good a) :
    Silent (ExceptT.mk (pure x)) good :=
  sendsNothing_pure h

theorem Silent.adapt {x : ExceptT ε (StateM World) α} {good : α → Prop} (hx : Silent x good)
    (f : ε → ε') : Silent (x.adapt f) good := by
  refine SendsNothing.map hx fun outcome hgood a ha => ?_
  cases outcome with
  | ok a' =>
      cases ha
      exact hgood a rfl
  | error e => cases ha

theorem SendsNothing.lift {x : StateM World α} {good : α → Prop} (hx : SendsNothing x good) :
    Silent (ExceptT.lift x : ExceptT ε (StateM World) α) good := by
  refine SendsNothing.map hx fun a ha a' ha' => ?_
  cases ha'
  exact ha

/-- What does not look at the events, and adds none. -/
theorem sendsNothing_of_eq {x : StateM World α} {good : α → Prop} (hgood : ∀ w, good (x.run w).1)
    (h : ∀ (w : World) (earlier : List Event), x.run { w with events := earlier } =
      ((x.run w).1, { (x.run w).2 with events := earlier })) : SendsNothing x good := by
  intro w
  refine ⟨(x.run w).1, (x.run w).2, [], hgood w, nofun, fun earlier => ?_⟩
  rw [List.append_nil, h]

/-! ### Writing -/

theorem silent_writeOutput (bytes : List UInt8) : Silent (writeOutput bytes) fun _ => True :=
  sendsNothing_of_eq (fun _ _ _ => trivial) fun _ _ => rfl

theorem silent_flushOutput : Silent flushOutput fun _ => True :=
  sendsNothing_of_eq (fun _ _ _ => trivial) fun _ _ => rfl

theorem silent_writeFile (place : Location) (bytes : List UInt8) :
    Silent (writeFile place bytes) fun _ => True := by
  refine sendsNothing_of_eq (fun _ _ _ => trivial) fun w earlier => ?_
  simp only [writeFile, ExceptT.run_mk, StateT.run]
  generalize w.files.find? place = entry
  rcases entry with _ | _ | _ | _ | _ <;> rfl

theorem silent_flushFile : Silent flushFile fun _ => True :=
  sendsNothing_of_eq (fun _ _ _ => trivial) fun _ _ => rfl

/-- A sink that can be written to without a request. -/
structure SilentSink (sink : Sink (StateM World)) : Prop where
  writeAll : ∀ bytes, Silent (sink.writeAll bytes) fun _ => True
  flush : Silent sink.flush fun _ => True

theorem SilentSink.writeText {sink : Sink (StateM World)} (h : SilentSink sink) (text : String) :
    Silent (writeText sink text) fun _ => True := by
  unfold SyntaxInspector.writeText
  refine (h.writeAll _).bind fun _ _ => ?_
  split
  · exact h.flush
  · exact (h.writeAll _).bind fun _ _ => h.flush

theorem silent_writeToOutput (text : String) :
    Silent (writeToOutput host text) fun _ => True := by
  have hsink : SilentSink host.standardOutput := ⟨silent_writeOutput, silent_flushOutput⟩
  refine Silent.adapt ?_ _
  exact SendsNothing.map (hsink.writeText text) fun _ _ _ _ => trivial

theorem silent_createFile (path : String) : Silent (host.createFile path) SilentSink := by
  intro w
  cases hcreate : w.files.create path with
  | error e =>
      refine ⟨.error e, w, [], nofun, nofun, fun earlier => ?_⟩
      rw [List.append_nil]
      exact run_createFile_of_error hcreate
  | ok created =>
      obtain ⟨place, files⟩ := created
      refine ⟨.ok (fileSink place), { w with files }, [.createdFile path], ?_,
        by simp [Event.isRequest], fun earlier => run_createFile hcreate⟩
      rintro _ ⟨⟩
      exact ⟨silent_writeFile place, silent_flushFile⟩

theorem silent_writeResult (path : Option String) (text : String) :
    Silent (writeResult host path text) fun _ => True := by
  cases path with
  | none => exact silent_writeToOutput text
  | some path =>
      exact ((silent_createFile path).adapt _).bind fun sink hsink =>
        (hsink.writeText text).adapt _

/-! ### Drawing -/

/-- A program that was started and makes no request on behalf of the run. -/
structure SilentChild (child : Child (StateM World)) : Prop where
  feed : ∀ bytes, Silent (child.feed bytes) fun _ => True
  wait : Silent child.wait fun _ => True

theorem updateChild_events (f : Started → Started) (w : World) (earlier : List Event) :
    updateChild f { w with events := earlier } = { updateChild f w with events := earlier } := by
  simp only [updateChild]
  cases w.children.getLast? <;> rfl

theorem silent_feed (p : Program) (bytes : List UInt8) : Silent (feed p bytes) fun _ => True := by
  refine sendsNothing_of_eq (fun _ _ _ => trivial) fun w earlier => ?_
  simp only [feed, ExceptT.run_mk, StateT.run, updateChild_events]

theorem updateChild_files (f : Started → Started) (w : World) :
    (updateChild f w).files = w.files := by
  unfold updateChild
  cases w.children.getLast? <;> rfl

theorem silent_wait (p : Program) (args : List String) : Silent (wait p args) fun _ => True := by
  refine sendsNothing_of_eq (fun _ _ _ => trivial) fun w earlier => ?_
  simp only [wait, ExceptT.run_mk, StateT.run, updateChild_events, updateChild_files]

theorem silent_startProgram (program : String) (args : List String) :
    Silent (host.startProgram program args) SilentChild := by
  intro w
  cases hnull : (program :: args).any (·.toList.contains (Char.ofNat 0)) with
  | true =>
      refine ⟨.error .nullInArgument, w, [], nofun, nofun, fun earlier => ?_⟩
      rw [List.append_nil]
      exact run_startProgram_of_null hnull _
  | false =>
    cases hfind : w.programs.find? (·.name == program) with
    | none =>
      refine ⟨.error (w.startFailure program), w, [], nofun, nofun, fun earlier => ?_⟩
      rw [List.append_nil]
      exact run_startProgram_of_none hnull hfind
    | some p =>
      let started : Started :=
        { program, arguments := args, input := if p.readsInput then some [] else none }
      refine ⟨.ok { feed := feed p, wait := wait p args },
        { w with children := w.children ++ [started] }, [.started program], ?_,
        by simp [Event.isRequest], fun earlier => run_startProgram hnull hfind⟩
      rintro _ ⟨⟩
      exact ⟨silent_feed p, silent_wait p args⟩

theorem sendsNothing_drawImage (program : String) (format : ImageFormat) (output dot : String) :
    SendsNothing (drawImage host program format output dot) fun _ => True := by
  unfold drawImage
  refine SendsNothing.bind (silent_startProgram program _) fun outcome hchild => ?_
  cases outcome with
  | error e => exact sendsNothing_pure trivial
  | ok child =>
      have hchild := hchild child rfl
      refine SendsNothing.bind (hchild.feed _) fun given _ => ?_
      refine SendsNothing.bind hchild.wait fun ended _ => ?_
      cases ended <;> exact sendsNothing_pure trivial

/-- Delivering the text sends nothing. -/
theorem silent_deliverResult (a : Args) (text : String) :
    Silent (deliverResult host a text) fun _ => True := by
  unfold deliverResult
  split
  · exact SendsNothing.map (sendsNothing_drawImage _ _ _ text) fun _ _ _ _ => trivial
  · exact silent_writeResult _ text

/-! ### Listing languages -/

theorem sendsNothing_load (l : Language) : SendsNothing (grammars.load l) fun _ => True :=
  fun w => ⟨w.loads l, w, [.loadedGrammar l], trivial, by simp [Event.isRequest], fun _ => rfl⟩

theorem sendsNothing_require (l : Language) (c : Cache) :
    SendsNothing (c.require grammars l) fun _ => True := by
  unfold Cache.require
  split
  · exact sendsNothing_pure trivial
  · refine (sendsNothing_load l).bind fun outcome _ => ?_
    cases outcome <;> exact sendsNothing_pure trivial

theorem sendsNothing_loadEach (ls : List Language) (c : Cache) :
    SendsNothing (Cache.loadEach grammars ls c) fun _ => True := by
  induction ls generalizing c with
  | nil => exact sendsNothing_pure trivial
  | cons l ls ih =>
      refine (sendsNothing_require l c).bind fun loaded _ => ?_
      exact (ih loaded.2).bind fun _ _ => sendsNothing_pure trivial

/-- Listing languages sends nothing. -/
theorem silent_listLanguages : Silent (listLanguages host {}) fun _ => True := by
  unfold listLanguages
  refine (SendsNothing.lift (sendsNothing_loadEach Language.all {})).bind fun loaded _ => ?_
  refine (silent_writeToOutput _).bind fun _ _ => ?_
  split
  · exact silent_outcome fun _ _ => trivial
  · exact silent_outcome fun _ _ => trivial

/-! ### Two keys -/

/-- The requests among the events are made by a review. -/
def OnlyReviewed (a : Args) (es : List Event) : Prop :=
  ∀ request, .requested request ∈ es → a.target = .review ∧ a.listLanguages = false

/-- Two runs from the same world do the same, but for the keys in the requests they make, and only a
review makes any. -/
structure SameButRequests (k k' : ApiKey) (a : Args) (w : World)
    (r r' : Except RunError Unit × World) : Prop where
  outcome : r'.1 = r.1
  world : { r'.2 with events := [] } = { r.2 with events := [] }
  events : ∃ es, r.2.events = w.events ++ es.map (Event.withKey k) ∧
    r'.2.events = w.events ++ es.map (Event.withKey k') ∧ OnlyReviewed a es

/-- A computation that sends nothing keeps two runs the same. -/
theorem Silent.sameButRequests {x : ExceptT RunError (StateM World) Unit} {good : Unit → Prop}
    (hx : Silent x good) (k k' : ApiKey) {a : Args} (w : World) {es : List Event}
    (hes : OnlyReviewed a es) :
    SameButRequests k k' a w (x.run.run (w.after (es.map (Event.withKey k))))
      (x.run.run (w.after (es.map (Event.withKey k')))) := by
  obtain ⟨outcome, w', added, -, hadded, hrun⟩ := hx w
  have hafter : ∀ es', x.run.run (w.after es') =
      (outcome, { w' with events := w.events ++ es' ++ added }) := fun es' => hrun _
  rw [hafter, hafter]
  refine ⟨rfl, rfl, es ++ added, ?_, ?_, ?_⟩
  · rw [List.map_append, Event.map_withKey hadded, List.append_assoc]
  · rw [List.map_append, Event.map_withKey hadded, List.append_assoc]
  · intro request hrequest
    rcases List.mem_append.mp hrequest with hrequest | hrequest
    · exact hes request hrequest
    · cases hadded _ hrequest

/-- So does an outcome after the same events. -/
theorem sameButRequests_of_outcome (outcome : Except RunError Unit) (k k' : ApiKey) {a : Args}
    (w : World) {es : List Event} (hes : ∀ e ∈ es, e.isRequest = false) :
    SameButRequests k k' a w (outcome, w.after es) (outcome, w.after es) := by
  have hreviewed : OnlyReviewed a es := fun request hrequest => nomatch hes _ hrequest
  have hsilent : Silent (ExceptT.mk (pure outcome)) fun _ => True :=
    silent_outcome fun _ _ => trivial
  have h := hsilent.sameButRequests k k' w hreviewed
  rwa [Event.map_withKey hes, Event.map_withKey hes] at h

/-! ### Reviews -/

theorem request?_eq {c : ReviewConfig} {k : ApiKey} (hk : c.apiKey = k)
    (hsend : k.isSendable = true) (prompt : String) :
    c.request? prompt = (c.unsigned? prompt).map (·.withKey k) := by
  subst hk
  unfold ReviewConfig.request? ReviewConfig.unsigned?
  cases WebAddress.ofText? c.endpoint with
  | none => rfl
  | some address => simp [hsend, HttpRequest.withKey, guard]

theorem checkKey_of_not_blank {c : ReviewConfig} (h : c.apiKey.isBlank = false) :
    c.checkKey = .ok () := by
  rw [ReviewConfig.checkKey, h]
  rfl

theorem reviewEvents_eq {c : ReviewConfig} {k : ApiKey} (hk : c.apiKey = k)
    (hblank : k.isBlank = false) (hsend : k.isSendable = true) (r : ReviewRequest) :
    reviewEvents c r =
      ((c.unsigned? r.prompt).toList.map Event.requested).map (Event.withKey k) := by
  rw [reviewEvents, checkKey_of_not_blank (hk ▸ hblank), request?_eq hk hsend]
  cases c.unsigned? r.prompt <;> rfl

/-- The review in the server's answer to a request, if the request can be made. -/
def answered (w : World) (request? : Option HttpRequest) : Except ReviewError String :=
  match request? with
  | none => .error .unreachable
  | some request =>
    match (w.server request).bind HttpReply.arriving? with
    | none => .error .unreachable
    | some reply => reply.review

theorem reviewOutcome_eq {c : ReviewConfig} {k : ApiKey} (hk : c.apiKey = k)
    (hblank : k.isBlank = false) (hsend : k.isSendable = true) (w : World) (r : ReviewRequest) :
    w.reviewOutcome c r = w.answered ((c.unsigned? r.prompt).map (·.withKey k)) := by
  unfold reviewOutcome requestReview answered
  rw [checkKey_of_not_blank (hk ▸ hblank), request?_eq hk hsend]
  cases (c.unsigned? r.prompt).map (·.withKey k) <;> rfl

/-! ### Runs -/

section Runs

variable {a : Args} {k k' : ApiKey} {w : World}

theorem isRequest_parseEvents (w : World) (l : Language) (source : String) :
    ∀ e ∈ w.parseEvents l source, e.isRequest = false := by
  unfold parseEvents
  cases w.loads l <;> simp [Event.isRequest]

theorem isRequest_readEvent (path : Option String) : (readEvent path).isRequest = false := by
  cases path <;> rfl

/-- The review does not depend on the key if the server does not. -/
theorem reviewOutcome_withKey (hblank : k.isBlank = false) (hblank' : k'.isBlank = false)
    (hsend : k.isSendable = true) (hsend' : k'.isSendable = true)
    (hserver : ∀ request : HttpRequest,
      w.server (request.withKey k) = w.server (request.withKey k')) (r : ReviewRequest) :
    w.reviewOutcome (a.withKey k').reviewConfig r =
      w.reviewOutcome (a.withKey k).reviewConfig r := by
  have hunsigned : (a.withKey k').reviewConfig.unsigned? r.prompt =
      (a.withKey k).reviewConfig.unsigned? r.prompt := rfl
  have hkey : ∀ k, (a.withKey k).reviewConfig.apiKey = k := fun _ => rfl
  rw [reviewOutcome_eq (hkey k') hblank' hsend', reviewOutcome_eq (hkey k) hblank hsend, hunsigned]
  cases (a.withKey k).reviewConfig.unsigned? r.prompt with
  | none => rfl
  | some request =>
      rw [Option.map_some, Option.map_some, answered, answered, hserver]

/-- The text does not depend on the key if the server does not. -/
theorem textOutcome_withKey (hblank : k.isBlank = false) (hblank' : k'.isBlank = false)
    (hsend : k.isSendable = true) (hsend' : k'.isSendable = true)
    (hserver : ∀ request : HttpRequest,
      w.server (request.withKey k) = w.server (request.withKey k')) (p : ParsedSource) :
    w.textOutcome (a.withKey k') p = w.textOutcome (a.withKey k) p := by
  unfold textOutcome
  rw [reviewOutcome_withKey hblank hblank' hsend hsend' hserver]
  rfl

/-- The events of computing the text are the same but for the key. -/
theorem textEvents_withKey (hlist : a.listLanguages = false) (p : ParsedSource) :
    ∃ es, OnlyReviewed a es ∧ ∀ k : ApiKey, k.isBlank = false → k.isSendable = true →
      textEvents (a.withKey k) p = es.map (Event.withKey k) := by
  have htargets : ∀ k, (a.withKey k).target = a.target := fun _ => rfl
  by_cases htarget : a.target = .review
  · refine ⟨(a.reviewConfig.unsigned? (reviewRequest p).prompt).toList.map Event.requested,
      fun _ _ => ⟨htarget, hlist⟩, fun k hblank hsend => ?_⟩
    rw [textEvents, htargets, htarget]
    exact reviewEvents_eq rfl hblank hsend _
  · refine ⟨[], nofun, fun k _ _ => ?_⟩
    rw [textEvents, htargets]
    cases ha : a.target with
    | review => exact absurd ha htarget
    | _ => rfl

theorem exec_of_listing {a : Args} (h : a.listLanguages = true) (w : World) :
    exec a w = match a.validate with
      | .error e => (.error e, w)
      | .ok () => (listLanguages host {}).run.run w := by
  unfold exec run
  rw [run_bind, run_pure_outcome]
  cases a.validate with
  | error e => rfl
  | ok => simp only [h, if_true]

/-- From the parsed source on. -/
theorem sameButRequests_fromParsed (hlist : a.listLanguages = false) (hblank : k.isBlank = false)
    (hblank' : k'.isBlank = false) (hsend : k.isSendable = true) (hsend' : k'.isSendable = true)
    (outcome : Except RunError String) (p : ParsedSource) {es : List Event}
    (hes : ∀ e ∈ es, e.isRequest = false) :
    let rest (k : ApiKey) := match outcome with
      | .error e => (.error e, w.after (es ++ textEvents (a.withKey k) p))
      | .ok text => (deliverResult host a text).run.run (w.after (es ++ textEvents (a.withKey k) p))
    SameButRequests k k' a w (rest k) (rest k') := by
  intro rest
  obtain ⟨added, hadded, hevents⟩ := textEvents_withKey hlist p
  have hreviewed : OnlyReviewed a (es ++ added) := by
    intro request hrequest
    rcases List.mem_append.mp hrequest with hrequest | hrequest
    · cases hes _ hrequest
    · exact hadded request hrequest
  have hmap : ∀ k : ApiKey, k.isBlank = false → k.isSendable = true →
      es ++ textEvents (a.withKey k) p = (es ++ added).map (Event.withKey k) := by
    intro k hblank hsend
    rw [hevents k hblank hsend, List.map_append, Event.map_withKey hes]
  unfold rest
  rw [hmap k hblank hsend, hmap k' hblank' hsend']
  cases outcome with
  | error e =>
      exact (silent_outcome (x := .error e) fun _ _ => trivial).sameButRequests k k' w hreviewed
  | ok text => exact (silent_deliverResult a text).sameButRequests k k' w hreviewed

/-- Two runs with different keys are the same but for the key in a request. -/
theorem exec_withKey (hblank : k.isBlank = false) (hblank' : k'.isBlank = false)
    (hsend : k.isSendable = true) (hsend' : k'.isSendable = true)
    (hserver : ∀ request : HttpRequest,
      w.server (request.withKey k) = w.server (request.withKey k')) :
    SameButRequests k k' a w (exec (a.withKey k) w) (exec (a.withKey k') w) := by
  -- Of the stages, only computing the text looks at the key.
  have hvalidate : ∀ k, (a.withKey k).validate = a.validate := fun _ => rfl
  have hpath : ∀ k, (a.withKey k).inputPath = a.inputPath := fun _ => rfl
  have hlanguage : ∀ k, (a.withKey k).language = a.language := fun _ => rfl
  have hdeliver : ∀ k text, deliverResult host (a.withKey k) text = deliverResult host a text :=
    fun _ _ => rfl
  have hstart : ∀ outcome, SameButRequests k k' a w (outcome, w) (outcome, w) := by
    intro outcome
    have hnone : ∀ e ∈ ([] : List Event), e.isRequest = false := nofun
    have h := sameButRequests_of_outcome outcome k k' (a := a) w hnone
    rwa [after_nil] at h
  cases hlist : a.listLanguages with
  | true =>
      rw [exec_of_listing (a := a.withKey k) hlist, exec_of_listing (a := a.withKey k') hlist,
        hvalidate, hvalidate]
      cases a.validate with
      | error e => exact hstart _
      | ok =>
          have hnone : OnlyReviewed a [] := nofun
          have h := silent_listLanguages.sameButRequests k k' w hnone
          rwa [List.map_nil, List.map_nil, after_nil] at h
  | false =>
      rw [exec_eq (a := a.withKey k) hlist, exec_eq (a := a.withKey k') hlist]
      simp only [hvalidate, hpath, hlanguage, hdeliver,
        textOutcome_withKey hblank hblank' hsend hsend' hserver]
      cases a.validate with
      | error e => exact hstart _
      | ok =>
          cases resolveLanguage a.language a.inputPath with
          | error e => exact hstart _
          | ok l =>
              have hread := isRequest_readEvent a.inputPath
              cases w.sourceOutcome a.inputPath with
              | error e => exact sameButRequests_of_outcome _ k k' w (by simpa using hread)
              | ok source =>
                  have hparsing : ∀ e ∈ readEvent a.inputPath :: w.parseEvents l source,
                      e.isRequest = false :=
                    List.forall_mem_cons.mpr ⟨hread, isRequest_parseEvents w l source⟩
                  dsimp only
                  by_cases hempty : Text.isBlankText source
                  · rw [if_pos hempty, if_pos hempty]
                    exact sameButRequests_of_outcome _ k k' w (by simpa using hread)
                  · rw [if_neg hempty, if_neg hempty]
                    cases w.parseOutcome l source with
                    | error e => exact sameButRequests_of_outcome _ k k' w hparsing
                    | ok p =>
                        exact sameButRequests_fromParsed hlist hblank hblank' hsend hsend' _ p
                          hparsing

/-- Take two command lines and environments that differ in the key only, with keys that are not
blank and can be sent, and a server that answers requests with either key alike.

The arguments, the settings of the review service and the key are shown alike.  The requests that
can be made differ in nothing but the key, which they carry as it is.  The runs have the same
outcome and exit code, and leave the same world: files, standard output and programs.  They do the
same in the same order, but for the key in what they request, and only a review requests
anything. -/
theorem exec_differs_in_header_only {ws ws' : List String} {e e' : Environment} {a a' : Args}
    {k k' : ApiKey} {w : World} (hws : SameButKey ws ws') (he : e.withoutKey = e'.withoutKey)
    (ha : Args.parse ws e = .ok a) (ha' : Args.parse ws' e' = .ok a')
    (hk : a.apiKey = some k) (hk' : a'.apiKey = some k')
    (hblank : k.isBlank = false) (hblank' : k'.isBlank = false)
    (hsend : k.isSendable = true) (hsend' : k'.isSendable = true)
    (hserver : ∀ request : HttpRequest,
      w.server (request.withKey k) = w.server (request.withKey k')) :
    (a'.describe = a.describe ∧ a'.reviewConfig.describe = a.reviewConfig.describe ∧
      k'.redacted = k.redacted) ∧
    (∀ prompt, ∃ unsigned : Option HttpRequest,
      a.reviewConfig.request? prompt = unsigned.map (·.withKey k) ∧
      a'.reviewConfig.request? prompt = unsigned.map (·.withKey k')) ∧
    (exec a' w).1 = (exec a w).1 ∧ exitCode (exec a' w).1 = exitCode (exec a w).1 ∧
    { (exec a' w).2 with events := [] } = { (exec a w).2 with events := [] } ∧
    ∃ es : List Event, (exec a w).2.events = w.events ++ es.map (Event.withKey k) ∧
      (exec a' w).2.events = w.events ++ es.map (Event.withKey k') ∧
      ∀ request, .requested request ∈ es → a.target = .review ∧ a.listLanguages = false := by
  have hargs : a = a.withoutKey.withKey k := by
    rw [Args.withKey, Args.withoutKey, ← hk]
  have hargs' : a' = a.withoutKey.withKey k' := by
    rw [Args.withoutKey_parse hws he ha ha', Args.withKey, Args.withoutKey, ← hk']
  generalize a.withoutKey = b at hargs hargs'
  subst hargs hargs'
  obtain ⟨houtcome, hworld, es, hevents, hevents', hreviewed⟩ :=
    exec_withKey (a := b) hblank hblank' hsend hsend' hserver
  refine ⟨⟨rfl, rfl, rfl⟩, fun prompt => ?_, houtcome, by rw [houtcome], hworld,
    es, hevents, hevents', hreviewed⟩
  exact ⟨b.reviewConfig.unsigned? prompt, request?_eq rfl hsend prompt,
    request?_eq rfl hsend' prompt⟩

/-- A key on the command line, and another one in the environment. -/
theorem exec_withKey_sample :
    let a : Args := { language := some .c, target := .review, apiKey := some ⟨"left"⟩ }
    let a' : Args := { language := some .c, target := .review, apiKey := some ⟨"right"⟩ }
    let w : World :=
      { input := Text.encode "int x;"
        parses := fun _ _ => some ⟨.node
          { kind := "translation_unit", isNamed := true, isError := false, isMissing := false
            startByte := 0, endByte := 6, startPoint := ⟨0, 0⟩, endPoint := ⟨0, 6⟩ } [], false⟩
        server := fun _ => some ⟨200, Text.encode "\x7b\x7d"⟩ }
    Args.parse ["-l", "c", "-e", "review", "--api-key", "left"] {} = .ok a ∧
      Args.parse ["-l", "c", "-e", "review"] { apiKey := some "right" } = .ok a' ∧
      (exec a' w).1 = (exec a w).1 := by
  intro a a' w
  have ha : Args.parse ["-l", "c", "-e", "review", "--api-key", "left"] {} = .ok a := by rfl
  have ha' : Args.parse ["-l", "c", "-e", "review"] { apiKey := some "right" } = .ok a' := by rfl
  have hws : SameButKey ["-l", "c", "-e", "review", "--api-key", "left"]
      ["-l", "c", "-e", "review"] :=
    .word _ (.word _ (.word _ (.word _ (.key (.separate "left") .absent .nil))))
  have hkey : Environment.withoutKey {} = Environment.withoutKey { apiKey := some "right" } := rfl
  have hkeys := exec_differs_in_header_only (w := w) hws hkey ha ha' rfl rfl (by decide)
    (by decide) (by decide) (by decide) fun _ => rfl
  exact ⟨ha, ha', hkeys.2.2.1⟩

end Runs

end World
end SyntaxInspector
