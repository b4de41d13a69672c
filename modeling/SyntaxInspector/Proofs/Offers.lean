import Mathlib.Data.List.Infix
import SyntaxInspector.Output.Device

/-! # Offers of bytes

Whoever has bytes to write offers them to a writer call by call: a call that is interrupted is made
again, one that takes nothing or fails is the last, and behind the bytes that a call takes the rest
is offered.

* `Reply` is what a call comes to, and `Offered` what an offer comes to, whatever the writer does.
* `Offered.iff_first_call` takes an offer apart at its first call.
* `Offered.isPrefix_and_ok_iff` says what every offer takes: a beginning of the bytes, and all of
  them if and only if it succeeds.
* `deliver_offered` says that `deliver` is the offer to a device, whose single calls are `replyTo`,
  and `offered_iff` that there is no other.
* `offered_accepts` says what becomes of an offer to a device with limited room, whatever the size
  of its calls.
* `Offered.exists_answers` says that for any offer to any writer there is a script of a device that
  tells the same, and `Offered.exists_answers_append` that one script does for two offers. -/

namespace SyntaxInspector

/-- What a call of a writer comes to. -/
inductive Reply where
  /-- The writer takes the first bytes, this many. -/
  | took (count : Nat)
  | interrupted
  /-- The writer fails, and not by an interruption. -/
  | failed (e : IoError)
  deriving DecidableEq, Repr

variable {σ : Type} {call : σ → List UInt8 → Reply × σ} {s s₁ s' s'' : σ}
  {bytes bytes' taken taken' : List UInt8} {outcome outcome' : Except IoError Unit}

/-- An offer of bytes to a writer in some state, `call` being its reply to a call and the state
after it: what the writer takes, how the offer ends, and the state it leaves.  No call is made for
no bytes. -/
inductive Offered (call : σ → List UInt8 → Reply × σ) :
    σ → List UInt8 → List UInt8 → Except IoError Unit → σ → Prop
  | done (s : σ) : Offered call s [] [] (.ok ()) s
  | again {s s₁ s' : σ} {bytes taken : List UInt8} {outcome : Except IoError Unit}
      (hbytes : bytes ≠ []) (hcall : call s bytes = (.interrupted, s₁))
      (hrest : Offered call s₁ bytes taken outcome s') : Offered call s bytes taken outcome s'
  | stalled {s s₁ : σ} {bytes : List UInt8} (hbytes : bytes ≠ [])
      (hcall : call s bytes = (.took 0, s₁)) : Offered call s bytes [] (.error .writeZero) s₁
  | failed {s s₁ : σ} {bytes : List UInt8} {e : IoError} (hbytes : bytes ≠ [])
      (hcall : call s bytes = (.failed e, s₁)) : Offered call s bytes [] (.error e) s₁
  | took {s s₁ s' : σ} {bytes taken : List UInt8} {outcome : Except IoError Unit} {n : Nat}
      (hcall : call s bytes = (.took n, s₁)) (hpos : 0 < n) (hle : n ≤ bytes.length)
      (hrest : Offered call s₁ (bytes.drop n) taken outcome s') :
      Offered call s bytes (bytes.take n ++ taken) outcome s'

namespace Offered

/-- What is taken of an offer is a beginning of it, and the offer succeeds if and only if it is all
of it. -/
theorem isPrefix_and_ok_iff (h : Offered call s bytes taken outcome s') :
    taken <+: bytes ∧ (outcome = .ok () ↔ taken = bytes) := by
  induction h with
  | done => simp
  | again _ _ _ ih => exact ih
  | stalled hbytes _ => simp [eq_comm, hbytes]
  | failed hbytes _ => simp [eq_comm, hbytes]
  | @took s s₁ s' bytes taken outcome n hcall hpos hle hrest ih =>
      have hsplit : bytes.take n ++ bytes.drop n = bytes := List.take_append_drop n bytes
      have hbegin : bytes.take n ++ taken <+: bytes.take n ++ bytes.drop n :=
        (List.prefix_append_right_inj _).mpr ih.1
      have hall : bytes.take n ++ taken = bytes.take n ++ bytes.drop n ↔ taken = bytes.drop n :=
        List.append_right_inj _
      rw [hsplit] at hbegin hall
      exact ⟨hbegin, ih.2.trans hall.symm⟩

/-- An offer may be taken at one call. -/
theorem takenAtOnce (hbytes : bytes ≠ []) (hcall : call s bytes = (.took bytes.length, s')) :
    Offered call s bytes bytes (.ok ()) s' := by
  have hrest : Offered call s' (bytes.drop bytes.length) [] (.ok ()) s' := by
    rw [List.drop_length]
    exact .done s'
  have hall := Offered.took hcall (List.length_pos_iff.mpr hbytes) (Nat.le_refl _) hrest
  rwa [List.take_length, List.append_nil] at hall

/-- Without bytes there is nothing to offer. -/
theorem nil_iff : Offered call s [] taken outcome s' ↔ taken = [] ∧ outcome = .ok () ∧ s' = s := by
  constructor
  · intro h
    cases h with
    | done => exact ⟨rfl, rfl, rfl⟩
    | again hbytes _ _ | stalled hbytes _ | failed hbytes _ => exact absurd rfl hbytes
    | took _ hpos hle _ => exact absurd (Nat.lt_of_lt_of_le hpos hle) (Nat.lt_irrefl 0)
  · rintro ⟨rfl, rfl, rfl⟩
    exact .done s'

/-- The first call decides what becomes of the offer. -/
theorem iff_first_call (hbytes : bytes ≠ []) :
    Offered call s bytes taken outcome s' ↔ match call s bytes with
      | (.interrupted, s₁) => Offered call s₁ bytes taken outcome s'
      | (.failed e, s₁) => taken = [] ∧ outcome = .error e ∧ s' = s₁
      | (.took 0, s₁) => taken = [] ∧ outcome = .error .writeZero ∧ s' = s₁
      | (.took (n + 1), s₁) => n + 1 ≤ bytes.length ∧ ∃ rest,
          taken = bytes.take (n + 1) ++ rest ∧
            Offered call s₁ (bytes.drop (n + 1)) rest outcome s' := by
  constructor
  · intro h
    cases h with
    | done => exact absurd rfl hbytes
    | again _ hcall hrest =>
        rw [hcall]
        exact hrest
    | stalled _ hcall | failed _ hcall =>
        rw [hcall]
        exact ⟨rfl, rfl, rfl⟩
    | @took _ s₁ _ _ _ _ n hcall hpos hle hrest =>
        rw [hcall]
        cases n with
        | zero => exact absurd hpos (Nat.lt_irrefl 0)
        | succ n => exact ⟨hle, _, rfl, hrest⟩
  · intro h
    rcases hcall : call s bytes with ⟨⟨_ | n⟩ | _ | e, s₁⟩
    all_goals rw [hcall] at h
    · obtain ⟨rfl, rfl, rfl⟩ := h
      exact .stalled hbytes hcall
    · obtain ⟨hle, rest, rfl, hrest⟩ := h
      exact .took hcall (Nat.succ_pos n) hle hrest
    · exact .again hbytes hcall h
    · obtain ⟨rfl, rfl, rfl⟩ := h
      exact .failed hbytes hcall

/-- A writer that replies alike in two states takes an offer alike. -/
theorem congr (hbytes : bytes ≠ []) (hcall : call s bytes = call s₁ bytes)
    (h : Offered call s₁ bytes taken outcome s') : Offered call s bytes taken outcome s' := by
  rw [iff_first_call hbytes, hcall, ← iff_first_call hbytes]
  exact h

theorem unique (h : Offered call s bytes taken outcome s')
    (h' : Offered call s bytes taken' outcome' s'') :
    taken = taken' ∧ outcome = outcome' ∧ s' = s'' := by
  induction h generalizing taken' with
  | done =>
      obtain ⟨rfl, rfl, rfl⟩ := nil_iff.mp h'
      exact ⟨rfl, rfl, rfl⟩
  | again hbytes hcall _ ih =>
      rw [iff_first_call hbytes, hcall] at h'
      exact ih h'
  | stalled hbytes hcall | failed hbytes hcall =>
      rw [iff_first_call hbytes, hcall] at h'
      obtain ⟨rfl, rfl, rfl⟩ := h'
      exact ⟨rfl, rfl, rfl⟩
  | @took _ _ _ bytes _ _ n hcall hpos hle _ ih =>
      have hbytes : bytes ≠ [] := List.length_pos_iff.mp (Nat.lt_of_lt_of_le hpos hle)
      rw [iff_first_call hbytes, hcall] at h'
      cases n with
      | zero => exact absurd hpos (Nat.lt_irrefl 0)
      | succ n =>
          obtain ⟨-, rest, rfl, hrest⟩ := h'
          obtain ⟨rfl, rfl, rfl⟩ := ih hrest
          exact ⟨rfl, rfl, rfl⟩

end Offered

/-! ### Devices as writers -/

/-- What a device replies to a call, and the answers that are left.  Answers that have used up their
budget are passed over. -/
def replyTo : List Answer → List UInt8 → Reply × List Answer
  | [], bytes => (.took bytes.length, [])
  | .interrupted :: answers, _ => (.interrupted, answers)
  | .stalled :: answers, _ => (.took 0, answers)
  | .failed e :: answers, _ => (.failed e, answers)
  | .accepts chunk budget :: answers, bytes =>
    if budget = some 0 then replyTo answers bytes
    else match tighter chunk budget with
      | none => (.took bytes.length, .accepts chunk budget :: answers)
      | some limit =>
        let count := min limit bytes.length
        (.took count, .accepts chunk (budget.map (· - count)) :: answers)

/-- A call that the device takes at most `limit` bytes of takes as many as there are. -/
theorem replyTo_of_limit {answers : List Answer} {chunk budget : Option Nat} {limit : Nat}
    (hbudget : ¬ budget = some 0) (hlimit : tighter chunk budget = some limit) :
    replyTo (.accepts chunk budget :: answers) bytes =
      (.took (min limit bytes.length),
        .accepts chunk (budget.map (· - min limit bytes.length)) :: answers) := by
  rw [replyTo, if_neg hbudget, hlimit]

/-- Bytes are delivered to a device by offering them. -/
theorem deliver_offered (answers : List Answer) (bytes : List UInt8) :
    Offered replyTo answers bytes (deliver answers bytes).1 (deliver answers bytes).2.1
      (deliver answers bytes).2.2 := by
  induction answers, bytes using deliver.induct with
  | case1 answers =>
      rw [deliver]
      exact .done answers
  | case2 bytes hbytes =>
      rw [deliver]
      · exact .takenAtOnce hbytes rfl
      · exact hbytes
  | case3 answers b bs ih =>
      rw [deliver]
      exact .again (List.cons_ne_nil b bs) rfl ih
  | case4 answers bytes hbytes =>
      rw [deliver]
      · exact .stalled hbytes rfl
      · exact hbytes
  | case5 e answers bytes hbytes =>
      rw [deliver]
      · exact .failed hbytes rfl
      · exact hbytes
  | case6 chunk answers b bs ih =>
      rw [deliver, if_pos rfl]
      refine Offered.congr (List.cons_ne_nil b bs) ?_ ih
      rw [replyTo, if_pos rfl]
  | case7 chunk budget answers b bs hbudget hlimit =>
      rw [deliver, if_neg hbudget, hlimit]
      refine .takenAtOnce (List.cons_ne_nil b bs) ?_
      rw [replyTo, if_neg hbudget, hlimit]
  | case8 chunk budget answers b bs hbudget hlimit =>
      rw [deliver, if_neg hbudget, hlimit]
      refine .stalled (List.cons_ne_nil b bs) ?_
      have hsame : budget.map (· - 0) = budget := by cases budget <;> rfl
      rw [replyTo_of_limit hbudget hlimit, Nat.zero_min, hsame]
  | case9 chunk budget answers b bs hbudget k hlimit call taken outcome left hrest ih =>
      rw [deliver, if_neg hbudget, hlimit]
      dsimp only
      rw [hrest] at ih ⊢
      have hcount : min (k + 1) (b :: bs).length = call.length := by
        simp only [call, List.length_cons, List.length_take]
        omega
      have htake : (b :: bs).take call.length = call := by
        rw [← hcount, ← List.take_eq_take_min, List.take_succ_cons]
      have hdrop : (b :: bs).drop call.length = bs.drop k := by
        have hsplit := List.take_append_drop call.length (b :: bs)
        have hcons : b :: bs = call ++ bs.drop k := by simp [call]
        rw [htake] at hsplit
        exact List.append_cancel_left (hsplit.trans hcons)
      have hreply : replyTo (.accepts chunk budget :: answers) (b :: bs) = _ :=
        replyTo_of_limit hbudget hlimit
      rw [hcount] at hreply
      rw [← hdrop] at ih
      have hoffer := Offered.took hreply (Nat.succ_pos _) (by omega) ih
      rwa [htake] at hoffer

/-- What is delivered is the only offer there is. -/
theorem offered_iff {answers left : List Answer} :
    Offered replyTo answers bytes taken outcome left ↔
      deliver answers bytes = (taken, outcome, left) := by
  constructor
  · intro h
    obtain ⟨htaken, houtcome, hleft⟩ := (deliver_offered answers bytes).unique h
    exact Prod.ext htaken (Prod.ext houtcome hleft)
  · intro h
    have hoffer := deliver_offered answers bytes
    rwa [h] at hoffer

/-- A device takes all that it is offered, or fails. -/
theorem exists_offered (answers : List Answer) (bytes : List UInt8) :
    (∃ left, Offered replyTo answers bytes bytes (.ok ()) left) ∨
      ∃ taken e left, Offered replyTo answers bytes taken (.error e) left := by
  have hoffer := deliver_offered answers bytes
  rcases hdeliver : deliver answers bytes with ⟨taken, e | ⟨⟩, left⟩
  all_goals rw [hdeliver] at hoffer
  · exact .inr ⟨taken, e, left, hoffer⟩
  · have hall : taken = bytes := hoffer.isPrefix_and_ok_iff.2.mp rfl
    exact .inl ⟨left, hall ▸ hoffer⟩

/-! ### Limited room -/

/-- Interruptions change nothing. -/
theorem offered_replicate_interrupted {answers left : List Answer} (hbytes : bytes ≠ [])
    (h : Offered replyTo answers bytes taken outcome left) (n : Nat) :
    Offered replyTo (List.replicate n .interrupted ++ answers) bytes taken outcome left := by
  induction n with
  | zero => exact h
  | succ n ih =>
      rw [List.replicate_succ, List.cons_append]
      exact .again hbytes rfl ih

/-- Each call is limited by the room, and by the size of a call if there is one. -/
theorem exists_tighter {chunk : Option Nat} {room : Nat} (hchunk : chunk ≠ some 0)
    (hroom : 0 < room) :
    ∃ limit, tighter chunk (some room) = some limit ∧ 0 < limit ∧ limit ≤ room := by
  cases chunk with
  | none => exact ⟨room, rfl, hroom, Nat.le_refl room⟩
  | some size =>
      have hsize : size ≠ 0 := fun h => hchunk (congrArg some h)
      exact ⟨min size room, rfl, by omega, Nat.min_le_right size room⟩

/-- A device takes what it has room for, in calls of any size; what is offered beyond that meets the
answers behind. -/
theorem offered_accepts {chunk : Option Nat} {room : Nat} {answers left : List Answer}
    (hchunk : chunk ≠ some 0)
    (h : Offered replyTo (.accepts chunk (some (room - bytes.length)) :: answers) (bytes.drop room)
      taken outcome left) :
    Offered replyTo (.accepts chunk (some room) :: answers) bytes (bytes.take room ++ taken) outcome
      left := by
  induction room using Nat.strongRecOn generalizing bytes with
  | _ room ih =>
    by_cases hroom : room = 0
    · subst hroom
      simpa using h
    · by_cases hbytes : bytes = []
      · subst hbytes
        simpa using h
      · obtain ⟨limit, hlimit, hpos, hle⟩ := exists_tighter hchunk (Nat.pos_of_ne_zero hroom)
        have hlength : 0 < bytes.length := List.length_pos_iff.mpr hbytes
        have hbudget : ¬ some room = some 0 := by simpa using hroom
        have hreply : replyTo (.accepts chunk (some room) :: answers) bytes = _ :=
          replyTo_of_limit hbudget hlimit
        -- The call takes `count` bytes, which is no more than the room.
        generalize hcount : min limit bytes.length = count at hreply
        have hpos' : 0 < count := by omega
        have hbound : count ≤ room := by omega
        have hleft : room - count - (bytes.drop count).length = room - bytes.length := by
          rw [List.length_drop]
          omega
        have hdrop : (bytes.drop count).drop (room - count) = bytes.drop room := by
          rw [List.drop_drop, Nat.add_sub_cancel' hbound]
        have htake : bytes.take room =
            bytes.take count ++ (bytes.drop count).take (room - count) := by
          rw [← List.take_add, Nat.add_sub_cancel' hbound]
        rw [htake, List.append_assoc]
        refine .took hreply hpos' (by omega) (ih (room - count) (by omega) ?_)
        rwa [hleft, hdrop]

/-! ### Writers as devices -/

/-- One call, and then the script that follows. -/
theorem deliver_accepts_once {n : Nat} {answers : List Answer} (hpos : 0 < n)
    (hle : n ≤ bytes.length) :
    deliver (.accepts (some n) (some n) :: answers) bytes =
      (bytes.take n ++ (deliver (.accepts (some n) (some 0) :: answers) (bytes.drop n)).1,
        (deliver (.accepts (some n) (some 0) :: answers) (bytes.drop n)).2) := by
  have hchunk : some n ≠ some 0 := by simpa using Nat.ne_of_gt hpos
  refine offered_iff.mp (offered_accepts hchunk ?_)
  rw [Nat.sub_eq_zero_of_le hle]
  exact deliver_offered _ _

theorem deliver_accepts_spent {n : Nat} {answers : List Answer} (hbytes : bytes ≠ []) :
    deliver (.accepts (some n) (some 0) :: answers) bytes = deliver answers bytes := by
  cases bytes with
  | nil => exact absurd rfl hbytes
  | cons b bs => rw [deliver, if_pos rfl]

/-- Whatever a writer does with an offer, there are answers with which a device does the same,
before whatever answers come later. -/
theorem Offered.exists_answers (h : Offered call s bytes taken outcome s') :
    ∃ answers, ∀ later, ∃ left, deliver (answers ++ later) bytes = (taken, outcome, left) ∧
      ∀ more, more ≠ [] → deliver left more = deliver later more := by
  induction h with
  | done => exact ⟨[], fun later => ⟨later, by rw [List.nil_append, deliver], fun _ _ => rfl⟩⟩
  | @again s s₁ s' bytes taken outcome hbytes _ _ ih =>
      obtain ⟨answers, hanswers⟩ := ih
      refine ⟨.interrupted :: answers, fun later => ?_⟩
      obtain ⟨left, hdeliver, hleft⟩ := hanswers later
      refine ⟨left, ?_, hleft⟩
      rw [← hdeliver]
      cases bytes with
      | nil => exact absurd rfl hbytes
      | cons b bs => rw [List.cons_append, deliver]
  | stalled hbytes _ =>
      refine ⟨[.stalled], fun later => ⟨later, ?_, fun _ _ => rfl⟩⟩
      rw [List.singleton_append, deliver]
      exact hbytes
  | @failed s s₁ bytes e hbytes _ =>
      refine ⟨[.failed e], fun later => ⟨later, ?_, fun _ _ => rfl⟩⟩
      rw [List.singleton_append, deliver]
      exact hbytes
  | @took s s₁ s' bytes taken outcome n _ hpos hle hrest ih =>
      obtain ⟨answers, hanswers⟩ := ih
      refine ⟨.accepts (some n) (some n) :: answers, fun later => ?_⟩
      obtain ⟨left, hdeliver, hleft⟩ := hanswers later
      rw [List.cons_append, deliver_accepts_once hpos hle]
      by_cases hdrop : bytes.drop n = []
      · -- Nothing is left to offer: the answer is used up, and passed over by the next offer.
        rw [hdrop] at hdeliver ⊢
        rw [deliver] at hdeliver ⊢
        cases hdeliver
        refine ⟨_, rfl, fun more hmore => ?_⟩
        rw [deliver_accepts_spent hmore, hleft more hmore]
      · rw [deliver_accepts_spent hdrop, hdeliver]
        exact ⟨left, rfl, hleft⟩

/-- One script does for two offers, the second behind all of the first. -/
theorem Offered.exists_answers_append (h : Offered call s bytes taken (.ok ()) s₁)
    (h' : Offered call s₁ bytes' taken' outcome s') :
    ∃ answers left left', Offered replyTo answers bytes taken (.ok ()) left ∧
      Offered replyTo left bytes' taken' outcome left' := by
  obtain ⟨answers, hanswers⟩ := h.exists_answers
  obtain ⟨later, hlater⟩ := h'.exists_answers
  obtain ⟨left, hdeliver, hleft⟩ := hanswers later
  refine ⟨answers ++ later, left, ?_⟩
  by_cases hbytes' : bytes' = []
  · subst hbytes'
    obtain ⟨rfl, rfl, -⟩ := nil_iff.mp h'
    exact ⟨left, offered_iff.mpr hdeliver, .done left⟩
  · obtain ⟨left', hdeliver', -⟩ := hlater []
    rw [List.append_nil, ← hleft bytes' hbytes'] at hdeliver'
    exact ⟨left', offered_iff.mpr hdeliver, offered_iff.mpr hdeliver'⟩

end SyntaxInspector
