import Mathlib.Algebra.GroupWithZero.Nat
import SyntaxInspector.Summary.Tally

/-! # What a tally stores

* `count?_alter` says what the change of one count does to all counts.
* `Tally.Stores` says that a tally stores a function of counts: the kinds with a count other than 0,
  each with its count.  A function has at most one such tally (`Stores.unique`).
* `Tally.plus` is the pointwise sum of two tallies; it stores the sum of what they store
  (`Stores.plus`).
* `Tally.total` is the sum of all stored counts. -/

namespace SyntaxInspector.Tally

variable {es : List (String × Nat)} {e : String × Nat} {f : Option Nat → Nat} {kind k : String}

/-! ### One count changed -/

theorem lookup_cons_eq (k : String) (e : String × Nat) (es : List (String × Nat)) :
    (e :: es).lookup k = if k = e.1 then some e.2 else es.lookup k := by
  rw [List.lookup_cons]
  by_cases hk : k = e.1
  · rw [if_pos hk, beq_iff_eq.mpr hk]
  · rw [if_neg hk, beq_eq_false_iff_ne.mpr hk]

theorem lookup_eq_none_of_lt (h : ∀ e ∈ es, k < e.1) : es.lookup k = none := by
  rw [List.lookup_eq_none_iff]
  intro e he
  rw [bne_iff_ne]
  exact fun heq => String.lt_irrefl _ (heq ▸ h e he)

/-- A kind below the first entry is not stored. -/
theorem lookup_cons_eq_none (h : (e :: es).Pairwise (·.1 < ·.1)) (hlt : kind < e.1) :
    (e :: es).lookup kind = none := by
  refine lookup_eq_none_of_lt fun e' he' => ?_
  rcases List.mem_cons.mp he' with rfl | he'
  · exact hlt
  · exact String.lt_trans hlt ((List.pairwise_cons.mp h).1 e' he')

theorem lookup_update (h : es.Pairwise (·.1 < ·.1)) :
    (update kind f es).lookup k =
      if k = kind then some (f (es.lookup kind)) else es.lookup k := by
  induction es with
  | nil => rw [update, lookup_cons_eq, List.lookup_nil, List.lookup_nil]
  | cons e rest ih =>
      obtain ⟨k', n⟩ := e
      obtain ⟨-, hasc⟩ := List.pairwise_cons.mp h
      unfold update
      split
      · rename_i hlt
        rw [lookup_cons_eq_none h hlt, lookup_cons_eq]
      · split
        · rename_i _ heq
          subst heq
          rw [lookup_cons_eq, lookup_cons_eq, lookup_cons_eq, if_pos rfl]
          split <;> rfl
        · rename_i _ hne
          rw [lookup_cons_eq, lookup_cons_eq, lookup_cons_eq, ih hasc, if_neg hne]
          by_cases hk : k = k'
          · have hkind : ¬ k = kind := fun heq => hne (heq.symm.trans hk)
            rw [if_pos hk, if_neg hkind, if_pos hk]
          · rw [if_neg hk, if_neg hk]

theorem count?_alter (t : Tally) (kind k : String) (f : Option Nat → Nat) :
    (t.alter kind f).count? k = if k = kind then some (f (t.count? kind)) else t.count? k :=
  lookup_update t.ascending

/-! ### Tallies and their counts -/

theorem mem_iff_lookup (h : es.Pairwise (·.1 < ·.1)) : e ∈ es ↔ es.lookup e.1 = some e.2 := by
  induction es with
  | nil => simp
  | cons e' rest ih =>
      obtain ⟨hrest, hasc⟩ := List.pairwise_cons.mp h
      rw [List.mem_cons, ih hasc, lookup_cons_eq]
      by_cases hk : e.1 = e'.1
      · have hnone : rest.lookup e.1 = none := lookup_eq_none_of_lt (by rw [hk]; exact hrest)
        rw [hnone, if_pos hk]
        simp only [reduceCtorEq, or_false, Option.some.injEq]
        exact ⟨fun heq => by rw [heq], fun heq => Prod.ext hk heq.symm⟩
      · have hne : e ≠ e' := fun heq => hk (by rw [heq])
        rw [if_neg hk]
        simp [hne]

theorem mem_entries_iff {t : Tally} : e ∈ t.entries ↔ t.count? e.1 = some e.2 :=
  mem_iff_lookup t.ascending

theorem nodup_entries (t : Tally) : t.entries.Nodup := by
  refine t.ascending.imp ?_
  rintro a b hlt rfl
  exact String.lt_irrefl _ hlt

/-- A tally is determined by its counts. -/
theorem eq_of_count? {s t : Tally} (h : ∀ k, s.count? k = t.count? k) : s = t := by
  have hperm : s.entries.Perm t.entries := by
    rw [List.perm_ext_iff_of_nodup s.nodup_entries t.nodup_entries]
    intro e
    rw [mem_entries_iff, mem_entries_iff, h]
  have heq : s.entries = t.entries :=
    hperm.eq_of_pairwise
      (fun _ _ _ _ hab hba => absurd (String.lt_trans hab hba) (String.lt_irrefl _))
      s.ascending t.ascending
  cases s
  cases t
  simpa using heq

theorem count?_foldl_set (h : es.Pairwise (·.1 < ·.1)) (t : Tally) :
    (es.foldl (fun t e => t.set e.1 e.2) t).count? k = (es.lookup k).or (t.count? k) := by
  induction es generalizing t with
  | nil => rfl
  | cons e es ih =>
      obtain ⟨hlt, hasc⟩ := List.pairwise_cons.mp h
      rw [List.foldl_cons, ih hasc, set, count?_alter, lookup_cons_eq]
      by_cases hk : k = e.1
      · rw [if_pos hk, if_pos hk, lookup_eq_none_of_lt (by rw [hk]; exact hlt)]
        rfl
      · rw [if_neg hk, if_neg hk]

/-- A tally is made of its entries. -/
theorem ofList_entries (t : Tally) : ofList t.entries = t := by
  refine eq_of_count? fun k => ?_
  have hempty : empty.count? k = none := rfl
  rw [ofList, count?_foldl_set t.ascending, hempty, Option.or_none, count?]

/-- The tally stores a function of counts: kinds with the count 0 have no entry. -/
def Stores (t : Tally) (count : String → Nat) : Prop :=
  ∀ k, t.count? k = if count k = 0 then none else some (count k)

namespace Stores

variable {s t : Tally} {c d : String → Nat}

theorem congr (h : t.Stores c) (hcd : ∀ k, c k = d k) : t.Stores d := by
  rwa [← funext hcd]

theorem unique (hs : s.Stores c) (ht : t.Stores c) : s = t :=
  eq_of_count? fun k => by rw [hs k, ht k]

theorem getD (h : t.Stores c) (k : String) : (t.count? k).getD 0 = c k := by
  rw [h k]
  split
  · simp_all
  · rfl

theorem empty : Tally.empty.Stores fun _ => 0 := fun _ => rfl

/-- Counting a kind some times more, at least once. -/
theorem alter (h : t.Stores c) (kind : String) {n : Nat} (hn : n ≠ 0) :
    (t.alter kind fun m => m.getD 0 + n).Stores fun k => c k + if k = kind then n else 0 := by
  intro k
  rw [count?_alter]
  by_cases hk : k = kind
  · subst hk
    simp [h.getD, hn]
  · simp [hk, h k]

theorem bump (h : t.Stores c) (kind : String) :
    (t.bump kind).Stores fun k => c k + if k = kind then 1 else 0 :=
  h.alter kind Nat.one_ne_zero

theorem zero_not_mem (h : t.Stores c) : 0 ∉ t.entries.map Prod.snd := by
  intro h0
  obtain ⟨e, he, he0⟩ := List.mem_map.mp h0
  have hc := mem_entries_iff.mp he
  rw [h e.1, he0] at hc
  split at hc
  · cases hc
  · exact absurd (Option.some.inj hc) ‹_›

end Stores

/-! ### Sums -/

/-- The pointwise sum: the counts of the second tally on top of those of the first. -/
def plus (s t : Tally) : Tally :=
  t.entries.foldl (fun s e => s.alter e.1 fun n => n.getD 0 + e.2) s

theorem stores_foldl_alter {s : Tally} {c : String → Nat} (hs : s.Stores c)
    (h0 : 0 ∉ es.map Prod.snd) (h : es.Pairwise (·.1 < ·.1)) :
    (es.foldl (fun s e => s.alter e.1 fun n => n.getD 0 + e.2) s).Stores
      fun k => c k + (es.lookup k).getD 0 := by
  induction es generalizing s c with
  | nil => simpa using hs
  | cons e rest ih =>
      obtain ⟨hrest, hasc⟩ := List.pairwise_cons.mp h
      rw [List.map_cons, List.mem_cons, not_or] at h0
      refine (ih (hs.alter e.1 (Ne.symm h0.1)) h0.2 hasc).congr fun k => ?_
      rw [lookup_cons_eq]
      by_cases hk : k = e.1
      · have hnone : rest.lookup k = none := lookup_eq_none_of_lt (by rw [hk]; exact hrest)
        rw [hnone, if_pos hk, if_pos hk, Option.getD_some, Option.getD_none, Nat.add_zero]
      · rw [if_neg hk, if_neg hk, Nat.add_zero]

theorem Stores.plus {s t : Tally} {c d : String → Nat} (hs : s.Stores c) (ht : t.Stores d) :
    (s.plus t).Stores fun k => c k + d k := by
  refine (stores_foldl_alter hs ht.zero_not_mem t.ascending).congr fun k => ?_
  rw [← ht.getD k, count?]

/-- The sum of all counts. -/
def total (t : Tally) : Nat := (t.entries.map Prod.snd).sum

theorem sum_update (kind : String) (f : Option Nat → Nat) (h : es.Pairwise (·.1 < ·.1)) :
    ((update kind f es).map Prod.snd).sum + (es.lookup kind).getD 0 =
      (es.map Prod.snd).sum + f (es.lookup kind) := by
  induction es with
  | nil => simp [update]
  | cons e rest ih =>
      obtain ⟨k', n⟩ := e
      obtain ⟨-, hasc⟩ := List.pairwise_cons.mp h
      unfold update
      split
      · rename_i hlt
        rw [lookup_cons_eq_none h hlt]
        simp only [List.map_cons, List.sum_cons, Option.getD_none]
        omega
      · split
        · rename_i _ heq
          rw [lookup_cons_eq, if_pos heq]
          simp only [List.map_cons, List.sum_cons, Option.getD_some]
          omega
        · rename_i _ hne
          have ih := ih hasc
          rw [lookup_cons_eq, if_neg hne]
          simp only [List.map_cons, List.sum_cons]
          omega

theorem total_bump (t : Tally) (kind : String) : (t.bump kind).total = t.total + 1 := by
  have h := sum_update kind (fun n => n.getD 0 + 1) t.ascending
  simp only [total, bump, alter]
  omega

end SyntaxInspector.Tally
