/-! # Tallies

A tally says how often each kind occurs.  Its entries are in ascending order of the kinds, compared
by code points, so a tally is determined by its counts and not by the order of counting.

* `Tally.count?` looks a kind up;
* `Tally.bump` counts a kind once more, `Tally.set` gives it a count. -/

namespace SyntaxInspector

/-- Counts by kind, in ascending order of the kinds. -/
structure Tally where
  entries : List (String × Nat)
  ascending : entries.Pairwise (·.1 < ·.1)

namespace Tally

/-- The tally that has counted nothing. -/
def empty : Tally := ⟨[], .nil⟩

instance : Inhabited Tally := ⟨empty⟩

/-- The entries with the count of one kind replaced, or put in where the kind belongs. -/
def update (kind : String) (f : Option Nat → Nat) : List (String × Nat) → List (String × Nat)
  | [] => [(kind, f none)]
  | (k, n) :: rest =>
    if kind < k then (kind, f none) :: (k, n) :: rest
    else if kind = k then (k, f (some n)) :: rest
    else (k, n) :: update kind f rest

theorem fst_of_mem_update {kind : String} {f : Option Nat → Nat} {es : List (String × Nat)}
    {e : String × Nat} (h : e ∈ update kind f es) : e.1 = kind ∨ ∃ e' ∈ es, e.1 = e'.1 := by
  induction es with
  | nil => simp_all [update]
  | cons e' rest ih =>
    obtain ⟨k, n⟩ := e'
    unfold update at h
    split at h
    · rcases List.mem_cons.1 h with rfl | h
      · exact .inl rfl
      · exact .inr ⟨e, h, rfl⟩
    · split at h
      · rcases List.mem_cons.1 h with rfl | h
        · exact .inr ⟨(k, n), by simp, rfl⟩
        · exact .inr ⟨e, List.mem_cons_of_mem _ h, rfl⟩
      · rcases List.mem_cons.1 h with rfl | h
        · exact .inr ⟨(k, n), by simp, rfl⟩
        · rcases ih h with h | ⟨e', he', h⟩
          · exact .inl h
          · exact .inr ⟨e', List.mem_cons_of_mem _ he', h⟩

theorem pairwise_update (kind : String) (f : Option Nat → Nat) {es : List (String × Nat)}
    (h : es.Pairwise (·.1 < ·.1)) : (update kind f es).Pairwise (·.1 < ·.1) := by
  induction es with
  | nil => simp [update]
  | cons e rest ih =>
    obtain ⟨k, n⟩ := e
    obtain ⟨hk, hrest⟩ := List.pairwise_cons.1 h
    unfold update
    split
    · rename_i hlt
      refine List.pairwise_cons.2 ⟨fun e he => ?_, h⟩
      rcases List.mem_cons.1 he with rfl | he
      · exact hlt
      · exact String.lt_trans hlt (hk e he)
    · split
      · exact List.pairwise_cons.2 ⟨hk, hrest⟩
      · rename_i hlt hne
        refine List.pairwise_cons.2 ⟨fun e he => ?_, ih hrest⟩
        rcases fst_of_mem_update he with h | ⟨e', he', h⟩
        · rw [h]
          exact Std.lt_of_le_of_ne hlt (Ne.symm hne)
        · rw [h]
          exact hk e' he'

/-- The tally with the count of one kind replaced. -/
def alter (t : Tally) (kind : String) (f : Option Nat → Nat) : Tally :=
  ⟨update kind f t.entries, pairwise_update kind f t.ascending⟩

/-- Counts a kind once more. -/
def bump (t : Tally) (kind : String) : Tally := t.alter kind fun n => n.getD 0 + 1

/-- Gives a kind a count, whatever it was before. -/
def set (t : Tally) (kind : String) (count : Nat) : Tally := t.alter kind fun _ => count

/-- The tally of pairs of a kind and its count; the last pair of a kind decides. -/
def ofList (pairs : List (String × Nat)) : Tally := pairs.foldl (fun t p => t.set p.1 p.2) empty

/-- How often a kind was counted, if ever. -/
def count? (t : Tally) (kind : String) : Option Nat := t.entries.lookup kind

end Tally
end SyntaxInspector
