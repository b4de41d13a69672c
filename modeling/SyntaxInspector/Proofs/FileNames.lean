import Mathlib.Data.List.TakeWhile
import SyntaxInspector.Path

/-! # The file that a path names

What stands in front of the name of a file and behind it makes no difference to the file that is
named.

* `IsDirectories` is what may stand in front of a name, `IsTrailer` what may stand behind it:
  further slashes, each perhaps with a dot that leads nowhere.
* `getLast?_parts` finds the name between them, and `extension?_named` its extension;
  `extension?_nameless` is about paths that have no name at all.
* `extensionOf?_append`, `extensionOf?_of_not_mem` and `extensionOf?_dotFile` tell the extension of
  a name by its last dot. -/

namespace SyntaxInspector.Path

/-! ### Parts -/

theorem split_eq_splitOn (cs : List Char) : split cs = cs.splitOn '/' := by
  induction cs with
  | nil => rfl
  | cons c cs ih =>
      rw [split, ih, List.splitOn_cons_eq_if_modifyHead]
      cases hparts : cs.splitOn '/' with
      | nil => exact absurd hparts (List.splitOn_ne_nil '/' cs)
      | cons part parts => simp only [beq_iff_eq, List.modifyHead_cons]

/-- The part leads nowhere. -/
def IsIdle (part : List Char) : Prop := part = [] ∨ part = ['.']

/-- What stands in front of the name of a file: nothing, or directories, each with its slash. -/
def IsDirectories (front : String) : Prop := front = "" ∨ ∃ dir, front = dir ++ "/"

/-- What stands behind the name of a file without leading anywhere. -/
def IsTrailer (tail : String) : Prop :=
  ∃ pieces : List String, (∀ p ∈ pieces, p = "/" ∨ p = "/.") ∧ tail = String.join pieces

theorem split_append_slash (xs ys : List Char) :
    split (xs ++ '/' :: ys) = split xs ++ split ys := by
  rw [split_eq_splitOn, split_eq_splitOn, split_eq_splitOn, List.splitOn_append_cons_self]

theorem split_of_not_mem {xs : List Char} (h : '/' ∉ xs) : split xs = [xs] := by
  rw [split_eq_splitOn, List.splitOn_eq_singleton h]

/-- Behind a name, a trailer adds parts that lead nowhere. -/
theorem split_append_trailer {pieces : List String} (h : ∀ p ∈ pieces, p = "/" ∨ p = "/.")
    {xs : List Char} (hxs : '/' ∉ xs) :
    ∃ idle, split (xs ++ (String.join pieces).toList) = xs :: idle ∧
      ∀ part ∈ idle, IsIdle part := by
  induction pieces generalizing xs with
  | nil =>
      refine ⟨[], ?_, nofun⟩
      rw [String.join_nil, String.toList_empty, List.append_nil, split_of_not_mem hxs]
  | cons p ps ih =>
      obtain ⟨hp, hps⟩ := List.forall_mem_cons.mp h
      have hpart : ∃ part, p.toList = '/' :: part ∧ IsIdle part ∧ '/' ∉ part := by
        rcases hp with rfl | rfl
        · exact ⟨[], rfl, .inl rfl, by decide⟩
        · exact ⟨['.'], rfl, .inr rfl, by decide⟩
      obtain ⟨part, hp, hpart, hslash⟩ := hpart
      obtain ⟨idle, hsplit, hidle⟩ := ih hps hslash
      refine ⟨part :: idle, ?_, List.forall_mem_cons.mpr ⟨hpart, hidle⟩⟩
      rw [String.join_cons, String.toList_append, hp, List.cons_append, split_append_slash,
        split_of_not_mem hxs, hsplit, List.singleton_append]

theorem filter_idle {ps : List (List Char)} (h : ∀ part ∈ ps, IsIdle part) :
    ps.filter (fun p => p ≠ [] && p ≠ ['.']) = [] := by
  rw [List.filter_eq_nil_iff]
  intro part hpart
  rcases h part hpart with rfl | rfl <;> decide

/-- The last part that leads somewhere is the name. -/
theorem getLast?_parts {front name tail : String} (hfront : IsDirectories front)
    (htail : IsTrailer tail) (hslash : '/' ∉ name.toList) (hname : ¬ IsIdle name.toList) :
    (parts (front ++ name ++ tail)).getLast? = some name := by
  obtain ⟨pieces, hpieces, rfl⟩ := htail
  obtain ⟨idle, hsplit, hidle⟩ := split_append_trailer hpieces hslash
  have hparts : ∃ before, split (front ++ name ++ String.join pieces).toList =
      before ++ name.toList :: idle := by
    rcases hfront with rfl | ⟨dir, rfl⟩
    · refine ⟨[], ?_⟩
      rw [String.empty_append, String.toList_append, hsplit, List.nil_append]
    · refine ⟨split dir.toList, ?_⟩
      rw [← hsplit, ← split_append_slash]
      simp
  obtain ⟨before, hbefore⟩ := hparts
  have hkept : (name.toList ≠ [] && name.toList ≠ ['.']) = true := by
    rw [IsIdle, not_or] at hname
    simpa using hname
  rw [parts, hbefore, List.filter_append, List.filter_cons, if_pos hkept, filter_idle hidle,
    List.map_append, List.map_singleton, List.getLast?_concat, String.ofList_toList]

/-! ### Names and extensions -/

theorem fileName?_named {front name tail : String} (hfront : IsDirectories front)
    (htail : IsTrailer tail) (hslash : '/' ∉ name.toList) (hname : ¬ IsIdle name.toList) :
    fileName? (front ++ name ++ tail) = if name = ".." then none else some name := by
  rw [fileName?, getLast?_parts hfront htail hslash hname]
  split
  · rename_i h
    rw [if_pos (Option.some.inj h)]
  · rename_i h
    rw [if_neg fun hup => h (congrArg some hup)]

/-- The extension of a path is that of its name. -/
theorem extension?_named {front name tail : String} (hfront : IsDirectories front)
    (htail : IsTrailer tail) (hslash : '/' ∉ name.toList) (hname : ¬ IsIdle name.toList) :
    extension? (front ++ name ++ tail) =
      if name = ".." then none else (extensionOf? name.toList).map String.ofList := by
  rw [extension?, fileName?_named hfront htail hslash hname]
  split
  · rfl
  · simp only [Option.bind_eq_bind, Option.bind_some]
    cases extensionOf? name.toList <;> rfl

/-- A path of which no part leads anywhere has no extension. -/
theorem extension?_nameless {path : String} (h : ∀ part ∈ split path.toList, IsIdle part) :
    extension? path = none := by
  rw [extension?, fileName?, parts, filter_idle h]
  rfl

theorem ne_dot_of_mem_reverse {cs : List Char} (h : '.' ∉ cs) :
    ∀ c ∈ cs.reverse, decide (c ≠ '.') = true := by
  intro c hc
  rw [decide_eq_true_eq]
  rintro rfl
  exact h (List.mem_reverse.mp hc)

/-- The last dot of a name is where its extension begins, unless it is where the name begins. -/
theorem extensionOf?_append {stem ext : List Char} (hstem : stem ≠ []) (hext : '.' ∉ ext) :
    extensionOf? (stem ++ '.' :: ext) = some ext := by
  have hback : (stem ++ '.' :: ext).reverse = ext.reverse ++ '.' :: stem.reverse := by simp
  have hplain := ne_dot_of_mem_reverse hext
  obtain ⟨c, cs, hcons⟩ := List.exists_cons_of_ne_nil (mt List.reverse_eq_nil_iff.mp hstem)
  simp only [extensionOf?, hback, List.takeWhile_append_of_pos hplain,
    List.dropWhile_append_of_pos hplain, hcons]
  simp

theorem extensionOf?_of_not_mem {name : List Char} (h : '.' ∉ name) : extensionOf? name = none := by
  have hnil : name.reverse.dropWhile (fun c => decide (c ≠ '.')) = [] := by
    rw [List.dropWhile_eq_nil_iff]
    exact ne_dot_of_mem_reverse h
  simp only [extensionOf?, hnil]

/-- The dot that a name begins with is no beginning of an extension. -/
theorem extensionOf?_dotFile {rest : List Char} (h : '.' ∉ rest) :
    extensionOf? ('.' :: rest) = none := by
  have hplain := ne_dot_of_mem_reverse h
  simp only [extensionOf?, List.reverse_cons, List.dropWhile_append_of_pos hplain]
  simp

end SyntaxInspector.Path
