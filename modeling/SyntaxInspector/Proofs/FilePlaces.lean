import SyntaxInspector.Proofs.Outcomes
import SyntaxInspector.World.Files

/-! # Writing and reading back

What is put at one place changes nothing elsewhere, and no path leads through a file.  So the path
of a new file leads to the same place before and after the file is written, and reading it finds
what was written.

* `Files.SameBut` says that two stores differ at one place at most;
* `Files.find?_put` and `Files.find?_append` say what is where after a change, `Files.Created` after
  a file has been created;
* `Files.locate_of_locateNew` relates the two walks along a path, and `Files.read_written` is the
  result. -/

namespace SyntaxInspector
namespace Files

variable {fs fs' fs'' : Files} {place q : Location} {path : String}

/-! ### Changing a place -/

/-- The stores are the same but for a place. -/
def SameBut (place : Location) (fs fs' : Files) : Prop := ∀ q, q ≠ place → fs'.find? q = fs.find? q

theorem SameBut.refl (place : Location) (fs : Files) : SameBut place fs fs := fun _ _ => rfl

theorem SameBut.trans (h : SameBut place fs fs') (h' : SameBut place fs' fs'') :
    SameBut place fs fs'' :=
  fun q hq => (h' q hq).trans (h q hq)

theorem lookup_filter_ne (entries : List (Location × Entry)) (h : q ≠ place) :
    (entries.filter (·.1 ≠ place)).lookup q = entries.lookup q := by
  induction entries with
  | nil => rfl
  | cons entry entries ih =>
      obtain ⟨p, e⟩ := entry
      by_cases hp : p = place
      · have hqp : (q == p) = false := beq_eq_false_iff_ne.mpr (hp ▸ h)
        rw [List.filter_cons_of_neg (by simpa using hp), ih, List.lookup_cons, hqp]
      · rw [List.filter_cons_of_pos (by simpa using hp), List.lookup_cons, List.lookup_cons, ih]

/-- Only at places that are always directories the entries do not count. -/
theorem find?_eq_lookup (h : fs.find? place ≠ some .directory) (fs' : Files) :
    fs'.find? place = fs'.entries.lookup place := by
  unfold find? at h ⊢
  cases hlast : place.getLast? with
  | none =>
      rw [hlast] at h
      exact absurd rfl h
  | some step =>
      rw [hlast] at h
      by_cases hfixed : (step = parentStep || place = [rootStep]) = true
      · exact absurd (if_pos hfixed) h
      · exact if_neg hfixed

theorem find?_put_ne (fs : Files) (e : Entry) (h : q ≠ place) :
    (fs.put place e).find? q = fs.find? q := by
  have hlookup : (fs.put place e).entries.lookup q = fs.entries.lookup q := by
    rw [put, List.lookup_cons, beq_eq_false_iff_ne.mpr h]
    exact lookup_filter_ne fs.entries h
  unfold find?
  rw [hlookup]

/-- What is put at a place is there, unless the place is always a directory, and nothing else
changes. -/
theorem find?_put (h : fs.find? place ≠ some .directory) (e : Entry) :
    (fs.put place e).find? place = some e ∧ SameBut place fs (fs.put place e) := by
  constructor
  · rw [find?_eq_lookup h, put, List.lookup_cons_self]
  · intro q hq
    exact fs.find?_put_ne e hq

/-- Bytes behind the content of a file. -/
theorem find?_append {content : List UInt8} (h : fs.find? place = some (.file content))
    (bytes : List UInt8) :
    (fs.append place bytes).find? place = some (.file (content ++ bytes)) ∧
      SameBut place fs (fs.append place bytes) := by
  unfold append
  rw [h]
  exact find?_put (by simp [h]) _

/-- No other place changes, whatever is at this one. -/
theorem sameBut_append (fs : Files) (place : Location) (bytes : List UInt8) :
    SameBut place fs (fs.append place bytes) := by
  cases h : fs.find? place with
  | some e =>
      cases e with
      | file content => exact (find?_append h bytes).2
      | _ =>
          unfold append
          rw [h]
          exact SameBut.refl place fs
  | none =>
      unfold append
      rw [h]
      exact SameBut.refl place fs

/-! ### Walking along a path -/

/-- Where there were directories, there still are. -/
def KeepsDirectories (fs fs' : Files) : Prop :=
  ∀ q, fs.find? q = some .directory → fs'.find? q = some .directory

theorem SameBut.keepsDirectories (h : SameBut place fs fs')
    (hplace : fs.find? place ≠ some .directory) : KeepsDirectories fs fs' := by
  intro q hq
  have hne : q ≠ place := fun heq => hplace (heq ▸ hq)
  rw [h q hne, hq]

theorem requireDirectory_eq_ok : fs.requireDirectory q = .ok () ↔ fs.find? q = some .directory := by
  unfold requireDirectory
  split <;> simp_all

theorem KeepsDirectories.advance (h : KeepsDirectories fs fs') {part : List Char}
    (ha : fs.advance q part = .ok place) : fs'.advance q part = .ok place := by
  obtain ⟨_, hdirectory, hstep⟩ := bind_eq_ok_iff.mp ha
  have hq := h q (requireDirectory_eq_ok.mp hdirectory)
  exact bind_eq_ok_iff.mpr ⟨(), requireDirectory_eq_ok.mpr hq, hstep⟩

theorem KeepsDirectories.walk (h : KeepsDirectories fs fs') (parts : List (List Char))
    (hw : parts.foldlM (Files.advance fs) q = .ok place) :
    parts.foldlM (Files.advance fs') q = .ok place := by
  induction parts generalizing q with
  | nil => exact hw
  | cons part parts ih =>
      obtain ⟨q', hfirst, hrest⟩ := bind_eq_ok_iff.mp hw
      exact bind_eq_ok_iff.mpr ⟨q', h.advance hfirst, ih hrest⟩

/-- Walks only look at directories. -/
theorem KeepsDirectories.locate (h : KeepsDirectories fs fs')
    (hl : fs.locate path = .ok place) : fs'.locate path = .ok place := by
  obtain ⟨⟨start, parts⟩, hroute, hwalk⟩ := bind_eq_ok_iff.mp hl
  exact bind_eq_ok_iff.mpr ⟨(start, parts), hroute, h.walk parts hwalk⟩

/-- What it takes to find the place of a new file: the last part of the path is a name, and there
is no directory by this name. -/
theorem locateNew_eq_ok (h : fs.locateNew path = .ok place) :
    fs.find? place ≠ some .directory ∧
    ∃ start before name q, route path.toList = .ok (start, before ++ [name]) ∧
      before.foldlM (advance fs) start = .ok q ∧ advance fs q name = .ok place := by
  obtain ⟨⟨start, parts⟩, hroute, hparts⟩ := bind_eq_ok_iff.mp h
  obtain ⟨q, hwalk, hq⟩ := bind_eq_ok_iff.mp hparts
  obtain ⟨_, hdirectory, hname⟩ := bind_eq_ok_iff.mp hq
  clear h hparts hq
  dsimp only at hwalk hname
  generalize hnamed : (parts.reverse.dropWhile List.isEmpty).reverse = named at hwalk hname
  have hbegin : named <+: parts := by
    have hsuffix := parts.reverse.dropWhile_suffix List.isEmpty
    rw [← hnamed]
    simpa using hsuffix.reverse
  cases hlast : named.getLast? with
  | none =>
      rw [hlast] at hname
      cases hname
  | some name =>
      rw [hlast] at hname
      obtain ⟨before, hsplit⟩ := List.getLast?_eq_some_iff.mp hlast
      dsimp only at hname
      split at hname
      · cases hname
      · rename_i hslash
        -- Without a slash behind it the last name is the last part.
        have hall : named = parts := hbegin.eq_of_length_le (Nat.le_of_not_lt hslash)
        rw [hsplit, List.dropLast_concat] at hwalk
        obtain ⟨p, hstep, hfree⟩ := bind_eq_ok_iff.mp hname
        have hp : p = place ∧ fs.find? p ≠ some .directory := by
          split at hfree
          · cases hfree
          · cases hfree
          · rename_i hne _
            exact ⟨Except.ok.inj hfree, hne⟩
        obtain ⟨rfl, hnot⟩ := hp
        exact ⟨hnot, start, before, name, q, by rw [hroute, ← hall, hsplit], hwalk,
          bind_eq_ok_iff.mpr ⟨(), hdirectory, hstep⟩⟩

/-- Such a path leads to the same place on the other walk. -/
theorem locate_of_locateNew (h : fs.locateNew path = .ok place) : fs.locate path = .ok place := by
  obtain ⟨-, start, before, name, q, hroute, hwalk, hlast⟩ := locateNew_eq_ok h
  refine bind_eq_ok_iff.mpr ⟨(start, before ++ [name]), hroute, ?_⟩
  dsimp only
  rw [List.foldlM_append]
  exact bind_eq_ok_iff.mpr ⟨q, hwalk, bind_eq_ok_iff.mpr ⟨place, hlast, rfl⟩⟩

/-! ### Creating files -/

/-- What creating a file at a place comes to: the file is there and empty.  A device is only
opened. -/
inductive Created (place : Location) (fs fs' : Files) : Prop
  | device {answers : List Answer} (found : fs.find? place = some (.device answers))
      (same : fs' = fs)
  | file (free : ∀ answers, fs.find? place ≠ some (.device answers))
      (empty : fs'.find? place = some (.file [])) (others : SameBut place fs fs')

theorem Created.sameBut (h : Created place fs fs') : SameBut place fs fs' := by
  cases h with
  | device _ same => exact same ▸ SameBut.refl place fs
  | file _ _ others => exact others

theorem create_eq_ok (h : fs.create path = .ok (place, fs')) :
    fs.locateNew path = .ok place ∧ Created place fs fs' := by
  obtain ⟨p, hplace, hcreated⟩ := bind_eq_ok_iff.mp h
  have hdirectory := (locateNew_eq_ok hplace).1
  cases hp : fs.find? p with
  | none =>
      rw [hp] at hcreated
      cases hcreated
      obtain ⟨hempty, hothers⟩ := find?_put hdirectory (.file [])
      exact ⟨hplace, .file (by simp [hp]) hempty hothers⟩
  | some e =>
      rw [hp] at hcreated
      cases e with
      | device answers =>
          cases hcreated
          exact ⟨hplace, .device hp rfl⟩
      | _ =>
          cases hcreated
          obtain ⟨hempty, hothers⟩ := find?_put hdirectory (.file [])
          exact ⟨hplace, .file (by simp [hp]) hempty hothers⟩

/-- What is in the file of a path after it has been written there. -/
theorem read_written (h : fs.locateNew path = .ok place) (hother : SameBut place fs fs')
    {content : List UInt8} (hcontent : fs'.find? place = some (.file content)) :
    fs'.read path = .ok content := by
  have hkept := hother.keepsDirectories (locateNew_eq_ok h).1
  have hplace := hkept.locate (locate_of_locateNew h)
  unfold read
  rw [hplace]
  simp only [bind, Except.bind, hcontent]
  rfl

end Files
end SyntaxInspector
