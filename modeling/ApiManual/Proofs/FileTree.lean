import ApiManual.FileTree
import ApiManual.Proofs.Results

/-!
# What is written to a file tree

* Putting a text at a place changes what is at that place only (`file?_setFile`).
* Writing keeps every directory one, so the path that was written to still leads to its place, and the
  text can be read there (`read_write`).
* Making directories touches no file (`files_makeDirectories`).

`PutIn` puts these together for one file in a directory that may have to be made.
-/

namespace ApiManual.FileTree

variable {t t' : FileTree} {p place : Path} {text : String}

/-! ## Places -/

theorem lookup_cons_ite (p : Path) (text : String) (files : List (Path × String)) (q : Path) :
    ((p, text) :: files).lookup q = if q = p then some text else files.lookup q := by
  rw [List.lookup_cons]
  split
  · rename_i h
    rw [if_pos (beq_iff_eq.mp h)]
  · rename_i h
    rw [if_neg (beq_eq_false_iff_ne.mp h)]

theorem lookup_setFile (place : Path) (text : String) (files : List (Path × String)) (q : Path) :
    (setFile place text files).lookup q = if q = place then some text else files.lookup q := by
  induction files with
  | nil => exact lookup_cons_ite place text [] q
  | cons f files ih =>
    obtain ⟨p, old⟩ := f
    unfold setFile
    split
    · rename_i hp
      subst hp
      rw [lookup_cons_ite, lookup_cons_ite]
      split <;> rfl
    · rename_i hp
      rw [lookup_cons_ite, lookup_cons_ite, ih]
      by_cases hq : q = p
      · simp [hq, hp]
      · simp [hq]

theorem mem_paths_setFile (place : Path) (text : String) (files : List (Path × String)) (q : Path) :
    q ∈ (setFile place text files).map (·.1) ↔ q = place ∨ q ∈ files.map (·.1) := by
  induction files with
  | nil => simp [setFile]
  | cons f files ih =>
    obtain ⟨p, old⟩ := f
    unfold setFile
    split
    · rename_i hp
      simp [hp]
    · simp only [List.map_cons, List.mem_cons, ih]
      tauto

/-- A place is a directory as one that always exists, that was made, or that leads to a file. -/
theorem isDirectory_iff :
    t.isDirectory p = true ↔ isAbove p = true ∨ p = [""] ∨ (∃ d ∈ t.directories, p <+: d) ∨
      ∃ q ∈ t.files.map (·.1), p <+: q ∧ q ≠ p := by
  simp [isDirectory, or_assoc]

/-! ## Writing -/

/-- The tree with a text at a place. -/
def withFile (t : FileTree) (place : Path) (text : String) : FileTree :=
  { t with files := setFile place text t.files }

theorem file?_withFile (t : FileTree) (place : Path) (text : String) (q : Path) :
    (t.withFile place text).file? q = if q = place then some text else t.file? q :=
  lookup_setFile place text t.files q

/-- A text makes directories of the places above it and of no other. -/
theorem isDirectory_withFile (t : FileTree) (place : Path) (text : String) (q : Path) :
    (t.withFile place text).isDirectory q = true ↔ t.isDirectory q = true ∨ q <+: place ∧ place ≠ q := by
  have hpaths := mem_paths_setFile place text t.files
  simp only [isDirectory_iff, withFile, hpaths]
  constructor
  · rintro (h | h | h | ⟨r, rfl | hr, h⟩)
    · exact .inl (.inl h)
    · exact .inl (.inr (.inl h))
    · exact .inl (.inr (.inr (.inl h)))
    · exact .inr h
    · exact .inl (.inr (.inr (.inr ⟨r, hr, h⟩)))
  · rintro ((h | h | h | ⟨r, hr, h⟩) | h)
    · exact .inl h
    · exact .inr (.inl h)
    · exact .inr (.inr (.inl h))
    · exact .inr (.inr (.inr ⟨r, .inr hr, h⟩))
    · exact .inr (.inr (.inr ⟨place, .inl rfl, h⟩))

/-- With more directories, a path leads where it led. -/
theorem follow_mono (h : ∀ q, t.isDirectory q = true → t'.isDirectory q = true) {here : Path} {steps : List String}
    (hfollow : t.follow here steps = .ok place) : t'.follow here steps = .ok place := by
  induction steps generalizing here with
  | nil => exact hfollow
  | cons step steps ih =>
    unfold follow at hfollow ⊢
    split at hfollow
    · rename_i hdir
      split at hfollow
      · simp at hfollow
      · rename_i hsize
        rw [if_pos (h here hdir), if_neg hsize]
        exact ih hfollow
    · split at hfollow <;> simp at hfollow

/-- A path to a name leads into the directory in front of it. -/
theorem follow_concat {here : Path} {steps : List String} {step : String}
    (h : t.follow here (steps ++ [step]) = .ok place) :
    ∃ directory, t.follow here steps = .ok directory ∧ t.isDirectory directory = true ∧
      place = move directory step := by
  induction steps generalizing here with
  | nil =>
    simp only [List.nil_append, follow] at h
    split at h
    · rename_i hdir
      split at h
      · simp at h
      · exact ⟨here, rfl, hdir, (Except.ok.inj h).symm⟩
    · split at h <;> simp at h
  | cons first steps ih =>
    simp only [List.cons_append, follow] at h
    split at h
    · rename_i hdir
      split at h
      · simp at h
      · rename_i hsize
        obtain ⟨directory, hrest, hplace⟩ := ih h
        refine ⟨directory, ?_, hplace⟩
        rw [follow, if_pos hdir, if_neg hsize, hrest]
    · split at h <;> simp at h

theorem write_ok (h : t.write p text = .ok t') :
    ∃ place, t.follow [] p = .ok place ∧ t.isDirectory place = false ∧ t' = t.withFile place text := by
  unfold write at h
  split at h
  · simp at h
  · rename_i place hplace
    split at h
    · simp at h
    · rename_i hdir
      exact ⟨place, hplace, by simpa using hdir, (Except.ok.inj h).symm⟩

/-- What was written can be read at the same path. -/
theorem read_withFile (hplace : t.follow [] p = .ok place) (hdir : t.isDirectory place = false) (text : String) :
    (t.withFile place text).read p = .ok text := by
  have hfollow : (t.withFile place text).follow [] p = .ok place :=
    follow_mono (fun q hq => (isDirectory_withFile t place text q).mpr (.inl hq)) hplace
  have hfile : (t.withFile place text).isDirectory place = false := by
    rw [Bool.eq_false_iff, Ne, isDirectory_withFile]
    simp [hdir]
  have htext : (t.withFile place text).file? place = some text := by simp [file?_withFile]
  simp [read, kind, hfollow, hfile, htext, bind, Except.bind, pure, Except.pure]

/-! ## Making directories -/

theorem files_ensureDirectory (h : t.ensureDirectory p = .ok t') : t'.files = t.files := by
  unfold ensureDirectory makeDirectory at h
  split at h
  · rename_i hmade
    split at hmade
    · simp at hmade
    · split at hmade
      · simp at hmade
      · rw [← Except.ok.inj h, ← Except.ok.inj hmade]
  · split at h
    · rw [← Except.ok.inj h]
    · simp at h

theorem files_ensureFrom {above : Nat} (h : ensureFrom above t p = .ok t') : t'.files = t.files := by
  induction above generalizing p t' with
  | zero => exact files_ensureDirectory h
  | succ above ih =>
    unfold ensureFrom at h
    split at h
    · obtain ⟨made, hmade, h⟩ := of_bind_ok h
      exact (files_ensureDirectory h).trans (ih hmade)
    · exact files_ensureDirectory h

theorem files_makeDirectories (h : t.makeDirectories p = .ok t') : t'.files = t.files := files_ensureFrom h

/-! ## A file in a directory -/

/-- A tree and a later one: a text can be read under a name in a directory, and every other file is as it
was. -/
structure PutIn (t t' : FileTree) (directory : Path) (name text : String) : Prop where
  read : t'.read (directory ++ [name]) = .ok text
  others : ∃ here, t'.follow [] directory = .ok here ∧
    ∀ place, place ≠ here ++ [name] → t'.file? place = t.file? place

/-- A name that leads into the directory it is in. -/
def IsName (name : String) : Prop := name ≠ "" ∧ name ≠ "/" ∧ name ≠ "." ∧ name ≠ ".."

theorem move_name {name : String} (h : IsName name) (here : Path) : move here name = here ++ [name] := by
  obtain ⟨hempty, hslash, hdot, hup⟩ := h
  simp [move, hempty, hslash, hdot, hup]

theorem putIn_write {made : FileTree} {directory : Path} {name : String} (hname : IsName name)
    (hmade : t.makeDirectories directory = .ok made) (h : made.write (directory ++ [name]) text = .ok t') :
    PutIn t t' directory name text := by
  obtain ⟨place, hplace, hdir, rfl⟩ := write_ok h
  obtain ⟨here, hhere, -, rfl⟩ := follow_concat hplace
  rw [move_name hname] at *
  refine ⟨read_withFile hplace hdir text, here, ?_, ?_⟩
  · exact follow_mono (fun q hq => (isDirectory_withFile made _ text q).mpr (.inl hq)) hhere
  · intro q hq
    rw [file?_withFile, if_neg hq]
    unfold file?
    rw [files_makeDirectories hmade]

end ApiManual.FileTree
