import ApiManual.Proofs.Text.Dedent

/-!
# Pieces with space between them

`Spaced pieces cs` says that a text is made of pieces, such as the tokens of a language, with spaces and tabs
between and around them. What is done to the lines of a docstring moves this space only, as long as the pieces
have neither blanks at their ends nor tabs inside (`Movable`):

* `Spaced.expandTabs`: putting spaces for tabs.
* `Spaced.trim`: cutting blanks off the ends.
* `Spaced.append`: putting two texts together.
-/

namespace ApiManual.Text

/-- Spaces and tabs. -/
def Gap (cs : List Char) : Prop := ∀ c ∈ cs, c = ' ' ∨ c = '\t'

/-- A text that stays whole where blanks are cut off, tabs expanded or lines parted. -/
structure Movable (cs : List Char) : Prop where
  nonempty : cs ≠ []
  bare : Bare isBlank cs
  plain : Plain cs

/-- The text is the pieces in their order, with spaces and tabs between and around them. -/
inductive Spaced : List (List Char) → List Char → Prop where
  | gap {gap : List Char} (hgap : Gap gap) : Spaced [] gap
  | piece {gap rest : List Char} {pieces : List (List Char)} (hgap : Gap gap) (piece : List Char)
      (hrest : Spaced pieces rest) : Spaced (piece :: pieces) (gap ++ (piece ++ rest))

/-! ## Gaps -/

variable {gap gap' cs ds piece : List Char} {pieces pieces' : List (List Char)}

instance (cs : List Char) : Decidable (Gap cs) :=
  decidable_of_iff (cs.all fun c => c == ' ' || c == '\t') (by simp [Gap])

instance (cs : List Char) : Decidable (Movable cs) :=
  decidable_of_iff (cs ≠ [] ∧ Bare isBlank cs ∧ Plain cs)
    ⟨fun ⟨h, h', h''⟩ => ⟨h, h', h''⟩, fun ⟨h, h', h''⟩ => ⟨h, h', h''⟩⟩

theorem movable_of_solid (hne : cs ≠ []) (hsolid : ∀ c ∈ cs, isBlank c = false) : Movable cs := by
  refine ⟨hne, .of_forall hsolid,
    ⟨fun c hc => ?_, fun htab => absurd (hsolid '\t' htab) (by decide)⟩⟩
  by_contra hbreak
  have hblank := isBlank_of_isLineBreak (by simpa using hbreak)
  simp [hsolid c hc] at hblank

@[simp]
theorem gap_nil : Gap [] := by simp [Gap]

theorem Gap.append (h : Gap gap) (h' : Gap gap') : Gap (gap ++ gap') :=
  List.forall_mem_append.mpr ⟨h, h'⟩

theorem Gap.blanks (h : Gap gap) : Blanks gap := by
  intro c hc
  rcases h c hc with rfl | rfl <;> decide

theorem Gap.oneLine (h : Gap gap) : OneLine gap := by
  intro c hc
  rcases h c hc with rfl | rfl <;> decide

theorem gap_spaces (n : Nat) : Gap (List.replicate n ' ') := fun _ hc => .inl (List.eq_of_mem_replicate hc)

/-! ## Putting texts together -/

namespace Spaced

theorem behind (h : Spaced pieces cs) (hgap : Gap gap) : Spaced pieces (gap ++ cs) := by
  cases h with
  | gap hgap' => exact .gap (hgap.append hgap')
  | piece hgap' piece hrest =>
    rw [← List.append_assoc]
    exact .piece (hgap.append hgap') piece hrest

theorem append (h : Spaced pieces cs) (h' : Spaced pieces' ds) : Spaced (pieces ++ pieces') (cs ++ ds) := by
  induction h with
  | gap hgap => exact h'.behind hgap
  | piece hgap piece _ ih =>
    rw [List.append_assoc, List.append_assoc]
    exact .piece hgap piece ih

end Spaced

/-! ## Tabs -/

/-- Tabs are expanded part by part, each from the column that the part in front of it ends at. -/
theorem exists_expandTabsFrom_append (column : Nat) (cs : List Char) : ∃ column', ∀ ds,
    expandTabsFrom column (cs ++ ds) = expandTabsFrom column cs ++ expandTabsFrom column' ds := by
  induction cs generalizing column with
  | nil => exact ⟨column, fun ds => rfl⟩
  | cons c cs ih =>
    obtain ⟨column', h⟩ := ih (if c = '\t' then column + (8 - column % 8) else
      if c = '\n' ∨ c = '\r' then 0 else column + 1)
    refine ⟨column', fun ds => ?_⟩
    by_cases hc : c = '\t'
    · simp_all [expandTabsFrom]
    · simp_all [expandTabsFrom]

theorem Gap.expandTabsFrom (h : Gap gap) (column : Nat) : Gap (expandTabsFrom column gap) := by
  induction gap generalizing column with
  | nil => exact gap_nil
  | cons c gap ih =>
    obtain ⟨hc, hgap⟩ := List.forall_mem_cons.mp h
    rcases hc with rfl | rfl
    · exact List.forall_mem_cons.mpr ⟨.inl rfl, ih hgap _⟩
    · exact (gap_spaces _).append (ih hgap _)

theorem Spaced.expandTabsFrom (hpieces : ∀ piece ∈ pieces, Movable piece) (h : Spaced pieces cs) (column : Nat) :
    Spaced pieces (expandTabsFrom column cs) := by
  induction h generalizing column with
  | gap hgap => exact .gap (hgap.expandTabsFrom column)
  | @piece gap rest pieces hgap piece _ ih =>
    obtain ⟨hpiece, hpieces⟩ := List.forall_mem_cons.mp hpieces
    obtain ⟨column₁, h₁⟩ := exists_expandTabsFrom_append column gap
    obtain ⟨column₂, h₂⟩ := exists_expandTabsFrom_append column₁ piece
    rw [h₁, h₂, expandTabsFrom_eq_self hpiece.plain.untabbed]
    exact .piece (hgap.expandTabsFrom column) piece (ih hpieces column₂)

/-! ## Blanks at the ends -/

namespace Spaced

theorem trimRight (hpieces : ∀ piece ∈ pieces, Movable piece) (h : Spaced pieces cs) :
    Spaced pieces (trimRight cs) := by
  induction h with
  | gap hgap =>
    rw [Text.trimRight, trimRightBy_eq_nil hgap.blanks]
    exact .gap gap_nil
  | @piece gap rest pieces hgap piece _ ih =>
    obtain ⟨hpiece, hpieces⟩ := List.forall_mem_cons.mp hpieces
    have hlast : ∀ c ∈ (gap ++ piece).getLast?, isBlank c = false := by
      rw [List.getLast?_append_of_ne_nil _ hpiece.nonempty]
      exact hpiece.bare.last
    rw [Text.trimRight, ← List.append_assoc, trimRightBy_append_of_last hlast, List.append_assoc]
    exact .piece hgap piece (ih hpieces)

/-- Cutting blanks off the left end leaves the first piece at the front. -/
theorem trimLeft_cons (hpiece : Movable piece) (h : Spaced (piece :: pieces) cs) :
    ∃ rest, trimLeft cs = piece ++ rest ∧ Spaced pieces rest := by
  cases h with
  | @piece gap rest _ hgap _ hrest =>
    refine ⟨rest, trimLeft_padded hgap.blanks ?_, hrest⟩
    rw [List.head?_append_of_ne_nil _ hpiece.nonempty]
    exact hpiece.bare.head

theorem trimLeft (hpieces : ∀ piece ∈ pieces, Movable piece) (h : Spaced pieces cs) :
    Spaced pieces (trimLeft cs) := by
  cases pieces with
  | nil =>
    cases h with
    | gap hgap =>
      rw [Text.trimLeft, trimLeftBy_eq_nil hgap.blanks]
      exact .gap gap_nil
  | cons piece pieces =>
    obtain ⟨rest, hrest, hspaced⟩ := h.trimLeft_cons (hpieces piece List.mem_cons_self)
    rw [hrest]
    exact .piece gap_nil piece hspaced

theorem trim (hpieces : ∀ piece ∈ pieces, Movable piece) (h : Spaced pieces cs) : Spaced pieces (trim cs) :=
  (h.trimLeft hpieces).trimRight hpieces

theorem trim_cons (hpieces : ∀ p ∈ piece :: pieces, Movable p) (h : Spaced (piece :: pieces) cs) :
    ∃ rest, Text.trim cs = piece ++ rest ∧ Spaced pieces rest := by
  obtain ⟨hpiece, hpieces⟩ := List.forall_mem_cons.mp hpieces
  obtain ⟨rest, hrest, hspaced⟩ := h.trimLeft_cons hpiece
  refine ⟨Text.trimRight rest, ?_, hspaced.trimRight hpieces⟩
  have htrim : Text.trim cs = Text.trimRight (Text.trimLeft cs) := rfl
  rw [htrim, hrest]
  exact trimRightBy_append_of_last hpiece.bare.last rest

/-! ## Lines -/

theorem oneLine (hpieces : ∀ piece ∈ pieces, Movable piece) (h : Spaced pieces cs) : OneLine cs := by
  induction h with
  | gap hgap => exact hgap.oneLine
  | piece hgap piece _ ih =>
    obtain ⟨hpiece, hpieces⟩ := List.forall_mem_cons.mp hpieces
    exact List.forall_mem_append.mpr ⟨hgap.oneLine, List.forall_mem_append.mpr ⟨hpiece.plain.oneLine, ih hpieces⟩⟩

theorem inked (hpieces : ∀ piece ∈ pieces, Movable piece)
    (h : Spaced pieces cs) (hne : pieces ≠ []) : Inked cs := by
  cases h with
  | gap => exact absurd rfl hne
  | @piece gap rest pieces _ piece _ =>
    have hpiece := hpieces piece List.mem_cons_self
    have hhead := List.head?_eq_some_head hpiece.nonempty
    refine ⟨piece.head hpiece.nonempty, ?_, hpiece.bare.head _ hhead⟩
    simp [List.head_mem]

end Spaced

/-! ## Checking -/

def isGapChar (c : Char) : Bool := c == ' ' || c == '\t'

/-- Look for the pieces one after the other, each behind the spaces and tabs in front of it. -/
def holdsPieces : List (List Char) → List Char → Bool
  | [], cs => cs.all isGapChar
  | piece :: pieces, cs =>
    piece.isPrefixOf (cs.dropWhile isGapChar) &&
      holdsPieces pieces ((cs.dropWhile isGapChar).drop piece.length)

theorem spaced_of_holdsPieces (h : holdsPieces pieces cs = true) : Spaced pieces cs := by
  have hgap : ∀ ds : List Char, (∀ c ∈ ds, isGapChar c = true) → Gap ds := by
    intro ds hds c hc
    simpa [isGapChar] using hds c hc
  induction pieces generalizing cs with
  | nil => exact .gap (hgap cs (List.all_eq_true.mp h))
  | cons piece pieces ih =>
    rw [holdsPieces, Bool.and_eq_true, List.isPrefixOf_iff_prefix] at h
    obtain ⟨⟨rest, hpiece⟩, hrest⟩ := h
    rw [← hpiece, List.drop_left] at hrest
    rw [← List.takeWhile_append_dropWhile (p := isGapChar) (l := cs), ← hpiece]
    exact .piece (hgap _ fun c => List.mem_takeWhile_imp) piece (ih hrest)

end ApiManual.Text
