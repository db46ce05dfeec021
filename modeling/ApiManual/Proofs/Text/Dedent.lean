import ApiManual.Proofs.Results
import ApiManual.Proofs.Text.Lines

/-!
# Dedented texts

Expanding tabs and taking off the margin works line by line, and takes nothing but blanks off the front of a line
(`Dedented`, `unindented_dedented`). What this leaves of a whole text:

* `dedent_joinWith`: lines without tabs, the first one bare, are left as they are but for blanks in front of them and
  for empty lines at the end.
* `lines_dedent`: lines with text in the middle of any text are found again among the lines of the dedented text.
-/

namespace ApiManual.Text

/-! ## Tabs -/

theorem expandTabsFrom_eq_self {cs : List Char} (h : '\t' ∉ cs) (column : Nat) :
    expandTabsFrom column cs = cs := by
  induction cs generalizing column with
  | nil => rfl
  | cons c cs ih =>
    obtain ⟨hc, hcs⟩ := List.ne_and_not_mem_of_not_mem_cons h
    rw [expandTabsFrom, if_neg (Ne.symm hc), ih hcs]

theorem splitOn_spaces {cs first : List Char} {rest : List (List Char)} (h : splitOn '\n' cs = first :: rest)
    (n : Nat) : splitOn '\n' (List.replicate n ' ' ++ cs) = (List.replicate n ' ' ++ first) :: rest := by
  induction n with
  | zero => exact h
  | succ n ih => simp [List.replicate_succ, splitOn, ih, consFirst]

/-- Every line begins at the first column. -/
theorem splitOn_expandTabsFrom (column : Nat) (cs : List Char) :
    ∃ first rest, splitOn '\n' cs = first :: rest ∧
      splitOn '\n' (expandTabsFrom column cs) = expandTabsFrom column first :: rest.map expandTabs := by
  induction cs generalizing column with
  | nil => exact ⟨[], [], rfl, rfl⟩
  | cons c cs ih =>
    rcases eq_or_ne c '\n' with rfl | hfeed
    · obtain ⟨first, rest, hsplit, hexpanded⟩ := ih 0
      refine ⟨[], first :: rest, by rw [splitOn, if_pos rfl, hsplit], ?_⟩
      have hfeed : expandTabsFrom column ('\n' :: cs) = '\n' :: expandTabsFrom 0 cs := rfl
      rw [hfeed, splitOn, if_pos rfl, hexpanded]
      rfl
    · rcases eq_or_ne c '\t' with rfl | htab
      · obtain ⟨first, rest, hsplit, hexpanded⟩ := ih (column + (8 - column % 8))
        refine ⟨'\t' :: first, rest, by rw [splitOn, if_neg hfeed, hsplit]; rfl, ?_⟩
        rw [expandTabsFrom, if_pos rfl, splitOn_spaces hexpanded, expandTabsFrom, if_pos rfl]
      · obtain ⟨first, rest, hsplit, hexpanded⟩ := ih (if c = '\n' ∨ c = '\r' then 0 else column + 1)
        refine ⟨c :: first, rest, by rw [splitOn, if_neg hfeed, hsplit]; rfl, ?_⟩
        rw [expandTabsFrom, if_neg htab, splitOn, if_neg hfeed, hexpanded, expandTabsFrom, if_neg htab]
        rfl

theorem splitOn_expandTabs (cs : List Char) :
    splitOn '\n' (expandTabs cs) = (splitOn '\n' cs).map expandTabs := by
  obtain ⟨first, rest, hsplit, hexpanded⟩ := splitOn_expandTabsFrom 0 cs
  rw [expandTabs, hexpanded, hsplit]
  rfl

theorem mem_expandTabsFrom {c : Char} {cs : List Char} {column : Nat} (h : c ∈ expandTabsFrom column cs) :
    c = ' ' ∨ c ∈ cs := by
  induction cs generalizing column with
  | nil => exact .inr h
  | cons d cs ih =>
    rw [expandTabsFrom] at h
    split at h
    · rcases List.mem_append.mp h with h | h
      · exact .inl (List.eq_of_mem_replicate h)
      · exact (ih h).imp_right (List.mem_cons_of_mem _)
    · rcases List.mem_cons.mp h with rfl | h
      · exact .inr List.mem_cons_self
      · exact (ih h).imp_right (List.mem_cons_of_mem _)

theorem mem_expandTabsFrom_of_mem {c : Char} {cs : List Char} (hc : c ≠ '\t') (h : c ∈ cs) (column : Nat) :
    c ∈ expandTabsFrom column cs := by
  induction cs generalizing column with
  | nil => exact h
  | cons d cs ih =>
    rw [expandTabsFrom]
    split
    · rename_i htab
      have hcs : c ∈ cs := (List.mem_cons.mp h).resolve_left fun heq => hc (heq.trans htab)
      exact List.mem_append_right _ (ih hcs _)
    · rcases List.mem_cons.mp h with rfl | h
      · exact List.mem_cons_self
      · exact List.mem_cons_of_mem _ (ih h _)

theorem OneLine.expandTabs {cs : List Char} (h : OneLine cs) : OneLine (expandTabs cs) := by
  intro c hc
  rcases mem_expandTabsFrom hc with rfl | hc
  · decide
  · exact h c hc

theorem Blanks.expandTabs {cs : List Char} (h : Blanks cs) : Blanks (expandTabs cs) := by
  intro c hc
  rcases mem_expandTabsFrom hc with rfl | hc
  · decide
  · exact h c hc

theorem Inked.expandTabs {line : List Char} (h : Inked line) : Inked (expandTabs line) := by
  obtain ⟨c, hc, hblank⟩ := h
  refine ⟨c, mem_expandTabsFrom_of_mem ?_ hc 0, hblank⟩
  rintro rfl
  exact absurd hblank (by decide)

/-! ## Margins -/

/-- What is left of a line when blanks in front of it are cut off. -/
def Cut (line cut : List Char) : Prop := ∃ gap, Blanks gap ∧ line = gap ++ cut

namespace Cut

variable {line cut : List Char}

theorem trim_eq (h : Cut line cut) : trim cut = trim line := by
  obtain ⟨gap, hgap, rfl⟩ := h
  exact (trimBy_append_left hgap).symm

theorem subset (h : Cut line cut) : ∀ c ∈ cut, c ∈ line := by
  obtain ⟨gap, hgap, rfl⟩ := h
  exact fun c hc => List.mem_append_right gap hc

theorem ne_nil (h : Cut line cut) (hline : Inked line) : cut ≠ [] := by
  obtain ⟨gap, hgap, rfl⟩ := h
  rintro rfl
  obtain ⟨c, hc, hblank⟩ := hline
  rw [List.append_nil] at hc
  simp [hgap c hc] at hblank

end Cut

/-- Cutting the common margin off a line takes nothing but blanks. -/
theorem blanks_take_margin {block : List (List Char)} {margin : Nat} (h : margin? block = some margin)
    {line : List Char} (hline : line ∈ block) : Blanks (line.take margin) := by
  by_cases hall : line.all isBlank = true
  · exact fun c hc => List.all_eq_true.mp hall c (List.mem_of_mem_take hc)
  · have hindent : (line.takeWhile isBlank).length ∈ block.filterMap indent? :=
      List.mem_filterMap.mpr ⟨line, hline, by rw [indent?, if_neg hall]⟩
    have hle := (List.min?_eq_some_iff.mp h).2 _ hindent
    have htake : line.take margin = (line.takeWhile isBlank).take margin := by
      conv => lhs; rw [← List.takeWhile_append_dropWhile (p := isBlank) (l := line)]
      exact List.take_append_of_le_length hle
    intro c hc
    rw [htake] at hc
    exact List.mem_takeWhile_imp (List.mem_of_mem_take hc)

/-- The lines behind the first one without the margin that they share. -/
def cutMargin (block : List (List Char)) : List (List Char) :=
  match margin? block with
  | some margin => block.map (·.drop margin)
  | none => block

theorem cutMargin_cut (block : List (List Char)) : List.Forall₂ Cut block (cutMargin block) := by
  unfold cutMargin
  cases hmargin : margin? block with
  | none => exact List.forall₂_same.mpr fun line _ => ⟨[], by simp [Blanks], rfl⟩
  | some margin =>
    refine List.forall₂_map_right_iff.mpr (List.forall₂_same.mpr fun line hline => ?_)
    exact ⟨line.take margin, blanks_take_margin hmargin hline, (List.take_append_drop margin line).symm⟩

theorem map_trim_of_cut {ls cuts : List (List Char)} (h : List.Forall₂ Cut ls cuts) : cuts.map trim = ls.map trim := by
  induction h with
  | nil => rfl
  | cons hcut _ ih => rw [List.map_cons, List.map_cons, hcut.trim_eq, ih]

theorem oneLine_of_cut {ls cuts : List (List Char)} (h : List.Forall₂ Cut ls cuts) (hls : ∀ line ∈ ls, OneLine line) :
    ∀ cut ∈ cuts, OneLine cut := by
  intro cut hcut
  obtain ⟨line, hline, hsub⟩ := exists_of_forall₂ h hcut
  exact (hls line hline).of_subset hsub.subset

/-- Lines without the indent of the first one and the margin that the others share. -/
def unindented : List (List Char) → List (List Char)
  | [] => []
  | first :: rest => trimLeft first :: cutMargin rest

theorem unindented_cut (ls : List (List Char)) : List.Forall₂ Cut ls (unindented ls) := by
  cases ls with
  | nil => exact .nil
  | cons first rest =>
    refine .cons ⟨first.takeWhile isBlank, fun c hc => List.mem_takeWhile_imp hc, ?_⟩ (cutMargin_cut rest)
    exact List.takeWhile_append_dropWhile.symm

/-- What is left of a line of a docstring. -/
def Dedented (line cut : List Char) : Prop := Cut (expandTabs line) cut

theorem forall₂_dedented_iff {ls cuts : List (List Char)} :
    List.Forall₂ Dedented ls cuts ↔ List.Forall₂ Cut (ls.map expandTabs) cuts := by
  rw [List.forall₂_map_left_iff]
  rfl

theorem unindented_dedented (ls : List (List Char)) : List.Forall₂ Dedented ls (unindented (ls.map expandTabs)) :=
  forall₂_dedented_iff.mpr (unindented_cut (ls.map expandTabs))

theorem map_trim_of_dedented {ls cuts : List (List Char)} (h : List.Forall₂ Dedented ls cuts) :
    cuts.map trim = ls.map fun line => trim (expandTabs line) := by
  rw [map_trim_of_cut (forall₂_dedented_iff.mp h), List.map_map]
  rfl

/-! ## Lines of a dedented text -/

theorem dedent_eq (cs : List Char) : dedent cs = joinWith ['\n']
    ((List.rdropWhile List.isEmpty (unindented ((splitOn '\n' cs).map expandTabs))).dropWhile List.isEmpty) := by
  rw [← splitOn_expandTabs]
  unfold dedent
  split <;> rename_i h <;> rw [h] <;> rfl

theorem dropWhile_rdropWhile {p : List Char → Bool} {line : List Char} (h : p line = false)
    (ls : List (List Char)) : (List.rdropWhile p (line :: ls)).dropWhile p = List.rdropWhile p (line :: ls) := by
  have hprefix := List.rdropWhile_prefix p (line :: ls)
  cases hdropped : List.rdropWhile p (line :: ls) with
  | nil => rfl
  | cons first rest =>
    rw [hdropped] at hprefix
    obtain rfl := (List.cons_prefix_cons.mp hprefix).1
    simp [h]

/-- Of lines whose first is bare, taking off the margin leaves this line, the others without their margin, and
no empty lines at the end. -/
theorem dedent_joinWith {first : List Char} {rest : List (List Char)} (hbare : Bare isBlank first)
    (hne : first ≠ []) (hplain : ∀ line ∈ first :: rest, Plain line) :
    dedent (joinWith ['\n'] (first :: rest)) =
      joinWith ['\n'] (List.rdropWhile List.isEmpty (first :: cutMargin rest)) := by
  have hexpanded : (first :: rest).map expandTabs = first :: rest := by
    conv => rhs; rw [← List.map_id (first :: rest)]
    exact List.map_congr_left fun line hline => expandTabsFrom_eq_self (hplain line hline).untabbed 0
  have hfirst : trimLeft first = first := trimLeftBy_eq_self hbare.head
  rw [dedent_eq, splitOn_joinWith (by simp) fun line hline => (hplain line hline).oneLine.lineFeed_notMem, hexpanded,
    unindented, hfirst, dropWhile_rdropWhile (by simpa using hne)]

section Middle

variable {before body after : List (List Char)} (hne : body ≠ [])
  (hbody : ∀ line ∈ body, OneLine line ∧ Inked line)

include hbody in
theorem dedented_lines {cuts : List (List Char)} (h : List.Forall₂ Dedented body cuts) :
    ∀ cut ∈ cuts, OneLine cut ∧ cut ≠ [] := by
  intro cut hcut
  obtain ⟨line, hline, hdedented⟩ := exists_of_forall₂ h hcut
  obtain ⟨honeLine, hinked⟩ := hbody line hline
  exact ⟨honeLine.expandTabs.of_subset hdedented.subset, hdedented.ne_nil hinked.expandTabs⟩

include hne hbody

/-- Of lines with text in the middle, only blanks in front are taken off by dedenting. -/
theorem exists_dedent_joinWith (hfeed : ∀ line ∈ before ++ after, '\n' ∉ line) : ∃ front cuts back,
    dedent (joinWith ['\n'] (before ++ (body ++ after))) = joinWith ['\n'] (front ++ (cuts ++ back)) ∧
    List.Forall₂ Dedented body cuts ∧
    ∀ cut ∈ back.head?, ∃ line ∈ after.head?, Dedented line cut := by
  have hsplit : splitOn '\n' (joinWith ['\n'] (before ++ (body ++ after))) = before ++ (body ++ after) := by
    refine splitOn_joinWith (by simp [hne]) fun line hline => ?_
    simp only [List.mem_append] at hline hfeed
    rcases hline with hline | hline | hline
    · exact hfeed line (.inl hline)
    · exact (hbody line hline).1.lineFeed_notMem
    · exact hfeed line (.inr hline)
  obtain ⟨front, kept, hblock, -, hkept⟩ := exists_of_forall₂_append (unindented_dedented (before ++ (body ++ after)))
  obtain ⟨cuts, back, rfl, hcuts, hback⟩ := exists_of_forall₂_append hkept
  have hcutsNe : cuts ≠ [] := by
    rintro rfl
    exact hne (List.forall₂_nil_right_iff.mp hcuts)
  have hkeep : ∀ cut ∈ cuts, cut.isEmpty = false :=
    fun cut hcut => by simpa using (dedented_lines hbody hcuts cut hcut).2
  -- the empty lines at the ends stand in front of these lines and behind them
  have hright : List.rdropWhile List.isEmpty (front ++ (cuts ++ back)) =
      front ++ (cuts ++ List.rdropWhile List.isEmpty back) := by
    rw [← List.append_assoc, rdropWhile_append_of_last, List.append_assoc]
    rw [List.getLast?_append_of_ne_nil _ hcutsNe]
    exact fun cut hcut => hkeep cut (List.mem_of_getLast? hcut)
  have hleft : (front ++ (cuts ++ List.rdropWhile List.isEmpty back)).dropWhile List.isEmpty =
      front.dropWhile List.isEmpty ++ (cuts ++ List.rdropWhile List.isEmpty back) := by
    refine dropWhile_append_of_head ?_ front
    rw [List.head?_append_of_ne_nil _ hcutsNe]
    exact fun cut hcut => hkeep cut (List.mem_of_head? hcut)
  refine ⟨front.dropWhile List.isEmpty, cuts, List.rdropWhile List.isEmpty back, ?_, hcuts, fun cut hcut => ?_⟩
  · rw [dedent_eq, hsplit, hblock, hright, hleft]
  · have hhead : cut ∈ back.head? := by
      obtain ⟨gone, hgone⟩ := List.rdropWhile_prefix List.isEmpty back
      rw [← hgone, List.head?_append, hcut, Option.some_or]
      rfl
    cases hback with
    | nil => cases hhead
    | cons hfirst =>
      obtain rfl := Option.some.inj hhead
      exact ⟨_, rfl, hfirst⟩

/-- Lines with text in the middle of a docstring are lines of the dedented docstring, but for blanks in front of
them. The line behind them is what is left of the first line there, up to a break inside it. -/
theorem lines_dedent (hfeed : ∀ line ∈ before ++ after, '\n' ∉ line) : ∃ front cuts back,
    lines (dedent (joinWith ['\n'] (before ++ (body ++ after)))) = front ++ (cuts ++ back) ∧
    List.Forall₂ Dedented body cuts ∧
    ∀ line ∈ back.head?, ∃ whole ∈ after.head?, ∃ cut, Dedented whole cut ∧
      line = cut.takeWhile fun c => !isLineBreak c := by
  obtain ⟨front, cuts, back, hdedent, hcuts, hback⟩ := exists_dedent_joinWith hne hbody hfeed
  have hlines := dedented_lines hbody hcuts
  have hcutsNe : cuts ≠ [] := by
    rintro rfl
    exact hne (List.forall₂_nil_right_iff.mp hcuts)
  obtain ⟨front', hfront⟩ := exists_lines_joinWith front (show cuts ++ back ≠ [] by simp [hcutsNe])
  refine ⟨front', cuts, lines (joinWith ['\n'] back), ?_, hcuts, fun line hline => ?_⟩
  · rw [hdedent, hfront, lines_joinWith_append]
    · exact fun cut hcut => (hlines cut hcut).1
    · exact fun cut hcut => (hlines cut (List.mem_of_getLast? hcut)).2
  · cases back with
    | nil => cases hline
    | cons first rest =>
      obtain ⟨whole, hwhole, hfirst⟩ := hback first rfl
      exact ⟨whole, hwhole, first, hfirst, head?_lines_joinWith hline⟩

end Middle

end ApiManual.Text
