import ApiManual.Proofs.Docstring.Layout
import ApiManual.Proofs.Docstring.Lines
import ApiManual.Proofs.Text.Dedent
import ApiManual.Proofs.Text.Spaced

/-!
# Tags that are laid out over lines

The content of a tag may be made of pieces that stand behind its name and on the lines below, with spaces and
tabs around them (`TagLayout`). Wherever such lines stand in a docstring, it is read with the tag, and its
content is the same pieces with space between them: `read_laidOut`.

* `addAll_groups`, `addAll_tagLayout`: what the lines of the tag add.
* `Draft.settled`: the tags that no further line changes.
-/

namespace ApiManual

open Text

/-! ## Lines of a tag -/

/-- Lines that hold a tag: the pieces of its content stand behind the name and below, on lines that are not
blank. -/
inductive TagLayout (name : List Char) : List (List Char) → List (List Char) → Prop where
  | mk {indent first : List Char} {pieces : List (List Char)} {groups : List (List (List Char))}
      {below : List (List Char)} (hindent : Gap indent) (hfirst : Spaced pieces first)
      (hblank : ∀ c ∈ first.head?, isBlank c = true)
      (hbelow : List.Forall₂ (fun group line => group ≠ [] ∧ Spaced group line) groups below) :
      TagLayout name (pieces ++ groups.flatten) ((indent ++ '@' :: (name ++ first)) :: below)

/-- A line that does not continue a tag: it is blank or has the form of a tag. -/
def Closes (line : List Char) : Prop := Blanks line ∨ OneLine line ∧ TagForm (trimLeft line)

/-! ## Tabs and blanks around a tag line -/

section TagLine

variable {indent name rest : List Char} (hindent : Blanks indent) (hword : ∀ c ∈ name, isWordChar c = true)

theorem head?_expandTabsFrom (hrest : ∀ c ∈ rest.head?, isBlank c = true) (column : Nat) :
    ∀ c ∈ (expandTabsFrom column rest).head?, isBlank c = true := by
  cases rest with
  | nil => simp [expandTabsFrom]
  | cons c rest =>
    rw [expandTabsFrom]
    split
    · have hpositive : 8 - column % 8 = 7 - column % 8 + 1 := by omega
      rw [hpositive, List.replicate_succ]
      intro d hd
      obtain rfl := Option.some.inj hd
      decide
    · simpa using hrest

include hindent hword

theorem expandTabs_tagLine (rest : List Char) : ∃ gap column, Blanks gap ∧
    expandTabs (indent ++ '@' :: (name ++ rest)) = gap ++ '@' :: (name ++ expandTabsFrom column rest) := by
  have huntabbed : '\t' ∉ '@' :: name := by
    simpa using (plain_of_word hword).untabbed
  obtain ⟨column₁, h₁⟩ := exists_expandTabsFrom_append 0 indent
  obtain ⟨column₂, h₂⟩ := exists_expandTabsFrom_append column₁ ('@' :: name)
  refine ⟨expandTabs indent, column₂, hindent.expandTabs, ?_⟩
  rw [← List.cons_append, expandTabs, h₁, h₂, expandTabsFrom_eq_self huntabbed]
  rfl

theorem trim_tagLine : trim (indent ++ '@' :: (name ++ rest)) = '@' :: (name ++ trimRight rest) := by
  have hlast : ∀ c ∈ ('@' :: name).getLast?, isBlank c = false := by
    intro c hc
    rcases List.mem_cons.mp (List.mem_of_getLast? hc) with rfl | hc
    · decide
    · exact not_isBlank_of_isWordChar (hword c hc)
  have htrim : trimRight ('@' :: name ++ rest) = '@' :: name ++ trimRight rest := trimRightBy_append_of_last hlast rest
  have hleft : trimLeft (indent ++ '@' :: (name ++ rest)) = '@' :: name ++ rest :=
    trimLeft_padded hindent fun c hc => by
      obtain rfl := Option.some.inj hc
      decide
  have hwhole : trim (indent ++ '@' :: (name ++ rest)) = trimRight (trimLeft (indent ++ '@' :: (name ++ rest))) := rfl
  rw [hwhole, hleft, htrim]
  rfl

end TagLine

theorem head?_trimRight {rest : List Char} (hrest : ∀ c ∈ rest.head?, isBlank c = true) :
    ∀ c ∈ (trimRight rest).head?, isBlank c = true := by
  obtain ⟨gone, hgone⟩ := prefix_trimRightBy isBlank rest
  intro c hc
  refine hrest c ?_
  rw [← hgone, List.head?_append, ← trimRight, hc, Option.some_or]
  rfl

/-! ## What lines add -/

namespace Draft

/-- The tags that no further line changes. -/
def settled (d : Draft) : List Tag := if d.tagOpen then d.tags.tail else d.tags

variable {d : Draft} {tag : Tag}

theorem mem_of_settled (h : tag ∈ d.settled) : tag ∈ d.tags := by
  unfold settled at h
  split at h
  · exact List.mem_of_mem_tail h
  · exact h

theorem settled_add (h : tag ∈ d.settled) (line : List Char) : tag ∈ (d.add line).settled := by
  unfold add
  split
  · exact mem_of_settled h
  · split
    · rename_i first tags hopen htags
      have hmem : tag ∈ tags := by simpa [settled, hopen, htags] using h
      split
      · simp [settled, htags, hmem]
      · simpa [settled, hopen] using hmem
    · rename_i htags
      simp [settled, htags] at h
    · exact h

theorem settled_addAll (h : tag ∈ d.settled) (ls : List (List Char)) : tag ∈ (d.addAll ls).settled := by
  induction ls generalizing d with
  | nil => exact h
  | cons line ls ih => exact ih (settled_add h line)

/-- A blank line and a further tag settle the tag that is open. -/
theorem settled_close (h : tag ∈ d.tags) {line : List Char} (hclose : line = [] ∨ TagForm line) :
    tag ∈ (d.add line).settled := by
  by_cases hform : TagForm line
  · obtain ⟨next, hnext⟩ := Option.ne_none_iff_exists'.mp (mt ofLine?_eq_none_iff.mp (not_not.mpr hform))
    rw [add_tag hnext]
    exact h
  · obtain rfl := hclose.resolve_right hform
    have hadd : d.add [] = { d with tagOpen := false } := by
      obtain ⟨prose, tags, tagOpen⟩ := d
      cases tags with
      | nil => cases h
      | cons first tags => cases tagOpen <;> rfl
    rw [hadd]
    exact h

end Draft

/-- What is left of a line that closes a tag closes it as well. -/
theorem Closes.dedented {line cut : List Char} (h : Closes line) (hcut : Dedented line cut) :
    trim (cut.takeWhile fun c => !isLineBreak c) = [] ∨ TagForm (trim (cut.takeWhile fun c => !isLineBreak c)) := by
  rcases h with hblanks | ⟨honeLine, name, rest, htag, hname, hword, hrest⟩
  · have htaken : Blanks (cut.takeWhile fun c => !isLineBreak c) :=
      fun c hc => hblanks.expandTabs c (hcut.subset c ((List.takeWhile_sublist _).subset hc))
    exact .inl (trimBy_eq_nil htaken)
  · have hwhole : (cut.takeWhile fun c => !isLineBreak c) = cut :=
      List.takeWhile_eq_self_iff.mpr fun c hc => by
        simpa using honeLine.expandTabs c (hcut.subset c hc)
    have hindent : Blanks (line.takeWhile isBlank) := fun c => List.mem_takeWhile_imp
    have hline : line = line.takeWhile isBlank ++ '@' :: (name ++ rest) := by
      rw [← htag]
      exact List.takeWhile_append_dropWhile.symm
    obtain ⟨gap, column, hgap, hexpanded⟩ := expandTabs_tagLine hindent hword rest
    refine .inr ⟨name, trimRight (expandTabsFrom column rest), ?_, hname, hword,
      head?_trimRight (head?_expandTabsFrom hrest column)⟩
    rw [hwhole, hcut.trim_eq, hline, hexpanded, trim_tagLine hgap hword]

/-! ## Reading the tag -/

section Reading

variable {pieces : List (List Char)} {groups : List (List (List Char))}

/-- A line with pieces continues the tag that is open. -/
theorem extend_spaced {tag : Tag} {group : List (List Char)} {line : List Char}
    (hpieces : ∀ piece ∈ pieces ++ group, Movable piece) (htag : Spaced pieces tag.content.toList)
    (hline : Spaced group line) : Spaced (pieces ++ group) (tag.extend line).content.toList := by
  have hspace : Gap [' '] := by decide
  unfold Tag.extend
  rw [String.toList_ofList]
  exact (htag.append (hline.behind hspace)).trim hpieces

/-- A line with pieces is neither blank nor a tag. -/
theorem not_tagForm_of_spaced {line : List Char} (h : Spaced pieces line) (hne : pieces ≠ [])
    (hpieces : ∀ piece ∈ pieces, Movable piece ∧ piece.head? ≠ some '@') : trim line ≠ [] ∧ ¬ TagForm (trim line) := by
  cases pieces with
  | nil => exact absurd rfl hne
  | cons piece pieces =>
    obtain ⟨rest, htrim, -⟩ := h.trim_cons fun p hp => (hpieces p hp).1
    obtain ⟨hpiece, hmark⟩ := hpieces piece List.mem_cons_self
    rw [htrim]
    refine ⟨by simp [hpiece.nonempty], ?_⟩
    rintro ⟨name, behind, heq, -⟩
    have hhead : (piece ++ rest).head? = piece.head? := List.head?_append_of_ne_nil _ hpiece.nonempty
    rw [heq] at hhead
    exact hmark hhead.symm

/-- The first line of a tag, read after its tabs are expanded. -/
theorem ofLine?_first {indent name first : List Char} (hname : name ≠ [])
    (hword : ∀ c ∈ name, isWordChar c = true) (hpieces : ∀ piece ∈ pieces, Movable piece) (hindent : Gap indent)
    (hfirst : Spaced pieces first) (hblank : ∀ c ∈ first.head?, isBlank c = true) :
    ∃ tag, Tag.ofLine? (trim (expandTabs (indent ++ '@' :: (name ++ first)))) = some tag ∧
      tag.name = String.ofList name ∧ Spaced pieces tag.content.toList := by
  obtain ⟨gap, column, hgap, hexpanded⟩ := expandTabs_tagLine hindent.blanks hword first
  have hbehind := head?_trimRight (head?_expandTabsFrom hblank column)
  have hcontent := ((hfirst.expandTabsFrom hpieces column).trimRight hpieces).trim hpieces
  generalize expandTabsFrom column first = behind at hexpanded hbehind hcontent
  refine ⟨⟨String.ofList name, String.ofList (trim (trimRight behind))⟩, ?_, rfl, ?_⟩
  · rw [hexpanded, trim_tagLine hgap hword]
    exact ofLine?_of_name hword hbehind hname
  · rwa [String.toList_ofList]

/-- The lines below the first line of a tag add the pieces that they hold. -/
theorem addAll_groups {below : List (List Char)} {tag : Tag} (prose : List (List Char)) (tags : List Tag)
    (hpieces : ∀ piece ∈ pieces ++ groups.flatten, Movable piece ∧ piece.head? ≠ some '@')
    (htag : Spaced pieces tag.content.toList)
    (hbelow : List.Forall₂ (fun group line => group ≠ [] ∧ Spaced group line) groups below) :
    ∃ whole, Draft.addAll ⟨prose, tag :: tags, true⟩ (below.map fun line => trim (expandTabs line)) =
      ⟨prose, whole :: tags, true⟩ ∧ whole.name = tag.name ∧
      Spaced (pieces ++ groups.flatten) whole.content.toList := by
  induction hbelow generalizing pieces tag with
  | nil => exact ⟨tag, rfl, rfl, by simpa using htag⟩
  | @cons group line groups below hline _ ih =>
    obtain ⟨hne, hline⟩ := hline
    rw [List.flatten_cons, ← List.append_assoc] at hpieces ⊢
    have hboth : ∀ piece ∈ pieces ++ group, Movable piece ∧ piece.head? ≠ some '@' :=
      fun piece hpiece => hpieces piece (List.mem_append_left _ hpiece)
    have hgroup : ∀ piece ∈ group, Movable piece ∧ piece.head? ≠ some '@' :=
      fun piece hpiece => hboth piece (List.mem_append_right _ hpiece)
    have hexpanded : Spaced group (expandTabs line) := hline.expandTabsFrom (fun piece hp => (hgroup piece hp).1) 0
    obtain ⟨hnonempty, huntagged⟩ := not_tagForm_of_spaced hexpanded hne hgroup
    have hextended := extend_spaced (fun piece hp => (hboth piece hp).1) htag
      (hexpanded.trim fun piece hp => (hgroup piece hp).1)
    obtain ⟨whole, hrest, hname, hspaced⟩ := ih hpieces hextended
    refine ⟨whole, ?_, hname, hspaced⟩
    rw [List.map_cons, Draft.addAll, List.foldl_cons, ← Draft.addAll,
      Draft.add_continued huntagged hnonempty rfl rfl, hrest]

/-- The lines of a tag add it, with the pieces that they hold as its content. -/
theorem addAll_tagLayout (d : Draft) {name : List Char} {ls : List (List Char)} (hname : name ≠ [])
    (hword : ∀ c ∈ name, isWordChar c = true)
    (hpieces : ∀ piece ∈ pieces, Movable piece ∧ piece.head? ≠ some '@') (hlayout : TagLayout name pieces ls) :
    ∃ tag, d.addAll (ls.map fun line => trim (expandTabs line)) = ⟨d.prose, tag :: d.tags, true⟩ ∧
      tag.name = String.ofList name ∧ Spaced pieces tag.content.toList := by
  obtain @⟨indent, first, pieces, groups, below, hindent, hfirst, hblank, hbelow⟩ := hlayout
  obtain ⟨tag, htag, htagName, hcontent⟩ := ofLine?_first hname hword
    (fun piece hp => (hpieces piece (List.mem_append_left _ hp)).1) hindent hfirst hblank
  obtain ⟨whole, hadded, hwholeName, hspaced⟩ := addAll_groups d.prose d.tags hpieces hcontent hbelow
  refine ⟨whole, ?_, hwholeName.trans htagName, hspaced⟩
  rw [List.map_cons, Draft.addAll, List.foldl_cons, ← Draft.addAll, Draft.add_tag htag]
  exact hadded

end Reading

/-! ## Reading the docstring -/

/-- The lines of a tag are on one line each and hold text. -/
theorem TagLayout.lines_inked {name : List Char} {pieces ls : List (List Char)}
    (hword : ∀ c ∈ name, isWordChar c = true) (hpieces : ∀ piece ∈ pieces, Movable piece)
    (h : TagLayout name pieces ls) : ∀ line ∈ ls, OneLine line ∧ Inked line := by
  obtain @⟨indent, first, pieces, groups, below, hindent, hfirst, -, hbelow⟩ := h
  obtain ⟨hfirstPieces, hgroups⟩ := List.forall_mem_append.mp hpieces
  refine List.forall_mem_cons.mpr ⟨⟨?_, '@', by simp, by decide⟩, fun line hline => ?_⟩
  · have hmark : OneLine ['@'] := by simp [OneLine]; decide
    exact List.forall_mem_append.mpr ⟨hindent.oneLine, List.forall_mem_append.mpr
      ⟨hmark, List.forall_mem_append.mpr ⟨(plain_of_word hword).oneLine, hfirst.oneLine hfirstPieces⟩⟩⟩
  · obtain ⟨group, hgroup, hne, hspaced⟩ := exists_of_forall₂ hbelow hline
    have hgroupPieces : ∀ piece ∈ group, Movable piece :=
      fun piece hpiece => hgroups piece (List.mem_flatten.mpr ⟨group, hgroup, hpiece⟩)
    exact ⟨hspaced.oneLine hgroupPieces, hspaced.inked hgroupPieces hne⟩

/-- Wherever a tag is laid out in a docstring, it is read with its content, the same pieces with spaces between
them. -/
theorem read_laidOut {name : List Char} {pieces before ls after : List (List Char)} (hname : name ≠ [])
    (hword : ∀ c ∈ name, isWordChar c = true)
    (hpieces : ∀ piece ∈ pieces, Movable piece ∧ piece.head? ≠ some '@') (hlayout : TagLayout name pieces ls)
    (hclose : ∀ line ∈ after.head?, Closes line) (hfeed : ∀ line ∈ before ++ after, '\n' ∉ line) :
    ∃ tag ∈ (Docstring.read (String.ofList (joinWith ['\n'] (before ++ (ls ++ after))))).tags,
      tag.name = String.ofList name ∧ Spaced pieces tag.content.toList := by
  have hinked := hlayout.lines_inked hword fun piece hp => (hpieces piece hp).1
  have hne : ls ≠ [] := by
    cases hlayout
    simp
  obtain ⟨front, cuts, back, hlines, hcuts, hback⟩ := lines_dedent hne hinked hfeed
  obtain ⟨tag, hadded, htagName, hspaced⟩ :=
    addAll_tagLayout (Draft.addAll {} (front.map trim)) hname hword hpieces hlayout
  refine ⟨tag, ?_, htagName, hspaced⟩
  have hread : (Docstring.read (String.ofList (joinWith ['\n'] (before ++ (ls ++ after))))).tags =
      (Draft.addAll {} ((front ++ (cuts ++ back)).map trim)).tags.reverse := by
    rw [Docstring.read, String.toList_ofList, hlines, ofLines_eq, Draft.finish_tags]
  rw [hread, List.mem_reverse, List.map_append, List.map_append, Draft.addAll_append, Draft.addAll_append,
    map_trim_of_dedented hcuts, hadded]
  cases back with
  | nil => exact List.mem_cons_self
  | cons line back =>
    obtain ⟨whole, hwhole, cut, hcut, rfl⟩ := hback line rfl
    have hclosed := (hclose whole hwhole).dedented hcut
    exact Draft.mem_of_settled (Draft.settled_addAll (Draft.settled_close List.mem_cons_self hclosed) _)

end ApiManual
