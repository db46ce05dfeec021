import ApiManual.Docstring
import ApiManual.Proofs.Text.Dedent

/-!
# The layout of a docstring

`written` lays a docstring out: its summary, its details and its tags between empty lines, with the contents of
tags broken into lines and everything behind the summary indented. `read_written`: reading what is written
gives the docstring back.

* `ofLine?_eq_none_iff`: the lines that are no tags.
* `read_joinWith`: a docstring is read from its lines without the blanks around them.
* `foldl_tagLines`: the lines of a tag add this tag, with its content put together again.
-/

namespace ApiManual

open Text

/-! ## Lines -/

/-- The line is `@name`, with nothing or a blank behind the name. -/
def TagForm (line : List Char) : Prop :=
  ∃ name rest, line = '@' :: (name ++ rest) ∧ name ≠ [] ∧ (∀ c ∈ name, isWordChar c = true) ∧
    ∀ c ∈ rest.head?, isBlank c = true

/-- A line of prose, without blanks around it. -/
structure Prose (line : List Char) : Prop where
  plain : Plain line
  bare : Bare isBlank line
  untagged : ¬ TagForm line

/-- Lines of prose, none or with text on the first and the last. -/
structure Details (details : List (List Char)) : Prop where
  prose : ∀ line ∈ details, Prose line
  first : ∀ line ∈ details.head?, line ≠ []
  last : ∀ line ∈ details.getLast?, line ≠ []

/-- A tag that can be written on one line. -/
structure Tag.Plain (tag : Tag) : Prop where
  named : tag.name.toList ≠ []
  word : ∀ c ∈ tag.name.toList, isWordChar c = true
  plain : Text.Plain tag.content.toList
  bare : Bare isBlank tag.content.toList

/-- A content with the parts that it is broken into, at spaces between characters that are no blanks. -/
inductive Broken : List Char → List (List Char) → Prop where
  | whole (content : List Char) : Broken content [content]
  | cut {before after : List Char} {parts : List (List Char)}
      (hbefore : ∃ c ∈ before.getLast?, isBlank c = false) (hafter : ∃ c ∈ after.head?, isBlank c = false)
      (rest : Broken after parts) : Broken (before ++ ' ' :: after) (before :: parts)

/-- The lines `@name content` of a tag, of which only the first has the form of a tag. -/
inductive TagLines (tag : Tag) : List (List Char) → Prop where
  | mk {first : List Char} {parts : List (List Char)} (broken : Broken tag.content.toList (first :: parts))
      (untagged : ∀ part ∈ parts, ¬ TagForm part) :
      TagLines tag (('@' :: (tag.name.toList ++ ' ' :: first)) :: parts)

/-- The lines behind the summary. -/
def laterLines (details : List (List Char)) (tagLines : List (List (List Char))) : List (List Char) :=
  [] :: (details ++ [] :: tagLines.flatten)

/-- A docstring whose lines behind the summary are indented. -/
def written (indent : Nat) (summary : List Char) (details : List (List Char))
    (tagLines : List (List (List Char))) : String :=
  String.ofList (joinWith ['\n']
    (summary :: (laterLines details tagLines).map (List.replicate indent ' ' ++ ·)))

/-! ## Tag lines -/

section Names

variable {name rest : List Char} (hword : ∀ c ∈ name, isWordChar c = true)
  (hrest : ∀ c ∈ rest.head?, isBlank c = true)

include hword hrest

theorem takeWhile_name : (name ++ rest).takeWhile isWordChar = name := by
  rw [List.takeWhile_append_of_pos hword]
  cases rest with
  | nil => simp
  | cons c rest => simp [not_isWordChar_of_isBlank (hrest c rfl)]

theorem dropWhile_name : (name ++ rest).dropWhile isWordChar = rest := by
  rw [List.dropWhile_append_of_pos hword]
  cases rest with
  | nil => rfl
  | cons c rest => simp [not_isWordChar_of_isBlank (hrest c rfl)]

theorem ofLine?_of_name (hname : name ≠ []) : Tag.ofLine? ('@' :: (name ++ rest)) =
    some { name := String.ofList name, content := String.ofList (trim rest) } := by
  have hblank : (rest.isEmpty || rest.head?.any isBlank) = true := by
    cases rest with
    | nil => rfl
    | cons c rest => simpa using hrest c rfl
  unfold Tag.ofLine?
  simp only [takeWhile_name hword hrest, dropWhile_name hword hrest]
  simp [hname, hblank]

end Names

/-- The lines that are no tags are those without the form of one. -/
theorem ofLine?_eq_none_iff {line : List Char} : Tag.ofLine? line = none ↔ ¬ TagForm line := by
  constructor
  · rintro h ⟨name, rest, rfl, hname, hword, hrest⟩
    simp [ofLine?_of_name hword hrest hname] at h
  · intro h
    unfold Tag.ofLine?
    split
    · rename_i cs
      refine if_pos ?_
      by_contra hform
      simp only [Bool.or_eq_true, Bool.not_eq_true', not_or, Bool.not_eq_false] at hform
      obtain ⟨hname, hrest⟩ := hform
      refine h ⟨cs.takeWhile isWordChar, cs.dropWhile isWordChar, ?_, by simpa using hname,
        fun c => List.mem_takeWhile_imp, ?_⟩
      · rw [List.takeWhile_append_dropWhile]
      · intro c hc
        cases hdrop : cs.dropWhile isWordChar with
        | nil => simp [hdrop] at hc
        | cons d rest =>
          rw [hdrop] at hrest hc
          obtain rfl : d = c := Option.some.inj hc
          simpa using hrest
    · rfl

instance (line : List Char) : Decidable (TagForm line) :=
  decidable_of_iff ((Tag.ofLine? line).isSome = true) (by
    rw [Option.isSome_iff_ne_none, ne_eq, ofLine?_eq_none_iff, not_not])

/-! ## Reading lines -/

namespace Draft

variable {d : Draft} {line : List Char}

theorem add_tag {tag : Tag} (h : Tag.ofLine? line = some tag) :
    d.add line = { d with tags := tag :: d.tags, tagOpen := true } := by
  unfold add
  rw [h]

theorem add_prose (h : ¬ TagForm line) (htags : d.tags = []) :
    d.add line = { d with prose := line :: d.prose } := by
  unfold add
  rw [ofLine?_eq_none_iff.mpr h, htags]
  cases d.tagOpen <;> rfl

theorem add_continued {tag : Tag} {tags : List Tag} (h : ¬ TagForm line) (hne : line ≠ [])
    (hopen : d.tagOpen = true) (htags : d.tags = tag :: tags) :
    d.add line = { d with tags := tag.extend line :: tags } := by
  unfold add
  rw [ofLine?_eq_none_iff.mpr h, htags, hopen]
  exact if_neg (by simpa using hne)

end Draft

/-- Read lines that have no blanks around them. -/
def Draft.addAll (d : Draft) (ls : List (List Char)) : Draft := ls.foldl Draft.add d

@[simp]
theorem Draft.addAll_append (d : Draft) (ls ls' : List (List Char)) :
    d.addAll (ls ++ ls') = (d.addAll ls).addAll ls' := List.foldl_append

theorem ofLines_eq (ls : List (List Char)) :
    Docstring.ofLines ls = (Draft.addAll {} (ls.map trim)).finish := by
  unfold Docstring.ofLines Draft.addAll
  rw [List.foldl_map]

theorem addAll_prose {d : Draft} {ls : List (List Char)} (h : ∀ line ∈ ls, ¬ TagForm line)
    (htags : d.tags = []) : d.addAll ls = { d with prose := ls.reverse ++ d.prose } := by
  induction ls generalizing d with
  | nil => rfl
  | cons line ls ih =>
    obtain ⟨hline, hls⟩ := List.forall_mem_cons.mp h
    have hrest := ih (d := d.add line) hls (by rw [Draft.add_prose hline htags]; exact htags)
    rw [Draft.addAll, List.foldl_cons, ← Draft.addAll, hrest, Draft.add_prose hline htags]
    simp

/-! ## Prose -/

theorem dropWhile_isEmpty_concat (ls : List (List Char)) :
    (ls ++ [[]]).dropWhile List.isEmpty =
      if (ls.dropWhile List.isEmpty).isEmpty then [] else ls.dropWhile List.isEmpty ++ [[]] := by
  rw [List.dropWhile_append]
  rfl

/-- Joining one more line that is empty adds a line feed at most. -/
theorem trim_joinWith_concat (ls : List (List Char)) :
    trim (joinWith ['\n'] (ls ++ [[]])) = trim (joinWith ['\n'] ls) := by
  by_cases hne : ls = []
  · rw [hne]
    rfl
  · have hfeed : Blanks ['\n'] := by decide
    rw [joinWith_concat _ _ hne, List.append_nil]
    exact trimBy_append_right hfeed

theorem finish_of_prose {d : Draft} {ls : List (List Char)} (h : d.prose.reverse = ls ++ [[]]) :
    d.finish = { d with prose := ls.reverse }.finish := by
  unfold Draft.finish
  rw [h, dropWhile_isEmpty_concat]
  simp only [List.reverse_reverse]
  cases ls.dropWhile List.isEmpty with
  | nil => rfl
  | cons summary details =>
    simp only [List.isEmpty_cons, Bool.false_eq_true, if_false, List.cons_append]
    rw [trim_joinWith_concat]

/-- An empty line behind all others is not seen. -/
theorem finish_add_nil (d : Draft) : (d.add []).finish = d.finish := by
  have huntagged : Tag.ofLine? [] = none := rfl
  unfold Draft.add
  rw [huntagged]
  simp only
  split
  · rfl
  · rw [finish_of_prose (List.reverse_cons ..), List.reverse_reverse]
  · rfl

theorem ofLines_rdropWhile (ls : List (List Char)) :
    Docstring.ofLines (List.rdropWhile List.isEmpty ls) = Docstring.ofLines ls := by
  induction ls using List.reverseRecOn with
  | nil => rfl
  | append_singleton ls line ih =>
    cases line with
    | nil =>
      rw [List.rdropWhile_concat_pos _ _ _ rfl, ih, ofLines_eq, ofLines_eq, List.map_append, Draft.addAll_append]
      exact (finish_add_nil _).symm
    | cons c cs => rw [List.rdropWhile_concat_neg _ _ _ (by simp)]

/-- A docstring is read from its lines, whatever the margin behind the first. -/
theorem read_joinWith {first : List Char} {rest : List (List Char)} (hbare : Bare isBlank first)
    (hne : first ≠ []) (hplain : ∀ line ∈ first :: rest, Plain line) :
    Docstring.read (String.ofList (joinWith ['\n'] (first :: rest))) =
      (Draft.addAll {} (first :: rest.map trim)).finish := by
  have honeLine : ∀ line ∈ first :: cutMargin rest, OneLine line := by
    obtain ⟨hfirst, hrest⟩ := List.forall_mem_cons.mp hplain
    exact List.forall_mem_cons.mpr
      ⟨hfirst.oneLine, oneLine_of_cut (cutMargin_cut rest) fun line hline => (hrest line hline).oneLine⟩
  have hkept := List.rdropWhile_prefix List.isEmpty (first :: cutMargin rest)
  unfold Docstring.read
  rw [String.toList_ofList, dedent_joinWith hbare hne hplain, lines_joinWith, ofLines_rdropWhile, ofLines_eq,
    List.map_cons, map_trim_of_cut (cutMargin_cut rest), trim, trimBy_eq_self hbare]
  · exact fun line hline => honeLine line (hkept.subset hline)
  · intro line hline hnil
    obtain ⟨hdropped, rfl⟩ := List.mem_getLast?_eq_getLast hline
    exact List.rdropWhile_last_not _ _ hdropped (by rw [hnil]; rfl)

/-! ## Contents that are broken into lines -/

namespace Broken

variable {content : List Char} {parts : List (List Char)}

theorem joined (h : Broken content parts) : joinWith [' '] parts = content := by
  induction h with
  | whole content => exact joinWith_singleton _ _
  | @cut before after parts hbefore hafter rest ih =>
    cases rest with
    | whole => rw [joinWith_cons_cons, ih, List.singleton_append]
    | cut => rw [joinWith_cons_cons, ih, List.singleton_append]

theorem subset (h : Broken content parts) : ∀ part ∈ parts, ∀ c ∈ part, c ∈ content := by
  induction h with
  | whole content => simp
  | cut hbefore hafter rest ih =>
    refine List.forall_mem_cons.mpr ⟨fun c hc => List.mem_append_left _ hc, fun part hpart c hc => ?_⟩
    exact List.mem_append_right _ (List.mem_cons_of_mem _ (ih part hpart c hc))

theorem nonempty (h : Broken content parts) (hne : content ≠ []) : ∀ part ∈ parts, part ≠ [] := by
  induction h with
  | whole content => simpa using hne
  | cut hbefore hafter rest ih =>
    obtain ⟨c, hc, -⟩ := hbefore
    obtain ⟨d, hd, -⟩ := hafter
    refine List.forall_mem_cons.mpr ⟨?_, ih ?_⟩
    · rintro rfl
      cases hc
    · rintro rfl
      cases hd

theorem content_ne_nil {first : List Char} (h : Broken content (first :: parts)) (hne : parts ≠ []) :
    content ≠ [] := by
  cases h with
  | whole => exact absurd rfl hne
  | cut => simp

theorem bare (h : Broken content parts) (hbare : Bare isBlank content) : ∀ part ∈ parts, Bare isBlank part := by
  induction h with
  | whole content => simpa using hbare
  | @cut before after parts hbefore hafter rest ih =>
    obtain ⟨c, hc, hcb⟩ := hbefore
    obtain ⟨d, hd, hdb⟩ := hafter
    obtain ⟨hhead, hlast⟩ := hbare
    refine List.forall_mem_cons.mpr ⟨⟨?_, ?_⟩, ih ⟨?_, ?_⟩⟩
    · cases before with
      | nil => cases hc
      | cons b before => simpa using hhead
    · intro e he
      rwa [Option.mem_unique he hc]
    · intro e he
      rwa [Option.mem_unique he hd]
    · cases after with
      | nil => cases hd
      | cons a after => simpa using hlast

end Broken

/-! ## Reading tags -/

theorem Tag.Plain.bare_name {tag : Tag} (h : tag.Plain) : Bare isBlank ('@' :: tag.name.toList) := by
  constructor
  · intro c hc
    obtain rfl : '@' = c := Option.some.inj hc
    decide
  · intro c hc
    rw [List.getLast?_cons, List.getLast?_eq_some_getLast h.named] at hc
    obtain rfl := Option.some.inj hc
    exact not_isBlank_of_isWordChar (h.word _ (List.getLast_mem h.named))

/-- The first line of a tag opens it, with what stands of its content on this line. -/
theorem ofLine?_trim {tag : Tag} (htag : tag.Plain) {first : List Char} (hbare : Bare isBlank first) :
    Tag.ofLine? (trim ('@' :: (tag.name.toList ++ ' ' :: first))) =
      some { name := tag.name, content := String.ofList first } := by
  by_cases hfirst : first = []
  · -- the blank behind the name goes as well
    have hblank : Blanks [' '] := by decide
    have htrim : trimBy isBlank ('@' :: tag.name.toList ++ [' ']) = '@' :: tag.name.toList := by
      rw [trimBy_append_right hblank, trimBy_eq_self htag.bare_name]
    have hnone : ∀ c ∈ ([] : List Char).head?, isBlank c = true := by simp
    have hread := ofLine?_of_name htag.word hnone htag.named
    rw [List.append_nil] at hread
    rw [hfirst, trim, ← List.cons_append, htrim, hread, String.ofList_toList]
    rfl
  · have hwhole := htag.bare_name.around hbare (by simp) hfirst [' ']
    rw [List.singleton_append, List.cons_append] at hwhole
    have hspace : ∀ c ∈ (' ' :: first).head?, isBlank c = true := by
      intro c hc
      obtain rfl : ' ' = c := Option.some.inj hc
      decide
    have hcontent : trim (' ' :: first) = first := by
      unfold trim trimBy
      rw [← trimLeft, trimLeft_space, trimLeft, ← trimBy, trimBy_eq_self hbare]
    rw [trim, trimBy_eq_self hwhole, ofLine?_of_name htag.word hspace htag.named, hcontent, String.ofList_toList]

/-- The lines that continue a tag put its content together again. -/
theorem addAll_continued (prose : List (List Char)) (tags : List Tag) (name : String) {content : List Char}
    {parts : List (List Char)} (hparts : ∀ part ∈ parts, part ≠ [] ∧ Bare isBlank part ∧ ¬ TagForm part)
    (hbare : Bare isBlank content) (hne : parts ≠ [] → content ≠ []) :
    Draft.addAll ⟨prose, ⟨name, String.ofList content⟩ :: tags, true⟩ parts =
      ⟨prose, ⟨name, String.ofList (joinWith [' '] (content :: parts))⟩ :: tags, true⟩ := by
  induction parts generalizing content with
  | nil => simp [Draft.addAll]
  | cons part parts ih =>
    obtain ⟨⟨hpart, hpartBare, huntagged⟩, hparts⟩ := List.forall_mem_cons.mp hparts
    have hextended : Bare isBlank (content ++ ' ' :: part) := hbare.around hpartBare (hne (by simp)) hpart [' ']
    have hextend : Tag.extend ⟨name, String.ofList content⟩ part = ⟨name, String.ofList (content ++ ' ' :: part)⟩ := by
      unfold Tag.extend
      simp only [String.toList_ofList]
      rw [trim, trimBy_eq_self hextended]
    have hrest := ih hparts hextended (by simp)
    rw [Draft.addAll, List.foldl_cons, ← Draft.addAll, Draft.add_continued huntagged hpart rfl rfl, hextend, hrest]
    cases parts <;> simp

/-- The lines of a tag add the tag. -/
theorem addAll_tagLines (d : Draft) {tag : Tag} {ls : List (List Char)} (htag : tag.Plain)
    (h : TagLines tag ls) :
    d.addAll (ls.map trim) = { d with tags := tag :: d.tags, tagOpen := true } := by
  cases h with
  | @mk first parts hbroken huntagged =>
    obtain ⟨hfirst, hbare⟩ := List.forall_mem_cons.mp (hbroken.bare htag.bare)
    have hnonempty : ∀ part ∈ first :: parts, parts ≠ [] → part ≠ [] := by
      intro part hpart hne
      exact hbroken.nonempty (hbroken.content_ne_nil hne) part hpart
    have hparts : ∀ part ∈ parts, part ≠ [] ∧ Bare isBlank part ∧ ¬ TagForm part := by
      intro part hpart
      have hne := hnonempty part (List.mem_cons_of_mem _ hpart) (List.ne_nil_of_mem hpart)
      exact ⟨hne, hbare part hpart, huntagged part hpart⟩
    have hopened := Draft.add_tag (d := d) (ofLine?_trim htag hfirst)
    have hcontinued := addAll_continued d.prose d.tags tag.name hparts hfirst (hnonempty first List.mem_cons_self)
    rw [hbroken.joined, String.ofList_toList] at hcontinued
    rw [List.map_cons, map_trim_of_bare hbare, Draft.addAll, List.foldl_cons, ← Draft.addAll, hopened]
    exact hcontinued

theorem addAll_flatten {tags : List Tag} {tagLines : List (List (List Char))} (htags : ∀ tag ∈ tags, tag.Plain)
    (h : List.Forall₂ TagLines tags tagLines) (d : Draft) :
    ∃ opened, d.addAll (tagLines.flatten.map trim) = ⟨d.prose, tags.reverse ++ d.tags, opened⟩ := by
  induction h generalizing d with
  | nil => exact ⟨d.tagOpen, rfl⟩
  | @cons tag ls tags tagLines hlines _ ih =>
    obtain ⟨htag, htags⟩ := List.forall_mem_cons.mp htags
    obtain ⟨opened, hrest⟩ := ih htags ⟨d.prose, tag :: d.tags, true⟩
    refine ⟨opened, ?_⟩
    rw [List.flatten_cons, List.map_append, Draft.addAll_append, addAll_tagLines d htag hlines, hrest]
    simp

/-! ## Reading the whole -/

/-- The empty lines around the details are not seen. -/
theorem finish_written {summary : List Char} {details : List (List Char)} (hne : summary ≠ [])
    (hdetails : Details details) (tags : List Tag) (opened : Bool) :
    Draft.finish ⟨(summary :: [] :: (details ++ [[]])).reverse, tags.reverse, opened⟩ =
      { summary := String.ofList summary, details := String.ofList (joinWith ['\n'] details), tags } := by
  have hbare : Bare isBlank (joinWith ['\n'] details) :=
    bare_joinWith _ (fun line hline => (hdetails.prose line hline).bare) hdetails.first hdetails.last
  have htrim : trim (joinWith ['\n'] ([] :: details)) = joinWith ['\n'] details := by
    cases details with
    | nil => rfl
    | cons line details =>
      have hfeed : Blanks ['\n'] := by decide
      rw [joinWith_cons_cons, List.nil_append, trim, trimBy_append_left hfeed, trimBy_eq_self hbare]
  have hprose : (summary :: [] :: (details ++ [[]])).reverse.reverse = (summary :: [] :: details) ++ [[]] := by simp
  rw [finish_of_prose hprose]
  unfold Draft.finish
  rw [List.reverse_reverse, List.dropWhile_cons_of_neg (by simpa using hne), List.reverse_reverse]
  simp only [htrim]

theorem plain_tagLines {tag : Tag} {ls : List (List Char)} (htag : tag.Plain) (h : TagLines tag ls) :
    ∀ line ∈ ls, Plain line := by
  cases h with
  | @mk first parts hbroken huntagged =>
    have hparts : ∀ part ∈ first :: parts, Plain part :=
      fun part hpart => htag.plain.of_subset (hbroken.subset part hpart)
    obtain ⟨hfirst, hparts⟩ := List.forall_mem_cons.mp hparts
    have hmark : Plain ['@'] := by decide
    have hspace : Plain [' '] := by decide
    exact List.forall_mem_cons.mpr ⟨hmark.append ((plain_of_word htag.word).append (hspace.append hfirst)), hparts⟩

section Written

variable {summary : List Char} {details : List (List Char)} {tags : List Tag} {tagLines : List (List (List Char))}

theorem plain_laterLines (hdetails : Details details) (htags : ∀ tag ∈ tags, tag.Plain)
    (hlines : List.Forall₂ TagLines tags tagLines) : ∀ line ∈ laterLines details tagLines, Plain line := by
  have hempty : Plain [] := by decide
  have htagLines : ∀ line ∈ tagLines.flatten, Plain line := by
    intro line hline
    obtain ⟨ls, hls, hline⟩ := List.mem_flatten.mp hline
    obtain ⟨tag, htag, hls⟩ := exists_of_forall₂ hlines hls
    exact plain_tagLines (htags tag htag) hls line hline
  refine List.forall_mem_cons.mpr ⟨hempty, List.forall_mem_append.mpr ⟨?_, ?_⟩⟩
  · exact fun line hline => (hdetails.prose line hline).plain
  · exact List.forall_mem_cons.mpr ⟨hempty, htagLines⟩

/-- Reading a docstring that is written out gives its summary, its details and its tags, for every indent and
however the contents of tags are broken. -/
theorem read_written (indent : Nat) (hne : summary ≠ []) (hsummary : Prose summary) (hdetails : Details details)
    (htags : ∀ tag ∈ tags, tag.Plain) (hlines : List.Forall₂ TagLines tags tagLines) :
    Docstring.read (written indent summary details tagLines) =
      { summary := String.ofList summary, details := String.ofList (joinWith ['\n'] details), tags } := by
  have hplain : ∀ line ∈ summary :: (laterLines details tagLines).map (List.replicate indent ' ' ++ ·),
      Plain line := by
    refine List.forall_mem_cons.mpr ⟨hsummary.plain, fun line hline => ?_⟩
    obtain ⟨later, hlater, rfl⟩ := List.mem_map.mp hline
    exact (plain_laterLines hdetails htags hlines later hlater).indented indent
  have htrim : ((laterLines details tagLines).map (List.replicate indent ' ' ++ ·)).map trim =
      (laterLines details tagLines).map trim := by
    rw [List.map_map]
    refine List.map_congr_left fun line _ => trimBy_append_left fun c hc => ?_
    rw [List.eq_of_mem_replicate hc]
    decide
  have hprose : (laterLines details tagLines).map trim = [] :: (details ++ [[]]) ++ tagLines.flatten.map trim := by
    have hdetails := map_trim_of_bare fun line hline => (hdetails.prose line hline).bare
    simp [laterLines, hdetails, trim, trimBy, trimLeftBy, trimRightBy]
  have huntagged : ∀ line ∈ summary :: [] :: (details ++ [[]]), ¬ TagForm line := by
    have hempty : ¬ TagForm [] := by decide
    refine List.forall_mem_cons.mpr ⟨hsummary.untagged, List.forall_mem_cons.mpr ⟨hempty, ?_⟩⟩
    refine List.forall_mem_append.mpr ⟨fun line hline => (hdetails.prose line hline).untagged, ?_⟩
    exact List.forall_mem_singleton.mpr hempty
  obtain ⟨opened, htagged⟩ := addAll_flatten htags hlines
    { prose := (summary :: [] :: (details ++ [[]])).reverse }
  unfold written
  rw [read_joinWith hsummary.bare hne hplain, htrim, hprose, ← List.cons_append, Draft.addAll_append,
    addAll_prose huntagged rfl]
  simp only [List.append_nil]
  rw [htagged, List.append_nil, finish_written hne hdetails]

end Written

/-! ## A docstring with broken contents -/

namespace UserDoc

def summary : List Char := "A user.".toList

def details : List (List Char) := ["By id".toList, [], "or @me.".toList]

def tags : List Tag := [{ name := "authenticated" }, { name := "group", content := "Users @all-of  them" }]

def tagLines : List (List (List Char)) :=
  [["@authenticated ".toList], ["@group Users".toList, "@all-of  them".toList]]

theorem tagLines_tags : List.Forall₂ TagLines tags tagLines := by
  have hbefore : ∃ c ∈ "Users".toList.getLast?, isBlank c = false := ⟨'s', by decide, by decide⟩
  have hafter : ∃ c ∈ "@all-of  them".toList.head?, isBlank c = false := ⟨'@', by decide, by decide⟩
  have hgroup : Broken "Users @all-of  them".toList ["Users".toList, "@all-of  them".toList] :=
    .cut hbefore hafter (.whole _)
  exact .cons (.mk (.whole []) (by simp)) (.cons (.mk hgroup (by decide +kernel)) .nil)

theorem read_user :
    written 4 summary details tagLines = "A user.\n    \n    By id\n    \n    or @me.\n    \n" ++
      "    @authenticated \n    @group Users\n    @all-of  them" ∧
    Docstring.read (written 4 summary details tagLines) =
      { summary := "A user.", details := "By id\n\nor @me.", tags } := by
  have hprose : ∀ line ∈ summary :: details, Prose line := by
    intro line hline
    have hplain : ∀ line ∈ summary :: details, Plain line ∧ Bare isBlank line ∧ ¬ TagForm line := by decide +kernel
    obtain ⟨hline, hbare, huntagged⟩ := hplain line hline
    exact ⟨hline, hbare, huntagged⟩
  obtain ⟨hsummary, hlines⟩ := List.forall_mem_cons.mp hprose
  have hdetails : Details details := ⟨hlines, by decide, by decide⟩
  have htags : ∀ tag ∈ tags, tag.Plain := by
    intro tag htag
    simp only [tags, List.mem_cons, List.not_mem_nil, or_false] at htag
    rcases htag with rfl | rfl <;>
      exact ⟨by decide +kernel, List.all_eq_true.mp (by decide +kernel), by decide +kernel, by decide +kernel⟩
  refine ⟨by decide +kernel, ?_⟩
  exact read_written 4 (by decide) hsummary hdetails htags tagLines_tags

end UserDoc

end ApiManual
