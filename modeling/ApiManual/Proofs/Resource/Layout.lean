import ApiManual.Proofs.Entries
import ApiManual.Proofs.Resource.Label
import ApiManual.Proofs.Resource.Lines
import ApiManual.Proofs.Results
import ApiManual.Resource.Tree

/-!
# The layout of a resource's source

`Layout fields lines` says how a forest of fields is laid out in the lines of a method: each field has a
comment and the line of its value behind it, and a field with fields below it has these between an
opening and a closing bracket. `Layout.ofLines`: reading the lines gives the forest back.
-/

namespace ApiManual

open Text

/-! ## Lines -/

/-- A part of a comment on a line of its own. -/
structure Chunk (text : List Char) : Prop where
  nonempty : text ≠ []
  bare : Bare isBlank text
  unbroken : '\n' ∉ text

instance (text : List Char) : Decidable (Chunk text) :=
  decidable_of_iff (text ≠ [] ∧ Bare isBlank text ∧ '\n' ∉ text)
    ⟨fun ⟨h, h', h''⟩ => ⟨h, h', h''⟩, fun ⟨h, h', h''⟩ => ⟨h, h', h''⟩⟩

/-- The line `# @responseParam text`, with blanks around its parts. -/
inductive HeadLine (text line : List Char) : Prop where
  | mk (indent gap space tail : List Char) (hindent : Blanks indent) (hgap : Blanks gap)
      (hspace : Blanks space) (apart : space ≠ []) (htail : Blanks tail)
      (hline : line = indent ++ '#' :: (gap ++ (fieldMark ++ (space ++ text ++ tail))))

/-- The line `# text` under a comment, which is no tag. -/
inductive MoreLine (text line : List Char) : Prop where
  | mk (indent gap tail : List Char) (hindent : Blanks indent) (hgap : Blanks gap) (htail : Blanks tail)
      (untagged : text.head? ≠ some '@') (hline : line = indent ++ '#' :: (gap ++ text ++ tail))

/-- The lines of a comment, which is broken at single spaces. -/
inductive CommentLines (content : List Char) : List (List Char) → Prop where
  | mk {first line : List Char} {texts lines : List (List Char)} (head : HeadLine first line)
      (more : List.Forall₂ MoreLine texts lines) (chunks : ∀ text ∈ first :: texts, Chunk text)
      (whole : joined first texts = content) : CommentLines content (line :: lines)

/-- A line that is no comment, no tag and no closing bracket alone. -/
structure CodeLine (line : List Char) : Prop where
  noComment : isComment line = false
  noTag : fieldLine? line = none
  noCloser : isCloser line = false

instance (line : List Char) : Decidable (CodeLine line) :=
  decidable_of_iff (isComment line = false ∧ fieldLine? line = none ∧ isCloser line = false)
    ⟨fun ⟨h, h', h''⟩ => ⟨h, h', h''⟩, fun ⟨h, h', h''⟩ => ⟨h, h', h''⟩⟩

/-- The line ends in an opening bracket. -/
def endsOpen (line : List Char) : Bool :=
  (trimRight line).getLast?.any fun c => c == '[' || c == '\x7b'

/-- The line of a value, which is not blank. -/
structure ValueLine (line : List Char) : Prop extends CodeLine line where
  some : line.all isBlank = false

instance (line : List Char) : Decidable (ValueLine line) :=
  decidable_of_iff (CodeLine line ∧ line.all isBlank = false) ⟨fun ⟨h, h'⟩ => ⟨h, h'⟩, fun ⟨h, h'⟩ => ⟨h, h'⟩⟩

/-! ## Layouts -/

/-- How a forest of fields is laid out in lines. -/
inductive Layout : Fields → List (List Char) → Prop where
  | nil : Layout [] []
  | leaf (label : Label) {comment filler lines : List (List Char)} {value : List Char} {fields : Fields}
      (hcomment : CommentLines label.content comment) (hvalue : ValueLine value)
      (closed : endsOpen value = false) (hfiller : ∀ line ∈ filler, CodeLine line)
      (fresh : String.ofList label.name ∉ fields.names) (rest : Layout fields lines) :
      Layout ((String.ofList label.name, label.field) :: fields) (comment ++ value :: (filler ++ lines))
  | scope (label : Label) {comment filler inner filler' lines : List (List Char)}
      {value closer : List Char} {children fields : Fields}
      (structured : label.field.type.isStructured = true)
      (hcomment : CommentLines label.content comment) (hvalue : ValueLine value)
      (opens : endsOpen value = true) (hfiller : ∀ line ∈ filler, CodeLine line)
      (below : Layout children inner) (hcloser : isCloser closer = true)
      (hfiller' : ∀ line ∈ filler', CodeLine line) (fresh : String.ofList label.name ∉ fields.names)
      (rest : Layout fields lines) :
      Layout ((String.ofList label.name, label.field.withChildren children) :: fields)
        (comment ++ value :: (filler ++ (inner ++ closer :: (filler' ++ lines))))

/-! ## Reading single lines -/

section Lines

variable {line text : List Char}

theorem HeadLine.tagLine (h : HeadLine text line) (hchunk : Chunk text) : TagLine text line := by
  obtain ⟨indent, gap, space, tail, hindent, hgap, hspace, apart, htail, hline⟩ := h
  exact ⟨indent, '#', gap, space, tail, hindent, .inl rfl, hgap, hspace, apart, htail, hchunk.bare, hchunk.unbroken,
    hline⟩

theorem HeadLine.fieldLine? (h : HeadLine text line) (hchunk : Chunk text) : fieldLine? line = some text :=
  fieldLine?_eq_some_iff.mpr (h.tagLine hchunk)

theorem MoreLine.trimLeft_head (h : MoreLine text line) : (trimLeft line).head? = some '#' := by
  obtain ⟨indent, gap, tail, hindent, -, -, -, rfl⟩ := h
  rw [trimLeft_padded hindent (by simp; decide)]
  rfl

theorem MoreLine.continuation? (h : MoreLine text line) (hchunk : Chunk text) :
    continuation? line = some text := by
  obtain ⟨indent, gap, tail, hindent, hgap, htail, untagged, rfl⟩ := h
  have htext : lineText? (gap ++ text ++ tail) = some text :=
    lineText?_eq_some_iff.mpr ⟨trim_padded hchunk.bare hgap htail, hchunk.unbroken⟩
  unfold ApiManual.continuation?
  rw [trimLeft_padded hindent (by simp; decide)]
  simp only
  rw [htext]
  simp [hchunk.nonempty, untagged]

theorem MoreLine.fieldLine? (h : MoreLine text line) (hchunk : Chunk text) : fieldLine? line = none := by
  obtain ⟨indent, gap, tail, hindent, hgap, htail, untagged, rfl⟩ := h
  have hhead : (text ++ tail).head? = text.head? := by
    cases text with
    | nil => exact absurd rfl hchunk.nonempty
    | cons c text => rfl
  unfold ApiManual.fieldLine?
  rw [trimLeft_padded hindent (by simp; decide)]
  simp only
  rw [List.append_assoc, trimLeft_padded hgap (by rw [hhead]; exact hchunk.bare.head), if_neg]
  rintro ⟨-, hprefix, -⟩
  obtain ⟨rest, hrest⟩ := List.isPrefixOf_iff_prefix.mp hprefix
  rw [← hrest] at hhead
  exact untagged (hhead.symm.trans (by rfl))

theorem MoreLine.isCloser (h : MoreLine text line) : isCloser line = false := by
  rw [← Bool.not_eq_true]
  intro hcloser
  obtain hc | hc := trimLeft_head_of_isCloser hcloser <;> rw [h.trimLeft_head] at hc <;>
    exact absurd hc (by decide)

theorem MoreLine.isComment (h : MoreLine text line) : isComment line = true := by
  unfold ApiManual.isComment
  rw [h.trimLeft_head]
  rfl

end Lines

/-! ## Reading lines in order -/

/-- Read lines from `number` on, with these fields in the current scope and these scopes open. -/
def nestFrom (number : Nat) (here : Fields) (stack : List OpenField) (lines : List (List Char)) :
    Except Defect Fields :=
  eventsFrom number lines >>= nest here stack

section Nest

variable {here : Fields} {stack : List OpenField} {line value : List Char}
  {lines texts : List (List Char)}

theorem nestFrom_quiet (number : Nat) (hfield : fieldLine? line = none) (hcloser : isCloser line = false) :
    nestFrom number here stack (line :: lines) = nestFrom (number + 1) here stack lines := by
  unfold nestFrom
  rw [eventsFrom, hfield]
  simp only [hcloser]
  rfl

/-- Lines that are neither tags nor closing brackets are passed over. -/
theorem nestFrom_quiets (number : Nat) (rest : List (List Char))
    (h : ∀ line ∈ lines, fieldLine? line = none ∧ isCloser line = false) :
    ∃ number', nestFrom number here stack (lines ++ rest) = nestFrom number' here stack rest := by
  induction lines generalizing number with
  | nil => exact ⟨number, rfl⟩
  | cons line lines ih =>
    obtain ⟨number', hrest⟩ := ih (number + 1) fun l hl => h l (by simp [hl])
    have hline := h line (by simp)
    exact ⟨number', (nestFrom_quiet number hline.1 hline.2).trans hrest⟩

theorem nestFrom_codes (here : Fields) (stack : List OpenField) (number : Nat) (rest : List (List Char))
    (h : ∀ line ∈ lines, CodeLine line) :
    ∃ number', nestFrom number here stack (lines ++ rest) = nestFrom number' here stack rest :=
  nestFrom_quiets number rest fun line hline => ⟨(h line hline).noTag, (h line hline).noCloser⟩

theorem nestFrom_closer (number : Nat) (h : isCloser line = true) :
    nestFrom number here stack (line :: lines) = match stack with
      | [] => nestFrom (number + 1) here [] lines
      | o :: stack => nestFrom (number + 1) (o.before.set o.name (o.field.withChildren here)) stack lines := by
  unfold nestFrom
  rw [eventsFrom, fieldLine?_of_isCloser h]
  simp only [h, if_true]
  cases eventsFrom (number + 1) lines <;> cases stack <;> rfl

theorem nestFrom_tag {content : List Char} {name : String} {field : Field} (number : Nat)
    (hline : fieldLine? line = some content)
    (hfield : Field.ofComment (String.ofList (joined content (continuations lines))) = .ok (name, field)) :
    nestFrom number here stack (line :: lines) =
      if opensScope lines && field.type.isStructured then
        nestFrom (number + 1) [] ({ before := here, name, field, line := number } :: stack) lines
      else nestFrom (number + 1) (here.set name field) stack lines := by
  unfold nestFrom
  rw [eventsFrom, hline]
  simp only [hfield]
  cases eventsFrom (number + 1) lines with
  | error d => split <;> rfl
  | ok events => simp only [bind, Except.bind, nest]

/-! ## Reading comments -/

theorem continuations_more (hmore : List.Forall₂ MoreLine texts lines)
    (hchunks : ∀ text ∈ texts, Chunk text) (hvalue : isComment value = false) (rest : List (List Char)) :
    continuations (lines ++ value :: rest) = texts := by
  induction hmore with
  | nil =>
    have hnone : continuation? value = none := by
      unfold continuation?
      split
      · rename_i cs htrim
        simp [isComment, htrim] at hvalue
      · rfl
    simp [continuations, hnone]
  | cons hline hrest ih =>
    simp only [List.mem_cons, forall_eq_or_imp] at hchunks
    simp [continuations, hline.continuation? hchunks.1, ih hchunks.2]

theorem opensScope_more (hmore : List.Forall₂ MoreLine texts lines) (hvalue : ValueLine value)
    (rest : List (List Char)) : opensScope (lines ++ value :: rest) = endsOpen value := by
  have hcomment : ∀ line ∈ lines, (line.all isBlank || isComment line) = true := by
    intro line hline
    obtain ⟨text, -, h⟩ := exists_of_forall₂ hmore hline
    simp [h.isComment]
  have hcode : (value.all isBlank || isComment value) = false := by
    rw [hvalue.some, hvalue.noComment]
    rfl
  unfold opensScope
  rw [List.dropWhile_append_of_pos hcomment, List.dropWhile_cons, hcode]
  rfl

/-- A comment and the line of its value open a scope or set a field. -/
theorem nestFrom_comment (here : Fields) (stack : List OpenField) {label : Label} {comment : List (List Char)}
    (hcomment : CommentLines label.content comment) (hvalue : ValueLine value) (number : Nat)
    (rest : List (List Char)) :
    ∃ number', nestFrom number here stack (comment ++ value :: rest) =
      if endsOpen value && label.field.type.isStructured then
        nestFrom number' [] ({ before := here, name := String.ofList label.name, field := label.field,
                               line := number } :: stack) rest
      else nestFrom number' (here.set (String.ofList label.name) label.field) stack rest := by
  obtain @⟨first, line, texts, lines, hhead, hmore, hchunks, hwhole⟩ := hcomment
  simp only [List.mem_cons, forall_eq_or_imp] at hchunks
  have hquiet : ∀ line ∈ lines ++ [value], fieldLine? line = none ∧ isCloser line = false := by
    intro line hline
    obtain hline | hline := List.mem_append.mp hline
    · obtain ⟨text, htext, h⟩ := exists_of_forall₂ hmore hline
      exact ⟨h.fieldLine? (hchunks.2 text htext), h.isCloser⟩
    · obtain rfl := List.mem_singleton.mp hline
      exact ⟨hvalue.noTag, hvalue.noCloser⟩
  rw [List.cons_append, nestFrom_tag number (hhead.fieldLine? hchunks.1)
    (by rw [continuations_more hmore hchunks.2 hvalue.noComment, hwhole, label.ofComment_content]),
    opensScope_more hmore hvalue, List.append_cons]
  split
  · exact nestFrom_quiets (number + 1) rest hquiet
  · exact nestFrom_quiets (number + 1) rest hquiet

end Nest

/-! ## Reading layouts -/

/-- No name of a forest stands in the scope that it is read into. -/
def Apart (here fields : Fields) : Prop := ∀ name ∈ fields.names, name ∉ here.names

theorem Apart.rest {here fields : Fields} {name : String} {field : Field}
    (h : Apart here ((name, field) :: fields)) (fresh : name ∉ fields.names) :
    Apart (here ++ [(name, field)]) fields := by
  intro other hother
  have hne : other ≠ name := fun heq => fresh (heq ▸ hother)
  have hhere := h other (by simp [Entries.names] at hother ⊢; exact .inr hother)
  simpa [Entries.names_append, Entries.names, hne] using hhere

/-- Reading the lines of a forest adds it to the current scope. -/
theorem Layout.nestFrom {fields : Fields} {lines : List (List Char)} (h : Layout fields lines)
    {here : Fields} (stack : List OpenField) (number : Nat) (rest : List (List Char))
    (hapart : Apart here fields) :
    ∃ number', nestFrom number here stack (lines ++ rest) = nestFrom number' (here ++ fields) stack rest := by
  induction h generalizing here stack number rest with
  | nil => exact ⟨number, by simp⟩
  | leaf label hcomment hvalue closed hfiller fresh _ ih =>
    obtain ⟨n₁, h₁⟩ := nestFrom_comment here stack hcomment hvalue number _
    obtain ⟨n₂, h₂⟩ := nestFrom_codes (here.set (String.ofList label.name) label.field) stack n₁ _ hfiller
    rw [Entries.set_of_fresh (hapart _ (by simp [Entries.names]))] at h₁ h₂
    obtain ⟨n₃, h₃⟩ := ih stack n₂ rest (hapart.rest fresh)
    refine ⟨n₃, ?_⟩
    rw [List.append_assoc, List.cons_append, List.append_assoc, h₁]
    simp only [closed, Bool.false_and, Bool.false_eq_true, if_false]
    rw [h₂, h₃, List.append_assoc]
    rfl
  | @scope label _ _ _ _ _ _ _ children _ structured hcomment hvalue opens hfiller _ hcloser hfiller' fresh _
      ihbelow ih =>
    obtain ⟨n₁, h₁⟩ := nestFrom_comment here stack hcomment hvalue number _
    obtain ⟨n₂, h₂⟩ := nestFrom_codes []
      (⟨here, String.ofList label.name, label.field, number⟩ :: stack) n₁ _ hfiller
    have hname : String.ofList label.name ∉ here.names := hapart _ (by simp [Entries.names])
    have hbelow : Apart [] children := by simp [Apart, Entries.names]
    obtain ⟨n₃, h₃⟩ := ihbelow _ n₂ _ hbelow
    obtain ⟨n₄, h₄⟩ := nestFrom_codes
      (here.set (String.ofList label.name) (label.field.withChildren children)) stack (n₃ + 1) _ hfiller'
    rw [Entries.set_of_fresh hname] at h₄
    obtain ⟨n₅, h₅⟩ := ih stack n₄ rest (hapart.rest fresh)
    refine ⟨n₅, ?_⟩
    simp only [List.append_assoc, List.cons_append]
    rw [h₁]
    simp only [opens, structured, Bool.true_and, if_true]
    rw [h₂, h₃, nestFrom_closer n₃ hcloser]
    simp only [List.nil_append]
    rw [Entries.set_of_fresh hname, h₄, h₅, List.append_assoc]
    rfl

/-- Lines behind a forest: code, and brackets that close what stands around it. -/
def Trailing (line : List Char) : Prop := CodeLine line ∨ isCloser line = true

instance (line : List Char) : Decidable (Trailing line) :=
  inferInstanceAs (Decidable (CodeLine line ∨ isCloser line = true))

theorem nestFrom_trailing {here : Fields} {lines : List (List Char)} (number : Nat)
    (h : ∀ line ∈ lines, Trailing line) : nestFrom number here [] lines = .ok here := by
  induction lines generalizing number with
  | nil => rfl
  | cons line lines ih =>
    have hrest := ih (number + 1) fun l hl => h l (by simp [hl])
    obtain hcode | hcloser := h line (by simp)
    · rw [nestFrom_quiet number hcode.noTag hcode.noCloser, hrest]
    · rw [nestFrom_closer number hcloser]
      exact hrest

/-- Reading the lines of a forest, with code before them and code and closing brackets behind them,
gives the forest back. -/
theorem ofLines_layout {fields : Fields} {lines before after : List (List Char)} (h : Layout fields lines)
    (hbefore : ∀ line ∈ before, CodeLine line) (hafter : ∀ line ∈ after, Trailing line) :
    Fields.ofLines ((before ++ lines ++ after).map String.ofList) = .ok fields := by
  have hlines : (((before ++ lines ++ after).map String.ofList).map (·.toList)) = before ++ (lines ++ after) := by
    simp [Function.comp_def]
  obtain ⟨n₁, h₁⟩ := nestFrom_codes [] [] 1 (lines ++ after) hbefore
  have hapart : Apart [] fields := by simp [Apart, Entries.names]
  obtain ⟨n₂, h₂⟩ := h.nestFrom [] n₁ after hapart
  have hall : nestFrom 1 [] [] (before ++ (lines ++ after)) = .ok fields := by
    rw [h₁, h₂, List.nil_append, nestFrom_trailing n₂ hafter]
  unfold Fields.ofLines outline
  simp only [hlines]
  exact hall

/-! ## A list with one field below it -/

namespace Roles

def roles : Label where
  name := "roles".toList
  type := "list".toList
  required := false
  description := "The roles of the user.".toList
  name_token := by decide +kernel
  type_token := by decide +kernel
  bare := by decide +kernel
  flagged := by decide +kernel
  no_example := by decide +kernel
  no_choices := by decide +kernel

def role : Label where
  name := "name".toList
  type := "string".toList
  required := true
  description := []
  name_token := by decide +kernel
  type_token := by decide +kernel
  bare := by decide +kernel
  flagged := by decide +kernel
  no_example := by decide +kernel
  no_choices := by decide +kernel

def fields : Fields := [("roles", roles.field.withChildren [("name", role.field)])]

def lines : List (List Char) := [
  "  # @responseParam roles list The roles of\n".toList,
  "  # the user.\n".toList,
  "  \"roles\": [\n".toList,
  "    # @responseParam name string required\n".toList,
  "    \"name\": role.name,\n".toList,
  "  ],\n".toList]

theorem rolesComment : CommentLines roles.content (lines.take 2) := by
  have hhead : HeadLine "roles list The roles of".toList "  # @responseParam roles list The roles of\n".toList :=
    ⟨"  ".toList, [' '], [' '], ['\n'], by decide, by decide, by decide, by decide, by decide, by decide +kernel⟩
  have hmore : MoreLine "the user.".toList "  # the user.\n".toList :=
    ⟨"  ".toList, [' '], ['\n'], by decide, by decide, by decide, by decide +kernel, by decide +kernel⟩
  exact .mk hhead (.cons hmore .nil) (by decide +kernel) (by decide +kernel)

theorem roleComment : CommentLines role.content ((lines.drop 3).take 1) := by
  have hhead : HeadLine "name string required".toList "    # @responseParam name string required\n".toList :=
    ⟨"    ".toList, [' '], [' '], ['\n'], by decide, by decide, by decide, by decide, by decide, by decide +kernel⟩
  exact .mk hhead .nil (by decide +kernel) (by decide +kernel)

theorem layout : Layout fields lines := by
  have hnone : ∀ line ∈ ([] : List (List Char)), CodeLine line := by simp
  have hbelow : Layout [("name", role.field)] ((lines.drop 3).take 2) :=
    .leaf role roleComment (by decide +kernel) (by decide +kernel) hnone (by decide) .nil
  exact .scope roles (by decide +kernel) rolesComment (by decide +kernel) (by decide +kernel) hnone hbelow
    (by decide +kernel) hnone (by decide) .nil

theorem ofLines_roles :
    Layout fields lines ∧
      Fields.ofLines ((["def to_dict(self):\n".toList, " return \x7b\n".toList] ++ lines ++
        [" \x7d\n".toList]).map String.ofList) = .ok fields :=
  ⟨layout, ofLines_layout layout (by decide +kernel) (by decide +kernel)⟩

end Roles

end ApiManual
