import ApiManual.Proofs.Param.Skeleton
import ApiManual.Proofs.Route.Findings

/-!
# When the parameters of a handler can be read

Whether the tags of a docstring declare parameters, and whether their names can be expanded together, is
a matter of the docstring alone: the placeholders that a generator gives make no difference.

* `Docstring.ParamsDeclared`: every parameter tag has its grammar.
* `Docstring.NamesExpand`, `Docstring.NamesFail`: what becomes of the names of one kind, with values that are read.
* `Params.read_ok_iff`, `Params.read_fault_iff`: when parameters can be read, and when reading them is
  broken off.
-/

namespace ApiManual

/-! ## Expansion -/

theorem expandOne_error {fields : Entries Json} {entry : String × Param} {f : Failure}
    (h : expandOne fields entry = .error f) :
    (∃ name, f = .defect (.mixedNotation name)) ∨ ∃ key, f = .fault (.indexNumeral key) := by
  unfold expandOne at h
  split at h
  · simp at h
  · rename_i e _
    obtain rfl : e.failure entry.1 = f := by simpa using h
    cases e with
    | keyInList => exact .inl ⟨_, rfl⟩
    | notDecimal key => exact .inr ⟨_, rfl⟩

/-- What breaks the reading of parameters off: digits that are no index, or a value that is overlong. -/
def Fault.OfParams (fault : Fault) : Prop := fault = .integerTooLong ∨ ∃ key, fault = .indexNumeral key

theorem expandRead_fails {params : Entries Param} {f : Failure} (h : expandRead params = .error f) :
    (∃ name, f = .defect (.mixedNotation name)) ∨ ∃ fault, f = .fault fault ∧ fault.OfParams := by
  obtain rfl | ⟨fields, entry, -, hone⟩ := expandRead_error h
  · exact .inr ⟨_, rfl, .inl rfl⟩
  · obtain hname | ⟨key, rfl⟩ := expandOne_error hone
    · exact .inl hname
    · exact .inr ⟨_, rfl, .inr ⟨key, rfl⟩⟩

/-! ## Tags of one kind -/

/-- The content of the tag declares a parameter. -/
def Tag.DeclaresParam (tag : Tag) : Prop :=
  ∃ parts, TagParts.ofContent tag.content = .ok parts ∧
    ∃ taken, takeExample parts.description (.normalize parts.type) = .ok taken

theorem Param.ofTag_ok_iff (tag : Tag) (g : Generator) :
    (∃ entry, (Param.ofTag tag.content g).1 = .ok entry) ↔ tag.DeclaresParam := by
  unfold Param.ofTag Tag.DeclaresParam
  cases TagParts.ofContent tag.content with
  | error d => simp
  | ok parts =>
    rcases h : takeExample parts.description (.normalize parts.type) with d | ⟨description, _ | value⟩ <;>
      simp [h]

/-- Tags that are read alike with two generators, one by one, are read alike together. -/
theorem paramsOf_related {related : String × Param → String × Param → Prop}
    (hname : ∀ e f, related e f → e.1 = f.1) (kind : String) {params others : Entries Param}
    (h : List.Forall₂ related params others) {tags : List Tag}
    (htags : ∀ tag ∈ tags, ∀ g g',
      SameOutcome related (Param.ofTag tag.content g).1 (Param.ofTag tag.content g').1) (g g' : Generator) :
    SameOutcome (List.Forall₂ related) (paramsOf kind params tags g).1 (paramsOf kind others tags g').1 := by
  induction tags generalizing params others g g' with
  | nil => exact .ok h
  | cons tag tags ih =>
    obtain ⟨htag, htags⟩ := List.forall_mem_cons.mp htags
    unfold paramsOf
    have hread := htag g g'
    generalize Param.ofTag tag.content g = read at hread ⊢
    generalize Param.ofTag tag.content g' = read' at hread ⊢
    obtain ⟨x, g₁⟩ := read
    obtain ⟨y, g₂⟩ := read'
    cases hread with
    | error d => exact .error _
    | @ok e f hef =>
      obtain ⟨name, p⟩ := e
      obtain ⟨name', q⟩ := f
      obtain rfl : name = name' := hname _ _ hef
      exact ih (forall₂_set hname h hef) htags g₁ g₂

theorem paramsOf_alike (kind : String) {params others : Entries Param}
    (h : List.Forall₂ AlikeEntries params others) (tags : List Tag) (g g' : Generator) :
    SameOutcome (List.Forall₂ AlikeEntries) (paramsOf kind params tags g).1
      (paramsOf kind others tags g').1 :=
  paramsOf_related (fun _ _ => And.left) kind h (fun tag _ => Param.ofTag_alike tag.content) g g'

theorem paramsOf_ok_iff (kind : String) (params : Entries Param) (tags : List Tag) (g : Generator) :
    (∃ read, (paramsOf kind params tags g).1 = .ok read) ↔ ∀ tag ∈ tags, tag.DeclaresParam := by
  induction tags generalizing params g with
  | nil => simp [paramsOf]
  | cons tag tags ih =>
    have htag := Param.ofTag_ok_iff tag g
    unfold paramsOf
    generalize Param.ofTag tag.content g = read at htag ⊢
    obtain ⟨d | ⟨name, p⟩, g₁⟩ := read
    · simp [← htag]
    · simp [← htag, ih]

/-! ## All parameters of a docstring -/

namespace Docstring

variable (doc : Docstring)

/-- The parameters of one kind, with placeholders from a generator. -/
def params (kind : String) (g : Generator) : Except Defect (Entries Param) :=
  (paramsOf kind [] (doc.tagsNamed kind) g).1

/-- Every tag of the kind declares a parameter. -/
def KindDeclared (kind : String) : Prop := ∀ tag ∈ doc.tagsNamed kind, tag.DeclaresParam

/-- The names of one kind expand together, and none of their values is overlong. -/
def NamesExpand (kind : String) : Prop :=
  ∀ g params, doc.params kind g = .ok params → ∃ values, expandRead params = .ok values

/-- Expanding the names of one kind fails, or reading their values. -/
def NamesFail (kind : String) (f : Failure) : Prop :=
  ∀ g params, doc.params kind g = .ok params → expandRead params = .error f

/-- The kinds of parameters, in the order in which they are read. -/
def paramKinds : List String := ["pathParam", "queryParam", "bodyParam"]

/-- Every parameter tag declares a parameter. -/
def ParamsDeclared : Prop := ∀ tag ∈ doc.tags, tag.name ∈ paramKinds → tag.DeclaresParam

/-- All parameters can be read, and their names expand together. -/
structure ParamsRead : Prop where
  declared : doc.ParamsDeclared
  query : doc.NamesExpand "queryParam"
  body : doc.NamesExpand "bodyParam"

variable {doc}

theorem paramsDeclared_iff :
    doc.ParamsDeclared ↔ doc.KindDeclared "pathParam" ∧ doc.KindDeclared "queryParam" ∧
      doc.KindDeclared "bodyParam" := by
  simp only [ParamsDeclared, KindDeclared, tagsNamed, paramKinds, List.mem_filter, beq_iff_eq,
    List.mem_cons, List.not_mem_nil, or_false]
  constructor
  · exact fun h => ⟨fun t ht => h t ht.1 (.inl ht.2), fun t ht => h t ht.1 (.inr (.inl ht.2)),
      fun t ht => h t ht.1 (.inr (.inr ht.2))⟩
  · rintro ⟨hpath, hquery, hbody⟩ t ht (hn | hn | hn)
    · exact hpath t ⟨ht, hn⟩
    · exact hquery t ⟨ht, hn⟩
    · exact hbody t ⟨ht, hn⟩

theorem params_alike (doc : Docstring) (kind : String) (g g' : Generator) :
    SameOutcome (List.Forall₂ AlikeEntries) (doc.params kind g) (doc.params kind g') :=
  paramsOf_alike kind .nil _ g g'

theorem params_ok_iff {kind : String} {g : Generator} :
    (∃ params, doc.params kind g = .ok params) ↔ doc.KindDeclared kind :=
  paramsOf_ok_iff kind [] _ g

/-- With other placeholders the names expand, or fail, as they do with these. -/
theorem expand_params_alike {kind : String} {g g' : Generator} {params params' : Entries Param}
    (h : doc.params kind g = .ok params) (h' : doc.params kind g' = .ok params') :
    SameOutcome (fun a b => fieldSkeletons a = fieldSkeletons b) (expandRead params) (expandRead params') := by
  have halike := params_alike doc kind g g'
  rw [h, h'] at halike
  cases halike with
  | ok halike => exact expandRead_alike halike

theorem namesExpand_iff {kind : String} {g : Generator} {params : Entries Param}
    (h : doc.params kind g = .ok params) :
    doc.NamesExpand kind ↔ ∃ values, expandRead params = .ok values :=
  ⟨fun hx => hx g params h, fun hx _ _ h' => (expand_params_alike h h').ok_iff.mp hx⟩

theorem namesFail_iff {kind : String} {g : Generator} {params : Entries Param} {f : Failure}
    (h : doc.params kind g = .ok params) : doc.NamesFail kind f ↔ expandRead params = .error f :=
  ⟨fun hx => hx g params h, fun hx _ _ h' => ((expand_params_alike h h').error_iff f).mp hx⟩

end Docstring

/-! ## Reading the parameters -/

theorem checkNesting_eq (kind : String) (params : Entries Param) :
    checkNesting kind params = match expandRead params with
      | .ok _ => .ok ()
      | .error f => .error (f.within (.inTag kind)) := by
  unfold checkNesting
  rfl

/-- Reading parameters fails at a tag, or it reads all of them and then looks at their names. -/
theorem Params.read_cases (doc : Docstring) (g : Generator) :
    (¬ doc.ParamsDeclared ∧ ∃ d, (Params.read doc g).1 = .error (.defect d)) ∨
    (doc.ParamsDeclared ∧ ∃ g₁ g₂ params, doc.params "pathParam" g = .ok params.path ∧
      doc.params "queryParam" g₁ = .ok params.query ∧ doc.params "bodyParam" g₂ = .ok params.body ∧
      (Params.read doc g).1 = match expandRead params.query, expandRead params.body with
        | .error f, _ => .error (f.within (.inTag "queryParam"))
        | .ok _, .error f => .error (f.within (.inTag "bodyParam"))
        | .ok _, .ok _ => .ok params) := by
  rw [Docstring.paramsDeclared_iff]
  unfold Params.read
  cases hpath : paramsOf "pathParam" [] (doc.tagsNamed "pathParam") g with
  | mk read₁ g₁ =>
  have hpath' : (∃ params, doc.params "pathParam" g = .ok params) ↔ _ := Docstring.params_ok_iff
  simp only [Docstring.params, hpath] at hpath' ⊢
  cases read₁ with
  | error d => exact .inl ⟨by simp [← hpath'], d, rfl⟩
  | ok path =>
  cases hquery : paramsOf "queryParam" [] (doc.tagsNamed "queryParam") g₁ with
  | mk read₂ g₂ =>
  have hquery' : (∃ params, doc.params "queryParam" g₁ = .ok params) ↔ _ := Docstring.params_ok_iff
  simp only [Docstring.params, hquery] at hquery' ⊢
  cases read₂ with
  | error d => exact .inl ⟨by simp [← hquery'], d, rfl⟩
  | ok query =>
  cases hbody : paramsOf "bodyParam" [] (doc.tagsNamed "bodyParam") g₂ with
  | mk read₃ g₃ =>
  have hbody' : (∃ params, doc.params "bodyParam" g₂ = .ok params) ↔ _ := Docstring.params_ok_iff
  simp only [Docstring.params, hbody] at hbody' ⊢
  cases read₃ with
  | error d => exact .inl ⟨by simp [← hbody'], d, rfl⟩
  | ok body =>
  refine .inr ⟨⟨hpath'.mp ⟨_, rfl⟩, hquery'.mp ⟨_, rfl⟩, hbody'.mp ⟨_, rfl⟩⟩, g₁, g₂,
    { path, query, body }, rfl, by simp [hquery], by simp [hbody], ?_⟩
  simp only [checkNesting_eq]
  cases expandRead query with
  | error f => rfl
  | ok values => cases expandRead body <;> rfl

/-- Parameters that have been read are those of their kinds, and their names expand together. -/
theorem Params.of_read_ok {doc : Docstring} {g : Generator} {params : Params}
    (h : (Params.read doc g).1 = .ok params) :
    (∃ g₁ g₂, doc.params "pathParam" g = .ok params.path ∧ doc.params "queryParam" g₁ = .ok params.query ∧
      doc.params "bodyParam" g₂ = .ok params.body) ∧
    (∃ values, expandRead params.query = .ok values) ∧ ∃ values, expandRead params.body = .ok values := by
  obtain ⟨-, d, hd⟩ | ⟨-, g₁, g₂, params', hpath, hquery, hbody, heq⟩ := Params.read_cases doc g
  · simp [hd] at h
  · rw [heq] at h
    cases hq : expandRead params'.query with
    | error f => simp [hq] at h
    | ok values =>
      cases hb : expandRead params'.body with
      | error f => simp [hq, hb] at h
      | ok values' =>
        obtain rfl : params' = params := by simpa [hq, hb] using h
        exact ⟨⟨g₁, g₂, hpath, hquery, hbody⟩, ⟨values, hq⟩, values', hb⟩

/-- Parameters can be read iff the docstring is sound, whatever the generator. -/
theorem Params.read_ok_iff (doc : Docstring) (g : Generator) :
    (∃ params, (Params.read doc g).1 = .ok params) ↔ doc.ParamsRead := by
  obtain ⟨hnot, d, hd⟩ | ⟨hdeclared, g₁, g₂, params, -, hquery, hbody, heq⟩ := Params.read_cases doc g
  · rw [hd]
    exact ⟨fun ⟨_, h⟩ => by simp at h, fun h => absurd h.declared hnot⟩
  · rw [heq]
    constructor
    · rintro ⟨_, h⟩
      refine ⟨hdeclared, (Docstring.namesExpand_iff hquery).mpr ?_,
        (Docstring.namesExpand_iff hbody).mpr ?_⟩
      all_goals cases hq : expandRead params.query <;> cases hb : expandRead params.body <;> simp_all
    · intro h
      obtain ⟨values, hq⟩ := (Docstring.namesExpand_iff hquery).mp h.query
      obtain ⟨values', hb⟩ := (Docstring.namesExpand_iff hbody).mp h.body
      exact ⟨params, by rw [hq, hb]⟩

/-- Reading the parameters meets this fault before anything else goes wrong. -/
def Docstring.FaultMet (doc : Docstring) (fault : Fault) : Prop :=
  doc.ParamsDeclared ∧ (doc.NamesFail "queryParam" (.fault fault) ∨
    doc.NamesExpand "queryParam" ∧ doc.NamesFail "bodyParam" (.fault fault))

theorem within_inTag_fault {kind : String} {f : Failure} {fault : Fault} :
    f.within (.inTag kind) = .fault fault ↔ f = .fault fault := by
  cases f <;> simp [Failure.within]

theorem Params.read_fault_iff (doc : Docstring) (g : Generator) (fault : Fault) :
    (Params.read doc g).1 = .error (.fault fault) ↔ doc.FaultMet fault := by
  obtain ⟨hnot, d, hd⟩ | ⟨hdeclared, g₁, g₂, params, -, hquery, hbody, heq⟩ := Params.read_cases doc g
  · rw [hd]
    exact ⟨fun h => by simp [Failure.defect] at h, fun h => absurd h.1 hnot⟩
  · rw [heq]
    unfold Docstring.FaultMet
    rw [Docstring.namesFail_iff hquery, Docstring.namesExpand_iff hquery, Docstring.namesFail_iff hbody]
    cases hq : expandRead params.query with
    | error f => simp [hdeclared, within_inTag_fault]
    | ok values => cases hb : expandRead params.body <;> simp [hdeclared, within_inTag_fault]

/-- Reading parameters fails by a defect, at digits that are no index or at a value that is overlong. -/
theorem Params.read_error {doc : Docstring} {g : Generator} {f : Failure}
    (h : (Params.read doc g).1 = .error f) :
    (∃ d, f = .defect d) ∨ ∃ fault, f = .fault fault ∧ fault.OfParams := by
  have hwithin : ∀ kind params f', expandRead params = .error f' →
      (∃ d, f'.within (.inTag kind) = .defect d) ∨
        ∃ fault, f'.within (.inTag kind) = .fault fault ∧ fault.OfParams := by
    intro kind params f' hf'
    obtain ⟨name, rfl⟩ | ⟨fault, rfl, hfault⟩ := expandRead_fails hf'
    · exact .inl ⟨_, rfl⟩
    · exact .inr ⟨fault, rfl, hfault⟩
  obtain ⟨-, d, hd⟩ | ⟨-, g₁, g₂, params, -, -, -, heq⟩ := Params.read_cases doc g
  · obtain rfl : Failure.defect d = f := by simpa [hd] using h
    exact .inl ⟨_, rfl⟩
  · rw [heq] at h
    cases hq : expandRead params.query with
    | error f' =>
      obtain rfl : f'.within (.inTag "queryParam") = f := by simpa [hq] using h
      exact hwithin _ _ _ hq
    | ok values =>
      cases hb : expandRead params.body with
      | error f' =>
        obtain rfl : f'.within (.inTag "bodyParam") = f := by simpa [hq, hb] using h
        exact hwithin _ _ _ hb
      | ok values' => simp [hq, hb] at h

end ApiManual
