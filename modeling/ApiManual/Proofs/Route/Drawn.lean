import ApiManual.Proofs.Route.Redrawn

/-!
# Tags that draw

A parameter tag without an example takes its value from the generator, unless its type is that of a list or an
object. All other tags leave the generator alone.

* `Tag.drawnType?`: the type that a tag draws for. `ofTag_drawn`: what reading a tag does to the generator.
* `readTags`: the tags read one after the other, none of them replaced by a later one of its name.
* `drawAll`: placeholders for types alone. `readTags_draws`: the values that tags draw are those of their types.
* `exec_readRoute_readings`: the parameters of a route are those that its tags are read as, and the generator stands
  behind their draws.
-/

namespace ApiManual

open Work

/-! ## One tag -/

/-- The type that a placeholder is drawn for: that of a parameter without an example, if it is no list or object. -/
def Tag.drawnType? (tag : Tag) : Option ValueType :=
  match TagParts.ofContent tag.content with
  | .error _ => none
  | .ok parts =>
    match takeExample parts.description (.normalize parts.type) with
    | .ok (_, none) => if (ValueType.normalize parts.type).isStructured then none else some (.normalize parts.type)
    | _ => none

/-- Lists and objects are put in without a draw. -/
theorem placeholder_structured {type : ValueType} (h : type.isStructured = true) (g : Generator) :
    (type.placeholder g).2 = g := by
  cases type with
  | array | object | json => rfl
  | string | integer | number | float | boolean | other => cases h

/-- A tag draws the placeholder of its type, or it leaves the generator alone. -/
theorem ofTag_drawn {tag : Tag} {g g' : Generator} {name : String} {p : Param}
    (h : Param.ofTag tag.content g = (.ok (name, p), g')) :
    (∃ type, tag.drawnType? = some type ∧ type.placeholder g = (p.value, g')) ∨ tag.drawnType? = none ∧ g' = g := by
  unfold Param.ofTag at h
  unfold Tag.drawnType?
  cases hparts : TagParts.ofContent tag.content with
  | error d => simp [hparts] at h
  | ok parts =>
    simp only [hparts] at h ⊢
    rcases htaken : takeExample parts.description (.normalize parts.type) with d | ⟨description, _ | value⟩ <;>
      simp only [htaken] at h ⊢
    · simp at h
    · rcases hplaced : (ValueType.normalize parts.type).placeholder g with ⟨value, g₁⟩
      simp only [hplaced] at h
      obtain ⟨hread, rfl⟩ := Prod.mk.inj h
      obtain ⟨-, rfl⟩ := Prod.mk.inj (Except.ok.inj hread)
      split
      · rename_i hstructured
        have hsame := placeholder_structured hstructured g
        rw [hplaced] at hsame
        exact .inr ⟨rfl, hsame⟩
      · exact .inl ⟨_, rfl, hplaced⟩
    · exact .inr ⟨trivial, (Prod.mk.inj h).2.symm⟩

/-! ## Tags in order -/

/-- A parameter as its tag is read. -/
structure Reading where
  tag : Tag
  name : String
  param : Param

namespace Reading

def entry (r : Reading) : String × Param := (r.name, r.param)

/-- The placeholder that was drawn for the parameter. -/
def drawn? (r : Reading) : Option Json := r.tag.drawnType?.map fun _ => r.param.value

end Reading

/-- Read tags one after the other, up to one that declares no parameter. -/
def readTags : List Tag → Generator → List Reading × Generator
  | [], g => ([], g)
  | tag :: tags, g =>
    match Param.ofTag tag.content g with
    | (.error _, g) => ([], g)
    | (.ok (name, param), g) => ({ tag, name, param } :: (readTags tags g).1, (readTags tags g).2)

/-- Draw placeholders for types one after the other. -/
def drawAll : List ValueType → Generator → List Json × Generator
  | [], g => ([], g)
  | type :: types, g =>
    ((type.placeholder g).1 :: (drawAll types (type.placeholder g).2).1, (drawAll types (type.placeholder g).2).2)

theorem drawAll_append (types types' : List ValueType) (g : Generator) :
    drawAll (types ++ types') g =
      ((drawAll types g).1 ++ (drawAll types' (drawAll types g).2).1, (drawAll types' (drawAll types g).2).2) := by
  induction types generalizing g with
  | nil => rfl
  | cons type types ih => simp only [List.cons_append, drawAll, ih]

section Tags

variable {tag : Tag} {tags tags' : List Tag}

theorem exists_ofTag (h : tag.DeclaresParam) (g : Generator) :
    ∃ name p g', Param.ofTag tag.content g = (.ok (name, p), g') := by
  obtain ⟨⟨name, p⟩, hread⟩ := (Param.ofTag_ok_iff tag g).mpr h
  exact ⟨name, p, _, Prod.ext hread rfl⟩

theorem readTags_cons {g g' : Generator} {name : String} {p : Param}
    (h : Param.ofTag tag.content g = (.ok (name, p), g')) (tags : List Tag) :
    readTags (tag :: tags) g = (⟨tag, name, p⟩ :: (readTags tags g').1, (readTags tags g').2) := by
  rw [readTags, h]

theorem mem_of_mem_readTags {g : Generator} {r : Reading} (h : r ∈ (readTags tags g).1) : r.tag ∈ tags := by
  induction tags generalizing g with
  | nil => cases h
  | cons tag tags ih =>
    rw [readTags] at h
    split at h
    · cases h
    · obtain rfl | h := List.mem_cons.mp h
      · exact List.mem_cons_self
      · exact List.mem_cons_of_mem _ (ih h)

theorem readTags_append (h : ∀ tag ∈ tags, tag.DeclaresParam) (tags' : List Tag) (g : Generator) :
    readTags (tags ++ tags') g =
      ((readTags tags g).1 ++ (readTags tags' (readTags tags g).2).1, (readTags tags' (readTags tags g).2).2) := by
  induction tags generalizing g with
  | nil => rfl
  | cons tag tags ih =>
    obtain ⟨htag, htags⟩ := List.forall_mem_cons.mp h
    obtain ⟨name, p, g', hread⟩ := exists_ofTag htag g
    rw [List.cons_append, readTags_cons hread, readTags_cons hread, ih htags]
    rfl

/-- What tags draw, and where they leave the generator, depends on nothing but the types that they draw for. -/
theorem readTags_draws (h : ∀ tag ∈ tags, tag.DeclaresParam) (g : Generator) :
    ((readTags tags g).1.filterMap Reading.drawn?, (readTags tags g).2) =
      drawAll (tags.filterMap Tag.drawnType?) g := by
  induction tags generalizing g with
  | nil => rfl
  | cons tag tags ih =>
    obtain ⟨htag, htags⟩ := List.forall_mem_cons.mp h
    obtain ⟨name, p, g', hread⟩ := exists_ofTag htag g
    rw [readTags_cons hread]
    obtain ⟨type, htype, hdrawn⟩ | ⟨hnone, rfl⟩ := ofTag_drawn hread
    · have hvalue : Reading.drawn? ⟨tag, name, p⟩ = some p.value := by
        rw [Reading.drawn?, htype]
        rfl
      rw [List.filterMap_cons_some hvalue, List.filterMap_cons_some htype, drawAll, hdrawn, ← ih htags]
    · have hvalue : Reading.drawn? ⟨tag, name, p⟩ = none := by
        rw [Reading.drawn?, hnone]
        rfl
      rw [List.filterMap_cons_none hvalue, List.filterMap_cons_none hnone]
      exact ih htags g'

/-- The parameters of one kind are those that its tags are read as. -/
theorem paramsOf_eq_readTags (h : ∀ tag ∈ tags, tag.DeclaresParam) (kind : String) (params : Entries Param)
    (g : Generator) :
    paramsOf kind params tags g =
      (.ok (params.merge ((readTags tags g).1.map Reading.entry)), (readTags tags g).2) := by
  induction tags generalizing params g with
  | nil => rfl
  | cons tag tags ih =>
    obtain ⟨htag, htags⟩ := List.forall_mem_cons.mp h
    obtain ⟨name, p, g', hread⟩ := exists_ofTag htag g
    rw [paramsOf, readTags_cons hread, hread]
    exact ih htags (params.set name p) g'

end Tags

/-! ## All tags of a docstring -/

/-- The parameter tags of a docstring in the order in which they are read. -/
def Docstring.paramTags (doc : Docstring) : List Tag :=
  doc.tagsNamed "pathParam" ++ (doc.tagsNamed "queryParam" ++ doc.tagsNamed "bodyParam")

/-- The entries that tags of one kind are read as. -/
def entriesOf (kind : String) (readings : List Reading) : Entries Param :=
  (readings.filter (·.tag.name == kind)).map Reading.entry

/-- The parameters are those that tags are read as; of two with one name the later replaces the earlier. -/
structure Params.MadeOf (params : Params) (readings : List Reading) : Prop where
  path : params.path = .ofPairs (entriesOf "pathParam" readings)
  query : params.query = .ofPairs (entriesOf "queryParam" readings)
  body : params.body = .ofPairs (entriesOf "bodyParam" readings)

section Docstrings

variable {doc : Docstring} {g g' : Generator}

theorem name_of_mem_tagsNamed {tag : Tag} {kind : String} (h : tag ∈ doc.tagsNamed kind) : tag.name = kind :=
  eq_of_beq (List.mem_filter.mp h).2

theorem entriesOf_append (kind : String) (readings readings' : List Reading) :
    entriesOf kind (readings ++ readings') = entriesOf kind readings ++ entriesOf kind readings' := by
  unfold entriesOf
  rw [List.filter_append, List.map_append]

theorem entriesOf_readTags (kind : String) (g : Generator) :
    entriesOf kind (readTags (doc.tagsNamed kind) g).1 = (readTags (doc.tagsNamed kind) g).1.map Reading.entry := by
  unfold entriesOf
  rw [List.filter_eq_self.mpr fun r hr => beq_iff_eq.mpr (name_of_mem_tagsNamed (mem_of_mem_readTags hr))]

theorem entriesOf_readTags_of_ne {kind other : String} (hne : other ≠ kind) (g : Generator) :
    entriesOf kind (readTags (doc.tagsNamed other) g).1 = [] := by
  unfold entriesOf
  rw [List.filter_eq_nil_iff.mpr, List.map_nil]
  intro r hr
  rw [name_of_mem_tagsNamed (mem_of_mem_readTags hr), beq_iff_eq]
  exact hne

theorem paramsOf_ok {kind : String} {params : Entries Param}
    (h : paramsOf kind [] (doc.tagsNamed kind) g = (.ok params, g')) :
    (∀ tag ∈ doc.tagsNamed kind, tag.DeclaresParam) ∧
      params = .ofPairs (entriesOf kind (readTags (doc.tagsNamed kind) g).1) ∧
      g' = (readTags (doc.tagsNamed kind) g).2 := by
  have hdeclared := (paramsOf_ok_iff kind [] (doc.tagsNamed kind) g).mp ⟨params, by rw [h]⟩
  rw [paramsOf_eq_readTags hdeclared] at h
  obtain ⟨hparams, rfl⟩ := Prod.mk.inj h
  rw [entriesOf_readTags]
  exact ⟨hdeclared, (Except.ok.inj hparams).symm, rfl⟩

/-- The parameters of a docstring are made of its tags, which are read kind by kind. -/
theorem Params.read_readings {params : Params} (h : Params.read doc g = (.ok params, g')) :
    (∀ tag ∈ doc.paramTags, tag.DeclaresParam) ∧ params.MadeOf (readTags doc.paramTags g).1 ∧
      g' = (readTags doc.paramTags g).2 := by
  unfold Params.read at h
  rcases hpath : paramsOf "pathParam" [] (doc.tagsNamed "pathParam") g with ⟨_ | path, g₁⟩ <;> simp only [hpath] at h
  · cases (Prod.mk.inj h).1
  rcases hquery : paramsOf "queryParam" [] (doc.tagsNamed "queryParam") g₁ with ⟨_ | query, g₂⟩ <;>
    simp only [hquery] at h
  · cases (Prod.mk.inj h).1
  rcases hbody : paramsOf "bodyParam" [] (doc.tagsNamed "bodyParam") g₂ with ⟨_ | body, g₃⟩ <;> simp only [hbody] at h
  · cases (Prod.mk.inj h).1
  obtain ⟨hchecked, rfl⟩ := Prod.mk.inj h
  obtain ⟨-, -, hchecked⟩ := of_bind_ok hchecked
  obtain ⟨-, -, hparams⟩ := of_bind_ok hchecked
  obtain rfl := Except.ok.inj hparams
  obtain ⟨hdeclaredPath, rfl, rfl⟩ := paramsOf_ok hpath
  obtain ⟨hdeclaredQuery, rfl, rfl⟩ := paramsOf_ok hquery
  obtain ⟨hdeclaredBody, rfl, rfl⟩ := paramsOf_ok hbody
  have hdeclared : ∀ tag ∈ doc.paramTags, tag.DeclaresParam := by
    intro tag htag
    obtain htag | htag := List.mem_append.mp htag
    · exact hdeclaredPath tag htag
    · exact (List.mem_append.mp htag).elim (hdeclaredQuery tag) (hdeclaredBody tag)
  rw [Docstring.paramTags, readTags_append hdeclaredPath, readTags_append hdeclaredQuery]
  refine ⟨hdeclared, ⟨?_, ?_, ?_⟩, rfl⟩ <;>
    simp [entriesOf_append, entriesOf_readTags_of_ne]

theorem Findings.read_params {lookup : ResourceLookup} {found : Findings}
    (h : Findings.read lookup doc g = (.ok found, g')) : Params.read doc g = (.ok found.params, g') := by
  unfold Findings.read at h
  rcases hparams : Params.read doc g with ⟨_ | params, g₁⟩ <;> simp only [hparams] at h
  · cases (Prod.mk.inj h).1
  · split at h
    · cases (Prod.mk.inj h).1
    · split at h
      · cases (Prod.mk.inj h).1
      · obtain ⟨hfound, rfl⟩ := Prod.mk.inj h
        obtain rfl := Except.ok.inj hfound
        rfl

/-- The generator behind a route that is described stands where reading its parameters has left it. -/
theorem exec_readRoute_params {lookup : ResourceLookup} {record : RouteRecord} {source : HandlerSource}
    {s s' : Session} {route : Route} (h : exec (readRoute lookup true record source) s = (.ok route, s')) :
    Params.read (Docstring.read? source.doc) s.generator = (.ok route.params, s'.generator) := by
  rw [exec_readRoute] at h
  split at h
  · cases (Prod.mk.inj h).1
  · rename_i found g hfound
    rw [Findings.read_params hfound]
    split at h
    · obtain ⟨hroute, rfl⟩ := Prod.mk.inj h
      obtain rfl := Except.ok.inj hroute
      rfl
    · split at h
      · cases (Prod.mk.inj h).1
      · rename_i call _
        obtain ⟨hroute, rfl⟩ := Prod.mk.inj h
        obtain rfl := Except.ok.inj hroute
        -- a call takes an answer, but draws nothing
        exact congrArg (Prod.mk _) (probed_generator (s.drawn g) call).symm

/-- The parameters of a route that is described are made of the tags of its docstring, and the generator stands behind
the draws of these. -/
theorem exec_readRoute_readings {lookup : ResourceLookup} {record : RouteRecord} {source : HandlerSource}
    {s s' : Session} {route : Route} (h : exec (readRoute lookup true record source) s = (.ok route, s')) :
    let tags := (Docstring.read? source.doc).paramTags
    (∀ tag ∈ tags, tag.DeclaresParam) ∧ route.params.MadeOf (readTags tags s.generator).1 ∧
      s'.generator = (readTags tags s.generator).2 :=
  Params.read_readings (exec_readRoute_params h)

end Docstrings

end ApiManual
