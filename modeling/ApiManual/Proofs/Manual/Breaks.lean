import ApiManual.Proofs.Docstring.Lines
import ApiManual.Proofs.Manual.Runs
import ApiManual.Proofs.Route.Bodies
import ApiManual.Proofs.Route.Due
import ApiManual.Proofs.Source.Lookup

/-!
# What breaks a batch off

A defect is taken down with its record, and a documenter goes on. `Breaks` lists what is not a defect:

* a module name that starts with a point, of a handler or of a resource;
* digits that are no index where a list is indexed;
* a resource method without a source;
* an integer of too many digits, in the value of a parameter, the payload of a resource or a declared response;
* a value that JSON has no word for, in the body of a call that is due.

`Documenter.process_ends`: a documenter goes over all records unless one of them breaks the batch off, and then it
stops at the first of these. What breaks a record off is told layer by layer as it is read: `ResourceBreaks`,
`DocstringBreaks`, `Breaks`.
-/

namespace ApiManual

open Text Source Work

/-- The failure is one that its author has to mend. -/
def Failure.Authored (f : Failure) : Prop := ∃ e, f = .authoring e

theorem not_authored_fault (fault : Fault) : ¬ (Failure.fault fault).Authored := fun ⟨_, h⟩ => by simp at h

theorem not_authored_defect {f : Failure} (hf : ¬ f.Authored) (d : Defect) : Failure.defect d ≠ f :=
  fun h => hf ⟨_, h.symm⟩

/-! ## Resources of a docstring -/

/-- Reading a docstring comes to a resource of this name, declared with this status: the parameters and the resources
before it have been read. -/
def ReachesResource (modules : Modules) (doc : Docstring) (status dotted : String) : Prop :=
  doc.ParamsRead ∧ ∃ before tag after, doc.tagsNamed "responseResource" = before ++ tag :: after ∧
    (∀ t ∈ before, ∃ schema, ResourceSchema.ofTag modules.resource t = .ok schema) ∧
    resourceName tag.content = .ok (status, dotted)

/-- The payload of a resource holds an integer of too many digits, and nothing else is wrong with it. -/
def ResourceSource.LongPayload (source : ResourceSource) (declared : String) : Prop :=
  (∃ fields, Fields.ofLines source.lines = .ok fields ∧ anyOverlong fields = true) ∧
    isStatus (source.status declared) = true

/-- Reading a resource fails by this failure, which is no defect. -/
inductive ResourceBreaks (modules : Modules) (status dotted : String) : Failure → Prop where
  | relative {name : String} (relative : RelativeResource dotted name) :
      ResourceBreaks modules status dotted (.fault (.relativeModule name))
  | gap {gap : SourceGap} (unread : modules.resource dotted = .error (.sourceUnavailable dotted gap)) :
      ResourceBreaks modules status dotted (.sourceUnavailable dotted gap)
  | payload {source : ResourceSource} (found : modules.resource dotted = .ok source)
      (long : source.LongPayload status) : ResourceBreaks modules status dotted (.fault .integerTooLong)

section Resources

variable {modules : Modules} {f : Failure}

theorem resourceName_oneLine {content : String} (h : OneLine content.toList) :
    ∃ parts, resourceName content = .ok parts := by
  unfold resourceName
  have hname : '\n' ∉ trimLeft ((trim content.toList).dropWhile isDecimal) := by
    intro hmem
    have hmem := (List.dropWhile_sublist _).subset ((List.dropWhile_sublist _).subset hmem)
    simpa [isLineBreak] using h _ (mem_of_mem_trim hmem)
  simp [hname]

/-- A resource with a source fails by a defect or by its payload. -/
theorem ofSource_error {resource declared : String} {source : ResourceSource}
    (h : ResourceSchema.ofSource resource declared source = .error f) :
    (∃ d, f = .defect d) ∨ source.LongPayload declared ∧ f = .fault .integerTooLong := by
  unfold ResourceSchema.ofSource at h
  cases hfields : Fields.ofLines source.lines with
  | error d =>
    simp only [hfields] at h
    exact .inl ⟨_, (Except.error.inj h).symm⟩
  | ok fields =>
    simp only [hfields, bind, Except.bind, pure, Except.pure, throw, throwThe, MonadExceptOf.throw] at h
    cases hstatus : isStatus (source.status declared) with
    | false =>
      simp only [hstatus, Bool.not_false, if_true] at h
      exact .inl ⟨_, (Except.error.inj h).symm⟩
    | true =>
      cases hlong : anyOverlong fields with
      | false => simp [hstatus, hlong] at h
      | true =>
        simp only [hstatus, hlong, Bool.not_true, Bool.false_eq_true, if_false, if_true] at h
        exact .inr ⟨⟨⟨fields, hfields, hlong⟩, hstatus⟩, (Except.error.inj h).symm⟩

theorem ofSource_long {declared : String} {source : ResourceSource} (h : source.LongPayload declared)
    (resource : String) : ResourceSchema.ofSource resource declared source = .error (.fault .integerTooLong) := by
  obtain ⟨⟨fields, hfields, hlong⟩, hstatus⟩ := h
  unfold ResourceSchema.ofSource
  simp only [hfields, bind, Except.bind, pure, Except.pure, throw, throwThe, MonadExceptOf.throw, hstatus, hlong,
    Bool.not_true, Bool.false_eq_true, if_false, if_true]

theorem ofSource_error_iff {resource declared : String} {source : ResourceSource} (hf : ¬ f.Authored) :
    ResourceSchema.ofSource resource declared source = .error f ↔
      source.LongPayload declared ∧ f = .fault .integerTooLong := by
  refine ⟨fun h => (ofSource_error h).resolve_left fun ⟨d, hd⟩ => not_authored_defect hf d hd.symm, ?_⟩
  rintro ⟨hlong, rfl⟩
  exact ofSource_long hlong resource

/-- The look-up of a resource that is not settled by a defect breaks the reading off. -/
theorem resource_error_iff {dotted : String} (hf : ¬ f.Authored) :
    modules.resource dotted = .error f ↔ (∃ name, RelativeResource dotted name ∧ f = .fault (.relativeModule name)) ∨
      ∃ gap, modules.resource dotted = .error (.sourceUnavailable dotted gap) ∧ f = .sourceUnavailable dotted gap := by
  constructor
  · intro h
    obtain ⟨⟨_, h'⟩ | ⟨d, h'⟩ | ⟨gap, h'⟩, -⟩ | ⟨name, hname, h'⟩ := resource_cases modules dotted
    · simp [h'] at h
    · exact absurd ⟨_, Except.error.inj (h.symm.trans h')⟩ hf
    · exact .inr ⟨gap, h', Except.error.inj (h.symm.trans h')⟩
    · exact .inl ⟨name, hname, Except.error.inj (h.symm.trans h')⟩
  · rintro (⟨name, hname, rfl⟩ | ⟨gap, h, rfl⟩)
    · exact resource_relative_iff.mpr hname
    · exact h

/-- Reading the tag of a resource fails by a defect, at the look-up or by the payload. -/
theorem ofTag_error_iff {tag : Tag} {status dotted : String} (hf : ¬ f.Authored)
    (hname : resourceName tag.content = .ok (status, dotted)) :
    ResourceSchema.ofTag modules.resource tag = .error f ↔ ResourceBreaks modules status dotted f := by
  unfold ResourceSchema.ofTag
  rw [hname]
  simp only [bind, Except.bind]
  constructor
  · intro h
    cases hfound : modules.resource dotted with
    | error f' =>
      obtain rfl : f' = f := by simpa [hfound] using h
      obtain ⟨name, hrelative, rfl⟩ | ⟨gap, hgap, rfl⟩ := (resource_error_iff hf).mp hfound
      · exact .relative hrelative
      · exact .gap hgap
    | ok source =>
      simp only [hfound] at h
      obtain ⟨hlong, rfl⟩ := (ofSource_error_iff hf).mp h
      exact .payload hfound hlong
  · intro h
    cases h with
    | relative hrelative => rw [resource_relative_iff.mpr hrelative]
    | gap hgap => rw [hgap]
    | payload hfound hlong =>
      simp only [hfound]
      exact (ofSource_error_iff hf).mpr ⟨hlong, rfl⟩

/-- Reading the resources of a docstring fails by a defect, or one of them breaks it off. -/
theorem ofTags_error_iff {doc : Docstring} (hparams : doc.ParamsRead) (hf : ¬ f.Authored)
    (hlines : ∀ tag ∈ doc.tags, OneLine tag.content.toList) :
    ResourceSchema.ofTags modules.resource doc.tags = .error f ↔
      ∃ status dotted, ReachesResource modules doc status dotted ∧ ResourceBreaks modules status dotted f := by
  have hofTags : ResourceSchema.ofTags modules.resource doc.tags =
      (doc.tagsNamed "responseResource").mapM (ResourceSchema.ofTag modules.resource) := rfl
  rw [hofTags, mapM_eq_error_iff]
  constructor
  · rintro ⟨before, tag, after, heq, hbefore, htag⟩
    have hmem : tag ∈ doc.tagsNamed "responseResource" := by simp [heq]
    obtain ⟨⟨status, dotted⟩, hname⟩ := resourceName_oneLine (hlines tag (List.mem_filter.mp hmem).1)
    exact ⟨status, dotted, ⟨hparams, before, tag, after, heq, hbefore, hname⟩, (ofTag_error_iff hf hname).mp htag⟩
  · rintro ⟨status, dotted, ⟨-, before, tag, after, heq, hbefore, hname⟩, hbreaks⟩
    exact ⟨before, tag, after, heq, hbefore, (ofTag_error_iff hf hname).mpr hbreaks⟩

end Resources

/-! ## Responses of a docstring -/

/-- Reading a docstring comes to a response tag with this content: the parameters, the resources and the responses
before it have been read. -/
def ReachesResponse (modules : Modules) (doc : Docstring) (content : String) : Prop :=
  doc.ParamsRead ∧ (∃ schemas, ResourceSchema.ofTags modules.resource doc.tags = .ok schemas) ∧
    ∃ before tag after, doc.tagsNamed "response" = before ++ tag :: after ∧
      (∀ t ∈ before, ∃ e, ResponseExample.ofContent t.content = .ok e) ∧ tag.content = content

/-- The body that a response tag declares comes to an integer of too many digits. -/
def LongResponse (content : String) : Prop :=
  Json.isOverlong (String.ofList (takeStatus (trim content.toList)).2) = true

section Responses

variable {f : Failure}

/-- A response tag fails by a defect or by its length. -/
theorem ofContent_error {content : String} (h : ResponseExample.ofContent content = .error f) :
    (∃ d, f = .defect d) ∨ LongResponse content ∧ f = .fault .integerTooLong := by
  unfold ResponseExample.ofContent at h
  unfold LongResponse Json.isOverlong Json.read
  rw [String.toList_ofList]
  cases hread : Json.readChars (takeStatus (trim content.toList)).2 with
  | ok v => simp [hread] at h
  | error e =>
    simp only [hread] at h
    obtain rfl := Except.error.inj h
    cases he : e.isOverlong with
    | false => exact .inl ⟨_, rfl⟩
    | true => exact .inr ⟨he, rfl⟩

theorem ofContent_long {content : String} (h : LongResponse content) :
    ResponseExample.ofContent content = .error (.fault .integerTooLong) := by
  unfold LongResponse Json.isOverlong Json.read at h
  rw [String.toList_ofList] at h
  unfold ResponseExample.ofContent
  cases hread : Json.readChars (takeStatus (trim content.toList)).2 with
  | ok v => simp [hread] at h
  | error e =>
    simp only [hread] at h
    simp [hread, h]

theorem ofContent_error_iff (hf : ¬ f.Authored) {content : String} :
    ResponseExample.ofContent content = .error f ↔ LongResponse content ∧ f = .fault .integerTooLong := by
  refine ⟨fun h => (ofContent_error h).resolve_left fun ⟨d, hd⟩ => not_authored_defect hf d hd.symm, ?_⟩
  rintro ⟨hlong, rfl⟩
  exact ofContent_long hlong

/-- Reading the responses of a docstring fails by a defect, or one of them breaks it off. -/
theorem declaredResponses_error_iff (hf : ¬ f.Authored) {modules : Modules} {doc : Docstring}
    {schemas : List ResourceSchema} (hparams : doc.ParamsRead)
    (hschemas : ResourceSchema.ofTags modules.resource doc.tags = .ok schemas) :
    declaredResponses doc.tags = .error f ↔
      (∃ content, ReachesResponse modules doc content ∧ LongResponse content) ∧ f = .fault .integerTooLong := by
  have hdeclared : declaredResponses doc.tags =
      (doc.tagsNamed "response").mapM fun tag => ResponseExample.ofContent tag.content := rfl
  rw [hdeclared, mapM_eq_error_iff]
  simp only [ofContent_error_iff hf]
  constructor
  · rintro ⟨before, tag, after, heq, hbefore, hlong, rfl⟩
    exact ⟨⟨_, ⟨hparams, ⟨_, hschemas⟩, before, tag, after, heq, hbefore, rfl⟩, hlong⟩, rfl⟩
  · rintro ⟨⟨_, ⟨-, -, before, tag, after, heq, hbefore, rfl⟩, hlong⟩, rfl⟩
    exact ⟨before, tag, after, heq, hbefore, hlong, rfl⟩

end Responses

/-! ## Docstrings -/

/-- Reading a docstring fails by this failure, which is no defect. -/
inductive DocstringBreaks (modules : Modules) (doc : Docstring) : Failure → Prop where
  | indexNumeral {key : String} (met : doc.FaultMet (.indexNumeral key)) :
      DocstringBreaks modules doc (.fault (.indexNumeral key))
  | longValue (met : doc.FaultMet .integerTooLong) : DocstringBreaks modules doc (.fault .integerTooLong)
  | resource {status dotted : String} {f : Failure} (reached : ReachesResource modules doc status dotted)
      (breaks : ResourceBreaks modules status dotted f) : DocstringBreaks modules doc f
  | response {content : String} (reached : ReachesResponse modules doc content) (long : LongResponse content) :
      DocstringBreaks modules doc (.fault .integerTooLong)

section Docstrings

variable {modules : Modules} {doc : Docstring} {f : Failure}

/-- With parameters that cannot be read, the fault among them is the only one. -/
theorem docstringBreaks_unread (hnot : ¬ doc.ParamsRead) :
    DocstringBreaks modules doc f ↔ ∃ fault, fault.OfParams ∧ doc.FaultMet fault ∧ f = .fault fault := by
  constructor
  · intro h
    cases h with
    | indexNumeral hmet => exact ⟨_, .inr ⟨_, rfl⟩, hmet, rfl⟩
    | longValue hmet => exact ⟨_, .inl rfl, hmet, rfl⟩
    | resource hreached => exact absurd hreached.1 hnot
    | response hreached => exact absurd hreached.1 hnot
  · rintro ⟨fault, rfl | ⟨key, rfl⟩, hmet, rfl⟩
    · exact .longValue hmet
    · exact .indexNumeral hmet

/-- With parameters that can be read, a resource or a response breaks the reading off. -/
theorem docstringBreaks_read (hparams : doc.ParamsRead) :
    DocstringBreaks modules doc f ↔
      (∃ status dotted, ReachesResource modules doc status dotted ∧ ResourceBreaks modules status dotted f) ∨
      (∃ content, ReachesResponse modules doc content ∧ LongResponse content) ∧ f = .fault .integerTooLong := by
  have hmet : ∀ fault, ¬ doc.FaultMet fault := by
    intro fault hmet
    obtain ⟨params, hread⟩ := (Params.read_ok_iff doc (.ofSeed 0)).mpr hparams
    simp [(Params.read_fault_iff doc (.ofSeed 0) fault).mpr hmet] at hread
  constructor
  · intro h
    cases h with
    | indexNumeral h => exact absurd h (hmet _)
    | longValue h => exact absurd h (hmet _)
    | resource hreached hbreaks => exact .inl ⟨_, _, hreached, hbreaks⟩
    | response hreached hlong => exact .inr ⟨⟨_, hreached, hlong⟩, rfl⟩
  · rintro (⟨_, _, hreached, hbreaks⟩ | ⟨⟨_, hreached, hlong⟩, rfl⟩)
    · exact .resource hreached hbreaks
    · exact .response hreached hlong

/-- Reading a docstring fails by a defect, or by what breaks it off, whatever the generator. -/
theorem Findings.read_error_iff {g : Generator} (hf : ¬ f.Authored)
    (hlines : ∀ tag ∈ doc.tags, OneLine tag.content.toList) :
    (Findings.read modules.resource doc g).1 = .error f ↔ DocstringBreaks modules doc f := by
  unfold Findings.read
  cases hread : Params.read doc g with
  | mk result g₁ =>
  have hok := Params.read_ok_iff doc g
  have hfault := Params.read_fault_iff doc g
  rw [hread] at hok
  simp only [hread] at hfault
  cases result with
  | error f' =>
    rw [docstringBreaks_unread (by simpa using hok)]
    constructor
    · intro h
      obtain rfl : f' = f := Except.error.inj h
      obtain ⟨d, rfl⟩ | ⟨fault, rfl, hparams⟩ := Params.read_error (congrArg Prod.fst hread)
      · exact absurd ⟨_, rfl⟩ hf
      · exact ⟨fault, hparams, (hfault fault).mp rfl, rfl⟩
    · rintro ⟨fault, -, hmet, rfl⟩
      exact congrArg Except.error (Except.error.inj ((hfault fault).mpr hmet))
  | ok params =>
    have hparams : doc.ParamsRead := by simpa using hok
    rw [docstringBreaks_read hparams, ← ofTags_error_iff hparams hf hlines]
    cases hresources : ResourceSchema.ofTags modules.resource doc.tags with
    | error f' =>
      have hnot : ∀ content, ¬ ReachesResponse modules doc content :=
        fun _ hreached => by simpa [hresources] using hreached.2.1
      simp [hnot]
    | ok schemas =>
      rw [← declaredResponses_error_iff hf hparams hresources]
      cases declaredResponses doc.tags <;> simp

end Docstrings

/-! ## One record -/

/-- The record breaks a pass off by this failure. -/
inductive Breaks (modules : Modules) (record : RouteRecord) : Failure → Prop where
  | handler {identity name : String} (named : record.handler = .named identity)
      (relative : RelativeHandler identity name) : Breaks modules record (.fault (.relativeModule name))
  | docstring {source : HandlerSource} {f : Failure} (documented : Documented modules record source)
      (breaks : DocstringBreaks modules (Docstring.read? source.doc) f) : Breaks modules record f
  | body {source : HandlerSource} {method : String} (due : DueCall modules record source method)
      (wordless : (Docstring.read? source.doc).WordlessBody record method) :
      Breaks modules record (.fault .unsendable)

section Record

variable {modules : Modules} {record : RouteRecord} {source : HandlerSource} {f : Failure}

theorem Failure.tie_of_not_authored (hf : ¬ f.Authored) (handler : String) : f.tie handler = f := by
  cases f with
  | authoring e => exact absurd ⟨e, rfl⟩ hf
  | _ => rfl

theorem Failure.of_tie {handler : String} {f' : Failure} (h : f.tie handler = f') (hf : ¬ f'.Authored) :
    f = f' := by
  cases f with
  | authoring e => exact absurd ⟨_, h.symm⟩ hf
  | _ => exact h

theorem takenDown_of_not_authored (hf : ¬ f.Authored) (s : Session) :
    record.takenDown s f = (.error f, s) := by
  cases f with
  | authoring e => exact absurd ⟨e, rfl⟩ hf
  | _ => rfl

theorem takenDown_error {s : Session} {f' : Failure} (h : (record.takenDown s f).1 = .error f') :
    f = f' ∧ ¬ f.Authored := by
  cases f with
  | authoring e => simp [RouteRecord.takenDown] at h
  | _ =>
    refine ⟨Except.error.inj h, ?_⟩
    rintro ⟨_, h⟩
    simp at h

theorem documentable_error_iff :
    documentable modules record = .error f ↔
      ∃ identity, record.handler = .named identity ∧ modules.handler identity = .error f := by
  unfold documentable
  cases record.handler with
  | inline | missing => simp
  | named identity =>
    simp only [bind, Except.bind, pure, Except.pure]
    cases h : modules.handler identity <;> simp [h]

/-- Describing a documented route fails at what its handler says, or at the body of its call. -/
theorem exec_readRoute_error_iff (hdoc : Documented modules record source) (s : Session) :
    (exec (readRoute modules.resource true record source) s).1 = .error f ↔
      (Findings.read modules.resource (Docstring.read? source.doc) s.generator).1 = .error f ∨
        ∃ method, DueCall modules record source method ∧
          (Docstring.read? source.doc).WordlessBody record method ∧ f = .fault .unsendable := by
  have hdue := Findings.due_iff (g := s.generator) hdoc
  simp only [hdue]
  rw [exec_readRoute]
  cases hread : Findings.read modules.resource (Docstring.read? source.doc) s.generator with
  | mk result g =>
  cases result with
  | error f' => simp
  | ok found =>
    obtain ⟨⟨_, _, -, -, hparams⟩, ⟨query, hquery⟩, body, hbody⟩ :=
      Params.of_read_ok (Findings.read_ok_iff.mp (congrArg Prod.fst hread)).1
    cases hmethod : found.callMethod? record with
    | none => simp [hmethod]
    | some method =>
      have hcall : callFor record found.params method = .error f ↔
          (Docstring.read? source.doc).WordlessBody record method ∧ f = .fault .unsendable := by
        rw [callFor_error_iff hquery hbody, wordlessBody_iff hparams hbody]
      simp only [hmethod, reduceCtorEq, Except.ok.injEq, exists_eq_left', Option.some.injEq, false_or, ← hcall]
      cases callFor record found.params method <;> simp

/-- A record that is documented stops a pass at what describing it fails with, but for a defect. -/
theorem documented_error_iff (hdoc : Documented modules record source) (s : Session) :
    (exec (processRecord modules record) s).1 = .error f ↔
      ¬ f.Authored ∧ (exec (readRoute modules.resource true record source) s).1 = .error f := by
  rw [exec_processRecord, documentable_eq_some_iff.mpr hdoc]
  dsimp only
  rcases exec (readRoute modules.resource true record source) s with ⟨f' | route, s'⟩
  · constructor
    · intro h
      obtain ⟨htie, hf⟩ := takenDown_error h
      rw [htie] at hf
      exact ⟨hf, congrArg Except.error (Failure.of_tie htie hf)⟩
    · rintro ⟨hf, h⟩
      obtain rfl : f' = f := Except.error.inj h
      simp only
      rw [Failure.tie_of_not_authored hf, takenDown_of_not_authored hf]
  · simp

/-- What stops a pass at a record breaks it off. -/
theorem breaks_of_error {s : Session} (h : (exec (processRecord modules record) s).1 = .error f) :
    Breaks modules record f := by
  cases hdoc : documentable modules record with
  | error f' =>
    rw [exec_processRecord, hdoc] at h
    obtain ⟨rfl, hf⟩ := takenDown_error h
    obtain ⟨identity, hnamed, hhandler⟩ := documentable_error_iff.mp hdoc
    obtain ⟨d, rfl⟩ | ⟨name, rfl⟩ := handler_error hhandler
    · exact absurd ⟨_, rfl⟩ hf
    · exact .handler hnamed (handler_relative_iff.mp hhandler)
  | ok found => cases found with
    | none => simp [exec_processRecord, hdoc] at h
    | some source =>
      have hdoc := documentable_eq_some_iff.mp hdoc
      obtain ⟨hf, hread⟩ := (documented_error_iff hdoc s).mp h
      obtain hread | ⟨method, hdue, hwordless, rfl⟩ := (exec_readRoute_error_iff hdoc s).mp hread
      · exact .docstring hdoc ((Findings.read_error_iff hf (Docstring.read?_tags_oneLine source.doc)).mp hread)
      · exact .body hdue hwordless

theorem DocstringBreaks.not_authored {doc : Docstring} (h : DocstringBreaks modules doc f) : ¬ f.Authored := by
  rintro ⟨e, rfl⟩
  cases h with
  | resource _ hbreaks => cases hbreaks

/-- A record stops a pass iff it breaks it off, in every session. -/
theorem exec_processRecord_error_iff (s : Session) :
    (exec (processRecord modules record) s).1 = .error f ↔ Breaks modules record f := by
  refine ⟨breaks_of_error, fun h => ?_⟩
  cases h with
  | handler hnamed hrelative =>
    rw [exec_processRecord, documentable_error_iff.mpr ⟨_, hnamed, handler_relative_iff.mpr hrelative⟩]
    rfl
  | docstring hdoc hbreaks =>
    have hf := hbreaks.not_authored
    have hread := (Findings.read_error_iff (g := s.generator) hf (Docstring.read?_tags_oneLine _)).mpr hbreaks
    exact (documented_error_iff hdoc s).mpr ⟨hf, (exec_readRoute_error_iff hdoc s).mpr (.inl hread)⟩
  | body hdue hwordless =>
    exact (documented_error_iff hdue.documented s).mpr ⟨not_authored_fault _,
      (exec_readRoute_error_iff hdue.documented s).mpr (.inr ⟨_, hdue, hwordless, rfl⟩)⟩

end Record

/-! ## Passes -/

/-- None of the records breaks a pass off. -/
def Unbroken (modules : Modules) (records : List RouteRecord) : Prop :=
  ∀ record ∈ records, ∀ f, ¬ Breaks modules record f

theorem Runs.ends {modules : Modules} {records : List RouteRecord} {s s' : Session} {pass : Pass}
    (h : Runs modules records s pass s') :
    (pass.stop = none ∧ Unbroken modules records ∧
      List.Forall₂ Outcome.EndsFor records pass.outcomes) ∨
    ∃ before record after f, records = before ++ record :: after ∧ Unbroken modules before ∧
      Breaks modules record f ∧ pass.stop = some f ∧ List.Forall₂ Outcome.EndsFor before pass.outcomes := by
  induction h with
  | done s => exact .inl ⟨rfl, by simp [Unbroken], .nil⟩
  | @stop record s s' f records h =>
    exact .inr ⟨[], record, records, f, rfl, by simp [Unbroken], breaks_of_error (congrArg Prod.fst h),
      rfl, .nil⟩
  | @next record records s s' s'' outcome pass h rest ih =>
    have hends := exec_processRecord_ends h
    have hsound : ∀ f, ¬ Breaks modules record f := by
      intro f hbreaks
      have herror := (exec_processRecord_error_iff s).mpr hbreaks
      simp [h] at herror
    obtain ⟨hstop, hun, hall⟩ | ⟨before, record', after, f, rfl, hun, hbreaks, hstop, hall⟩ := ih
    · exact .inl ⟨hstop, List.forall_mem_cons.mpr ⟨hsound, hun⟩, .cons hends hall⟩
    · exact .inr ⟨record :: before, record', after, f, rfl, List.forall_mem_cons.mpr ⟨hsound, hun⟩,
        hbreaks, hstop, .cons hends hall⟩

namespace Documenter

/-- A documenter goes over all records, each ending in an outcome of its own, iff none of them breaks the batch off;
else it stops at the first that does. -/
theorem process_ends (modules : Modules) (records : List RouteRecord) (d : Documenter) :
    ∃ (pass : Pass) (s : Session), (process modules records).run.run d =
        (pass.result, { session := s, failures := pass.failures, skipped := pass.skipped }) ∧
      ((pass.stop = none ∧ Unbroken modules records ∧ List.Forall₂ Outcome.EndsFor records pass.outcomes) ∨
      ∃ before record after f, records = before ++ record :: after ∧ Unbroken modules before ∧
        Breaks modules record f ∧ pass.stop = some f ∧ List.Forall₂ Outcome.EndsFor before pass.outcomes) := by
  obtain ⟨pass, s, hruns, hrun⟩ := runs_process modules records d
  exact ⟨pass, s, hrun, hruns.ends⟩

/-- Not only a resource without a source breaks a batch off: the handler `.rel:f` does. -/
theorem relative_handler_stops :
    ¬ ∀ (modules : Modules) (records : List RouteRecord) (d : Documenter),
      (∃ routes, ((process modules records).run.run d).1 = .ok routes) ∨
      ∃ resource gap, ((process modules records).run.run d).1 = .error (.sourceUnavailable resource gap) := by
  intro h
  let records : List RouteRecord := [{ handler := .named ".rel:f", methods := ["GET"], uri := "/x" }]
  let d : Documenter := { session := { generator := .ofSeed 0 } }
  -- nothing is reported of a fault
  have hstop : ((process [] records).run.run d).1.mapError Failure.message? = .error none := by rfl
  obtain ⟨_, hok⟩ | ⟨_, _, hgap⟩ := h [] records d
  · simp [hok, Except.mapError] at hstop
  · simp [hgap, Except.mapError, Failure.message?] at hstop

end Documenter

end ApiManual
