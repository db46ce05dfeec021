import ApiManual.Proofs.Json.Readable
import ApiManual.Proofs.OpenApi.Field
import ApiManual.Proofs.Resource.Declared
import ApiManual.Route.Describe

/-!
# Numbers in resources

A resource is documented by a schema and an example payload. They show the examples in the comments of its source,
and a one where a number has none.

* `Field.Shows`: the numbers in the example of a field have a property. `ofLines_shows`: all fields of a tree, if those
  that the comments declare.
* `schema_each`, `payload_each`, `component_each`: what is made of such a tree has the property.
* `ofSource_finite`: all of it is finite, also the response that the payload stands in for, if the examples are.
* `ofSource_short`: the integers in it are short.
-/

namespace ApiManual

/-! ## Trees of fields -/

section Shows

variable {P : Json → Prop}

/-- The numbers in the example of the field have the property, also as it is shown. -/
def Field.Shows (P : Json → Prop) (field : Field) : Prop :=
  ∀ v, field.exampleValue = some v → v.Each P ∧ (field.type.shown v).Each P

theorem Field.Shows.takes {field : Field} (h : field.Shows P) : field.Takes (Field.Shows P) := by
  intro children _ v hv
  rw [field.withChildren_exampleValue] at hv
  rw [field.withChildren_type]
  exact h v hv

/-- What the comments declare shows only such numbers, and so does every field of the tree. -/
theorem ofLines_shows {lines : List String} {fields : Fields} (h : Fields.ofLines lines = .ok fields)
    (hcomments : ∀ events, outline lines = .ok events → ∀ content name field line opens,
      Field.ofComment content = .ok (name, field) → Event.field name field line opens ∈ events → field.Shows P) :
    ∀ entry ∈ fields, entry.2.Each (Field.Shows P) := by
  obtain ⟨events, hevents, hnest⟩ := of_bind_ok h
  refine (nest_throughout Fields.throughout_nil (by simp) (fun event hmem => ?_) hnest).each
  cases event with
  | close line => trivial
  | field name field line opens =>
    obtain ⟨content, hcomment⟩ := eventsFrom_field hevents hmem
    have hshows := hcomments events hevents content name field line opens hcomment hmem
    exact ⟨hshows, (ofComment_declared hcomment).2, fun _ => hshows.takes⟩

/-! ## Payloads and schemas -/

theorem textList_each (texts : List String) : (textList texts).Each P := by
  simp [textList]

theorem members_each {v : Json} (h : v.Each P) : ∀ field ∈ v.members, field.2.Each P := by
  cases v with
  | obj fields => exact Json.each_obj.mp h
  | _ => simp [Json.members]

theorem objectSchema_each (required : List String) {properties : List (String × Json)}
    (h : ∀ field ∈ properties, field.2.Each P) : (objectSchema required properties).Each P := by
  refine Json.each_obj.mpr fun field hfield => ?_
  simp only [List.mem_append, List.mem_singleton] at hfield
  rcases hfield with (rfl | hfield) | rfl
  · exact Json.each_str _
  · split at hfield
    · simp at hfield
    · obtain rfl := List.mem_singleton.mp hfield
      exact textList_each required
  · exact Json.each_obj.mpr h

theorem fieldNotes_each (description : String) (choices : Option (List String)) {exampleValue : Option Json}
    (h : ∀ v, exampleValue = some v → v.Each P) :
    ∀ field ∈ fieldNotes description choices exampleValue, field.2.Each P := by
  intro field hfield
  simp only [fieldNotes, List.mem_append] at hfield
  rcases hfield with (hfield | hfield) | hfield
  · split at hfield
    · simp at hfield
    · obtain rfl := List.mem_singleton.mp hfield
      exact Json.each_str description
  · split at hfield
    · simp at hfield
    · simp at hfield
    · obtain rfl := List.mem_singleton.mp hfield
      exact textList_each _
  · cases exampleValue with
    | none => simp at hfield
    | some v =>
      obtain rfl := List.mem_singleton.mp hfield
      exact h v rfl

theorem fieldsSchema_each {fields : Fields} (h : ∀ entry ∈ fields, entry.2.schema.Each P) :
    (Fields.schema fields).Each P := by
  refine objectSchema_each _ ?_
  rw [fieldSchemas_eq_map]
  exact List.forall_mem_map.mpr h

theorem examplePayload_each {fields : Fields} (h : ∀ entry ∈ fields, entry.2.payload.Each P) :
    (Json.obj (examplePayload fields)).Each P := by
  rw [Json.each_obj, examplePayload_eq_map]
  exact List.forall_mem_map.mpr h

theorem schema_each {field : Field} (h : field.Each (Field.Shows P)) : field.schema.Each P := by
  induction h with
  | @mk field here below ih =>
    have hlevel := fieldsSchema_each ih
    rw [field.schema_eq]
    refine Json.each_obj.mpr (List.forall_mem_append.mpr ⟨members_each ?_, ?_⟩)
    · unfold Field.shape
      split_ifs
      · have hitems : (Field.itemSchema field.children).Each P := by
          unfold Field.itemSchema
          split
          · simp
          · exact hlevel
        simpa using hitems
      · exact hlevel
      · simp
    · exact fieldNotes_each _ _ fun v hv => (here v hv).1

/-- What stands for a number without an example has the property. -/
def Ones (P : Json → Prop) : Prop := P (.int 1) ∧ P (.float (.ofInt 1))

theorem sample_each (hones : Ones P) (type : ValueType) : type.sample.Each P := by
  cases type with
  | integer => exact Json.each_int.mpr hones.1
  | number | float => exact Json.each_float.mpr hones.2
  | _ => simp [ValueType.sample]

theorem payload_each (hones : Ones P) {field : Field} (h : field.Each (Field.Shows P)) : field.payload.Each P := by
  induction h with
  | @mk field here below ih =>
    cases hexample : field.exampleValue with
    | some v =>
      rw [Field.payload_of_some hexample]
      exact (here v hexample).2
    | none =>
      rw [Field.payload_of_none hexample]
      split_ifs
      · refine Json.each_arr.mpr fun item hitem => ?_
        unfold Field.exampleItems at hitem
        split at hitem
        · simp at hitem
        · obtain rfl := List.mem_singleton.mp hitem
          exact examplePayload_each ih
      · exact examplePayload_each ih
      · exact sample_each hones field.type

theorem component_each {schema : ResourceSchema}
    (hproperties : ∀ entry ∈ schema.properties, entry.2.Each (Field.Shows P))
    (hpayload : (Json.obj schema.payload).Each P) : schema.component.Each P := by
  have hschema := fieldsSchema_each fun entry hentry => schema_each (hproperties entry hentry)
  unfold ResourceSchema.component
  refine Json.each_obj.mpr (List.forall_mem_append.mpr ⟨List.forall_mem_append.mpr ⟨members_each hschema, ?_⟩, ?_⟩)
  · split <;> simp
  · exact List.forall_mem_singleton.mpr hpayload

end Shows

/-! ## Resources -/

theorem ofSource_ok {resource declared : String} {source : ResourceSource} {schema : ResourceSchema}
    (h : ResourceSchema.ofSource resource declared source = .ok schema) :
    Fields.ofLines source.lines = .ok schema.properties ∧ schema.payload = examplePayload schema.properties := by
  unfold ResourceSchema.ofSource at h
  cases hfields : Fields.ofLines source.lines with
  | error d => exact absurd h (by simp [hfields, bind, Except.bind, throw, throwThe, MonadExceptOf.throw])
  | ok fields =>
    simp only [hfields, bind, Except.bind, pure, Except.pure, throw, throwThe, MonadExceptOf.throw] at h
    split_ifs at h
    obtain rfl := Except.ok.inj h
    exact ⟨rfl, rfl⟩

section Resources

variable {resource declared : String} {source : ResourceSource} {schema : ResourceSchema}
  (h : ResourceSchema.ofSource resource declared source = .ok schema)

include h

/-- The integers in a resource's documentation are short. -/
theorem ofSource_short : schema.component.Short ∧ (Json.obj schema.payload).Short := by
  have hones : Ones fun n => n.isLong = false := ⟨Json.isLong_of_lt (by decide), rfl⟩
  obtain ⟨hlines, hpayload⟩ := ofSource_ok h
  have hshows : ∀ entry ∈ schema.properties, entry.2.Each (Field.Shows fun n => n.isLong = false) := by
    refine ofLines_shows hlines fun events _ content name field line opens hcomment _ v hv => ?_
    obtain ⟨text, hcast⟩ := (ofComment_ok hcomment).2.2 v hv
    exact ⟨cast_each allRead_short hcast, shown_each allRead_short (cast_each allRead_short hcast)⟩
  have hshort : (Json.obj schema.payload).Short := by
    rw [hpayload]
    exact examplePayload_each fun entry hentry => payload_each hones (hshows entry hentry)
  exact ⟨component_each hshows hshort, hshort⟩

end Resources

/-- The schemas of a docstring are read of the sources that its tags name. -/
theorem of_ofTags_ok {lookup : ResourceLookup} {tags : List Tag} {schemas : List ResourceSchema}
    (h : ResourceSchema.ofTags lookup tags = .ok schemas) :
    ∀ schema ∈ schemas, ∃ tag ∈ tags, tag.name = "responseResource" ∧ ∃ status name source,
      resourceName tag.content = .ok (status, name) ∧ lookup name = .ok source ∧
        ResourceSchema.ofSource name status source = .ok schema := by
  intro schema hschema
  obtain ⟨tag, htag, hread⟩ := exists_of_forall₂ (mapM_eq_ok_iff.mp h) hschema
  obtain ⟨hmem, hname⟩ := List.mem_filter.mp htag
  unfold ResourceSchema.ofTag at hread
  cases hresource : resourceName tag.content with
  | error f => exact absurd hread (by simp [hresource])
  | ok found =>
    obtain ⟨status, name⟩ := found
    rw [hresource] at hread
    obtain ⟨source, hsource, hschema⟩ := of_bind_ok hread
    exact ⟨tag, hmem, beq_iff_eq.mp hname, status, name, source, hresource, hsource, hschema⟩

/-! ## Finite examples -/

theorem Json.Proper.finite {v : Json} (h : v.Proper) : v.Finite := fun x hx => (h x hx).2

theorem Json.proper_of_inRange {v : Json} (hrange : v.Each Json.InRange) (hfinite : v.Finite) : v.Proper :=
  fun x hx => ⟨hrange x hx, hfinite x hx⟩

/-- The example of the event's field is finite as it is shown, if the event is a field with an example. -/
def Event.FiniteExample : Event → Prop
  | .field _ f _ _ => ∀ v ∈ f.exampleValue, (f.type.shown v).Finite
  | .close _ => True

instance : DecidablePred Event.FiniteExample
  | .field _ f _ _ => inferInstanceAs (Decidable (∀ v ∈ f.exampleValue, (f.type.shown v).Finite))
  | .close _ => .isTrue trivial

/-- The examples in the comments of the source are finite. -/
def ResourceSource.FiniteExamples (source : ResourceSource) : Prop :=
  ∀ events ∈ (outline source.lines).toOption, ∀ event ∈ events, event.FiniteExample

instance (source : ResourceSource) : Decidable source.FiniteExamples :=
  inferInstanceAs (Decidable (∀ events ∈ (outline source.lines).toOption, ∀ event ∈ events, event.FiniteExample))

/-- The fields of a source whose examples are finite show proper values. -/
theorem ofLines_proper {source : ResourceSource} (hsource : source.FiniteExamples) {fields : Fields}
    (h : Fields.ofLines source.lines = .ok fields) :
    ∀ entry ∈ fields, entry.2.Each (Field.Shows fun n => n.InRange ∧ n.isFinite = true) := by
  refine ofLines_shows h fun events hevents content name field line opens hcomment hmem v hv => ?_
  obtain ⟨text, hcast⟩ := (ofComment_ok hcomment).2.2 v hv
  have hshown : (field.type.shown v).Finite := hsource events (mem_toOption.mpr hevents) _ hmem v hv
  have hrange := cast_each allRead_inRange hcast
  exact ⟨Json.proper_of_inRange hrange (cast_finite hcast hshown),
    Json.proper_of_inRange (shown_each allRead_inRange hrange) hshown⟩

/-- A resource whose source has finite examples is documented by finite values, and so is the response that its
payload stands in for. -/
theorem ofSource_finite {resource declared : String} {source : ResourceSource} {schema : ResourceSchema}
    (hsource : source.FiniteExamples) (h : ResourceSchema.ofSource resource declared source = .ok schema) :
    schema.component.Finite ∧ ∀ v, Json.read schema.response.content = .ok v → v.Finite := by
  have hone : (Binary64.ofInt 1).InRange := Binary64.ofRatio_inRange _ _ Nat.one_pos
  have hones : Ones fun n => n.InRange ∧ n.isFinite = true := ⟨⟨trivial, rfl⟩, hone, by decide +kernel⟩
  obtain ⟨hlines, hpayload⟩ := ofSource_ok h
  have hshows := ofLines_proper hsource hlines
  have hproper : (Json.obj schema.payload).Proper := by
    rw [hpayload]
    exact examplePayload_each fun entry hentry => payload_each hones (hshows entry hentry)
  refine ⟨Json.Proper.finite (component_each hshows hproper), fun v hv => ?_⟩
  obtain ⟨v', hread, hkeeps⟩ := Json.read_compactAscii (ofSource_short h).2
  obtain rfl := Except.ok.inj (hread.symm.trans hv)
  exact hkeeps hproper

end ApiManual
