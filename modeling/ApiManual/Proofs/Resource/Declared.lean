import ApiManual.Proofs.Entries
import ApiManual.Proofs.Param.Typed
import ApiManual.Proofs.Resource.Descent

/-!
# Fields as comments declare them

What is known of the tree of fields that was read of a source.

* `Field.Each`: a property of a field and of all fields below it.
* `nest_throughout`: nesting keeps a property that a field has with and without fields below it.
* `Field.Declared`: the field has a type with a name of its own, its example has been cast to that type, and
  the fields below it have different names.
* `ofLines_declared`: every field of a tree that was read is declared.
* `ofLines_scoped`: only lists and objects in it have fields below them.
-/

namespace ApiManual

/-- What holds of the field and of all fields below it. -/
inductive Field.Each (P : Field → Prop) : Field → Prop where
  | mk {field : Field} (here : P field) (below : ∀ entry ∈ field.children, entry.2.Each P) : field.Each P

theorem Field.Each.leaf {P : Field → Prop} {field : Field} (here : P field) (hleaf : field.children = []) :
    field.Each P := .mk here (by simp [hleaf])

theorem Field.Each.self {P : Field → Prop} {field : Field} (h : field.Each P) : P field := by
  obtain ⟨here, -⟩ := h
  exact here

theorem Field.Each.child {P : Field → Prop} {field : Field} (h : field.Each P) {entry : String × Field}
    (hentry : entry ∈ field.children) : entry.2.Each P := by
  obtain ⟨-, below⟩ := h
  exact below entry hentry

/-- A field with the type, the example and the names below it that a comment and its scope can give. -/
structure Field.Declared (field : Field) : Prop where
  named : field.type ∈ ValueType.named
  cast : ∀ v, field.exampleValue = some v → ∃ text, field.type.cast text = .ok v
  distinct : field.children.names.Nodup

/-- Fields with different names, all of them declared. -/
structure Fields.Declared (fields : Fields) : Prop where
  distinct : fields.names.Nodup
  each : ∀ entry ∈ fields, entry.2.Each Field.Declared

theorem Fields.declared_nil : Fields.Declared [] := ⟨.nil, by simp⟩

/-! ## Nesting -/

/-- Fields with different names that have a property, down to the last. -/
structure Fields.Throughout (P : Field → Prop) (fields : Fields) : Prop where
  distinct : fields.names.Nodup
  each : ∀ entry ∈ fields, entry.2.Each P

/-- The field has a property whatever fields with different names are put below it. -/
def Field.Takes (P : Field → Prop) (field : Field) : Prop :=
  ∀ children : Fields, children.names.Nodup → P (field.withChildren children)

/-- The field of the event, if the event is a field, has a property without fields below it, and if it can open a
scope also with them. -/
def Event.Keeps (P : Field → Prop) : Event → Prop
  | .field _ f _ _ => P f ∧ f.children = [] ∧ (f.type.isStructured = true → f.Takes P)
  | .close _ => True

section Throughout

variable {P : Field → Prop} {here fields : Fields} {stack : List OpenField} {events : List Event}

theorem Fields.throughout_nil : Fields.Throughout P [] := ⟨.nil, by simp⟩

theorem Fields.Throughout.set (h : fields.Throughout P) (name : String) {field : Field} (hfield : field.Each P) :
    Fields.Throughout P (Entries.set fields name field) :=
  ⟨Entries.nodup_names_set h.distinct name field, Entries.forall_set name h.each hfield⟩

theorem Field.Takes.withChildren {field : Field} (h : field.Takes P) {children : Fields}
    (hchildren : children.Throughout P) : (field.withChildren children).Each P := by
  refine .mk (h children hchildren.distinct) ?_
  rw [Field.children_withChildren]
  exact hchildren.each

/-- What the fields of the events have, with and without fields below them, all fields of the tree have. -/
theorem nest_throughout (hhere : here.Throughout P)
    (hstack : ∀ o ∈ stack, o.before.Throughout P ∧ o.field.Takes P) (hevents : ∀ event ∈ events, event.Keeps P)
    (h : nest here stack events = .ok fields) : fields.Throughout P := by
  fun_induction nest here stack events with
  | case1 here =>
    obtain rfl := Except.ok.inj h
    exact hhere
  | case2 => exact absurd h (by simp)
  | case3 here line events ih => exact ih hhere hstack (List.forall_mem_cons.mp hevents).2 h
  | case4 here line events o stack ih =>
    obtain ⟨⟨hbefore, hfield⟩, hstack⟩ := List.forall_mem_cons.mp hstack
    exact ih (hbefore.set o.name (hfield.withChildren hhere)) hstack (List.forall_mem_cons.mp hevents).2 h
  | case5 here stack name field line opens events hopens ih =>
    obtain ⟨⟨-, -, htakes⟩, hevents⟩ := List.forall_mem_cons.mp hevents
    have hfield := htakes (Bool.and_eq_true_iff.mp hopens).2
    exact ih Fields.throughout_nil (List.forall_mem_cons.mpr ⟨⟨hhere, hfield⟩, hstack⟩) hevents h
  | case6 here stack name field line opens events hopens ih =>
    obtain ⟨⟨hfield, hleaf, -⟩, hevents⟩ := List.forall_mem_cons.mp hevents
    exact ih (hhere.set name (.leaf hfield hleaf)) hstack hevents h

end Throughout

theorem Field.withChildren_type (field : Field) (children : Fields) :
    (field.withChildren children).type = field.type := by
  unfold Field.withChildren
  split <;> rfl

theorem Field.withChildren_exampleValue (field : Field) (children : Fields) :
    (field.withChildren children).exampleValue = field.exampleValue := by
  unfold Field.withChildren
  split <;> rfl

/-- A declared field stays one with fields below it. -/
theorem Field.Declared.takes {field : Field} (h : field.Declared) : field.Takes Field.Declared := by
  intro children hdistinct
  refine ⟨?_, ?_, ?_⟩
  · rw [field.withChildren_type]
    exact h.named
  · rw [field.withChildren_type, field.withChildren_exampleValue]
    exact h.cast
  · rw [Field.children_withChildren]
    exact hdistinct

/-- The fields before an open field are declared, and so is the field itself. -/
def OpenField.Declared (o : OpenField) : Prop := o.before.Declared ∧ o.field.Declared

/-- The field of the event is declared and has no fields below it, if the event is a field. -/
def Event.Declared : Event → Prop
  | .field _ f _ _ => f.Declared ∧ f.children = []
  | .close _ => True

theorem nest_declared {here fields : Fields} {stack : List OpenField} {events : List Event}
    (hhere : here.Declared) (hstack : ∀ o ∈ stack, o.Declared) (hevents : ∀ event ∈ events, event.Declared)
    (h : nest here stack events = .ok fields) : fields.Declared := by
  have hkeeps : ∀ event ∈ events, event.Keeps Field.Declared := by
    intro event hmem
    cases event with
    | close line => trivial
    | field name f line opens =>
      obtain ⟨hfield, hleaf⟩ := hevents _ hmem
      exact ⟨hfield, hleaf, fun _ => hfield.takes⟩
  have hopen : ∀ o ∈ stack, o.before.Throughout Field.Declared ∧ o.field.Takes Field.Declared := by
    intro o ho
    obtain ⟨hbefore, hfield⟩ := hstack o ho
    exact ⟨⟨hbefore.distinct, hbefore.each⟩, hfield.takes⟩
  obtain ⟨hdistinct, heach⟩ := nest_throughout ⟨hhere.distinct, hhere.each⟩ hopen hkeeps h
  exact ⟨hdistinct, heach⟩

/-! ## Reading a source -/

/-- A comment declares a field without children, and casts its example from a text. -/
theorem ofComment_ok {content name : String} {field : Field} (h : Field.ofComment content = .ok (name, field)) :
    field.items = none ∧ field.properties = none ∧
      ∀ v, field.exampleValue = some v → ∃ text, field.type.cast text = .ok v := by
  unfold Field.ofComment at h
  cases hparts : TagParts.ofContent content with
  | error d => simp [hparts, bind, Except.bind] at h
  | ok parts =>
    simp only [hparts, bind, Except.bind, pure, Except.pure] at h
    cases hfragment : exampleFragment? (Text.trimBy isFraming parts.description.toList) with
    | none =>
      simp only [hfragment] at h
      obtain ⟨-, rfl⟩ := Prod.mk.inj (Except.ok.inj h)
      exact ⟨rfl, rfl, by simp⟩
    | some fragment =>
      simp only [hfragment] at h
      cases hcast : (ValueType.normalize parts.type).cast (String.ofList (Text.trim fragment.inner)) with
      | error d => simp [hcast] at h
      | ok value =>
        simp only [hcast] at h
        obtain ⟨-, rfl⟩ := Prod.mk.inj (Except.ok.inj h)
        refine ⟨rfl, rfl, fun v hv => ?_⟩
        obtain rfl := Option.some.inj hv
        dsimp only
        exact ⟨_, hcast⟩

/-- The fields of an outline are declared by comments. -/
theorem eventsFrom_field {number : Nat} {lines : List (List Char)} {events : List Event}
    (h : eventsFrom number lines = .ok events) {name : String} {field : Field} {line : Int} {opens : Bool}
    (hmem : Event.field name field line opens ∈ events) : ∃ content, Field.ofComment content = .ok (name, field) := by
  fun_induction eventsFrom number lines generalizing events with
  | case1 =>
    obtain rfl := Except.ok.inj h
    simp at hmem
  | case2 => exact absurd h (by simp)
  | case3 number text lines content hcontent n f hcomment ih =>
    obtain ⟨rest, hrest, heq⟩ := of_bind_ok h
    obtain rfl := Except.ok.inj heq
    rcases List.mem_cons.mp hmem with heq | hmem
    · obtain ⟨rfl, rfl, -, -⟩ := Event.field.inj heq
      exact ⟨_, hcomment⟩
    · exact ih hrest hmem
  | case4 number text lines hcontent hcloser ih =>
    obtain ⟨rest, hrest, heq⟩ := of_bind_ok h
    obtain rfl := Except.ok.inj heq
    rcases List.mem_cons.mp hmem with heq | hmem
    · exact absurd heq (by simp)
    · exact ih hrest hmem
  | case5 number text lines hcontent hcloser ih => exact ih h hmem

/-- The type of a comment's field is read from its tag. -/
theorem ofComment_type {content name : String} {field : Field} (h : Field.ofComment content = .ok (name, field)) :
    ∃ declared, field.type = ValueType.normalize declared := by
  unfold Field.ofComment at h
  obtain ⟨parts, -, h⟩ := of_bind_ok h
  refine ⟨parts.type, ?_⟩
  dsimp only at h
  split at h
  · obtain ⟨-, rfl⟩ := Prod.mk.inj (Except.ok.inj h)
    dsimp only
  · obtain ⟨value, -, h⟩ := of_bind_ok h
    obtain ⟨-, rfl⟩ := Prod.mk.inj (Except.ok.inj h)
    dsimp only

theorem ofComment_declared {content name : String} {field : Field}
    (h : Field.ofComment content = .ok (name, field)) : field.Declared ∧ field.children = [] := by
  obtain ⟨declared, htype⟩ := ofComment_type h
  obtain ⟨hitems, hproperties, hcast⟩ := ofComment_ok h
  have hleaf : field.children = [] := by
    unfold Field.children
    rw [hitems, hproperties]
    split <;> rfl
  exact ⟨⟨by rw [htype]; exact ValueType.normalize_mem_named declared, hcast, by rw [hleaf]; exact .nil⟩, hleaf⟩

/-- The tree that was read of a source has only declared fields. -/
theorem ofLines_declared {lines : List String} {bound : Option Int} {fields : Fields}
    (h : Fields.ofLines lines bound = .ok fields) : fields.Declared := by
  obtain ⟨events, hevents, hnest⟩ := of_bind_ok h
  refine nest_declared Fields.declared_nil (by simp) (fun event hmem => ?_) hnest
  cases event with
  | close line => trivial
  | field name f line opens =>
    obtain ⟨content, hcomment⟩ := eventsFrom_field hevents hmem
    exact ofComment_declared hcomment

/-! ## Scopes -/

/-- Only a list or an object has fields below it. -/
def Field.Scoped (field : Field) : Prop := field.type.isStructured = false → field.children = []

/-- In a tree that was read of a source only lists and objects have fields below them. -/
theorem ofLines_scoped {lines : List String} {bound : Option Int} {fields : Fields}
    (h : Fields.ofLines lines bound = .ok fields) : fields.Throughout Field.Scoped := by
  obtain ⟨events, hevents, hnest⟩ := of_bind_ok h
  refine nest_throughout Fields.throughout_nil (by simp) (fun event hmem => ?_) hnest
  cases event with
  | close line => trivial
  | field name f line opens =>
    obtain ⟨content, hcomment⟩ := eventsFrom_field hevents hmem
    obtain ⟨-, hleaf⟩ := ofComment_declared hcomment
    refine ⟨fun _ => hleaf, hleaf, fun hstructured children _ hscalar => ?_⟩
    rw [Field.withChildren_type, hstructured] at hscalar
    cases hscalar

end ApiManual
