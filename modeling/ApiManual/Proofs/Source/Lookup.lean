import ApiManual.Source.Lookup

/-!
# Looking up code that cannot be had

What a look-up can fail with: a defect, a module name that starts with a point, or a method without a
source. The first two are told from the name alone.

* `handler_relative_iff`: the handlers whose look-up is broken off.
* `resource_relative_iff`: the resources whose look-up is broken off.
* `handler_error`, `resource_error`: there is no other way to fail.
-/

namespace ApiManual

open Text Source

/-- A handler `.module:path` whose module name starts with a point. -/
def RelativeHandler (identity name : String) : Prop :=
  ∃ rest path, splitAtFirst? [':'] identity.toList = some ('.' :: rest, path) ∧ path ≠ [] ∧
    name = String.ofList ('.' :: rest)

/-- A resource `.module.Class` whose module name starts with a point. -/
def RelativeResource (dotted name : String) : Prop :=
  ∃ rest className, splitAtLast? '.' (replaceAll [':'] ['.'] dotted.toList) = some ('.' :: rest, className) ∧
    name = String.ofList ('.' :: rest)

variable {modules : Modules}

theorem importModule_relative_iff {name : List Char} :
    importModule modules (String.ofList name) = .error .relative ↔ name.head? = some '.' := by
  unfold importModule
  rw [String.toList_ofList]
  split
  · simp_all
  · cases modules.get? (String.ofList name) <;> simp_all

theorem head_ne_of_import {name : List Char} {found : Except Unimportable Module}
    (h : importModule modules (String.ofList name) = found) (hfound : found ≠ .error .relative) :
    name.head? ≠ some '.' :=
  fun hhead => hfound (h ▸ importModule_relative_iff.mpr hhead)

/-! ## Handlers -/

/-- A look-up that finds something or nothing, or fails by a defect of the handler. -/
def HandlerSettled (modules : Modules) (identity : String) : Prop :=
  (∃ found, modules.handler identity = .ok found) ∨
    ∃ d, modules.handler identity = .error (handlerFailure identity d)

/-- The look-up of a handler is settled, or the module name starts with a point. -/
theorem handler_cases (modules : Modules) (identity : String) :
    HandlerSettled modules identity ∧ (∀ name, ¬ RelativeHandler identity name) ∨
    ∃ name, RelativeHandler identity name ∧
      modules.handler identity = .error (.fault (.relativeModule name)) := by
  unfold HandlerSettled Modules.handler RelativeHandler
  rcases splitAtFirst? [':'] identity.toList with _ | ⟨name, path⟩
  · exact .inl ⟨.inr ⟨_, rfl⟩, by simp⟩
  simp only
  by_cases hempty : (name.isEmpty || path.isEmpty) = true
  · refine .inl ⟨.inr ⟨.handlerForm, by simp only [hempty, if_true]; rfl⟩, ?_⟩
    rintro - ⟨rest, path', heq, hpath, -⟩
    simp_all
  rw [if_neg hempty]
  cases hm : importModule modules (String.ofList name) with
  | ok m =>
    have hhead := head_ne_of_import hm (by simp)
    refine .inl ⟨?_, fun _ ⟨rest, _, heq, _⟩ => hhead (by simp_all)⟩
    obtain ⟨owners, ownerText, function⟩ := ownerPath path
    simp only [bind, Except.bind, pure, Except.pure]
    cases (Owner.module m).follow? owners with
    | none => exact .inr ⟨_, rfl⟩
    | some owner => exact .inl ⟨_, rfl⟩
  | error cause => cases cause with
    | absent reason =>
      have hhead := head_ne_of_import hm (by simp)
      exact .inl ⟨.inr ⟨_, rfl⟩, fun _ ⟨rest, _, heq, _⟩ => hhead (by simp_all)⟩
    | relative =>
      obtain ⟨rest, rfl⟩ := List.head?_eq_some_iff.mp (importModule_relative_iff.mp hm)
      exact .inr ⟨_, ⟨rest, path, rfl, by simp_all, rfl⟩, rfl⟩

theorem handler_relative_iff {identity name : String} :
    modules.handler identity = .error (.fault (.relativeModule name)) ↔ RelativeHandler identity name := by
  obtain ⟨⟨found, h⟩ | ⟨d, h⟩, hnot⟩ | ⟨name', hname', h⟩ := handler_cases modules identity
  · exact ⟨fun h' => by simp [h] at h', fun h' => absurd h' (hnot name)⟩
  · exact ⟨fun h' => by simp [h, handlerFailure] at h', fun h' => absurd h' (hnot name)⟩
  · rw [h]
    constructor
    · intro heq
      obtain rfl : name' = name := by simpa using heq
      exact hname'
    · rintro ⟨rest, path, heq, -, rfl⟩
      obtain ⟨rest', path', heq', -, rfl⟩ := hname'
      simp_all

theorem handler_error {identity : String} {f : Failure} (h : modules.handler identity = .error f) :
    (∃ d, f = handlerFailure identity d) ∨ ∃ name, f = .fault (.relativeModule name) := by
  obtain ⟨⟨found, h'⟩ | ⟨d, h'⟩, -⟩ | ⟨name, -, h'⟩ := handler_cases modules identity
  · simp [h'] at h
  · exact .inl ⟨d, by simpa [h'] using h.symm⟩
  · exact .inr ⟨name, by simpa [h'] using h.symm⟩

/-! ## Resources -/

/-- The class of a resource is found or not, or the module name starts with a point. -/
theorem classLayers?_cases (modules : Modules) (dotted : String) :
    (∃ found, modules.classLayers? dotted = .ok found) ∧ (∀ name, ¬ RelativeResource dotted name) ∨
    ∃ name, RelativeResource dotted name ∧
      modules.classLayers? dotted = .error (.fault (.relativeModule name)) := by
  unfold Modules.classLayers? RelativeResource
  rcases splitAtLast? '.' (replaceAll [':'] ['.'] dotted.toList) with _ | ⟨name, className⟩
  · exact .inl ⟨⟨_, rfl⟩, by simp⟩
  simp only
  by_cases hempty : name.isEmpty = true
  · exact .inl ⟨⟨none, by rw [if_pos hempty]⟩, fun _ ⟨rest, _, heq, _⟩ => by simp_all⟩
  rw [if_neg hempty]
  cases hm : importModule modules (String.ofList name) with
  | ok m =>
    have hhead := head_ne_of_import hm (by simp)
    refine .inl ⟨?_, fun _ ⟨rest, _, heq, _⟩ => hhead (by simp_all)⟩
    simp only
    split <;> exact ⟨_, rfl⟩
  | error cause => cases cause with
    | absent reason =>
      have hhead := head_ne_of_import hm (by simp)
      exact .inl ⟨⟨none, rfl⟩, fun _ ⟨rest, _, heq, _⟩ => hhead (by simp_all)⟩
    | relative =>
      obtain ⟨rest, rfl⟩ := List.head?_eq_some_iff.mp (importModule_relative_iff.mp hm)
      exact .inr ⟨_, ⟨rest, className, rfl, rfl⟩, rfl⟩

/-- How the look-up of a resource ends. -/
theorem resource_cases (modules : Modules) (dotted : String) :
    ((∃ source, modules.resource dotted = .ok source) ∨
      (∃ d, modules.resource dotted = .error (.defect d)) ∨
      ∃ gap, modules.resource dotted = .error (.sourceUnavailable dotted gap)) ∧
        (∀ name, ¬ RelativeResource dotted name) ∨
    ∃ name, RelativeResource dotted name ∧
      modules.resource dotted = .error (.fault (.relativeModule name)) := by
  unfold Modules.resource
  obtain ⟨⟨found, h⟩, hnot⟩ | ⟨name, hname, h⟩ := classLayers?_cases modules dotted
  · refine .inl ⟨?_, hnot⟩
    rw [h]
    cases found with
    | none => exact .inr (.inl ⟨_, rfl⟩)
    | some layers =>
      simp only [bind, Except.bind]
      cases ((Node.cls layers).attribute? Defect.resourceMethod).bind (·.present?) with
      | none => exact .inr (.inl ⟨_, rfl⟩)
      | some method =>
        simp only
        cases methodLines method with
        | ok lines => exact .inl ⟨_, rfl⟩
        | error gap => exact .inr (.inr ⟨gap, rfl⟩)
  · exact .inr ⟨name, hname, by rw [h]; rfl⟩

theorem resource_relative_iff {dotted name : String} :
    modules.resource dotted = .error (.fault (.relativeModule name)) ↔ RelativeResource dotted name := by
  obtain ⟨⟨_, h⟩ | ⟨_, h⟩ | ⟨_, h⟩, hnot⟩ | ⟨name', hname', h⟩ := resource_cases modules dotted
  · exact ⟨fun h' => by simp [h] at h', fun h' => absurd h' (hnot name)⟩
  · exact ⟨fun h' => by simp [h, Failure.defect] at h', fun h' => absurd h' (hnot name)⟩
  · exact ⟨fun h' => by simp [h] at h', fun h' => absurd h' (hnot name)⟩
  · rw [h]
    constructor
    · intro heq
      obtain rfl : name' = name := by simpa using heq
      exact hname'
    · rintro ⟨rest, className, heq, rfl⟩
      obtain ⟨rest', className', heq', rfl⟩ := hname'
      simp_all

end ApiManual
