import ApiManual.Proofs.Param.Numbers
import Mathlib.Data.List.GetD

/-!
# Values have their types

An example that has been cast is a value of its type, and so is a value that is drawn, under the name that
the type has in a manual.

* `HasManualType`: the values of a type; lists and objects may be given as anything.
* `Synthesized`: the values that are drawn for a type.
* `alphanumerics_spec`: the letters of a text that is drawn.
* `cast_hasManualType`, `placeholder_synthesized`: both ways to a value.
-/

namespace ApiManual

/-- The value has the type of this name. -/
inductive HasManualType : String → Json → Prop where
  | string (s : String) : HasManualType "string" (.str s)
  | integer (i : Int) : HasManualType "integer" (.int i)
  | number (x : Binary64) : HasManualType "number" (.float x)
  | boolean (b : Bool) : HasManualType "boolean" (.bool b)
  | array (v : Json) : HasManualType "array" v
  | object (v : Json) : HasManualType "object" v

/-- The value can be drawn for the type of this name. -/
inductive Synthesized : String → Json → Prop where
  | string {cs : List Char} (length : cs.length = 12) (alphanumeric : ∀ c ∈ cs, c.isAlphanum = true) :
      Synthesized "string" (.str (String.ofList cs))
  | integer {i : Int} (least : 1 ≤ i) (most : i ≤ 20) : Synthesized "integer" (.int i)
  | number (x : Binary64) : Synthesized "number" (.float x)
  | boolean (b : Bool) : Synthesized "boolean" (.bool b)
  | array : Synthesized "array" (.arr [])
  | object : Synthesized "object" (.obj [])

theorem Synthesized.hasManualType {type : String} {v : Json} (h : Synthesized type v) : HasManualType type v := by
  cases h with
  | string => exact .string _
  | integer => exact .integer _
  | number => exact .number _
  | boolean => exact .boolean _
  | array => exact .array _
  | object => exact .object _

/-! ## Types -/

namespace ValueType

/-- A declared type is read as one that has a name of its own. -/
theorem normalize_mem_named (declared : String) : normalize declared ∈ named := by
  unfold normalize
  simp only
  split
  · rename_i t hshort
    have hnamed : ∀ entry ∈ shortNames, entry.2 ∈ named := by decide
    obtain ⟨before, after, heq, -⟩ := List.lookup_eq_some_iff.mp hshort
    exact hnamed (_, t) (heq ▸ List.mem_append_right before List.mem_cons_self)
  · cases hfind : named.find? (·.name == String.ofList (Text.lower (Text.trim declared.toList))) with
    | none => decide
    | some t => exact List.mem_of_find?_eq_some hfind

end ValueType

/-! ## Examples -/

/-- An example that has been cast is a value of its type. -/
theorem cast_hasManualType {type : ValueType} (htype : type ∈ ValueType.named) {text : String} {v : Json}
    (h : type.cast text = .ok v) : HasManualType type.manualName (type.shown v) := by
  cases type with
  | string =>
    obtain rfl := Except.ok.inj h
    exact .string text
  | integer =>
    simp only [ValueType.cast] at h
    split at h
    · obtain rfl := Except.ok.inj h
      exact .integer _
    · simp at h
  | number | float =>
    simp only [ValueType.cast] at h
    split at h
    · obtain rfl := Except.ok.inj h
      exact .number _
    · simp at h
  | boolean =>
    obtain rfl := Except.ok.inj h
    exact .boolean _
  | array => exact .array _
  | object | json => exact .object _
  | other name => simp [ValueType.named] at htype

/-! ## Placeholders -/

namespace Generator

theorem alphanumeric_isAlphanum (g : Generator) : g.alphanumeric.1.isAlphanum = true := by
  have hletters : letters.all (·.isAlphanum) = true := by decide +kernel
  have hlt : (g.below letters.length).1 < letters.length := below_lt (by decide) g
  unfold alphanumeric
  simp only [List.getD_eq_getElem _ _ hlt]
  exact List.all_eq_true.mp hletters _ (List.getElem_mem hlt)

theorem alphanumerics_spec (n : Nat) (g : Generator) :
    (g.alphanumerics n).1.length = n ∧ ∀ c ∈ (g.alphanumerics n).1, c.isAlphanum = true := by
  induction n generalizing g with
  | zero => exact ⟨rfl, by simp [alphanumerics]⟩
  | succ n ih =>
    obtain ⟨hlength, hletters⟩ := ih g.alphanumeric.2
    exact ⟨congrArg Nat.succ hlength, List.forall_mem_cons.mpr ⟨alphanumeric_isAlphanum g, hletters⟩⟩

end Generator

theorem placeholder_integer (g : Generator) :
    ValueType.integer.placeholder g = (.int ((g.below 20).1 + 1), (g.below 20).2) := rfl

/-- A placeholder is one of the values that are drawn for its type. -/
theorem placeholder_synthesized {type : ValueType} (htype : type ∈ ValueType.named) (g : Generator) :
    Synthesized type.manualName (type.shown (type.placeholder g).1) := by
  cases type with
  | string =>
    obtain ⟨hlength, hletters⟩ := g.alphanumerics_spec 12
    exact .string hlength hletters
  | integer =>
    have hlt : (g.below 20).1 < 20 := g.below_lt (by decide)
    rw [placeholder_integer]
    exact .integer (by omega) (by omega)
  | number | float => exact .number _
  | boolean => exact .boolean _
  | array => exact .array
  | object | json => exact .object
  | other name => simp [ValueType.named] at htype

end ApiManual
