import ApiManual.Param.Tag
import ApiManual.Proofs.Json.Within

/-!
# Numbers in values of parameters

What is known of the numbers that stand in a parameter's value, also as it is shown.

* `AllRead`: a property that every number has which is read from a text. Examples have it: `cast_each`, `shown_each`.
* `allRead_inRange`, `allRead_short`: floats that are read are in the range of the type, integers are short.
* `placeholder_finite`, `placeholder_short`: a value that is drawn is finite, and its integers are short.

A parameter can only show a float that is not finite where its author wrote one (`cast_finite`).
-/

namespace ApiManual

open Number

/-- A value as it is shown, with lists and objects read from their text. -/
def ValueType.shown (type : ValueType) (v : Json) : Json := if type.isStructured then v.decoded else v

theorem Param.decoded_eq (p : Param) : p.decoded = p.type.shown p.value := rfl

/-! ## Numerals -/

theorem readDecimal?_inRange {negative : Bool} {cs : List Char} {x : Binary64}
    (h : readDecimal? negative cs = some x) : x.InRange := by
  unfold readDecimal? at h
  simp only at h
  split_ifs at h
  obtain ⟨exponent, -, hx⟩ := Option.bind_eq_some_iff.mp h
  obtain rfl := Option.some.inj hx
  exact Binary64.ofDecimal_inRange _ _ _

theorem readFloat?_inRange {cs : List Char} {x : Binary64} (h : readFloat? cs = some x) : x.InRange := by
  obtain ⟨plain, -, hplain⟩ := Option.bind_eq_some_iff.mp h
  unfold readPlainFloat? at hplain
  simp only at hplain
  split_ifs at hplain
  · obtain rfl := Option.some.inj hplain
    exact trivial
  · obtain rfl := Option.some.inj hplain
    exact trivial
  · exact readDecimal?_inRange hplain

theorem digitsValue_lt {cs : List Char} (h : ∀ c ∈ cs, c.isDigit = true) : digitsValue cs < 10 ^ cs.length := by
  induction cs using List.reverseRecOn with
  | nil => simp [digitsValue]
  | append_singleton cs c ih =>
    obtain ⟨hcs, hc⟩ := List.forall_mem_append.mp h
    have hvalue : digitsValue (cs ++ [c]) = 10 * digitsValue cs + (c.toNat - 48) := by simp [digitsValue]
    have hdigit : c.toNat ≤ 57 := by
      have hc := hc c (by simp)
      simp only [Char.isDigit, Bool.and_eq_true, decide_eq_true_eq] at hc
      exact UInt32.le_iff_toNat_le.mp hc.2
    have hlt := ih hcs
    rw [hvalue, List.length_append, List.length_singleton, pow_succ]
    omega

/-- An integer that is read has no more digits than are read of one. -/
theorem readInteger?_short {cs : List Char} {i : Int} (h : readInteger? cs = some i) : (Json.int i).isLong = false := by
  obtain ⟨plain, -, h⟩ := Option.bind_eq_some_iff.mp h
  dsimp only at h
  split at h
  · rename_i hdigits
    simp only [Bool.and_eq_true, List.all_eq_true, decide_eq_true_eq] at hdigits
    obtain rfl := Option.some.inj h
    have habs : ∀ negative n, (negateIf negative n).natAbs = n := by
      intro negative n
      cases negative <;> simp [negateIf]
    rw [Json.isLong_int, habs]
    exact (digitsValue_lt hdigits.1.2).trans_le (Nat.pow_le_pow_right (by decide) hdigits.2)
  · cases h

/-! ## Examples -/

/-- Every number that is read from a text has the property. -/
structure AllRead (P : Json → Prop) : Prop where
  integer : ∀ {cs i}, readInteger? cs = some i → P (.int i)
  float : ∀ {cs x}, readFloat? cs = some x → P (.float x)
  json : ∀ {cs v}, Json.readChars cs = .ok v → v.Each P

theorem allRead_inRange : AllRead Json.InRange :=
  ⟨fun _ => trivial, readFloat?_inRange, Json.readChars_inRange⟩

theorem allRead_short : AllRead fun n => n.isLong = false :=
  ⟨readInteger?_short, fun _ => rfl, Json.readChars_short⟩

section AllRead

variable {P : Json → Prop} {type : ValueType} {v : Json} (hread : AllRead P)

include hread

theorem cast_each {text : String} (h : type.cast text = .ok v) : v.Each P := by
  unfold ValueType.cast at h
  split at h
  · obtain rfl := Except.ok.inj h
    exact Json.each_bool _
  · split at h
    · rename_i i hi
      obtain rfl := Except.ok.inj h
      exact Json.each_int.mpr (hread.integer hi)
    · exact absurd h (by simp)
  · split at h
    · rename_i x hx
      obtain rfl := Except.ok.inj h
      exact Json.each_float.mpr (hread.float hx)
    · exact absurd h (by simp)
  · split at h
    · rename_i x hx
      obtain rfl := Except.ok.inj h
      exact Json.each_float.mpr (hread.float hx)
    · exact absurd h (by simp)
  · obtain rfl := Except.ok.inj h
    exact Json.each_str _

theorem decoded_each (h : v.Each P) : v.decoded.Each P := by
  unfold Json.decoded
  split
  · split
    · rename_i htext
      exact hread.json htext
    · exact h
  · exact h

theorem shown_each (h : v.Each P) : (type.shown v).Each P := by
  unfold ValueType.shown
  split
  · exact decoded_each hread h
  · exact h

end AllRead

/-- An example that is shown without infinite floats has none: a list or an object is still a text. -/
theorem cast_finite {type : ValueType} {text : String} {v : Json} (h : type.cast text = .ok v)
    (hshown : (type.shown v).Finite) : v.Finite := by
  by_cases hstructured : type.isStructured = true
  · have htext : v = .str text := by
      cases type <;> first | exact absurd hstructured Bool.false_ne_true | exact (Except.ok.inj h).symm
    rw [htext]
    exact Json.each_str text
  · unfold ValueType.shown at hshown
    rwa [if_neg hstructured] at hshown

/-! ## Placeholders -/

theorem Generator.below_lt {n : Nat} (hn : 0 < n) (g : Generator) : (g.below n).1 < n := by
  unfold Generator.below
  generalize 4096 = draws
  induction draws generalizing g with
  | zero => exact hn
  | succ draws ih =>
    unfold Generator.belowWithin
    simp only
    split
    · assumption
    · exact ih _

theorem unitNumerator_lt (g : Generator) : g.unitNumerator.1 < 2 ^ 59 := by
  unfold Generator.unitNumerator
  generalize g.next = first
  obtain ⟨a, g⟩ := first
  generalize hsecond : g.next = second
  obtain ⟨b, g'⟩ := second
  have ha : (a.toNat >>> 5) < 2 ^ 32 := Nat.lt_of_le_of_lt (Nat.shiftRight_le _ 5) a.toNat_lt
  have hb : (b.toNat >>> 6) < 2 ^ 32 := Nat.lt_of_le_of_lt (Nat.shiftRight_le _ 6) b.toNat_lt
  simp only [hsecond, Nat.pow_eq]
  omega

theorem uniformThousand_proper (g : Generator) :
    g.uniformThousand.1.InRange ∧ g.uniformThousand.1.isFinite = true := by
  have hnumerator := unitNumerator_lt g
  have hden : 0 < Nat.pow 2 53 := Nat.pow_pos (by norm_num)
  refine ⟨Binary64.ofRatio_inRange false _ hden, Binary64.ofRatio_isFinite false hden (Binary64.lt_limit ?_)⟩
  rw [Nat.pow_eq, div_le_iff₀ (by norm_num)]
  have hle : 1000 * g.unitNumerator.1 ≤ 2 ^ 53 * 2 ^ 53 := by omega
  exact_mod_cast hle

/-- The numbers of a placeholder, as it is shown, are those that are drawn. -/
theorem placeholder_each {P : Json → Prop} (type : ValueType) (g : Generator)
    (hinteger : P (.int ((g.below 20).1 + 1))) (hfloat : P (.float (g.uniformThousand.1.roundTo 2))) :
    (type.shown (type.placeholder g).1).Each P := by
  have hlist : Json.decoded (.str "[]") = .arr [] := rfl
  have hobject : Json.decoded (.str "\x7b\x7d") = .obj [] := rfl
  cases type with
  | integer => exact Json.each_int.mpr hinteger
  | number | float => exact Json.each_float.mpr hfloat
  | boolean => exact Json.each_bool _
  | array =>
    show (Json.decoded (.str "[]")).Each P
    rw [hlist]
    simp
  | object | json =>
    show (Json.decoded (.str "\x7b\x7d")).Each P
    rw [hobject]
    simp
  | string | other => exact Json.each_str _

theorem placeholder_finite (type : ValueType) (g : Generator) : (type.shown (type.placeholder g).1).Finite := by
  obtain ⟨hrange, hfinite⟩ := uniformThousand_proper g
  exact placeholder_each type g rfl (Binary64.roundTo_isFinite 2 hrange hfinite)

theorem placeholder_short (type : ValueType) (g : Generator) : (type.shown (type.placeholder g).1).Short := by
  have hlt : (g.below 20).1 < 20 := g.below_lt (by decide)
  exact placeholder_each type g (Json.isLong_of_lt (by omega)) rfl

end ApiManual
