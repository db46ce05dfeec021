import ApiManual.Json.Reader
import ApiManual.Proofs.Number.Rounding
import ApiManual.Proofs.Results

/-!
# Numbers in values

`Json.Each` says of every number in a value that it has a property.

* `Json.Finite`: no float is infinite or no number. `Json.Short`: no integer has too many digits to be read.
* `ofTokens_each`: what the machine builds has no numbers but those of its tokens.
* `readChars_inRange`: the floats of a value that is read are in the range of the type.
* `readChars_short`: the integers of a value that is read are short.
-/

namespace ApiManual

namespace Json

mutual

/-- The integers and floats in a value. -/
def numbers : Json → List Json
  | .int i => [.int i]
  | .float x => [.float x]
  | .arr items => itemNumbers items
  | .obj fields => fieldNumbers fields
  | _ => []

def itemNumbers : List Json → List Json
  | [] => []
  | item :: items => item.numbers ++ itemNumbers items

def fieldNumbers : List (String × Json) → List Json
  | [] => []
  | (_, v) :: fields => v.numbers ++ fieldNumbers fields

end

/-- Every number in the value has the property. -/
def Each (P : Json → Prop) (v : Json) : Prop := ∀ n ∈ v.numbers, P n

instance (P : Json → Prop) [DecidablePred P] : DecidablePred (Each P) :=
  fun v => inferInstanceAs (Decidable (∀ n ∈ v.numbers, P n))

/-- The number is no float that is infinite or no number. -/
def isFinite : Json → Bool
  | .float x => x.isFinite
  | _ => true

/-- The number is no float outside of the range of the type. -/
def InRange : Json → Prop
  | .float x => x.InRange
  | _ => True

/-- No float in the value is infinite or no number. -/
abbrev Finite (v : Json) : Prop := v.Each fun n => n.isFinite = true

/-- Every float in the value is finite and in the range of the type. -/
abbrev Proper (v : Json) : Prop := v.Each fun n => n.InRange ∧ n.isFinite = true

/-- No integer in the value has more digits than are read. -/
abbrev Short (v : Json) : Prop := v.Each fun n => n.isLong = false

theorem isLong_int {i : Int} : (Json.int i).isLong = false ↔ i.natAbs < 10 ^ Number.maxDigits := by
  rw [isLong, Bool.not_eq_false', Number.fits_iff, Nat.pow_eq]

/-- An integer of two digits is short. -/
theorem isLong_of_lt {i : Int} (h : i.natAbs < 10 ^ 2) : (Json.int i).isLong = false :=
  isLong_int.mpr (h.trans_le (Nat.pow_le_pow_right (by decide) (by decide)))

section Each

variable {P : Json → Prop}

theorem itemNumbers_eq_flatMap (items : List Json) : itemNumbers items = items.flatMap numbers := by
  induction items with
  | nil => rfl
  | cons item items ih => rw [itemNumbers, ih, List.flatMap_cons]

theorem fieldNumbers_eq_flatMap (fields : Entries Json) : fieldNumbers fields = fields.flatMap (·.2.numbers) := by
  induction fields with
  | nil => rfl
  | cons field fields ih => rw [fieldNumbers, ih, List.flatMap_cons]

@[simp]
theorem each_null : Json.null.Each P := by simp [Each, numbers]

@[simp]
theorem each_bool (b : Bool) : (Json.bool b).Each P := by simp [Each, numbers]

@[simp]
theorem each_str (s : String) : (Json.str s).Each P := by simp [Each, numbers]

@[simp]
theorem each_int {i : Int} : (Json.int i).Each P ↔ P (.int i) := by simp [Each, numbers]

@[simp]
theorem each_float {x : Binary64} : (Json.float x).Each P ↔ P (.float x) := by simp [Each, numbers]

@[simp]
theorem each_arr {items : List Json} : (Json.arr items).Each P ↔ ∀ item ∈ items, item.Each P := by
  simp only [Each, numbers, itemNumbers_eq_flatMap, List.mem_flatMap]
  exact ⟨fun h item hitem x hx => h x ⟨item, hitem, hx⟩, fun h x ⟨item, hitem, hx⟩ => h item hitem x hx⟩

@[simp]
theorem each_obj {fields : Entries Json} : (Json.obj fields).Each P ↔ ∀ field ∈ fields, field.2.Each P := by
  simp only [Each, numbers, fieldNumbers_eq_flatMap, List.mem_flatMap]
  exact ⟨fun h field hfield x hx => h x ⟨field, hfield, hx⟩, fun h x ⟨field, hfield, hx⟩ => h field hfield x hx⟩

end Each

/-! ## The machine -/

section Machine

variable (P : Json → Prop)

/-- Every number in the values of an open container has the property. -/
def Frame.Each : Frame → Prop
  | .list items => ∀ item ∈ items, item.Each P
  | .members fields _ => ∀ field ∈ fields, field.2.Each P

/-- Every number that the machine holds has the property. -/
def Stage.Each : Stage → Prop
  | .value stack | .firstItem stack => ∀ frame ∈ stack, frame.Each P
  | .name fields _ stack | .colon fields _ stack =>
    (∀ field ∈ fields, field.2.Each P) ∧ ∀ frame ∈ stack, frame.Each P
  | .after v stack => v.Each P ∧ ∀ frame ∈ stack, frame.Each P

/-- Every number of the token has the property, if the machine takes it. -/
def Token.Each (token : Token) : Prop := ∀ v, token = .value v → v.isLong = false → v.Each P

variable {P}

/-- The machine takes a value that is no integer of too many digits. -/
theorem begin_value_iff {stack : List Frame} {position : Nat} {v : Json} {stage : Stage} :
    Stage.begin stack ⟨position, .value v⟩ = .ok stage ↔ v.isLong = false ∧ stage = .after v stack := by
  have hbegin : Stage.begin stack ⟨position, .value v⟩ =
      if v.isLong then .error (.integerTooLong, position) else .ok (.after v stack) := rfl
  rw [hbegin]
  split
  · rename_i hlong
    exact ⟨nofun, fun h => absurd hlong (by simp [h.1])⟩
  · rename_i hshort
    exact ⟨fun h => ⟨by simpa using hshort, (Except.ok.inj h).symm⟩, fun h => congrArg Except.ok h.2.symm⟩

theorem begin_each {stack : List Frame} {placed : Placed} {stage : Stage} (hstack : ∀ frame ∈ stack, frame.Each P)
    (htoken : placed.token.Each P) (h : Stage.begin stack placed = .ok stage) : stage.Each P := by
  obtain ⟨position, token⟩ := placed
  cases token with
  | value v =>
    obtain ⟨hshort, rfl⟩ := begin_value_iff.mp h
    exact ⟨htoken v rfl hshort, hstack⟩
  | string s =>
    obtain rfl := Except.ok.inj h
    exact ⟨each_str s, hstack⟩
  | beginArray =>
    obtain rfl := Except.ok.inj h
    exact hstack
  | beginObject =>
    obtain rfl := Except.ok.inj h
    exact ⟨by simp, hstack⟩
  | _ => exact absurd h (by simp [Stage.begin])

/-- A step keeps the numbers that are held, and adds at most those of its token. -/
theorem step_each {stage stage' : Stage} {placed : Placed} (hstage : stage.Each P)
    (htoken : placed.token.Each P) (h : stage.step placed = .ok stage') : stage'.Each P := by
  match stage, hstage with
  | .value stack, hstack => exact begin_each hstack htoken h
  | .firstItem stack, hstack =>
    simp only [Stage.step] at h
    split at h
    · obtain rfl := Except.ok.inj h
      exact ⟨by simp, hstack⟩
    · exact begin_each (List.forall_mem_cons.mpr ⟨by simp [Frame.Each], hstack⟩) htoken h
  | .name fields closable stack, ⟨hfields, hstack⟩ =>
    simp only [Stage.step] at h
    split at h
    · obtain rfl := Except.ok.inj h
      exact ⟨hfields, hstack⟩
    · exact absurd h (by simp)
    · split at h
      · obtain rfl := Except.ok.inj h
        exact ⟨each_obj.mpr hfields, hstack⟩
      · exact absurd h (by simp)
    · exact absurd h (by simp)
  | .colon fields label stack, ⟨hfields, hstack⟩ =>
    simp only [Stage.step] at h
    split at h
    · obtain rfl := Except.ok.inj h
      exact List.forall_mem_cons.mpr ⟨hfields, hstack⟩
    · exact absurd h (by simp)
  | .after v [], ⟨hv, _⟩ =>
    simp only [Stage.step] at h
    split at h
    · obtain rfl := Except.ok.inj h
      exact ⟨hv, by simp⟩
    · exact absurd h (by simp)
  | .after v (.list items :: stack), ⟨hv, hframes⟩ =>
    obtain ⟨hitems, hstack⟩ := List.forall_mem_cons.mp hframes
    have hadded : ∀ item ∈ items ++ [v], item.Each P := by
      simpa [or_imp, forall_and] using ⟨hitems, hv⟩
    simp only [Stage.step] at h
    split at h
    · obtain rfl := Except.ok.inj h
      exact List.forall_mem_cons.mpr ⟨hadded, hstack⟩
    · obtain rfl := Except.ok.inj h
      exact ⟨each_arr.mpr hadded, hstack⟩
    · exact absurd h (by simp)
  | .after v (.members fields label :: stack), ⟨hv, hframes⟩ =>
    obtain ⟨hfields, hstack⟩ := List.forall_mem_cons.mp hframes
    have hadded := Entries.forall_set label hfields hv
    simp only [Stage.step] at h
    split at h
    · obtain rfl := Except.ok.inj h
      exact ⟨hadded, hstack⟩
    · obtain rfl := Except.ok.inj h
      exact ⟨each_obj.mpr hadded, hstack⟩
    · exact absurd h (by simp)

/-- What is built from tokens has no numbers but theirs. -/
theorem ofTokens_each {tokens : List Placed} {v : Json} (htokens : ∀ placed ∈ tokens, placed.token.Each P)
    (h : ofTokens tokens = .ok v) : v.Each P := by
  have hstart : (Stage.value []).Each P := by simp [Stage.Each]
  unfold ofTokens at h
  obtain ⟨stage, hrun, hdone⟩ := of_bind_ok h
  have hstage : stage.Each P := foldlM_invariant hstart
    (fun _ placed hplaced _ hbefore hstep => step_each hbefore (htokens placed hplaced) hstep) hrun
  cases stage with
  | after v' stack =>
    obtain rfl := Except.ok.inj hdone
    exact hstage.1
  | _ => exact absurd hdone (by simp)

end Machine

/-! ## Texts -/

open Token

section Texts

variable {P : Json → Prop}
  (hscalar : ∀ {cs : List Char} {v : Json} {n : Nat}, scalar? cs = some (v, n) → v.isLong = false → v.Each P)

include hscalar

theorem token_each (position : Nat) (c : Char) (cs : List Char) : (Token.read position c cs).1.Each P := by
  intro v hv hshort
  unfold Token.read at hv
  split at hv
  all_goals try exact absurd hv (by simp)
  · split at hv <;> exact absurd hv (by simp)
  · split at hv
    · rename_i hread
      obtain rfl := Token.value.inj hv
      exact hscalar hread hshort
    · exact absurd hv (by simp)

theorem scanFrom_each (skip position : Nat) (cs : List Char) :
    ∀ placed ∈ scanFrom skip position cs, placed.token.Each P := by
  fun_induction scanFrom skip position cs with
  | case1 => simp [Token.Each]
  | case2 _ _ _ _ ih | case3 _ _ _ _ ih => exact ih
  | case4 position c cs _ token n hread =>
    have htoken := token_each hscalar position c cs
    rw [hread] at htoken
    simpa using htoken
  | case5 position c cs _ token n hread _ ih =>
    have htoken := token_each hscalar position c cs
    rw [hread] at htoken
    exact List.forall_mem_cons.mpr ⟨htoken, ih⟩

/-- What holds of the scalars that the machine takes holds of all numbers of a value that is read. -/
theorem readChars_each {text : List Char} {v : Json} (h : readChars text = .ok v) : v.Each P := by
  unfold readChars at h
  split at h
  · exact absurd h (by simp)
  · split at h
    · rename_i v' htokens
      obtain rfl := Except.ok.inj h
      exact ofTokens_each (scanFrom_each hscalar _ _ _) htokens
    · exact absurd h (by simp)

end Texts

/-- A scalar is a word or a number. -/
theorem scalar?_cases {cs : List Char} {v : Json} {n : Nat} (h : scalar? cs = some (v, n)) :
    (∃ word ∈ words, v = word.2) ∨ ∃ rest, takeNumber? cs = some (v, rest) := by
  unfold scalar? at h
  split at h
  · rename_i word hword
    obtain ⟨rfl, -⟩ := Prod.mk.inj (Option.some.inj h)
    exact .inl ⟨word, List.mem_of_find?_eq_some hword, rfl⟩
  · obtain ⟨⟨v', rest⟩, hnumber, heq⟩ := Option.map_eq_some_iff.mp h
    obtain ⟨rfl, -⟩ := Prod.mk.inj heq
    exact .inr ⟨rest, hnumber⟩

/-- A number is an integer, or a float that is rounded from its digits. -/
theorem takeNumber?_cases {cs rest : List Char} {v : Json} (h : takeNumber? cs = some (v, rest)) :
    (∃ i, v = .int i) ∨ ∃ negative digits exponent, v = .float (.ofDecimal negative digits exponent) := by
  unfold takeNumber? at h
  simp only at h
  split_ifs at h
  · obtain ⟨rfl, -⟩ := Prod.mk.inj (Option.some.inj h)
    exact .inl ⟨_, rfl⟩
  · obtain ⟨rfl, -⟩ := Prod.mk.inj (Option.some.inj h)
    exact .inr ⟨_, _, _, rfl⟩

theorem scalar?_inRange {cs : List Char} {v : Json} {n : Nat} (h : scalar? cs = some (v, n)) : v.Each InRange := by
  obtain ⟨word, hword, rfl⟩ | ⟨rest, hnumber⟩ := scalar?_cases h
  · have hwords : ∀ word ∈ words, word.2.Each InRange := by simp [words, InRange, Binary64.InRange]
    exact hwords word hword
  · obtain ⟨i, rfl⟩ | ⟨negative, digits, exponent, rfl⟩ := takeNumber?_cases hnumber
    · exact each_int.mpr trivial
    · exact each_float.mpr (Binary64.ofDecimal_inRange _ _ _)

theorem scalar?_short {cs : List Char} {v : Json} {n : Nat} (h : scalar? cs = some (v, n)) (hshort : v.isLong = false) :
    v.Short := by
  obtain ⟨word, hword, rfl⟩ | ⟨rest, hnumber⟩ := scalar?_cases h
  · have hwords : ∀ word ∈ words, word.2.Short := by simp [words, isLong]
    exact hwords word hword
  · obtain ⟨i, rfl⟩ | ⟨negative, digits, exponent, rfl⟩ := takeNumber?_cases hnumber
    · exact each_int.mpr hshort
    · exact each_float.mpr rfl

/-- The floats of a value that is read are in range. -/
theorem readChars_inRange {text : List Char} {v : Json} (h : readChars text = .ok v) : v.Each InRange :=
  readChars_each (fun hscalar _ => scalar?_inRange hscalar) h

/-- The integers of a value that is read are short. -/
theorem readChars_short {text : List Char} {v : Json} (h : readChars text = .ok v) : v.Short :=
  readChars_each scalar?_short h

end Json

end ApiManual
