import ApiManual.Param.Shared
import ApiManual.Proofs.Param.Skeleton

/-!
# Scalar parameters share nothing

`Scalars` are parameters that were given neither lists nor objects. Their store is empty
(`Store.ofParams_scalars`), and expanding them by a store is `expand`, which leaves the store as it is
(`Store.expand_scalars`).
-/

namespace ApiManual

/-! ## Shapes of values -/

mutual

theorem Shape.value_ofJson (values : Entries Json) : ∀ v, (Shape.ofJson v).value values = v
  | .null | .bool _ | .int _ | .float _ | .str _ => rfl
  | .arr items => by rw [Shape.ofJson, Shape.value, shapeValues_shapesOf]
  | .obj fields => by rw [Shape.ofJson, Shape.value, fieldValues_fieldShapes]

theorem shapeValues_shapesOf (values : Entries Json) : ∀ items, shapeValues values (shapesOf items) = items
  | [] => rfl
  | item :: items => by rw [shapesOf, shapeValues, Shape.value_ofJson, shapeValues_shapesOf]

theorem fieldValues_fieldShapes (values : Entries Json) :
    ∀ fields, fieldValues values (fieldShapes fields) = fields
  | [] => rfl
  | (name, v) :: fields => by rw [fieldShapes, fieldValues, Shape.value_ofJson, fieldValues_fieldShapes]

end

theorem isContainer_ofJson (v : Json) : (Shape.ofJson v).isContainer = v.isContainer := by
  cases v <;> rfl

theorem containerFor_ofJson (next : String) (there : Json) :
    Shape.containerFor next (.ofJson there) = .ofJson (containerFor next there) := by
  unfold Shape.containerFor containerFor
  rw [isContainer_ofJson]
  split
  · rfl
  · split <;> rfl

theorem shapesOf_eq_map (items : List Json) : shapesOf items = items.map Shape.ofJson := by
  induction items with
  | nil => rfl
  | cons item items ih => rw [shapesOf, ih, List.map_cons]

theorem fieldShapes_eq_map (fields : Entries Json) :
    fieldShapes fields = fields.map fun e => (e.1, .ofJson e.2) := by
  induction fields with
  | nil => rfl
  | cons field fields ih => rw [fieldShapes, ih, List.map_cons]

theorem shapesOf_getD (items : List Json) (i : Nat) :
    (shapesOf items).getD i default = .ofJson (items.getD i .null) := by
  rw [shapesOf_eq_map]
  exact List.getD_map items .null Shape.ofJson

theorem shapesOf_setItem (items : List Json) (i : Nat) (v : Json) :
    setItem default (shapesOf items) i (.ofJson v) = shapesOf (setItem .null items i v) := by
  rw [shapesOf_eq_map, shapesOf_eq_map]
  exact (map_setItem Shape.ofJson .null items i v).symm

theorem fieldShapes_get? (fields : Entries Json) (key : String) :
    (Entries.get? (fieldShapes fields) key).getD default = .ofJson ((Entries.get? fields key).getD .null) := by
  rw [fieldShapes_eq_map, Entries.get?_map]
  cases Entries.get? fields key <;> rfl

theorem fieldShapes_set (fields : Entries Json) (key : String) (v : Json) :
    Entries.set (fieldShapes fields) key (.ofJson v) = fieldShapes (Entries.set fields key v) := by
  rw [fieldShapes_eq_map, fieldShapes_eq_map]
  exact (Entries.map_set Shape.ofJson fields key v).symm

/-! ## Placing values -/

namespace Store

/-- What placing a shape gives where placing the value gives `result`. -/
def Agrees (store : Store) (result : Except Misplaced Json) : Shape × Store × Option Misplaced → Prop
  | (s, store', fault) => store' = store ∧ match result with
    | .ok v => s = .ofJson v ∧ fault = none
    | .error e => fault = some e

/-- What stands around a placed value agrees if the value does. -/
theorem agrees_child {store : Store} {result : Except Misplaced Json} {placed : Shape × Store × Option Misplaced}
    (there : Shape) (wrap : Shape → Shape) {around : Json → Json} (h : Agrees store result placed)
    (hback : ∀ changed store', back store' there changed = (changed, store'))
    (hwrap : ∀ v, wrap (.ofJson v) = .ofJson (around v)) :
    Agrees store (result.map around) (
      let (child, store', fault) := placed
      let (s, store'') := back store' there (wrap child)
      (s, store'', fault)) := by
  obtain ⟨child, store', fault⟩ := placed
  obtain ⟨rfl, h⟩ := h
  simp only [hback]
  cases result with
  | error e => exact ⟨rfl, h⟩
  | ok v =>
    obtain ⟨rfl, rfl⟩ := h
    exact ⟨rfl, hwrap v, rfl⟩

theorem put_ofJson (store : Store) (value : Json) (keys : List String) (there : Json) :
    Agrees store (place value keys there) (put (.ofJson value) keys store (.ofJson there)) := by
  fun_induction place value keys there with
  | case1 there => exact ⟨rfl, rfl, rfl⟩
  | case2 key items =>
    simp only [put, Shape.ofJson, look]
    cases listIndex key with
    | error e => exact ⟨rfl, rfl⟩
    | ok i => exact ⟨rfl, by simp [back, Shape.ofJson, shapesOf_setItem], rfl⟩
  | case3 key next rest items ih =>
    simp only [put, Shape.ofJson, look]
    cases listIndex key with
    | error e => exact ⟨rfl, rfl⟩
    | ok i =>
      simp only [shapesOf_getD, containerFor_ofJson]
      exact agrees_child (.list (shapesOf items))
        (fun child => .list (setItem default (shapesOf items) i child)) (ih i) (fun _ _ => rfl)
        fun v => by rw [shapesOf_setItem, ← Shape.ofJson]
  | case4 key fields =>
    simp only [put, Shape.ofJson, look]
    exact ⟨rfl, by simp [back, Shape.ofJson, fieldShapes_set], rfl⟩
  | case5 key next rest fields ih =>
    simp only [put, Shape.ofJson, look, fieldShapes_get?, containerFor_ofJson]
    exact agrees_child (.table (fieldShapes fields))
      (fun child => .table (Entries.set (fieldShapes fields) key child)) ih (fun _ _ => rfl)
      fun v => by rw [fieldShapes_set, ← Shape.ofJson]
  | case6 key rest there hlist hlonger hfield hdeeper =>
    cases there <;> cases rest <;> simp_all [put, look, Shape.ofJson, Agrees]

end Store

/-! ## Expanding scalars -/

/-- What is placed below an object is an object. -/
theorem place_obj {value : Json} {keys : List String} {fields : Entries Json} {v : Json}
    (h : place value keys (.obj fields) = .ok v) : ∃ fields', v = .obj fields' := by
  match keys with
  | [] => exact ⟨fields, by simpa [place, eq_comm] using h⟩
  | [key] => exact ⟨fields.set key value, by simpa [place, eq_comm] using h⟩
  | key :: next :: rest =>
    simp only [place, bind, Except.bind] at h
    split at h
    · simp at h
    · exact ⟨_, (Except.ok.inj h).symm⟩

/-- Parameters that were given neither lists nor objects. -/
def Scalars (params : Entries Param) : Prop := ∀ e ∈ params, e.2.value.isContainer = false

namespace Store

variable {params : Entries Param}

theorem ofParams_scalars (h : Scalars params) : ofParams params = [] := by
  unfold ofParams
  rw [List.filterMap_eq_nil_iff]
  intro e he
  simp [h e he]

/-- Scalars are placed one after the other as `expand` places them. -/
theorem putAll_scalars (store : Store) (h : Scalars params) (fields : Entries Json) :
    putAll params store (.table (fieldShapes fields)) =
      ((params.foldlM expandOne fields).map fun fields => .table (fieldShapes fields), store) := by
  induction params generalizing fields with
  | nil => rfl
  | cons e params ih =>
    obtain ⟨name, p⟩ := e
    obtain ⟨hp, hparams⟩ := List.forall_mem_cons.mp h
    have hput := put_ofJson store p.decoded (segments name) (.obj fields)
    rw [List.foldlM_cons, expandOne, putAll, if_neg (by simpa using hp), ← Shape.ofJson]
    generalize put (.ofJson p.decoded) (segments name) store (.ofJson (.obj fields)) = placed at hput ⊢
    obtain ⟨s, store', fault⟩ := placed
    cases hplace : place p.decoded (segments name) (.obj fields) with
    | error e =>
      rw [hplace] at hput
      obtain ⟨rfl, rfl⟩ := hput
      rfl
    | ok v =>
      obtain ⟨fields', rfl⟩ := place_obj hplace
      rw [hplace] at hput
      obtain ⟨rfl, rfl, rfl⟩ := hput
      exact ih hparams fields'

theorem expand_scalars (store : Store) (h : Scalars params) :
    expand params store = (ApiManual.expand params, store) := by
  unfold expand ApiManual.expand
  rw [show Shape.table [] = .table (fieldShapes []) from rfl, putAll_scalars store h]
  cases params.foldlM expandOne [] with
  | error f => rfl
  | ok fields => simp [Except.map, Shape.value, fieldValues_fieldShapes, Json.members]

/-- Without a store, parameters keep their values. -/
theorem settle_nil (params : Entries Param) : settle params [] = params := by
  unfold settle values valuesTo
  simp

end Store

end ApiManual
