import ApiManual.Proofs.Param.Places

/-!
# Parameters in another order

Parameters whose names part can be expanded in any order: the values are the same but for the order of
the fields of objects.

* `SameButOrder`: two values that differ in nothing but the order of fields.
* `place_eq`: placing a value as one step into a cell, and `placeBelow` as what happens behind it.
* `Diverge`: keys that enter a common container in the same way and go to different cells.
* `place_congr`, `place_comm`: placing a value keeps `SameButOrder`, and two values whose keys diverge can be
  placed in either order.
* `foldlM_expandOne_perm`: so can all parameters.
-/

namespace ApiManual

/-! ## The same but for the order of fields -/

/-- The values under a name; a name that was set comes once. -/
def Entries.under {α : Type} (entries : Entries α) (name : String) : List α :=
  entries.filterMap fun entry => if entry.1 = name then some entry.2 else none

namespace Entries

variable {α : Type}

theorem under_cons (n : String) (v : α) (entries : Entries α) (name : String) :
    under ((n, v) :: entries) name = if n = name then v :: under entries name else under entries name := by
  unfold under
  split <;> simp_all

theorem head?_under (entries : Entries α) (name : String) : (entries.under name).head? = entries.get? name := by
  induction entries with
  | nil => rfl
  | cons entry entries ih =>
    obtain ⟨n, v⟩ := entry
    rw [under_cons]
    by_cases hn : n = name
    · simp [hn, get?]
    · have hget : get? ((n, v) :: entries) name = get? entries name := by
        simp [get?, List.lookup_cons, beq_false_of_ne (Ne.symm hn)]
      rw [if_neg hn, hget, ih]

theorem under_set (entries : Entries α) (name : String) (value : α) (other : String) :
    (entries.set name value).under other =
      if other = name then value :: (entries.under name).tail else entries.under other := by
  induction entries with
  | nil => by_cases h : name = other <;> simp [set, under, h, eq_comm (a := other)]
  | cons entry entries ih =>
    obtain ⟨n, v⟩ := entry
    by_cases hn : n = name
    · by_cases ho : other = name
      · simp [set, under_cons, hn, ho]
      · simp [set, under_cons, hn, ho, Ne.symm ho]
    · rw [set, if_neg hn, under_cons, under_cons n v entries name, under_cons n v entries other, ih]
      by_cases ho : other = name
      · simp [ho, hn]
      · simp [ho]

end Entries

/-- Two values that are the same but for the order of the fields of objects: a list holds item by item, and an
object under every name, values that are the same in this sense. -/
inductive SameButOrder : Json → Json → Prop
  | same (v : Json) : SameButOrder v v
  | list {items items' : List Json} (each : List.Forall₂ SameButOrder items items') :
      SameButOrder (.arr items) (.arr items')
  | object {fields fields' : Entries Json}
      (each : ∀ name, List.Forall₂ SameButOrder (fields.under name) (fields'.under name)) :
      SameButOrder (.obj fields) (.obj fields')

theorem forall₂_getElem? {α : Type} {R : α → α → Prop} {xs ys : List α} (h : List.Forall₂ R xs ys)
    (i : Nat) :
    Option.Rel R xs[i]? ys[i]? := by
  induction h generalizing i with
  | nil => exact .none
  | cons hxy _ ih =>
    cases i with
    | zero => exact .some hxy
    | succ i => exact ih i

theorem forall₂_tail {α : Type} {R : α → α → Prop} {xs ys : List α} (h : List.Forall₂ R xs ys) :
    List.Forall₂ R xs.tail ys.tail := by
  cases h with
  | nil => exact .nil
  | cons _ hrest => exact hrest

theorem forall₂_setItem {α : Type} {R : α → α → Prop} {xs ys : List α} (h : List.Forall₂ R xs ys) (i : Nat)
    {filler x y : α} (hfiller : R filler filler) (hxy : R x y) :
    List.Forall₂ R (setItem filler xs i x) (setItem filler ys i y) := by
  induction i generalizing xs ys with
  | zero =>
    cases h with
    | nil => exact .cons hxy .nil
    | cons _ hrest => exact .cons hxy hrest
  | succ i ih =>
    cases h with
    | nil => exact .cons hfiller (ih .nil)
    | cons hfirst hrest => exact .cons hfirst (ih hrest)

namespace SameButOrder

variable {v w x y : Json}

theorem items {xs : List Json} (h : SameButOrder (.arr xs) w) :
    ∃ ys, w = .arr ys ∧ List.Forall₂ SameButOrder xs ys := by
  cases h with
  | same => exact ⟨xs, rfl, List.forall₂_same.mpr fun x _ => .same x⟩
  | list each => exact ⟨_, rfl, each⟩

theorem fields {es : Entries Json} (h : SameButOrder (.obj es) w) :
    ∃ fs : Entries Json, w = .obj fs ∧ ∀ name, List.Forall₂ SameButOrder (es.under name) (fs.under name) := by
  cases h with
  | same => exact ⟨es, rfl, fun name => List.forall₂_same.mpr fun x _ => .same x⟩
  | object each => exact ⟨_, rfl, each⟩

theorem trans {u : Json} (h : SameButOrder u v) : ∀ {w}, SameButOrder v w → SameButOrder u w := by
  -- lists of values are compared item by item, so the induction goes over them too
  refine @SameButOrder.rec (fun u v _ => ∀ {w}, SameButOrder v w → SameButOrder u w)
    (fun xs ys _ => ∀ {zs}, List.Forall₂ SameButOrder ys zs → List.Forall₂ SameButOrder xs zs)
    ?same ?list ?object ?nil ?cons u v h
  case same => exact fun v w hw => hw
  case list =>
    intro xs ys _ ih w hw
    obtain ⟨zs, rfl, hzs⟩ := hw.items
    exact .list (ih hzs)
  case object =>
    intro es fs _ ih w hw
    obtain ⟨gs, rfl, hgs⟩ := hw.fields
    exact .object fun name => ih name (hgs name)
  case nil => exact fun hzs => hzs
  case cons =>
    intro x y xs ys _ _ ih ihs zs hzs
    cases hzs with
    | cons hz hzs => exact .cons (ih hz) (ihs hzs)

theorem isContainer_eq (h : SameButOrder v w) : v.isContainer = w.isContainer := by
  cases h <;> rfl

theorem containerFor (h : SameButOrder v w) (next : String) :
    SameButOrder (containerFor next v) (containerFor next w) := by
  unfold ApiManual.containerFor
  rw [← h.isContainer_eq]
  split
  · exact h
  · exact .same _

theorem cell? (h : SameButOrder v w) (cell : Cell) : Option.Rel SameButOrder (v.cell? cell) (w.cell? cell) := by
  cases v with
  | obj es =>
    obtain ⟨fs, rfl, each⟩ := h.fields
    cases cell with
    | field name =>
      simp only [Json.cell?, ← Entries.head?_under, List.head?_eq_getElem?]
      exact forall₂_getElem? (each name) 0
    | item i => exact .none
  | arr xs =>
    obtain ⟨ys, rfl, each⟩ := h.items
    cases cell with
    | field name => exact .none
    | item i => exact forall₂_getElem? each i
  | _ =>
    cases h
    exact .none

theorem getD_cell? (h : SameButOrder v w) (cell : Cell) :
    SameButOrder ((v.cell? cell).getD .null) ((w.cell? cell).getD .null) := by
  have hrel := h.cell? cell
  generalize v.cell? cell = held, w.cell? cell = held' at hrel
  cases hrel with
  | none => exact .same _
  | some hrel => exact hrel

theorem setCell (h : SameButOrder v w) (cell : Cell) (hxy : SameButOrder x y) :
    SameButOrder (v.setCell cell x) (w.setCell cell y) := by
  cases v with
  | obj es =>
    obtain ⟨fs, rfl, each⟩ := h.fields
    cases cell with
    | item i => exact h
    | field name =>
      refine .object fun other => ?_
      rw [Entries.under_set, Entries.under_set]
      split
      · exact .cons hxy (forall₂_tail (each name))
      · exact each other
  | arr xs =>
    obtain ⟨ys, rfl, each⟩ := h.items
    cases cell with
    | item i => exact .list (forall₂_setItem each i (.same _) hxy)
    | field name => exact h
  | _ => cases h; exact .same _

end SameButOrder

/-! ## Placing as one step -/

theorem length_setItem {α : Type} (filler : α) (items : List α) (i : Nat) (v : α) :
    (setItem filler items i v).length = max items.length (i + 1) := by
  fun_induction setItem filler items i v <;> simp_all

theorem setItem_setItem {α : Type} (filler : α) (items : List α) (i : Nat) (v w : α) :
    setItem filler (setItem filler items i v) i w = setItem filler items i w := by
  fun_induction setItem filler items i v <;> simp_all [setItem]

namespace Json

/-- The cell that a key means in a container, or why it means none. -/
def cellIn : Json → String → Except Misplaced Cell
  | .obj _, key => .ok (.field key)
  | _, key => (listIndex key).map .item

theorem cellOf?_of_cellIn {v : Json} {key : String} {cell : Cell} (hv : v.isContainer = true)
    (h : v.cellIn key = .ok cell) : v.cellOf? key = some cell := by
  cases v with
  | obj fields => exact congrArg some (Except.ok.inj h)
  | arr items =>
    simp only [cellIn] at h
    simp only [cellOf?]
    cases hkey : listIndex key with
    | error e => simp [hkey, Except.map] at h
    | ok i =>
      rw [hkey] at h
      exact congrArg some (Except.ok.inj h)
  | _ => simp [isContainer] at hv

theorem cellIn_setCell (v : Json) (cell : Cell) (child : Json) (key : String) :
    (v.setCell cell child).cellIn key = v.cellIn key := by
  cases v <;> cases cell <;> rfl

/-- What another cell holds stays, where nothing counts as null. -/
theorem getD_cell?_setCell (v : Json) {cell other : Cell} (h : other ≠ cell) (child : Json) :
    ((v.setCell cell child).cell? other).getD .null = (v.cell? other).getD .null := by
  cases hnew : (v.setCell cell child).cell? other with
  | none =>
    cases hold : v.cell? other with
    | none => rfl
    | some held => rw [cell?_setCell_of_some h hold] at hnew; cases hnew
  | some held =>
    rcases cell?_of_setCell h hnew with hold | ⟨hold, -, rfl⟩
    · rw [hold]
    · rw [hold]
      rfl

theorem setCell_setCell (v : Json) (cell : Cell) (x y : Json) :
    (v.setCell cell x).setCell cell y = v.setCell cell y := by
  cases v with
  | obj fields =>
    cases cell with
    | field name => exact congrArg Json.obj (Entries.set_set fields name x y)
    | item i => rfl
  | arr items =>
    cases cell with
    | field name => rfl
    | item i => exact congrArg Json.arr (setItem_setItem .null items i x y)
  | _ => rfl

/-- Two cells are written in either order. -/
theorem setCell_comm (v : Json) {cell other : Cell} (h : cell ≠ other) (x y : Json) :
    SameButOrder ((v.setCell cell x).setCell other y) ((v.setCell other y).setCell cell x) := by
  cases v with
  | obj fields =>
    cases cell with
    | item i => cases other <;> exact .same _
    | field name =>
      cases other with
      | item i => exact .same _
      | field name' =>
        refine .object fun n => ?_
        have hname : name ≠ name' := fun heq => h (congrArg Cell.field heq)
        have heq : Entries.under (Entries.set (Entries.set fields name x) name' y) n =
            Entries.under (Entries.set (Entries.set fields name' y) name x) n := by
          simp only [Entries.under_set]
          by_cases h₁ : n = name <;> by_cases h₂ : n = name' <;> simp_all
        rw [heq]
        exact List.forall₂_same.mpr fun z _ => .same z
  | arr items =>
    cases cell with
    | field name => cases other <;> exact .same _
    | item i =>
      cases other with
      | field name => exact .same _
      | item j =>
        have hij : i ≠ j := fun heq => h (congrArg Cell.item heq)
        have heq : setItem .null (setItem .null items i x) j y = setItem .null (setItem .null items j y) i x := by
          refine List.ext_getElem? fun k => ?_
          simp only [getElem?_setItem, length_setItem]
          grind
        simp only [setCell, heq]
        exact .same _
  | _ => exact .same _

end Json

theorem SameButOrder.cellIn_eq {v w : Json} (h : SameButOrder v w) (key : String) : v.cellIn key = w.cellIn key := by
  cases h <;> rfl

/-- The value that takes the place of what a cell holds: the value itself, or the container in the cell after
the rest of the keys. -/
def placeBelow (value : Json) : List String → Json → Except Misplaced Json
  | [], _ => .ok value
  | next :: rest, there => place value (next :: rest) (containerFor next there)

theorem place_eq (value : Json) (key : String) (keys : List String) {v : Json} (hv : v.isContainer = true) :
    place value (key :: keys) v = (do
      let cell ← v.cellIn key
      let child ← placeBelow value keys ((v.cell? cell).getD .null)
      .ok (v.setCell cell child)) := by
  cases v with
  | obj fields =>
    cases keys with
    | nil => rfl
    | cons next rest => rfl
  | arr items =>
    have hhead (i : Nat) : items.getD i .null = items[i]?.getD .null := List.getD_eq_getElem?_getD
    cases keys with
    | nil =>
      simp only [place, Json.cellIn]
      cases listIndex key <;> rfl
    | cons next rest =>
      simp only [place, Json.cellIn, hhead]
      cases listIndex key <;> rfl
  | _ => simp [Json.isContainer] at hv

theorem place_container {value : Json} {key : String} {keys : List String} {v v' : Json} (hv : v.isContainer = true)
    (h : place value (key :: keys) v = .ok v') :
    ∃ cell child, v.cellIn key = .ok cell ∧ placeBelow value keys ((v.cell? cell).getD .null) = .ok child ∧
      v' = v.setCell cell child := by
  rw [place_eq value key keys hv] at h
  obtain ⟨cell, hcell, h⟩ := of_bind_ok h
  obtain ⟨child, hchild, h⟩ := of_bind_ok h
  exact ⟨cell, child, hcell, hchild, (Except.ok.inj h).symm⟩

/-- A value that has no place fails at the key, or below the cell that the key means. -/
theorem place_error {value : Json} {key : String} {keys : List String} {v : Json} {e : Misplaced}
    (hv : v.isContainer = true) (h : place value (key :: keys) v = .error e) :
    v.cellIn key = .error e ∨
      ∃ cell, v.cellIn key = .ok cell ∧ placeBelow value keys ((v.cell? cell).getD .null) = .error e := by
  rw [place_eq value key keys hv] at h
  cases hcell : v.cellIn key with
  | error e' =>
    rw [hcell] at h
    exact .inl (congrArg _ (Except.error.inj h))
  | ok cell =>
    rw [hcell] at h
    refine .inr ⟨cell, rfl, ?_⟩
    cases hchild : placeBelow value keys ((v.cell? cell).getD .null) with
    | error e' =>
      simp only [bind, Except.bind, hchild] at h
      exact congrArg _ (Except.error.inj h)
    | ok child =>
      simp only [bind, Except.bind, hchild] at h
      cases h

theorem place_of_below {value : Json} {key : String} {keys : List String} {v child : Json} {cell : Cell}
    (hv : v.isContainer = true) (hcell : v.cellIn key = .ok cell)
    (hchild : placeBelow value keys ((v.cell? cell).getD .null) = .ok child) :
    place value (key :: keys) v = .ok (v.setCell cell child) := by
  rw [place_eq value key keys hv]
  simp only [hcell, bind, Except.bind, hchild]

theorem isContainer_of_place {value : Json} {key : String} {keys : List String} {v v' : Json}
    (hv : v.isContainer = true) (h : place value (key :: keys) v = .ok v') : v'.isContainer = true := by
  obtain ⟨cell, child, -, -, rfl⟩ := place_container hv h
  exact (Json.isContainer_setCell ..).trans hv

/-! ## Placing into values that differ in order -/

theorem place_congr_of {value : Json} {keys : List String}
    (hbelow : ∀ x y, SameButOrder x y →
      SameOutcome SameButOrder (placeBelow value keys x) (placeBelow value keys y))
    (key : String) {v w : Json} (h : SameButOrder v w) (hv : v.isContainer = true) :
    SameOutcome SameButOrder (place value (key :: keys) v) (place value (key :: keys) w) := by
  rw [place_eq value key keys hv, place_eq value key keys (h.isContainer_eq ▸ hv), ← h.cellIn_eq key]
  cases v.cellIn key with
  | error e => exact .error e
  | ok cell =>
    refine (hbelow _ _ (h.getD_cell? cell)).bind fun x y hxy => ?_
    exact .ok (h.setCell cell hxy)

theorem below_congr {value : Json} (keys : List String) {v w : Json} (h : SameButOrder v w) :
    SameOutcome SameButOrder (placeBelow value keys v) (placeBelow value keys w) := by
  induction keys generalizing v w with
  | nil => exact .ok (.same value)
  | cons key keys ih =>
    exact place_congr_of (fun x y hxy => ih hxy) key (h.containerFor key) (containerFor_isContainer key v)

/-- A value is placed in the same way into values that differ in nothing but order. -/
theorem place_congr {value : Json} {keys : List String} (hkeys : keys ≠ []) {v w : Json} (h : SameButOrder v w)
    (hv : v.isContainer = true) : SameOutcome SameButOrder (place value keys v) (place value keys w) := by
  cases keys with
  | nil => exact absurd rfl hkeys
  | cons key keys => exact place_congr_of (fun x y hxy => below_congr keys hxy) key h hv

/-! ## Two values in either order -/

/-- Keys that enter a common container in the same way, by index or by name, and go to different cells. -/
def Diverge : List String → List String → Prop
  | key :: keys, other :: others =>
    Text.isDigits key.toList = Text.isDigits other.toList ∧ (SameKey key other → Diverge keys others)
  | _, _ => False

/-- Two values that are placed below a cell can be placed in either order. -/
def Exchangeable (keys others : List String) : Prop :=
  ∀ ⦃x y there v₁ v₂ : Json⦄, placeBelow x keys there = .ok v₁ → placeBelow y others v₁ = .ok v₂ →
    ∃ w₁ w₂, placeBelow y others there = .ok w₁ ∧ placeBelow x keys w₁ = .ok w₂ ∧ SameButOrder v₂ w₂

theorem place_comm_of {key other : String} {keys others : List String} {x y v v₁ v₂ : Json}
    (hv : v.isContainer = true)
    (hsame : ∀ cell, v.cellIn key = .ok cell → v.cellIn other = .ok cell → Exchangeable keys others)
    (h₁ : place x (key :: keys) v = .ok v₁) (h₂ : place y (other :: others) v₁ = .ok v₂) :
    ∃ w₁ w₂, place y (other :: others) v = .ok w₁ ∧ place x (key :: keys) w₁ = .ok w₂ ∧
      SameButOrder v₂ w₂ := by
  obtain ⟨cell, child₁, hcell, hchild₁, rfl⟩ := place_container hv h₁
  obtain ⟨cell', child₂, hcell', hchild₂, rfl⟩ := place_container ((Json.isContainer_setCell ..).trans hv) h₂
  rw [Json.cellIn_setCell] at hcell'
  by_cases heq : cell = cell'
  · subst heq
    -- both go on below one cell
    have hself (child : Json) : ((v.setCell cell child).cell? cell).getD .null = child := by
      rw [Json.cell?_setCell_self (Json.cellOf?_of_cellIn hv hcell)]
      rfl
    rw [hself] at hchild₂
    obtain ⟨w₁, w₂, hw₁, hw₂, hrel⟩ := hsame cell hcell hcell' hchild₁ hchild₂
    refine ⟨v.setCell cell w₁, (v.setCell cell w₁).setCell cell w₂, place_of_below hv hcell' hw₁, ?_, ?_⟩
    · refine place_of_below ((Json.isContainer_setCell ..).trans hv) ((Json.cellIn_setCell ..).trans hcell) ?_
      rw [hself]
      exact hw₂
    · rw [Json.setCell_setCell, Json.setCell_setCell]
      exact (SameButOrder.same v).setCell cell hrel
  · rw [Json.getD_cell?_setCell _ (Ne.symm heq)] at hchild₂
    refine ⟨v.setCell cell' child₂, (v.setCell cell' child₂).setCell cell child₁,
      place_of_below hv hcell' hchild₂, ?_, v.setCell_comm heq child₁ child₂⟩
    refine place_of_below ((Json.isContainer_setCell ..).trans hv) ((Json.cellIn_setCell ..).trans hcell) ?_
    rw [Json.getD_cell?_setCell _ heq]
    exact hchild₁

theorem containerFor_of_isContainer {there : Json} (h : there.isContainer = true) (next : String) :
    containerFor next there = there := if_pos h

/-- A container is made for a key only by whether it is digits. -/
theorem containerFor_congr {next next' : String} (h : Text.isDigits next.toList = Text.isDigits next'.toList)
    (there : Json) : containerFor next there = containerFor next' there := by
  unfold containerFor
  rw [h]

theorem Diverge.exchangeable {keys others : List String} (h : Diverge keys others) : Exchangeable keys others := by
  induction keys generalizing others with
  | nil => exact h.elim
  | cons key keys ih =>
    cases others with
    | nil => exact h.elim
    | cons other others =>
      obtain ⟨hdigits, hrest⟩ := h
      intro x y there v₁ v₂ h₁ h₂
      have hv : (containerFor key there).isContainer = true := containerFor_isContainer key there
      simp only [placeBelow] at h₁ h₂ ⊢
      rw [containerFor_of_isContainer (isContainer_of_place hv h₁)] at h₂
      have hsame (cell : Cell) (hcell : (containerFor key there).cellIn key = .ok cell)
          (hcell' : (containerFor key there).cellIn other = .ok cell) : Exchangeable keys others :=
        ih (hrest (sameKey_of_cellOf? (Json.cellOf?_of_cellIn hv hcell) (Json.cellOf?_of_cellIn hv hcell')))
      obtain ⟨w₁, w₂, hw₁, hw₂, hrel⟩ := place_comm_of hv hsame h₁ h₂
      rw [← containerFor_congr hdigits]
      refine ⟨w₁, w₂, hw₁, ?_, hrel⟩
      rw [containerFor_of_isContainer (isContainer_of_place hv hw₁)]
      exact hw₂

/-- Keys of two names that part: they begin with different fields, or diverge below one. -/
def Part : List String → List String → Prop
  | key :: keys, other :: others => key = other → Diverge keys others
  | _, _ => False

instance decidableDiverge : ∀ keys others, Decidable (Diverge keys others)
  | key :: keys, other :: others =>
    have := decidableDiverge keys others
    inferInstanceAs (Decidable (Text.isDigits key.toList = Text.isDigits other.toList ∧
      (SameKey key other → Diverge keys others)))
  | [], _ => .isFalse id
  | _ :: _, [] => .isFalse id

instance : ∀ keys others, Decidable (Part keys others)
  | key :: keys, other :: others => inferInstanceAs (Decidable (key = other → Diverge keys others))
  | [], _ => .isFalse id
  | _ :: _, [] => .isFalse id

theorem Diverge.symm {keys others : List String} (h : Diverge keys others) : Diverge others keys := by
  induction keys generalizing others with
  | nil => exact h.elim
  | cons key keys ih =>
    cases others with
    | nil => exact h.elim
    | cons other others => exact ⟨h.1.symm, fun hkey => ih (h.2 hkey.symm)⟩

theorem Part.symm {keys others : List String} (h : Part keys others) : Part others keys := by
  cases keys with
  | nil => exact h.elim
  | cons key keys =>
    cases others with
    | nil => exact h.elim
    | cons other others => exact fun hkey => (h hkey.symm).symm

/-- Two values whose keys part are placed into an object in either order. -/
theorem place_comm {keys others : List String} (h : Part keys others) {x y v₁ v₂ : Json} {fields : Entries Json}
    (h₁ : place x keys (.obj fields) = .ok v₁) (h₂ : place y others v₁ = .ok v₂) :
    ∃ w₁ w₂, place y others (.obj fields) = .ok w₁ ∧ place x keys w₁ = .ok w₂ ∧
      SameButOrder v₂ w₂ := by
  cases keys with
  | nil => exact h.elim
  | cons key keys =>
    cases others with
    | nil => exact h.elim
    | cons other others =>
      refine place_comm_of rfl (fun cell hcell hcell' => ?_) h₁ h₂
      have hkey : key = other := Cell.field.inj (Except.ok.inj (hcell.trans hcell'.symm))
      exact (h hkey).exchangeable

/-! ## All parameters -/

/-- Two parameters whose names part. -/
def NamesPart (e f : String × Param) : Prop := Part (segments e.1) (segments f.1)

theorem NamesPart.symm {e f : String × Param} (h : NamesPart e f) : NamesPart f e := Part.symm h

theorem expandOne_ok_iff {fields fields' : Entries Json} {e : String × Param} :
    expandOne fields e = .ok fields' ↔ place e.2.decoded (segments e.1) (.obj fields) = .ok (.obj fields') := by
  unfold expandOne
  cases hplace : place e.2.decoded (segments e.1) (.obj fields) with
  | error cause => simp
  | ok v =>
    obtain ⟨values, rfl⟩ := place_obj hplace
    simp [Json.members]

theorem expandOne_congr {fields fields' : Entries Json} (h : SameButOrder (.obj fields) (.obj fields'))
    (e : String × Param) :
    SameOutcome (fun values values' => SameButOrder (.obj values) (.obj values')) (expandOne fields e)
      (expandOne fields' e) := by
  have hplace : SameOutcome SameButOrder (place e.2.decoded (segments e.1) (.obj fields))
      (place e.2.decoded (segments e.1) (.obj fields')) := place_congr (segments_ne_nil e.1) h rfl
  unfold expandOne
  cases hv : place e.2.decoded (segments e.1) (.obj fields) with
  | error cause =>
    rw [(hplace.error_iff cause).mp hv]
    exact .error _
  | ok v =>
    obtain ⟨w, hw⟩ := hplace.ok_iff.mp ⟨v, hv⟩
    rw [hv, hw] at hplace
    rw [hw]
    obtain ⟨values, rfl⟩ := place_obj hv
    obtain ⟨values', rfl⟩ := place_obj hw
    cases hplace with
    | ok hrel => exact .ok hrel

theorem foldlM_expandOne_congr {fields fields' : Entries Json} (h : SameButOrder (.obj fields) (.obj fields'))
    (params : Entries Param) :
    SameOutcome (fun values values' => SameButOrder (.obj values) (.obj values')) (params.foldlM expandOne fields)
      (params.foldlM expandOne fields') := by
  induction params generalizing fields fields' with
  | nil => exact .ok h
  | cons e params ih =>
    rw [List.foldlM_cons, List.foldlM_cons]
    exact (expandOne_congr h e).bind fun values values' hvalues => ih hvalues

/-- Two parameters whose names part are expanded in either order. -/
theorem expandOne_comm {e f : String × Param} (h : NamesPart e f) {fields first values : Entries Json}
    (h₁ : expandOne fields e = .ok first) (h₂ : expandOne first f = .ok values) :
    ∃ first' values', expandOne fields f = .ok first' ∧ expandOne first' e = .ok values' ∧
      SameButOrder (.obj values) (.obj values') := by
  simp only [expandOne_ok_iff] at h₁ h₂ ⊢
  obtain ⟨w₁, w₂, hw₁, hw₂, hrel⟩ := place_comm h h₁ h₂
  obtain ⟨first', rfl⟩ := place_obj hw₁
  obtain ⟨values', rfl⟩ := place_obj hw₂
  exact ⟨first', values', hw₁, hw₂, hrel⟩

/-- Parameters whose names part are expanded in every order, if they are in one: the values are the same but
for the order of fields. -/
theorem foldlM_expandOne_perm {params params' : Entries Param} (hperm : params.Perm params')
    (hpart : params.Pairwise NamesPart) {fields values : Entries Json}
    (h : params.foldlM expandOne fields = .ok values) :
    ∃ values', params'.foldlM expandOne fields = .ok values' ∧ SameButOrder (.obj values) (.obj values') := by
  induction hperm generalizing fields values with
  | nil => exact ⟨values, h, .same _⟩
  | cons e hperm ih =>
    rw [List.foldlM_cons] at h
    obtain ⟨first, hfirst, h⟩ := of_bind_ok h
    obtain ⟨values', hvalues', hrel⟩ := ih (List.pairwise_cons.mp hpart).2 h
    refine ⟨values', ?_, hrel⟩
    rw [List.foldlM_cons, hfirst]
    exact hvalues'
  | swap f e params =>
    rw [List.foldlM_cons] at h
    obtain ⟨first, hfirst, h⟩ := of_bind_ok h
    rw [List.foldlM_cons] at h
    obtain ⟨second, hsecond, h⟩ := of_bind_ok h
    have hnames : NamesPart e f := (List.pairwise_cons.mp hpart).1 f List.mem_cons_self
    obtain ⟨first', second', hfirst', hsecond', hrel⟩ := expandOne_comm hnames hfirst hsecond
    have hrest := foldlM_expandOne_congr hrel params
    obtain ⟨values', hvalues'⟩ := hrest.ok_iff.mp ⟨values, h⟩
    refine ⟨values', ?_, ?_⟩
    · rw [List.foldlM_cons, hfirst']
      show List.foldlM expandOne first' (e :: params) = .ok values'
      rw [List.foldlM_cons, hsecond']
      exact hvalues'
    · rw [h, hvalues'] at hrest
      cases hrest with
      | ok hrel => exact hrel
  | trans hperm _ ih ih' =>
    obtain ⟨values', hvalues', hrel⟩ := ih hpart h
    have hpart' := (hperm.pairwise_iff NamesPart.symm).mp hpart
    obtain ⟨values'', hvalues'', hrel'⟩ := ih' hpart' hvalues'
    exact ⟨values'', hvalues'', hrel.trans hrel'⟩

end ApiManual
