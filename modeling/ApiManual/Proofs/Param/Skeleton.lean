import ApiManual.Param.Nested
import ApiManual.Proofs.Param.Numbers
import ApiManual.Proofs.Results
import Mathlib.Data.List.Forall2
import Mathlib.Data.List.GetD

/-!
# Expansion and the skeletons of values

Whether names can be expanded together does not hang on the scalars that they place. `Json.skeleton`
forgets these and keeps lists, objects and the floats that are infinite or no number.

* `place_skeleton`: placing a value and forgetting scalars commute.
* `Param.Alike`: two parameters that differ at most in such scalars of their values.
* `expand_alike`, `expandRead_alike`: parameters that are alike expand to the same skeleton, or fail alike.
* `expandRead_ok_iff`: values that are read expand if none of them is overlong and their names expand.
* `Param.ofTag_alike`: a tag read with two generators fails alike, or declares parameters that are alike.
-/

namespace ApiManual

/-! ## Skeletons -/

mutual

/-- The lists and objects of a value, with null for every scalar but a float that is not finite. -/
def Json.skeleton : Json → Json
  | .arr items => .arr (itemSkeletons items)
  | .obj fields => .obj (fieldSkeletons fields)
  | .float x => if x.isFinite then .null else .float x
  | _ => .null

def itemSkeletons : List Json → List Json
  | [] => []
  | item :: items => item.skeleton :: itemSkeletons items

def fieldSkeletons : List (String × Json) → List (String × Json)
  | [] => []
  | (name, v) :: fields => (name, v.skeleton) :: fieldSkeletons fields

end

@[simp]
theorem skeleton_isContainer (v : Json) : v.skeleton.isContainer = v.isContainer := by
  cases v with
  | float x =>
    rw [Json.skeleton]
    split <;> rfl
  | _ => rfl

/-- The skeleton of a finite scalar is null. -/
theorem skeleton_eq_null {v : Json} (h : v.isContainer = false) (hfinite : v.Finite) : v.skeleton = .null := by
  cases v with
  | arr items => cases h
  | obj fields => cases h
  | float x => exact if_pos (Json.each_float.mp hfinite)
  | _ => rfl

theorem itemSkeletons_eq_map (items : List Json) : itemSkeletons items = items.map Json.skeleton := by
  induction items with
  | nil => rfl
  | cons item items ih => rw [itemSkeletons, ih, List.map_cons]

theorem fieldSkeletons_eq_map (fields : Entries Json) :
    fieldSkeletons fields = fields.map fun e => (e.1, e.2.skeleton) := by
  induction fields with
  | nil => rfl
  | cons field fields ih => rw [fieldSkeletons, ih, List.map_cons]

theorem map_setItem {α β : Type} (f : α → β) (filler : α) (items : List α) (i : Nat) (v : α) :
    (setItem filler items i v).map f = setItem (f filler) (items.map f) i (f v) := by
  fun_induction setItem filler items i v with
  | case1 | case3 => rfl
  | case2 i v ih | case4 item items i v ih => simp_all [setItem]

theorem itemSkeletons_getD (items : List Json) (i : Nat) :
    (itemSkeletons items).getD i .null = (items.getD i .null).skeleton := by
  rw [itemSkeletons_eq_map]
  exact List.getD_map items .null Json.skeleton

theorem itemSkeletons_setItem (items : List Json) (i : Nat) (v : Json) :
    itemSkeletons (setItem .null items i v) = setItem .null (itemSkeletons items) i v.skeleton := by
  rw [itemSkeletons_eq_map, itemSkeletons_eq_map]
  exact map_setItem Json.skeleton .null items i v

theorem fieldSkeletons_get? (fields : Entries Json) (key : String) :
    ((Entries.get? (fieldSkeletons fields) key).getD .null) =
      ((Entries.get? fields key).getD .null).skeleton := by
  rw [fieldSkeletons_eq_map, Entries.get?_map]
  cases Entries.get? fields key <;> rfl

theorem fieldSkeletons_set (fields : Entries Json) (key : String) (v : Json) :
    fieldSkeletons (Entries.set fields key v) = Entries.set (fieldSkeletons fields) key v.skeleton := by
  rw [fieldSkeletons_eq_map, fieldSkeletons_eq_map]
  exact Entries.map_set Json.skeleton fields key v

theorem containerFor_skeleton (next : String) (there : Json) :
    (containerFor next there).skeleton = containerFor next there.skeleton := by
  unfold containerFor
  rw [skeleton_isContainer]
  split
  · rfl
  · split <;> rfl

/-! ## Expansion -/

/-- Nothing is placed below a scalar. -/
theorem place_scalar {value there : Json} {path : List String} (h : there.isContainer = false) :
    place value path there = .ok there := by
  cases there with
  | arr items => cases h
  | obj fields => cases h
  | _ => rcases path with _ | ⟨key, _ | ⟨next, rest⟩⟩ <;> rfl

theorem place_skeleton (value : Json) (path : List String) (there : Json) :
    (place value path there).map Json.skeleton = place value.skeleton path there.skeleton := by
  fun_induction place value path there with
  | case1 there => rfl
  | case2 key items =>
    simp only [Json.skeleton, place]
    cases listIndex key with
    | error e => rfl
    | ok i => simp [bind, Except.bind, Except.map, Json.skeleton, itemSkeletons_setItem]
  | case3 key next rest items ih =>
    simp only [Json.skeleton, place]
    cases listIndex key with
    | error e => rfl
    | ok i =>
      simp only [bind, Except.bind]
      rw [itemSkeletons_getD, ← containerFor_skeleton, ← ih i]
      cases place value (next :: rest) (containerFor next (items.getD i .null)) with
      | error e => rfl
      | ok child => simp [Except.map, Json.skeleton, itemSkeletons_setItem]
  | case4 key fields => simp [Json.skeleton, place, Except.map, fieldSkeletons_set]
  | case5 key next rest fields ih =>
    simp only [Json.skeleton, place, bind, Except.bind]
    rw [fieldSkeletons_get?, ← containerFor_skeleton, ← ih]
    cases place value (next :: rest) (containerFor next ((Entries.get? fields key).getD .null)) with
    | error e => rfl
    | ok child => simp [Except.map, Json.skeleton, fieldSkeletons_set]
  | case6 key rest there hlist hlonger hfield hdeeper =>
    have hc : there.isContainer = false := by
      cases there <;> cases rest <;> simp_all [Json.isContainer]
    rw [place_scalar (by rw [skeleton_isContainer, hc])]
    rfl

/-! ## Parameters that are alike -/

/-- The value is overlong where it is read. -/
def Param.isOverlong (p : Param) : Bool := p.type.isOverlong p.value

/-- Parameters that differ at most in scalars of their values, all of them finite. -/
structure Param.Alike (p q : Param) : Prop where
  type : p.type = q.type
  description : p.description = q.description
  required : p.required = q.required
  overlong : p.isOverlong = q.isOverlong
  skeleton : p.decoded.skeleton = q.decoded.skeleton

theorem Param.Alike.refl (p : Param) : p.Alike p := ⟨rfl, rfl, rfl, rfl, rfl⟩

/-- Two entries of one name whose parameters are alike. -/
def AlikeEntries (e f : String × Param) : Prop := e.1 = f.1 ∧ e.2.Alike f.2

/-! ## Expansion of parameters that are alike -/

theorem fieldSkeletons_members (v : Json) : fieldSkeletons v.members = v.skeleton.members := by
  cases v with
  | float x =>
    rw [Json.skeleton]
    split <;> rfl
  | _ => rfl

theorem expandOne_alike {fields others : Entries Json} {e f : String × Param}
    (hfields : fieldSkeletons fields = fieldSkeletons others) (h : AlikeEntries e f) :
    SameOutcome (fun a b => fieldSkeletons a = fieldSkeletons b) (expandOne fields e)
      (expandOne others f) := by
  have hplace : (place e.2.decoded (segments e.1) (.obj fields)).map Json.skeleton =
      (place f.2.decoded (segments f.1) (.obj others)).map Json.skeleton := by
    simp only [place_skeleton, Json.skeleton, hfields, h.1, h.2.skeleton]
  unfold expandOne
  rw [h.1] at hplace ⊢
  revert hplace
  generalize place e.2.decoded (segments f.1) (.obj fields) = x
  generalize place f.2.decoded (segments f.1) (.obj others) = y
  intro hplace
  cases SameOutcome.of_map_eq hplace with
  | error e => exact .error _
  | ok hab => exact .ok (by rw [fieldSkeletons_members, fieldSkeletons_members, hab])

/-- Steps that go alike on entries that are alike go alike over all of them. -/
theorem foldlM_alike {step : Entries Json → String × Param → Except Failure (Entries Json)}
    (hstep : ∀ fields others e f, fieldSkeletons fields = fieldSkeletons others → AlikeEntries e f →
      SameOutcome (fun a b => fieldSkeletons a = fieldSkeletons b) (step fields e) (step others f))
    {params others : Entries Param} (h : List.Forall₂ AlikeEntries params others) :
    SameOutcome (fun a b => fieldSkeletons a = fieldSkeletons b) (params.foldlM step []) (others.foldlM step []) := by
  suffices ∀ fields fields', fieldSkeletons fields = fieldSkeletons fields' →
      SameOutcome (fun a b => fieldSkeletons a = fieldSkeletons b) (params.foldlM step fields)
        (others.foldlM step fields') from this [] [] rfl
  induction h with
  | nil => exact fun _ _ hf => .ok hf
  | cons hef _ ih =>
    intro fields fields' hf
    rw [List.foldlM_cons, List.foldlM_cons]
    generalize hx : step fields _ = x
    generalize hy : step fields' _ = y
    have hxy := hstep _ _ _ _ hf hef
    rw [hx, hy] at hxy
    cases hxy with
    | error e => exact .error e
    | ok hab => exact ih _ _ hab

/-- Parameters that are alike expand to values of one skeleton, or fail in the same way. -/
theorem expand_alike {params others : Entries Param} (h : List.Forall₂ AlikeEntries params others) :
    SameOutcome (fun a b => fieldSkeletons a = fieldSkeletons b) (expand params) (expand others) :=
  foldlM_alike (fun _ _ _ _ => expandOne_alike) h

/-! ## Values that are read first -/

theorem expandRead_alike {params others : Entries Param} (h : List.Forall₂ AlikeEntries params others) :
    SameOutcome (fun a b => fieldSkeletons a = fieldSkeletons b) (expandRead params) (expandRead others) := by
  refine foldlM_alike (fun fields fields' e f hfields hef => ?_) h
  have hoverlong : e.2.type.isOverlong e.2.value = f.2.type.isOverlong f.2.value := hef.2.overlong
  unfold expandReadOne
  rw [hoverlong]
  split
  · exact .error _
  · exact expandOne_alike hfields hef

theorem expandReadOne_ok_iff {fields values : Entries Json} {entry : String × Param} :
    expandReadOne fields entry = .ok values ↔ entry.2.isOverlong = false ∧ expandOne fields entry = .ok values := by
  have hone : expandReadOne fields entry =
      if entry.2.isOverlong then .error (.fault .integerTooLong) else expandOne fields entry := rfl
  rw [hone]
  split <;> simp_all

/-- The values of parameters are read and expanded if none of them is overlong and their names expand. -/
theorem expandRead_ok_iff {params : Entries Param} {values : Entries Json} :
    expandRead params = .ok values ↔ (∀ entry ∈ params, entry.2.isOverlong = false) ∧ expand params = .ok values := by
  unfold expandRead expand
  generalize ([] : Entries Json) = fields
  induction params generalizing fields with
  | nil => simp
  | cons entry params ih =>
    rw [List.foldlM_cons, List.foldlM_cons]
    constructor
    · intro h
      obtain ⟨next, hnext, hrest⟩ := of_bind_ok h
      obtain ⟨hentry, hone⟩ := expandReadOne_ok_iff.mp hnext
      obtain ⟨hparams, hexpand⟩ := (ih next).mp hrest
      exact ⟨List.forall_mem_cons.mpr ⟨hentry, hparams⟩, by rw [hone]; exact hexpand⟩
    · rintro ⟨hparams, h⟩
      obtain ⟨hentry, hparams⟩ := List.forall_mem_cons.mp hparams
      obtain ⟨next, hone, hrest⟩ := of_bind_ok h
      rw [expandReadOne_ok_iff.mpr ⟨hentry, hone⟩]
      exact (ih next).mpr ⟨hparams, hrest⟩

/-- Expanding fails at the name of a parameter, or where a value is overlong. -/
theorem expandRead_error {params : Entries Param} {f : Failure} (h : expandRead params = .error f) :
    f = .fault .integerTooLong ∨ ∃ fields, ∃ entry ∈ params, expandOne fields entry = .error f := by
  unfold expandRead at h
  obtain ⟨before, entry, after, fields, rfl, -, hfails⟩ := of_foldlM_error h
  unfold expandReadOne at hfails
  split at hfails
  · exact .inl (Except.error.inj hfails).symm
  · exact .inr ⟨fields, entry, by simp, hfails⟩

/-! ## Reading a tag with two generators -/

/-- A placeholder is a finite scalar, or it is the same for every generator. -/
theorem placeholder_alike (type : ValueType) (description : String) (required : Bool)
    (g g' : Generator) :
    Param.Alike { type, description, required, value := (type.placeholder g).1 }
      { type, description, required, value := (type.placeholder g').1 } := by
  refine ⟨rfl, rfl, rfl, ?_, ?_⟩
  · cases type <;> simp [Param.isOverlong, ValueType.isOverlong, ValueType.placeholder, ValueType.isStructured]
  · have hfinite := placeholder_finite type
    cases type with
    | array | object | json => rfl
    | _ => exact (skeleton_eq_null rfl (hfinite g)).trans (skeleton_eq_null rfl (hfinite g')).symm

theorem Param.ofTag_alike (content : String) (g g' : Generator) :
    SameOutcome AlikeEntries (Param.ofTag content g).1 (Param.ofTag content g').1 := by
  unfold Param.ofTag
  cases TagParts.ofContent content with
  | error d => exact .error d
  | ok parts =>
    cases he : takeExample parts.description (.normalize parts.type) with
    | error d => simp only [he]; exact .error d
    | ok taken =>
      obtain ⟨description, value?⟩ := taken
      cases value? with
      | none => simp only [he]; exact .ok ⟨rfl, placeholder_alike ..⟩
      | some value => simp only [he]; exact .ok ⟨rfl, .refl _⟩

/-- Setting one name on both sides keeps entries related that are related name by name. -/
theorem forall₂_set {α β : Type} {related : String × α → String × β → Prop}
    (hname : ∀ e f, related e f → e.1 = f.1) {entries : Entries α} {others : Entries β} {name : String}
    {value : α} {other : β} (h : List.Forall₂ related entries others)
    (hvalue : related (name, value) (name, other)) :
    List.Forall₂ related (entries.set name value) (others.set name other) := by
  induction h with
  | nil => exact .cons hvalue .nil
  | @cons e f entries others hef hrest ih =>
    obtain ⟨n, v⟩ := e
    obtain ⟨m, w⟩ := f
    obtain rfl : n = m := hname _ _ hef
    by_cases hn : n = name
    · obtain rfl := hn
      simp only [Entries.set, if_true]
      exact .cons hvalue hrest
    · simp only [Entries.set, hn, if_false]
      exact .cons hef ih

end ApiManual
