import ApiManual.Proofs.Param.Scalars
import ApiManual.Sample.Query
import Mathlib.Data.List.Nodup
import Mathlib.Data.List.Perm.Basic

/-!
# The texts of a query

A query string has the texts of fields, of the items of their lists and of the names in their objects. A scalar
is written if it stands in a field or in a list of one.

* `queryLeaves`: the values whose texts are written, with their places. `perm_queryTexts`: the texts are these and
  names.
* `queryPlace?`: the place of a parameter, if its value is written there.
* `at?_of_written`: parameters that all have such places, each its own, stand in them when they are expanded.
* `exists_queryPlace?`: a scalar whose text is written was placed there by a name.
-/

namespace ApiManual

/-! ## Values that are written -/

/-- The values that a field of a query is written from, with their places: those of a list, or the field itself. -/
def fieldLeaves : String × Json → List (List Cell × Json)
  | (name, .arr items) => items.zipIdx.map fun (item, i) => ([.field name, .item i], item)
  | (_, .obj _) => []
  | (name, v) => [([.field name], v)]

def queryLeaves (values : Entries Json) : List (List Cell × Json) := values.flatMap fieldLeaves

/-- The names in the objects of a query, which are written in place of what they hold. -/
def innerNames (values : Entries Json) : List String := values.flatMap (·.2.members.names)

theorem queryTexts_eq (field : String × Json) :
    queryTexts field.2 = (fieldLeaves field).map (·.2.plain) ++ field.2.members.names := by
  obtain ⟨name, v⟩ := field
  cases v with
  | arr items =>
    have hitems : items.zipIdx.map (Json.plain ∘ Prod.fst) = items.map Json.plain := by
      rw [← List.map_map, List.zipIdx_map_fst]
    simpa [queryTexts, fieldLeaves, Json.members, Entries.names, Function.comp_def] using hitems.symm
  | obj fields => rfl
  | _ => rfl

/-- The texts of a query are those of its leaves and the names in its objects. -/
theorem perm_queryTexts (values : Entries Json) :
    ((queryPairs values).map (·.2)).Perm ((queryLeaves values).map (·.2.plain) ++ innerNames values) := by
  have htexts : (queryPairs values).map (·.2) =
      values.flatMap fun field => (fieldLeaves field).map (·.2.plain) ++ field.2.members.names := by
    simp only [queryPairs, List.map_flatMap, List.map_map, ← queryTexts_eq]
    exact List.flatMap_congr fun field _ => List.map_id _
  rw [htexts, queryLeaves, List.map_flatMap]
  exact (List.flatMap_append_perm ..).symm

/-- Different leaves have different places. -/
theorem nodup_queryLeaves {values : Entries Json} (h : values.names.Nodup) : ((queryLeaves values).map (·.1)).Nodup := by
  have hhead : ∀ field, ∀ place ∈ (fieldLeaves field).map (·.1), place.head? = some (.field field.1) := by
    rintro ⟨name, v⟩ place hplace
    obtain ⟨leaf, hleaf, rfl⟩ := List.mem_map.mp hplace
    cases v with
    | arr items =>
      obtain ⟨item, -, rfl⟩ := List.mem_map.mp hleaf
      rfl
    | obj fields => cases hleaf
    | _ => rw [List.mem_singleton.mp hleaf]; rfl
  rw [queryLeaves, List.map_flatMap, List.nodup_flatMap]
  constructor
  · rintro ⟨name, v⟩ -
    cases v with
    | arr items =>
      have hplaces : (fieldLeaves (name, .arr items)).map (·.1) =
          (items.zipIdx.map Prod.snd).map fun i => [.field name, .item i] := by
        simp only [fieldLeaves, List.map_map]
        rfl
      rw [hplaces, List.zipIdx_map_snd]
      exact List.Nodup.map (fun i j hij => by simpa using hij) (List.nodup_range' 1)
    | obj fields => exact .nil
    | _ => exact List.nodup_singleton _
  · refine (List.pairwise_map.mp h).imp fun hne place hplace hplace' => hne ?_
    exact Cell.field.inj (Option.some.inj ((hhead _ place hplace).symm.trans (hhead _ place hplace')))

/-- The leaves of a query are the values in its fields, apart from lists and objects, and the values in its lists. -/
theorem mem_queryLeaves_iff {values : Entries Json} (h : values.names.Nodup) {place : List Cell} {x : Json} :
    (place, x) ∈ queryLeaves values ↔ (Json.obj values).at? place = some x ∧
      ((∃ name, place = [.field name] ∧ x.isContainer = false) ∨ ∃ name i, place = [.field name, .item i]) := by
  unfold queryLeaves
  rw [List.mem_flatMap]
  constructor
  · rintro ⟨⟨name, v⟩, hfield, hleaf⟩
    have hget : Entries.get? values name = some v := Entries.get?_of_mem h hfield
    cases v with
    | arr items =>
      obtain ⟨⟨item, i⟩, hitem, heq⟩ := List.mem_map.mp hleaf
      obtain ⟨rfl, rfl⟩ := Prod.mk.inj heq
      have hitem : items[i]? = some item := List.mem_zipIdx_iff_getElem?.mp hitem
      exact ⟨by simp [Json.at?, Json.cell?, hget, hitem], .inr ⟨name, i, rfl⟩⟩
    | obj fields => cases hleaf
    | _ =>
      obtain ⟨rfl, rfl⟩ := Prod.mk.inj (List.mem_singleton.mp hleaf)
      exact ⟨by simp [Json.at?, Json.cell?, hget], .inl ⟨name, rfl, rfl⟩⟩
  · have hmem : ∀ {name v}, (Json.obj values).cell? (.field name) = some v → (name, v) ∈ values := by
      intro name v hcell
      obtain ⟨before, after, hvalues, -⟩ := List.lookup_eq_some_iff.mp hcell
      simp [hvalues]
    rintro ⟨hat, ⟨name, rfl, hx⟩ | ⟨name, i, rfl⟩⟩
    · obtain ⟨v, hcell, hv⟩ := Option.bind_eq_some_iff.mp hat
      obtain rfl := Option.some.inj hv
      refine ⟨_, hmem hcell, ?_⟩
      cases v <;> simp_all [fieldLeaves, Json.isContainer]
    · obtain ⟨v, hcell, hv⟩ := Option.bind_eq_some_iff.mp hat
      obtain ⟨item, hitem, hx⟩ := Option.bind_eq_some_iff.mp hv
      obtain rfl := Option.some.inj hx
      cases v with
      | arr items =>
        exact ⟨_, hmem hcell, List.mem_map.mpr ⟨(item, i), List.mem_zipIdx_iff_getElem?.mpr hitem, rfl⟩⟩
      | _ => cases hitem

/-! ## Names whose values are written -/

/-- The place of a name whose value is written: a field, or an item of a list in a field. -/
def queryPlace? (name : String) : Option (List Cell) :=
  match segments name with
  | [key] => some [.field key]
  | [key, index] => (listIndex index).toOption.map fun i => [.field key, .item i]
  | _ => none

theorem queryPlace?_eq_some_iff {name : String} {place : List Cell} :
    queryPlace? name = some place ↔ (∃ key, segments name = [key] ∧ place = [.field key]) ∨
      ∃ key index i, segments name = [key, index] ∧ listIndex index = .ok i ∧ place = [.field key, .item i] := by
  unfold queryPlace?
  constructor
  · intro h
    split at h
    · rename_i key hkeys
      exact .inl ⟨key, hkeys, (Option.some.inj h).symm⟩
    · rename_i key index hkeys
      obtain ⟨i, hi, rfl⟩ := Option.map_eq_some_iff.mp h
      exact .inr ⟨key, index, i, hkeys, mem_toOption.mp hi, rfl⟩
    · cases h
  · rintro (⟨key, hkeys, rfl⟩ | ⟨key, index, i, hkeys, hi, rfl⟩)
    · rw [hkeys]
    · rw [hkeys]
      simp [hi, Except.toOption]

/-- Names neither of which begins with the keys of the other one lead to places that are not around one
another, unless these are the same. -/
theorem not_prefix_of_queryPlace? {name other : String} {place place' : List Cell}
    (hname : queryPlace? name = some place) (hother : queryPlace? other = some place') (hne : place ≠ place')
    (hkeys : ¬ segments name <+: segments other) : ¬ place <+: place' := by
  intro hwithin
  rcases queryPlace?_eq_some_iff.mp hname with ⟨key, hkey, rfl⟩ | ⟨key, index, i, hkey, -, rfl⟩ <;>
    rcases queryPlace?_eq_some_iff.mp hother with ⟨key', hkey', rfl⟩ | ⟨key', index', i', hkey', -, rfl⟩
  · exact hne (hwithin.eq_of_length rfl)
  · obtain ⟨hfield, -⟩ := List.cons_prefix_cons.mp hwithin
    obtain rfl := Cell.field.inj hfield
    exact hkeys (by simp [hkey, hkey'])
  · exact absurd hwithin.length_le (by simp)
  · exact hne (hwithin.eq_of_length rfl)

/-! ## Parameters in their places -/

/-- No field holds an object. -/
def WithoutObjects (fields : Entries Json) : Prop := ∀ field ∈ fields, ∀ inner, field.2 ≠ .obj inner

section Expansion

variable {params : Entries Param} {fields fields' values : Entries Json} {e : String × Param} {place : List Cell}

theorem containerFor_list {there : Json} {next : String} (hthere : ∀ inner, there ≠ .obj inner)
    (hdigits : Text.isDigits next.toList = true) : ∃ items, containerFor next there = .arr items := by
  unfold containerFor
  cases there with
  | obj fields => exact absurd rfl (hthere fields)
  | arr items => exact ⟨items, rfl⟩
  | _ => exact ⟨[], by simp [Json.isContainer, hdigits]⟩

/-- Where there are no objects, the keys of a name whose value is written lead to its place. -/
theorem expandOne_written (hfields : WithoutObjects fields) (hplace : queryPlace? e.1 = some place)
    (hscalar : e.2.decoded.isContainer = false) (h : expandOne fields e = .ok fields') :
    WithoutObjects fields' ∧ (Json.obj fields').trail? (segments e.1) = some place := by
  have hplaced := expandOne_ok_iff.mp h
  have hset : ∀ key v, (∀ inner, v ≠ .obj inner) → WithoutObjects (Entries.set fields key v) := fun key v hv =>
    Entries.forall_set (P := fun v : Json => ∀ inner, v ≠ .obj inner) key hfields hv
  rcases queryPlace?_eq_some_iff.mp hplace with ⟨key, hkeys, rfl⟩ | ⟨key, index, i, hkeys, hi, rfl⟩
  · rw [hkeys, place] at hplaced
    obtain rfl := Json.obj.inj (Except.ok.inj hplaced)
    refine ⟨hset key _ fun inner heq => by simp [heq, Json.isContainer] at hscalar, ?_⟩
    simp [hkeys, Json.trail?, Json.cellOf?, Json.cell?, Entries.get?_set]
  · have hthere : ∀ inner, (Entries.get? fields key).getD .null ≠ .obj inner := by
      intro inner heq
      cases hget : Entries.get? fields key with
      | none => simp [hget] at heq
      | some there =>
        obtain ⟨field, hfield, rfl⟩ := Entries.exists_of_get? hget
        exact hfields field hfield inner (by simpa [hget] using heq)
    obtain ⟨items, hitems⟩ := containerFor_list hthere (isDigits_of_listIndex hi)
    rw [hkeys, place, hitems, place, hi] at hplaced
    obtain rfl := Json.obj.inj (Except.ok.inj hplaced)
    refine ⟨hset key _ fun inner => Json.noConfusion, ?_⟩
    simp [hkeys, Json.trail?, Json.cellOf?, Json.cell?, Entries.get?_set, hi, Except.toOption, getElem?_setItem]

/-- Neither place is around the other. -/
def PlacesApart (place place' : List Cell) : Prop := ¬ place <+: place' ∧ ¬ place' <+: place

/-- Parameters with places of their own stand in these after the others, and what stood elsewhere stays. -/
theorem at?_of_written (hfields : WithoutObjects fields) {places : List (List Cell)}
    (hplaces : List.Forall₂ (fun e place => queryPlace? e.1 = some place) params places)
    (hscalar : ∀ e ∈ params, e.2.decoded.isContainer = false) (hapart : places.Pairwise PlacesApart)
    (h : params.foldlM expandOne fields = .ok values) :
    List.Forall₂ (fun e place => (Json.obj values).at? place = some e.2.decoded) params places ∧
      ∀ other x, (Json.obj fields).at? other = some x → (∀ place ∈ places, PlacesApart place other) →
        (Json.obj values).at? other = some x := by
  induction hplaces generalizing fields with
  | nil =>
    obtain rfl := Except.ok.inj h
    exact ⟨.nil, fun other x hat _ => hat⟩
  | @cons e place params places hplace _ ih =>
    obtain ⟨hfirst, hscalar⟩ := List.forall_mem_cons.mp hscalar
    obtain ⟨hothers, hapart⟩ := List.pairwise_cons.mp hapart
    rw [List.foldlM_cons] at h
    obtain ⟨fields', hone, h⟩ := of_bind_ok h
    obtain ⟨hfields', htrail⟩ := expandOne_written hfields hplace hfirst hone
    obtain ⟨hrest, hkept⟩ := ih hfields' hscalar hapart h
    have hplaced := expandOne_ok_iff.mp hone
    obtain ⟨trail, hpassed, hat⟩ := place_found rfl (segments_ne_nil e.1) hplaced
    obtain rfl : place = trail := Option.some.inj (htrail.symm.trans hpassed)
    refine ⟨.cons (hkept place _ hat fun other hother => (hothers other hother).symm) hrest, ?_⟩
    intro other x hat hother
    obtain ⟨hown, hother⟩ := List.forall_mem_cons.mp hother
    exact hkept other x (place_keeps rfl hplaced hat htrail hown.1 hown.2) hother

/-- The fields that parameters are expanded to have different names. -/
theorem nodup_names_expand (h : expand params = .ok values) : values.names.Nodup := by
  have hnil : (Entries.names ([] : Entries Json)).Nodup := List.nodup_nil
  refine foldlM_invariant (P := fun fields : Entries Json => fields.names.Nodup) hnil ?_ h
  intro fields e _ fields' hfields hone
  have hplaced := expandOne_ok_iff.mp hone
  obtain ⟨key, keys, hkeys⟩ := List.exists_cons_of_ne_nil (segments_ne_nil e.1)
  rw [hkeys] at hplaced
  obtain ⟨cell, child, -, heq, -⟩ := place_cons rfl hplaced
  have hnames := members_setCell (v := .obj fields) hfields cell child
  rwa [← heq] at hnames

/-! ## Values that were placed -/

variable {cells : List Cell} {x : Json}

/-- A scalar other than null that is there after an expansion was there before, or keys led there. -/
theorem of_at?_expand (hscalar : ∀ e ∈ params, e.2.decoded.isContainer = false)
    (h : params.foldlM expandOne fields = .ok values) (hat : (Json.obj values).at? cells = some x)
    (hx : x.isContainer = false) (hnull : x ≠ .null) :
    (Json.obj fields).at? cells = some x ∨
      ∃ e ∈ params, ∃ fields', (Json.obj fields').trail? (segments e.1) = some cells := by
  induction params generalizing fields with
  | nil =>
    obtain rfl := Except.ok.inj h
    exact .inl hat
  | cons e params ih =>
    obtain ⟨hfirst, hscalar⟩ := List.forall_mem_cons.mp hscalar
    rw [List.foldlM_cons] at h
    obtain ⟨fields', hone, h⟩ := of_bind_ok h
    rcases ih hscalar h with hat | ⟨f, hf, hled⟩
    · have hplaced := expandOne_ok_iff.mp hone
      exact (of_at?_place rfl (segments_ne_nil e.1) hfirst hplaced hat hx hnull).imp_right fun hled =>
        ⟨e, List.mem_cons_self, fields', hled⟩
    · exact .inr ⟨f, List.mem_cons_of_mem _ hf, hled⟩

/-- Keys that lead to a field, or to an item of a list in one, are those of a name whose value is written there. -/
theorem queryPlace?_of_trail? {name : String} (h : (Json.obj fields).trail? (segments name) = some cells)
    (hcells : (∃ key, cells = [.field key]) ∨ ∃ key i, cells = [.field key, .item i]) :
    queryPlace? name = some cells := by
  rw [queryPlace?_eq_some_iff]
  rcases hcells with ⟨name, rfl⟩ | ⟨name, i, rfl⟩
  · obtain ⟨key, rest, child, hkeys, hcell, -, hrest⟩ := of_trail?_cons h
    obtain rfl : key = name := Cell.field.inj (Option.some.inj hcell)
    obtain rfl := eq_nil_of_trail? hrest
    exact .inl ⟨key, hkeys, rfl⟩
  · obtain ⟨key, rest, child, hkeys, hcell, -, hrest⟩ := of_trail?_cons h
    obtain rfl : key = name := Cell.field.inj (Option.some.inj hcell)
    obtain ⟨index, rest, child', rfl, hcell, -, hrest⟩ := of_trail?_cons hrest
    obtain rfl := eq_nil_of_trail? hrest
    have hi : listIndex index = .ok i := by
      cases child with
      | arr items =>
        obtain ⟨j, hj, heq⟩ := Option.map_eq_some_iff.mp hcell
        obtain rfl := Cell.item.inj heq
        exact mem_toOption.mp hj
      | obj fields => simp [Json.cellOf?] at hcell
      | _ => cases hcell
    exact .inr ⟨key, index, i, hkeys, hi, rfl⟩

/-- A scalar other than null that is written in a query was placed there: it is the place of a name. -/
theorem exists_queryPlace? (hscalar : ∀ e ∈ params, e.2.decoded.isContainer = false) (h : expand params = .ok values)
    (hleaf : (cells, x) ∈ queryLeaves values) (hx : x.isContainer = false) (hnull : x ≠ .null) :
    ∃ e ∈ params, queryPlace? e.1 = some cells := by
  obtain ⟨hat, hcells⟩ := (mem_queryLeaves_iff (nodup_names_expand h)).mp hleaf
  rcases of_at?_expand hscalar h hat hx hnull with hat | ⟨e, he, fields', hled⟩
  · rcases hcells with ⟨name, rfl, -⟩ | ⟨name, i, rfl⟩ <;> cases hat
  · exact ⟨e, he, queryPlace?_of_trail? hled (hcells.imp_left fun ⟨name, hname, _⟩ => ⟨name, hname⟩)⟩

end Expansion

end ApiManual
