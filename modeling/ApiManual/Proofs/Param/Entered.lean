import ApiManual.Proofs.Param.Reordered

/-!
# What names find on their way

* `Json.follow` gives what keys lead to in a value, `Json.byIndex?` whether a container is entered by index.
* `entered_of_expand`: every list and every object among the values of scalars is there because a name enters
  it in this way.
* `Fails`: what a name fails for is a key whose digits are not decimal, or a list that it enters by name
  (`expandOne_fails`, `expandOne_refused`).
* `follow_of_below`, `follow_into`: what was placed last is found under its own keys, and nothing else under
  keys that it leads into.
-/

namespace ApiManual

open Text

/-! ## What keys lead to -/

namespace Json

/-- What keys lead to. -/
def follow : Json → List String → Option Json
  | v, [] => some v
  | v, key :: keys => (v.cellOf? key).bind fun cell => (v.cell? cell).bind (·.follow keys)

/-- Whether a container is entered by index. -/
def byIndex? : Json → Option Bool
  | .arr _ => some true
  | .obj _ => some false
  | _ => none

theorem byIndex?_setCell (v : Json) (cell : Cell) (child : Json) : (v.setCell cell child).byIndex? = v.byIndex? := by
  cases v <;> cases cell <;> rfl

theorem isContainer_of_byIndex? {v : Json} {b : Bool} (h : v.byIndex? = some b) : v.isContainer = true := by
  cases v <;> first | rfl | cases h

/-- Keys lead nowhere from a value that is no container, except to itself. -/
theorem follow_of_scalar {v u : Json} (hv : v.isContainer = false) {keys : List String} (h : v.follow keys = some u) :
    keys = [] ∧ u = v := by
  cases keys with
  | nil => exact ⟨rfl, (Option.some.inj h).symm⟩
  | cons key keys =>
    cases v with
    | arr items => cases hv
    | obj fields => cases hv
    | _ => cases h

theorem follow_cons {v u : Json} {key : String} {keys : List String} :
    v.follow (key :: keys) = some u ↔
      ∃ cell child, v.cellOf? key = some cell ∧ v.cell? cell = some child ∧ child.follow keys = some u := by
  simp only [follow, Option.bind_eq_some_iff]
  constructor
  · rintro ⟨cell, hcell, child, hchild, hu⟩
    exact ⟨cell, child, hcell, hchild, hu⟩
  · rintro ⟨cell, child, hcell, hchild, hu⟩
    exact ⟨cell, hcell, child, hchild, hu⟩

/-- A container behind what a cell holds is behind the key that means the cell. -/
theorem follow_of_getD {v u : Json} {b : Bool} {key : String} {keys : List String} {cell : Cell}
    (hcell : v.cellOf? key = some cell) (h : ((v.cell? cell).getD .null).follow keys = some u)
    (hb : u.byIndex? = some b) : v.follow (key :: keys) = some u := by
  cases hheld : v.cell? cell with
  | none =>
    rw [hheld] at h
    obtain ⟨-, rfl⟩ := follow_of_scalar rfl h
    cases hb
  | some held =>
    rw [hheld] at h
    exact follow_cons.mpr ⟨cell, held, hcell, hheld, h⟩

end Json

theorem SameButOrder.eq_of_scalar {v w : Json} (h : SameButOrder v w) (hv : v.isContainer = false) : w = v := by
  cases v with
  | arr items => cases hv
  | obj fields => cases hv
  | _ =>
    cases h
    rfl

theorem SameButOrder.cellOf?_eq {v w : Json} (h : SameButOrder v w) (key : String) :
    v.cellOf? key = w.cellOf? key := by
  cases h <;> rfl

/-- What keys lead to in a value, they lead to in one that differs in nothing but order. -/
theorem SameButOrder.follow {v w x : Json} (h : SameButOrder v w) {keys : List String} (hx : v.follow keys = some x) :
    ∃ y, w.follow keys = some y ∧ SameButOrder x y := by
  induction keys generalizing v w with
  | nil =>
    obtain rfl : v = x := Option.some.inj hx
    exact ⟨w, rfl, h⟩
  | cons key keys ih =>
    obtain ⟨cell, child, hcell, hchild, hx⟩ := Json.follow_cons.mp hx
    have hrel := h.cell? cell
    rw [hchild] at hrel
    generalize hheld : w.cell? cell = held at hrel
    cases hrel with
    | some hrel =>
      obtain ⟨y, hy, hxy⟩ := ih hrel hx
      exact ⟨y, Json.follow_cons.mpr ⟨cell, _, h.cellOf?_eq key ▸ hcell, hheld, hy⟩, hxy⟩

/-- A new container is empty. -/
theorem cell?_containerFor {there : Json} (h : there.isContainer = false) (next : String) (cell : Cell) :
    (containerFor next there).cell? cell = none := by
  unfold containerFor
  rw [if_neg (by simp [h])]
  split <;> cases cell <;> rfl

theorem byIndex?_containerFor {there : Json} (h : there.isContainer = false) (next : String) :
    (containerFor next there).byIndex? = some (isDigits next.toList) := by
  unfold containerFor
  rw [if_neg (by simp [h])]
  split
  · rename_i hdigits
    rw [hdigits]
    rfl
  · rename_i hdigits
    rw [Bool.eq_false_iff.mpr hdigits]
    rfl

/-- What keys lead to behind a container that was made if it was missing: it was there, or there is nothing
but the new container. -/
theorem follow_containerFor {there u : Json} {next : String} {keys : List String}
    (h : (containerFor next there).follow keys = some u) :
    there.follow keys = some u ∨ keys = [] ∧ there.isContainer = false ∧ u = containerFor next there := by
  cases hthere : there.isContainer with
  | true =>
    rw [containerFor_of_isContainer hthere] at h
    exact .inl h
  | false =>
    cases keys with
    | nil => exact .inr ⟨rfl, rfl, (Option.some.inj h).symm⟩
    | cons key keys =>
      obtain ⟨cell, child, -, hchild, -⟩ := Json.follow_cons.mp h
      rw [cell?_containerFor hthere] at hchild
      cases hchild

/-! ## Indexes -/

theorem listIndex_of_not_digits {key : String} (h : isDigits key.toList = false) :
    listIndex key = .error .keyInList := by
  unfold listIndex
  rw [if_neg (by simp [h])]

theorem isDigits_of_listIndex {key : String} {i : Nat} (h : listIndex key = .ok i) : isDigits key.toList = true := by
  cases hdigits : isDigits key.toList with
  | true => rfl
  | false =>
    rw [listIndex_of_not_digits hdigits] at h
    cases h

theorem SameKey.isDigits_eq {key other : String} (h : SameKey key other) :
    isDigits key.toList = isDigits other.toList := by
  obtain rfl | ⟨i, hkey, hother⟩ := h
  · rfl
  · rw [isDigits_of_listIndex hkey, isDigits_of_listIndex hother]

/-- A key that can be the index of an item, if it is digits. -/
def Decimal (key : String) : Prop := isDigits key.toList = true → ∃ i, listIndex key = .ok i

/-- Keys of a name whose digits, behind the first key, are decimal. -/
def Indexed (keys : List String) : Prop := ∀ key ∈ keys.tail, Decimal key

/-- In a container that a key enters in its own way, the keys that are the same mean one cell. -/
theorem cellIn_of_sameKey {v : Json} {key other : String} (hv : v.byIndex? = some (isDigits key.toList))
    (h : SameKey key other) : v.cellIn key = v.cellIn other := by
  obtain rfl | ⟨i, hkey, hother⟩ := h
  · rfl
  · cases v with
    | arr items => simp only [Json.cellIn, hkey, hother]
    | obj fields =>
      rw [isDigits_of_listIndex hkey] at hv
      cases hv
    | _ => cases hv

/-! ## Where containers come from -/

/-- Keys that pass others and enter what they lead to by index, or by name. -/
def EntersAs (byIndex : Bool) : List String → List String → Prop
  | key :: _, [] => isDigits key.toList = byIndex
  | key :: keys, other :: others => SameKey key other ∧ EntersAs byIndex keys others
  | [], _ => False

variable {value : Json} {keys path : List String} {there v u : Json} {b : Bool}

/-- A container behind the cells of a value that was placed was there before, or is entered by the keys. -/
theorem entered_of_place {key other : String} (hv : v.isContainer = true)
    (hbelow : ∀ cell child, v.cellIn key = .ok cell →
      placeBelow value keys ((v.cell? cell).getD .null) = .ok child → child.follow path = some u →
      (∃ u', ((v.cell? cell).getD .null).follow path = some u' ∧ u'.byIndex? = some b) ∨ EntersAs b keys path)
    {v' : Json} (h : place value (key :: keys) v = .ok v') (hu : v'.follow (other :: path) = some u)
    (hb : u.byIndex? = some b) :
    (∃ u', v.follow (other :: path) = some u' ∧ u'.byIndex? = some b) ∨
      (∃ cell, v.cellOf? key = some cell ∧ v.cellOf? other = some cell) ∧ EntersAs b keys path := by
  obtain ⟨cell, child, hcell, hchild, rfl⟩ := place_container hv h
  obtain ⟨cell', held, hcell', hheld, hu⟩ := Json.follow_cons.mp hu
  rw [Json.cellOf?_setCell] at hcell'
  by_cases hsame : cell' = cell
  · subst hsame
    have hcellOf := Json.cellOf?_of_cellIn hv hcell
    rw [Json.cell?_setCell_self hcellOf] at hheld
    obtain rfl := Option.some.inj hheld
    rcases hbelow _ _ hcell hchild hu with ⟨u', hu', hb'⟩ | henters
    · exact .inl ⟨u', Json.follow_of_getD hcell' hu' hb', hb'⟩
    · exact .inr ⟨⟨_, hcellOf, hcell'⟩, henters⟩
  · rcases Json.cell?_of_setCell hsame hheld with hold | ⟨-, -, rfl⟩
    · exact .inl ⟨u, Json.follow_cons.mpr ⟨_, held, hcell', hold, hu⟩, hb⟩
    · obtain ⟨-, rfl⟩ := Json.follow_of_scalar rfl hu
      cases hb

theorem entered_of_below (hvalue : value.isContainer = false) (h : placeBelow value keys there = .ok v)
    (hu : v.follow path = some u) (hb : u.byIndex? = some b) :
    (∃ u', there.follow path = some u' ∧ u'.byIndex? = some b) ∨ EntersAs b keys path := by
  induction keys generalizing there v path with
  | nil =>
    obtain rfl : value = v := Except.ok.inj h
    obtain ⟨-, rfl⟩ := Json.follow_of_scalar hvalue hu
    rw [Json.isContainer_of_byIndex? hb] at hvalue
    cases hvalue
  | cons key keys ih =>
    have hcontainer := containerFor_isContainer key there
    cases path with
    | nil =>
      obtain ⟨cell, child, -, -, rfl⟩ := place_container hcontainer h
      obtain rfl : _ = u := Option.some.inj hu
      rw [Json.byIndex?_setCell] at hb
      have hself : (containerFor key there).follow [] = some (containerFor key there) := rfl
      rcases follow_containerFor hself with hthere | ⟨-, hthere, -⟩
      · exact .inl ⟨_, hthere, hb⟩
      · rw [byIndex?_containerFor hthere] at hb
        exact .inr (Option.some.inj hb)
    | cons other path =>
      rcases entered_of_place hcontainer (fun cell child _ hchild hu => ih hchild hu) h hu hb with
        ⟨u', hu', hb'⟩ | ⟨⟨cell, hkey, hother⟩, henters⟩
      · rcases follow_containerFor hu' with hthere | ⟨hnil, -, -⟩
        · exact .inl ⟨u', hthere, hb'⟩
        · cases hnil
      · exact .inr ⟨sameKey_of_cellOf? hkey hother, henters⟩

/-- A container among the values of parameters that are scalars is entered by one of their names. -/
theorem entered_of_expand {params : Entries Param} {fields values : Entries Json}
    (hscalar : ∀ e ∈ params, e.2.decoded.isContainer = false) (h : params.foldlM expandOne fields = .ok values)
    {key : String} (hu : (Json.obj values).follow (key :: path) = some u) (hb : u.byIndex? = some b) :
    (∃ u', (Json.obj fields).follow (key :: path) = some u' ∧ u'.byIndex? = some b) ∨
      ∃ e ∈ params, ∃ keys, segments e.1 = key :: keys ∧ EntersAs b keys path := by
  induction params generalizing fields with
  | nil =>
    obtain rfl := Except.ok.inj h
    exact .inl ⟨u, hu, hb⟩
  | cons e params ih =>
    obtain ⟨hfirst, hrest⟩ := List.forall_mem_cons.mp hscalar
    rw [List.foldlM_cons] at h
    obtain ⟨first, hone, h⟩ := of_bind_ok h
    rcases ih hrest h with ⟨u', hu', hb'⟩ | ⟨f, hf, henters⟩
    · have hplace := expandOne_ok_iff.mp hone
      obtain ⟨own, keys, hkeys⟩ := List.exists_cons_of_ne_nil (segments_ne_nil e.1)
      rw [hkeys] at hplace
      rcases entered_of_place rfl (fun cell child _ hchild hu => entered_of_below hfirst hchild hu hb') hplace hu' hb'
        with hbefore | ⟨⟨cell, hown, hkey⟩, henters⟩
      · exact .inl hbefore
      · obtain rfl : own = key := Cell.field.inj (Option.some.inj (hown.trans hkey.symm))
        exact .inr ⟨e, List.mem_cons_self, keys, hkeys, henters⟩
    · exact .inr ⟨f, List.mem_cons_of_mem _ hf, henters⟩

/-! ## Names that fail -/

/-- What a name fails for: a key whose digits are not decimal, or a list that it enters by name. -/
inductive Fails (keys : List String) (there : Json) : Misplaced → Prop
  | notDecimal {key : String} (mem : key ∈ keys) (digits : ¬Decimal key) : Fails keys there (.notDecimal key)
  | keyInList {path rest : List String} {key : String} {u : Json} (split : keys = path ++ key :: rest)
      (name : isDigits key.toList = false) (leads : there.follow path = some u) (list : u.byIndex? = some true) :
      Fails keys there .keyInList

theorem Fails.behind {e : Misplaced} {key : String} {cell : Cell} (hcell : v.cellOf? key = some cell)
    (h : Fails keys ((v.cell? cell).getD .null) e) : Fails (key :: keys) v e := by
  cases h with
  | notDecimal mem digits => exact .notDecimal (List.mem_cons_of_mem _ mem) digits
  | @keyInList path rest k u split name leads list =>
    have hsplit : key :: keys = (key :: path) ++ k :: rest := congrArg _ split
    exact .keyInList hsplit name (Json.follow_of_getD hcell leads list) list

/-- A container that was made for a key is not what the keys fail for. -/
theorem Fails.of_containerFor {e : Misplaced} {key : String} (h : Fails (key :: keys) (containerFor key there) e) :
    Fails (key :: keys) there e := by
  cases h with
  | notDecimal mem digits => exact .notDecimal mem digits
  | keyInList split name leads list =>
    rcases follow_containerFor leads with hthere | ⟨rfl, hthere, rfl⟩
    · exact .keyInList split name hthere list
    · obtain ⟨rfl, -⟩ := List.cons.inj split
      rw [byIndex?_containerFor hthere, name] at list
      cases list

theorem cellIn_fails {e : Misplaced} {key : String} (hv : v.isContainer = true) (h : v.cellIn key = .error e) :
    Fails (key :: keys) v e := by
  cases v with
  | obj fields => cases h
  | arr items =>
    have hindex : listIndex key = .error e := by
      simp only [Json.cellIn] at h
      cases hkey : listIndex key with
      | error e' =>
        rw [hkey] at h
        exact congrArg _ (Except.error.inj h)
      | ok i =>
        rw [hkey] at h
        cases h
    cases hdigits : isDigits key.toList with
    | false =>
      rw [listIndex_of_not_digits hdigits] at hindex
      obtain rfl := Except.error.inj hindex
      have hsplit : key :: keys = [] ++ key :: keys := rfl
      exact .keyInList hsplit hdigits rfl rfl
    | true =>
      have hkey : ¬Decimal key := by
        intro hdecimal
        obtain ⟨i, hi⟩ := hdecimal hdigits
        rw [hi] at hindex
        cases hindex
      unfold listIndex at hindex
      rw [if_pos hdigits] at hindex
      split at hindex
      · cases hindex
      · obtain rfl := Except.error.inj hindex
        exact .notDecimal List.mem_cons_self hkey
  | _ => cases hv

theorem below_fails {e : Misplaced} (h : placeBelow value keys there = .error e) : Fails keys there e := by
  induction keys generalizing there with
  | nil => cases h
  | cons key keys ih =>
    have hv := containerFor_isContainer key there
    refine Fails.of_containerFor ?_
    rcases place_error hv h with hcell | ⟨cell, hcell, hchild⟩
    · exact cellIn_fails hv hcell
    · exact (ih hchild).behind (Json.cellOf?_of_cellIn hv hcell)

/-- What a parameter fails for: the keys behind the first one fail below the field that it means. -/
theorem expandOne_fails {fields : Entries Json} {e : String × Param} {f : Failure} {key : String}
    (hkeys : segments e.1 = key :: keys) (h : expandOne fields e = .error f) :
    ∃ cause, f = cause.failure e.1 ∧ Fails keys (((Json.obj fields).cell? (.field key)).getD .null) cause := by
  unfold expandOne at h
  split at h
  · cases h
  · rename_i cause hplace
    refine ⟨cause, (Except.error.inj h).symm, ?_⟩
    rw [hkeys] at hplace
    rcases place_error rfl hplace with hcell | ⟨cell, hcell, hchild⟩
    · cases hcell
    · obtain rfl := Except.ok.inj hcell
      exact below_fails hchild

/-- A parameter with decimal indexes is refused for its notation only: it enters a list by name. -/
theorem expandOne_refused {fields : Entries Json} {e : String × Param} {f : Failure}
    (hindexed : Indexed (segments e.1)) (h : expandOne fields e = .error f) :
    f = .defect (.mixedNotation e.1) ∧ ∃ key path k rest u, segments e.1 = key :: (path ++ k :: rest) ∧
      isDigits k.toList = false ∧ (Json.obj fields).follow (key :: path) = some u ∧ u.byIndex? = some true := by
  obtain ⟨key, keys, hkeys⟩ := List.exists_cons_of_ne_nil (segments_ne_nil e.1)
  obtain ⟨cause, rfl, hfails⟩ := expandOne_fails hkeys h
  cases hfails with
  | notDecimal mem digits =>
    refine absurd (hindexed _ ?_) digits
    rw [hkeys]
    exact mem
  | @keyInList path rest k u split name leads list =>
    exact ⟨rfl, key, path, k, rest, u, split ▸ hkeys, name, Json.follow_of_getD rfl leads list, list⟩

/-- Parameters with decimal indexes are refused for their notation only. -/
theorem expand_refused {params : Entries Param} {f : Failure} (hindexed : ∀ e ∈ params, Indexed (segments e.1))
    (h : expand params = .error f) : ∃ name, f = .defect (.mixedNotation name) := by
  obtain ⟨before, e, after, fields, rfl, -, he⟩ := of_foldlM_error h
  exact ⟨e.1, (expandOne_refused (hindexed e (by simp)) he).1⟩

/-- A parameter where nothing is yet: it is expanded, or has an index that is not decimal. -/
theorem expandOne_nil {e : String × Param} {key : String} (hkeys : segments e.1 = key :: keys) :
    (∃ child, expandOne [] e = .ok [(key, child)] ∧ placeBelow e.2.decoded keys .null = .ok child) ∨
      ∃ k ∈ keys, ¬Decimal k ∧ expandOne [] e = .error (.fault (.indexNumeral k)) := by
  cases h : expandOne [] e with
  | ok first =>
    have hplace := expandOne_ok_iff.mp h
    rw [hkeys] at hplace
    obtain ⟨cell, child, hcell, hchild, hfirst⟩ := place_container rfl hplace
    obtain rfl := Except.ok.inj hcell
    obtain rfl := Json.obj.inj hfirst
    exact .inl ⟨child, rfl, hchild⟩
  | error f =>
    obtain ⟨cause, rfl, hfails⟩ := expandOne_fails hkeys h
    cases hfails with
    | notDecimal mem digits => exact .inr ⟨_, mem, digits, rfl⟩
    | keyInList split name leads list =>
      obtain ⟨-, rfl⟩ := Json.follow_of_scalar rfl leads
      cases list

/-- What is placed where nothing is has decimal indexes. -/
theorem decimal_of_below (h : placeBelow value keys .null = .ok v) : ∀ key ∈ keys, Decimal key := by
  induction keys generalizing v with
  | nil => simp
  | cons key keys ih =>
    obtain ⟨cell, child, hcell, hchild, -⟩ := place_container (containerFor_isContainer key .null) h
    rw [cell?_containerFor rfl] at hchild
    refine List.forall_mem_cons.mpr ⟨fun hdigits => ?_, ih hchild⟩
    have hlist : containerFor key .null = .arr [] := by
      unfold containerFor
      rw [if_neg (by simp [Json.isContainer]), if_pos hdigits]
    rw [hlist] at hcell
    simp only [Json.cellIn] at hcell
    cases hindex : listIndex key with
    | ok i => exact ⟨i, rfl⟩
    | error e =>
      rw [hindex] at hcell
      cases hcell

/-! ## What was placed last -/

/-- What was placed is found under its keys. -/
theorem follow_of_below (h : placeBelow value keys there = .ok v) : v.follow keys = some value := by
  induction keys generalizing there v with
  | nil =>
    obtain rfl : value = v := Except.ok.inj h
    rfl
  | cons key keys ih =>
    have hcontainer := containerFor_isContainer key there
    obtain ⟨cell, child, hcell, hchild, rfl⟩ := place_container hcontainer h
    have hcellOf := Json.cellOf?_of_cellIn hcontainer hcell
    exact Json.follow_cons.mpr
      ⟨cell, child, (Json.cellOf?_setCell ..).trans hcellOf, Json.cell?_setCell_self hcellOf child, ih hchild⟩

/-- Keys that others lead into lead to nothing else than what was placed under the others, where containers are
entered in the way of the others. -/
theorem follow_into {others : List String} {y : Json} (hscalar : value.isContainer = false)
    (hinto : LeadsInto keys others) (h : placeBelow value keys there = .ok v)
    (hkinds : ∀ path key rest u b, keys = path ++ key :: rest → v.follow path = some u → u.byIndex? = some b →
      isDigits key.toList = b) (hy : v.follow others = some y) : y = value := by
  induction keys generalizing others there v with
  | nil =>
    obtain rfl : value = v := Except.ok.inj h
    exact (Json.follow_of_scalar hscalar hy).2
  | cons key keys ih =>
    cases others with
    | nil => exact hinto.elim
    | cons other others =>
      have hcontainer := containerFor_isContainer key there
      obtain ⟨cell, child, hcell, hchild, rfl⟩ := place_container hcontainer h
      have hcellOf := Json.cellOf?_of_cellIn hcontainer hcell
      have hself := Json.cell?_setCell_self hcellOf child
      have hv : (containerFor key there).byIndex? = some (isDigits key.toList) := by
        obtain ⟨b, hb⟩ : ∃ b, (containerFor key there).byIndex? = some b := by
          cases hv : containerFor key there with
          | arr items => exact ⟨true, rfl⟩
          | obj fields => exact ⟨false, rfl⟩
          | _ =>
            rw [hv] at hcontainer
            cases hcontainer
        rw [hb, hkinds [] key keys _ b rfl rfl ((Json.byIndex?_setCell ..).trans hb)]
      obtain ⟨cell', child', hcell', hchild', hy⟩ := Json.follow_cons.mp hy
      have hother : (containerFor key there).cellOf? other = some cell :=
        Json.cellOf?_of_cellIn hcontainer ((cellIn_of_sameKey hv hinto.1).symm.trans hcell)
      rw [Json.cellOf?_setCell, hother] at hcell'
      obtain rfl := Option.some.inj hcell'
      obtain rfl := Option.some.inj (hself.symm.trans hchild')
      refine ih hinto.2 hchild (fun path k rest u b hkeys hu hb => ?_) hy
      refine hkinds (key :: path) k rest u b (congrArg _ hkeys) ?_ hb
      exact Json.follow_cons.mpr ⟨_, _, (Json.cellOf?_setCell ..).trans hcellOf, hself, hu⟩

theorem expand_concat {values : Entries Json} {e : String × Param} (h : expand (params ++ [e]) = .ok values) :
    ∃ fields, expand params = .ok fields ∧ expandOne fields e = .ok values := by
  unfold expand at h
  rw [List.foldlM_append] at h
  obtain ⟨fields, hfields, h⟩ := of_bind_ok h
  exact ⟨fields, hfields, by simpa using h⟩

end ApiManual
