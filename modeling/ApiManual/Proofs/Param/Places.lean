import ApiManual.Proofs.Entries
import ApiManual.Proofs.Param.Shared

/-!
# Where nested names lead

Parameters whose names do not lead into one another keep their places: expanded together, each is found
under its own name, and nothing else is there but the fillers of lists.

* `Cell`: one place in a container. `Json.trail?` gives the cells that keys pass in a value.
* `LeadsInto`: a name that leads to another one's place or to one around it, whatever the containers are.
* `Grown`: a value that was grown from these keys and values and no others.
* `place_grown`: placing a value under keys that keep apart from those before grows the value by them.
* `expand_holds`: the values of parameters are found by their names, each once.
-/

namespace ApiManual

/-! ## Cells -/

/-- A cell of a container: a field of an object or an item of a list. -/
inductive Cell where
  | field (name : String)
  | item (index : Nat)
  deriving DecidableEq, Repr

namespace Json

/-- What a cell holds. -/
def cell? : Json → Cell → Option Json
  | .obj fields, .field name => Entries.get? fields name
  | .arr items, .item i => items[i]?
  | _, _ => none

/-- The cell that a key means: a field of an object, an index of a list. -/
def cellOf? : Json → String → Option Cell
  | .obj _, key => some (.field key)
  | .arr _, key => (listIndex key).toOption.map .item
  | _, _ => none

/-- The cells that keys pass one after the other, if all of them are there. -/
def trail? : Json → List String → Option (List Cell)
  | _, [] => some []
  | v, key :: keys =>
    (v.cellOf? key).bind fun cell => (v.cell? cell).bind fun child => (child.trail? keys).map (cell :: ·)

/-- What stands where cells lead to. -/
def at? : Json → List Cell → Option Json
  | v, [] => some v
  | v, cell :: cells => (v.cell? cell).bind (·.at? cells)

/-- Write a cell, with fillers up to it in a list that is too short. -/
def setCell : Json → Cell → Json → Json
  | .obj fields, .field name, child => .obj (Entries.set fields name child)
  | .arr items, .item i, child => .arr (setItem .null items i child)
  | v, _, _ => v

end Json

theorem getElem?_setItem {α : Type} (filler : α) (items : List α) (i : Nat) (v : α) (j : Nat) :
    (setItem filler items i v)[j]? =
      if j = i then some v else if j < items.length then items[j]? else if j < i then some filler else none := by
  fun_induction setItem filler items i v generalizing j with
  | case1 v => cases j <;> simp
  | case2 i v ih => cases j <;> simp_all
  | case3 item items v => cases j <;> simp
  | case4 item items i v ih => cases j <;> simp_all

namespace Json

variable {v child : Json} {cell other : Cell} {key : String}

theorem cellOf?_setCell (v : Json) (cell : Cell) (child : Json) (key : String) :
    (v.setCell cell child).cellOf? key = v.cellOf? key := by
  cases v <;> cases cell <;> rfl

theorem isContainer_setCell (v : Json) (cell : Cell) (child : Json) :
    (v.setCell cell child).isContainer = v.isContainer := by
  cases v <;> cases cell <;> rfl

/-- What is written into a cell is there. -/
theorem cell?_setCell_self (hkey : v.cellOf? key = some cell) (child : Json) :
    (v.setCell cell child).cell? cell = some child := by
  cases v with
  | obj fields =>
    obtain rfl := Option.some.inj hkey
    simp [setCell, cell?, Entries.get?_set]
  | arr items =>
    obtain ⟨i, -, rfl⟩ := Option.map_eq_some_iff.mp hkey
    simp [setCell, cell?, getElem?_setItem]
  | _ => simp [cellOf?] at hkey

/-- What another cell holds stays. -/
theorem cell?_setCell_of_some {held : Json} (hother : other ≠ cell) (hheld : v.cell? other = some held)
    (child : Json) : (v.setCell cell child).cell? other = some held := by
  cases v with
  | obj fields =>
    cases cell <;> cases other <;> simp_all [setCell, cell?, Entries.get?_set]
  | arr items =>
    cases cell <;> cases other <;> simp_all [setCell, cell?, getElem?_setItem]
    rename_i i j
    exact fun hlong => absurd (List.getElem?_eq_none hlong) (by simp [hheld])
  | _ => simp [cell?] at hheld

/-- Another cell holds what it held before, or it is new and holds a filler. -/
theorem cell?_of_setCell {held : Json} (hother : other ≠ cell)
    (hheld : (v.setCell cell child).cell? other = some held) :
    v.cell? other = some held ∨ v.cell? other = none ∧ (∃ i, other = .item i) ∧ held = .null := by
  cases v with
  | obj fields =>
    cases cell <;> cases other <;> simp_all [setCell, cell?, Entries.get?_set]
  | arr items =>
    cases cell with
    | field name => exact .inl hheld
    | item i =>
      cases other with
      | field name => simp [setCell, cell?] at hheld
      | item j =>
        have hne : j ≠ i := fun heq => hother (congrArg Cell.item heq)
        simp only [setCell, cell?, getElem?_setItem, hne, if_false] at hheld ⊢
        by_cases hin : j < items.length
        · exact .inl (by simpa [hin] using hheld)
        · rw [if_neg hin] at hheld
          split at hheld
          · exact .inr ⟨List.getElem?_eq_none (Nat.le_of_not_lt hin), ⟨j, rfl⟩, (Option.some.inj hheld).symm⟩
          · simp at hheld
  | _ => exact .inl hheld

end Json

/-! ## Names that lead into one another -/

/-- Keys that mean one cell in some container: the same text, or digits of one value. -/
def SameKey (key other : String) : Prop := key = other ∨ ∃ i, listIndex key = .ok i ∧ listIndex other = .ok i

/-- The first keys lead to where the others lead to, or to a place around it. -/
def LeadsInto : List String → List String → Prop
  | [], _ => True
  | _ :: _, [] => False
  | key :: keys, other :: others => SameKey key other ∧ LeadsInto keys others

/-- Keys neither of which lead into the other. -/
def KeepApart (keys others : List String) : Prop := ¬ LeadsInto keys others ∧ ¬ LeadsInto others keys

instance (key other : String) : Decidable (SameKey key other) :=
  decidable_of_iff (key = other ∨ ∃ i ∈ (listIndex key).toOption, i ∈ (listIndex other).toOption) (by
    simp only [SameKey, mem_toOption])

instance decidableLeadsInto : ∀ keys others, Decidable (LeadsInto keys others)
  | [], _ => .isTrue trivial
  | _ :: _, [] => .isFalse id
  | key :: keys, other :: others =>
    have := decidableLeadsInto keys others
    inferInstanceAs (Decidable (SameKey key other ∧ LeadsInto keys others))

instance (keys others : List String) : Decidable (KeepApart keys others) :=
  inferInstanceAs (Decidable (¬ LeadsInto keys others ∧ ¬ LeadsInto others keys))

theorem SameKey.symm {key other : String} (h : SameKey key other) : SameKey other key := by
  obtain rfl | ⟨i, hkey, hother⟩ := h
  · exact .inl rfl
  · exact .inr ⟨i, hother, hkey⟩

theorem KeepApart.symm {keys others : List String} (h : KeepApart keys others) : KeepApart others keys :=
  ⟨h.2, h.1⟩

/-- Below one cell, names that keep apart still do. -/
theorem KeepApart.tail {key other : String} {keys others : List String} (h : KeepApart (key :: keys) (other :: others))
    (hkey : SameKey key other) : KeepApart keys others :=
  ⟨fun hinto => h.1 ⟨hkey, hinto⟩, fun hinto => h.2 ⟨hkey.symm, hinto⟩⟩

/-- Keys that mean one cell of a value. -/
theorem sameKey_of_cellOf? {v : Json} {cell : Cell} {key other : String} (hkey : v.cellOf? key = some cell)
    (hother : v.cellOf? other = some cell) : SameKey key other := by
  cases v with
  | obj fields => exact .inl (Cell.field.inj (Option.some.inj (hkey.trans hother.symm)))
  | arr items =>
    obtain ⟨i, hi, rfl⟩ := Option.map_eq_some_iff.mp hkey
    obtain ⟨j, hj, hij⟩ := Option.map_eq_some_iff.mp hother
    obtain rfl := Cell.item.inj hij
    exact .inr ⟨j, mem_toOption.mp hi, mem_toOption.mp hj⟩
  | _ => simp [Json.cellOf?] at hkey

/-- Keys that pass the first cells of others lead into them. -/
theorem leadsInto_of_trail? {v : Json} {keys others : List String} {trail trail' : List Cell}
    (hkeys : v.trail? keys = some trail) (hothers : v.trail? others = some trail') (h : trail <+: trail') :
    LeadsInto keys others := by
  induction keys generalizing v others trail trail' with
  | nil => trivial
  | cons key keys ih =>
    simp only [Json.trail?, Option.bind_eq_some_iff, Option.map_eq_some_iff] at hkeys
    obtain ⟨cell, hcell, child, hchild, trail, htrail, rfl⟩ := hkeys
    cases others with
    | nil =>
      obtain rfl := Option.some.inj hothers
      simp at h
    | cons other others =>
      simp only [Json.trail?, Option.bind_eq_some_iff, Option.map_eq_some_iff] at hothers
      obtain ⟨cell', hcell', child', hchild', trail', htrail', rfl⟩ := hothers
      obtain ⟨rfl, hrest⟩ := List.cons_prefix_cons.mp h
      obtain rfl : child = child' := Option.some.inj (hchild.symm.trans hchild')
      exact ⟨sameKey_of_cellOf? hcell hcell', ih htrail htrail' hrest⟩

/-! ## Values grown from keys -/

/-- What of some keys and values stands below a cell. -/
def partsBelow (v : Json) (cell : Cell) (placed : List (List String × Json)) : List (List String × Json) :=
  placed.filterMap fun e => match e.1 with
    | [] => none
    | key :: keys => if v.cellOf? key = some cell then some (keys, e.2) else none

/-- A value that was grown from these keys and values: it is the value of no keys at all, or a container
whose cells are grown from what stands below them. A cell below which nothing stands fills a list. -/
inductive Grown : List (List String × Json) → Json → Prop where
  | leaf (v : Json) : Grown [([], v)] v
  | container {placed : List (List String × Json)} {v : Json} (holds : v.isContainer = true)
      (named : v.members.names.Nodup)
      (entered : ∀ e ∈ placed, ∃ key keys cell child,
        e.1 = key :: keys ∧ v.cellOf? key = some cell ∧ v.cell? cell = some child)
      (filler : ∀ cell child, v.cell? cell = some child → partsBelow v cell placed = [] →
        (∃ i, cell = .item i) ∧ child = .null)
      (grown : ∀ cell child, v.cell? cell = some child → partsBelow v cell placed ≠ [] →
        Grown (partsBelow v cell placed) child) :
      Grown placed v

section Below

variable {v : Json} {cell : Cell} {placed : List (List String × Json)}

theorem mem_partsBelow {keys : List String} {value : Json} :
    (keys, value) ∈ partsBelow v cell placed ↔ ∃ key, (key :: keys, value) ∈ placed ∧ v.cellOf? key = some cell := by
  simp only [partsBelow, List.mem_filterMap]
  constructor
  · rintro ⟨⟨keys, x⟩, hmem, heq⟩
    cases keys with
    | nil => simp at heq
    | cons key keys =>
      simp only [Option.ite_none_right_eq_some, Option.some.injEq] at heq
      obtain ⟨hcell, rfl, rfl⟩ : v.cellOf? key = some cell ∧ _ = _ ∧ _ = _ := by simpa using heq
      exact ⟨key, hmem, hcell⟩
  · rintro ⟨key, hmem, hcell⟩
    exact ⟨_, hmem, by simp [hcell]⟩

theorem partsBelow_setCell (v : Json) (cell other : Cell) (child : Json) (placed : List (List String × Json)) :
    partsBelow (v.setCell cell child) other placed = partsBelow v other placed := by
  unfold partsBelow
  simp only [Json.cellOf?_setCell]

theorem partsBelow_concat (placed : List (List String × Json)) (key : String) (keys : List String) (value : Json) :
    partsBelow v cell (placed ++ [(key :: keys, value)]) =
      partsBelow v cell placed ++ if v.cellOf? key = some cell then [(keys, value)] else [] := by
  simp only [partsBelow, List.filterMap_append]
  split <;> simp_all

/-- Below a cell that a key means, names that keep apart from it keep apart from the rest of its keys. -/
theorem keepApart_partsBelow {key : String} {keys : List String} (hcell : v.cellOf? key = some cell)
    (h : ∀ e ∈ placed, KeepApart (key :: keys) e.1) : ∀ e ∈ partsBelow v cell placed, KeepApart keys e.1 := by
  intro ⟨others, x⟩ he
  obtain ⟨other, hmem, hother⟩ := mem_partsBelow.mp he
  exact (h _ hmem).tail (sameKey_of_cellOf? hcell hother)

end Below

/-- Where something stands below a cell, the cell is there. -/
theorem cell?_of_partsBelow {v : Json} {cell : Cell} {placed : List (List String × Json)}
    (entered : ∀ e ∈ placed, ∃ key keys cell child,
      e.1 = key :: keys ∧ v.cellOf? key = some cell ∧ v.cell? cell = some child)
    (hne : partsBelow v cell placed ≠ []) : ∃ child, v.cell? cell = some child := by
  obtain ⟨⟨keys, x⟩, he⟩ := List.exists_mem_of_ne_nil _ hne
  obtain ⟨key, hmem, hkey⟩ := mem_partsBelow.mp he
  obtain ⟨_, _, cell', child, heq, hcell', hchild⟩ := entered _ hmem
  obtain ⟨rfl, -⟩ := List.cons.inj heq
  obtain rfl : cell = cell' := Option.some.inj (hkey.symm.trans hcell')
  exact ⟨child, hchild⟩

theorem grown_empty {v : Json} (h : v = .arr [] ∨ v = .obj []) : Grown [] v := by
  rcases h with rfl | rfl
  · exact .container rfl .nil (by simp) (by rintro (_ | _) _ h <;> simp [Json.cell?] at h) (by simp [partsBelow])
  · exact .container rfl .nil (by simp) (by rintro (_ | _) _ h <;> simp [Json.cell?] at h) (by simp [partsBelow])

/-! ## Placing a value -/

theorem members_setCell {v : Json} (h : v.members.names.Nodup) (cell : Cell) (child : Json) :
    (v.setCell cell child).members.names.Nodup := by
  cases v with
  | obj fields =>
    cases cell with
    | field name => exact Entries.nodup_names_set h name child
    | item i => exact h
  | arr items => cases cell <;> exact h
  | _ => exact h

/-- What a value that is placed writes into the cell that its first key means: the value itself, or the
container in the cell after the rest of the keys. -/
theorem place_cons {value : Json} {key : String} {keys : List String} {v v' : Json} (hv : v.isContainer = true)
    (h : place value (key :: keys) v = .ok v') :
    ∃ cell child, v.cellOf? key = some cell ∧ v' = v.setCell cell child ∧ match keys with
      | [] => child = value
      | next :: _ => place value keys (containerFor next ((v.cell? cell).getD .null)) = .ok child := by
  cases v with
  | obj fields =>
    cases keys with
    | nil => exact ⟨.field key, value, rfl, (Except.ok.inj h).symm, rfl⟩
    | cons next rest =>
      rw [place] at h
      obtain ⟨child, hchild, heq⟩ := of_bind_ok h
      exact ⟨.field key, child, rfl, (Except.ok.inj heq).symm, hchild⟩
  | arr items =>
    cases keys with
    | nil =>
      rw [place] at h
      obtain ⟨i, hi, heq⟩ := of_bind_ok h
      exact ⟨.item i, value, by simp [Json.cellOf?, hi, Except.toOption], (Except.ok.inj heq).symm, rfl⟩
    | cons next rest =>
      rw [place] at h
      obtain ⟨i, hi, heq⟩ := of_bind_ok h
      obtain ⟨child, hchild, heq⟩ := of_bind_ok heq
      refine ⟨.item i, child, by simp [Json.cellOf?, hi, Except.toOption], (Except.ok.inj heq).symm, ?_⟩
      simpa [Json.cell?, List.getD_eq_getElem?_getD] using hchild
  | _ => simp [Json.isContainer] at hv

theorem containerFor_isContainer (next : String) (there : Json) :
    (containerFor next there).isContainer = true := by
  unfold containerFor
  split
  · assumption
  · split <;> rfl

/-- The container that is to hold the next key is grown from what stands below its cell: either that is
nothing yet, or the container is there. -/
theorem containerFor_grown {placed : List (List String × Json)} {there : Json} {next : String} {keys : List String}
    (hnone : placed = [] → there = .null) (hsome : placed ≠ [] → Grown placed there)
    (happart : ∀ e ∈ placed, KeepApart (next :: keys) e.1) : Grown placed (containerFor next there) := by
  unfold containerFor
  by_cases hplaced : placed = []
  · obtain rfl := hplaced
    obtain rfl := hnone rfl
    apply grown_empty
    simp only [Json.isContainer, Bool.false_eq_true, if_false]
    split
    · exact .inl rfl
    · exact .inr rfl
  · have hthere := hsome hplaced
    cases hthere with
    | leaf => exact absurd trivial (happart _ List.mem_cons_self).2
    | container holds named entered filler grown =>
      rw [if_pos holds]
      exact .container holds named entered filler grown

/-- Placing a value under keys that keep apart from those before grows a value by them. -/
theorem place_grown {value : Json} {keys : List String} {placed : List (List String × Json)} {v v' : Json}
    (hkeys : keys ≠ []) (hv : Grown placed v) (hcontainer : v.isContainer = true)
    (happart : ∀ e ∈ placed, KeepApart keys e.1) (h : place value keys v = .ok v') :
    Grown (placed ++ [(keys, value)]) v' := by
  induction keys generalizing placed v v' with
  | nil => exact absurd rfl hkeys
  | cons key keys ih =>
    obtain ⟨cell, child, hcell, rfl, hchild⟩ := place_cons hcontainer h
    cases hv with
    | leaf => exact absurd trivial (happart _ List.mem_cons_self).2
    | container _ named entered filler grown =>
    have hbelow := keepApart_partsBelow hcell happart
    have hgrown : Grown (partsBelow v cell placed ++ [(keys, value)]) child := by
      cases keys with
      | nil =>
        -- nothing stands below the cell that the last key means
        have hnone : partsBelow v cell placed = [] :=
          List.eq_nil_iff_forall_not_mem.mpr fun e he => (hbelow e he).1 trivial
        obtain rfl : child = value := hchild
        rw [hnone]
        exact .leaf child
      | cons next rest =>
        refine ih (by simp) (containerFor_grown ?_ ?_ hbelow) (containerFor_isContainer _ _) hbelow hchild
        · intro hnone
          cases hheld : v.cell? cell with
          | none => rfl
          | some held => exact (filler cell held hheld hnone).2
        · intro hne
          obtain ⟨held, hheld⟩ := cell?_of_partsBelow entered hne
          rw [hheld]
          exact grown cell held hheld hne
    have hself := Json.cell?_setCell_self hcell child
    refine .container ((Json.isContainer_setCell ..).trans hcontainer) (members_setCell named cell child) ?_ ?_ ?_
    · intro e he
      rcases List.mem_append.mp he with he | he
      · obtain ⟨key', keys', cell', held, heq, hcell', hheld⟩ := entered e he
        by_cases hsame : cell' = cell
        · subst hsame
          exact ⟨key', keys', cell', child, heq, (Json.cellOf?_setCell ..).trans hcell', hself⟩
        · exact ⟨key', keys', cell', held, heq, (Json.cellOf?_setCell ..).trans hcell',
            Json.cell?_setCell_of_some hsame hheld child⟩
      · obtain rfl := List.mem_singleton.mp he
        exact ⟨key, keys, cell, child, rfl, (Json.cellOf?_setCell ..).trans hcell, hself⟩
    · intro other held hheld hnone
      rw [partsBelow_setCell, partsBelow_concat] at hnone
      obtain ⟨hnone, hmeans⟩ := List.append_eq_nil_iff.mp hnone
      have hother : other ≠ cell := by
        rintro rfl
        simp [hcell] at hmeans
      rcases Json.cell?_of_setCell hother hheld with hheld | ⟨-, hnew⟩
      · exact filler other held hheld hnone
      · exact hnew
    · intro other held hheld hne
      rw [partsBelow_setCell, partsBelow_concat] at hne ⊢
      by_cases hother : other = cell
      · subst hother
        obtain rfl : child = held := Option.some.inj (hself.symm.trans hheld)
        simpa [hcell] using hgrown
      · have hmeans : v.cellOf? key ≠ some other := fun heq => hother (Option.some.inj (heq.symm.trans hcell))
        rw [if_neg hmeans, List.append_nil] at hne ⊢
        rcases Json.cell?_of_setCell hother hheld with hheld | ⟨hfresh, -⟩
        · exact grown other held hheld hne
        · obtain ⟨held', hheld'⟩ := cell?_of_partsBelow entered hne
          simp [hfresh] at hheld'

/-! ## Finding values again -/

section Found

variable {placed : List (List String × Json)} {v : Json}

/-- One key more in front of a trail. -/
theorem trail?_cons {key : String} {keys : List String} {cell : Cell} {child : Json} {trail : List Cell}
    (hcell : v.cellOf? key = some cell) (hchild : v.cell? cell = some child)
    (htrail : child.trail? keys = some trail) : v.trail? (key :: keys) = some (cell :: trail) := by
  simp [Json.trail?, hcell, hchild, htrail]

/-- The keys that a value was grown from lead to what was placed under them. -/
theorem Grown.found (h : Grown placed v) {keys : List String} {value : Json} (hmem : (keys, value) ∈ placed) :
    ∃ trail, v.trail? keys = some trail ∧ v.at? trail = some value := by
  induction h generalizing keys value with
  | leaf v =>
    obtain ⟨rfl, rfl⟩ := Prod.mk.inj (List.mem_singleton.mp hmem)
    exact ⟨[], rfl, rfl⟩
  | container _ _ entered _ _ ih =>
    obtain ⟨key, rest, cell, child, rfl, hcell, hchild⟩ := entered _ hmem
    have hbelow := mem_partsBelow.mpr ⟨key, hmem, hcell⟩
    obtain ⟨trail, htrail, hat⟩ := ih cell child hchild (List.ne_nil_of_mem hbelow) hbelow
    exact ⟨cell :: trail, trail?_cons hcell hchild htrail, by simpa [Json.at?, hchild] using hat⟩

/-- Some keys pass these cells. -/
def Passed (placed : List (List String × Json)) (v : Json) (cells : List Cell) : Prop :=
  ∃ e ∈ placed, ∃ trail, v.trail? e.1 = some trail ∧ cells <+: trail

theorem Passed.cons {cell : Cell} {cells : List Cell} {child : Json} (hchild : v.cell? cell = some child)
    (h : Passed (partsBelow v cell placed) child cells) : Passed placed v (cell :: cells) := by
  obtain ⟨⟨keys, x⟩, he, trail, htrail, hprefix⟩ := h
  obtain ⟨key, hmem, hcell⟩ := mem_partsBelow.mp he
  exact ⟨_, hmem, cell :: trail, trail?_cons hcell hchild htrail, List.cons_prefix_cons.mpr ⟨rfl, hprefix⟩⟩

/-- The containers that keys pass: their fields have different names, and a cell that no keys pass is an
item that fills a list. -/
theorem Grown.others (h : Grown placed v) {keys : List String} {value : Json} (hmem : (keys, value) ∈ placed)
    {before after : List Cell} {cell : Cell} (htrail : v.trail? keys = some (before ++ cell :: after)) :
    ∃ around, v.at? before = some around ∧ around.members.names.Nodup ∧
      ∀ other held, around.cell? other = some held →
        Passed placed v (before ++ [other]) ∨ (∃ i, other = .item i) ∧ held = .null := by
  induction h generalizing keys value before with
  | leaf v =>
    obtain ⟨rfl, rfl⟩ := Prod.mk.inj (List.mem_singleton.mp hmem)
    simp [Json.trail?] at htrail
  | @container placed v holds named entered filler grown ih =>
    cases before with
    | nil =>
      refine ⟨v, rfl, named, fun other held hheld => ?_⟩
      by_cases hnone : partsBelow v other placed = []
      · exact .inr (filler other held hheld hnone)
      · obtain ⟨⟨keys', x⟩, he⟩ := List.exists_mem_of_ne_nil _ hnone
        obtain ⟨trail, hfound, -⟩ := (grown other held hheld hnone).found he
        exact .inl (Passed.cons hheld ⟨_, he, trail, hfound, List.nil_prefix⟩)
    | cons first before =>
      obtain ⟨key, rest, cell', child, rfl, hcell, hchild⟩ := entered _ hmem
      simp only [Json.trail?, hcell, hchild, Option.bind_some, Option.map_eq_some_iff, List.cons_append] at htrail
      obtain ⟨trail, htrail, heq⟩ := htrail
      obtain ⟨rfl, rfl⟩ := List.cons.inj heq
      have hbelow := mem_partsBelow.mpr ⟨key, hmem, hcell⟩
      obtain ⟨around, hat, hnames, hothers⟩ := ih cell' child hchild (List.ne_nil_of_mem hbelow) hbelow htrail
      refine ⟨around, by simpa [Json.at?, hchild] using hat, hnames, fun other held hheld => ?_⟩
      exact (hothers other held hheld).imp_left (Passed.cons hchild)

end Found

/-! ## Expansion -/

theorem segments_ne_nil (name : String) : segments name ≠ [] := by
  have hsplit : ∀ cs, Text.splitOn '.' cs ≠ [] := by
    intro cs
    cases cs with
    | nil => simp [Text.splitOn]
    | cons c cs =>
      rw [Text.splitOn]
      split
      · simp
      · cases Text.splitOn '.' cs <;> simp [Text.consFirst]
  simp [segments, hsplit]

/-- Where the value of a parameter is placed. -/
def placement (e : String × Param) : List String × Json := (segments e.1, e.2.decoded)

/-- Two parameters whose names do not lead into one another. -/
def NamesApart (e f : String × Param) : Prop := KeepApart (segments e.1) (segments f.1)

instance (e f : String × Param) : Decidable (NamesApart e f) :=
  inferInstanceAs (Decidable (KeepApart (segments e.1) (segments f.1)))

theorem expandOne_grown {placed : List (List String × Json)} {fields fields' : Entries Json} {e : String × Param}
    (hfields : Grown placed (.obj fields)) (happart : ∀ f ∈ placed, KeepApart (segments e.1) f.1)
    (h : expandOne fields e = .ok fields') : Grown (placed ++ [placement e]) (.obj fields') := by
  unfold expandOne at h
  split at h
  · rename_i v hplace
    obtain rfl := Except.ok.inj h
    have hgrown := place_grown (segments_ne_nil e.1) hfields rfl happart hplace
    obtain ⟨fields', rfl⟩ := place_obj hplace
    exact hgrown
  · simp at h

theorem foldlM_expandOne_grown {placed : List (List String × Json)} {fields values : Entries Json}
    {params : Entries Param} (hfields : Grown placed (.obj fields))
    (happart : ∀ e ∈ params, ∀ f ∈ placed, KeepApart (segments e.1) f.1) (hparams : params.Pairwise NamesApart)
    (h : params.foldlM expandOne fields = .ok values) : Grown (placed ++ params.map placement) (.obj values) := by
  induction params generalizing placed fields with
  | nil =>
    obtain rfl := Except.ok.inj h
    simpa using hfields
  | cons e params ih =>
    obtain ⟨hfirst, hrest⟩ := List.pairwise_cons.mp hparams
    obtain ⟨hplaced, happart⟩ := List.forall_mem_cons.mp happart
    rw [List.foldlM_cons] at h
    obtain ⟨fields', hone, h⟩ := of_bind_ok h
    have hgrown := ih (expandOne_grown hfields hplaced hone) ?_ hrest h
    · simpa using hgrown
    · intro f hf g hg
      rcases List.mem_append.mp hg with hg | hg
      · exact happart f hf g hg
      · obtain rfl := List.mem_singleton.mp hg
        exact (hfirst f hf).symm

/-- A value holds the values of parameters under their names, and beside them fillers at most. -/
structure Holds (params : Entries Param) (v : Json) : Prop where
  /-- The keys of each name lead to the value of its parameter. -/
  found : ∀ e ∈ params, ∃ trail, v.trail? (segments e.1) = some trail ∧ v.at? trail = some e.2.decoded
  /-- No name leads to the place of another one or to one around it. -/
  apart : params.Pairwise fun e f => ∀ trail trail', v.trail? (segments e.1) = some trail →
    v.trail? (segments f.1) = some trail' → ¬ trail <+: trail' ∧ ¬ trail' <+: trail
  /-- In the containers that a name passes, fields have different names, and a cell that no name passes is
  an item that holds null. -/
  others : ∀ e ∈ params, ∀ before cell after, v.trail? (segments e.1) = some (before ++ cell :: after) →
    ∃ around, v.at? before = some around ∧ around.members.names.Nodup ∧
      ∀ other held, around.cell? other = some held →
        (∃ f ∈ params, ∃ trail, v.trail? (segments f.1) = some trail ∧ before ++ [other] <+: trail) ∨
          (∃ i, other = .item i) ∧ held = .null

/-- Parameters that expand and whose names do not lead into one another are found under their names, each
with its own value, and nothing is found beside them but what fills lists. -/
theorem expand_holds {params : Entries Param} {values : Entries Json} (hparams : params.Pairwise NamesApart)
    (h : expand params = .ok values) : Holds params (.obj values) := by
  have hgrown : Grown (params.map placement) (.obj values) :=
    foldlM_expandOne_grown (grown_empty (.inr rfl)) (by simp) hparams h
  refine ⟨fun e he => ?_, hparams.imp fun hef trail trail' htrail htrail' => ?_,
    fun e he before cell after htrail => ?_⟩
  · exact hgrown.found (List.mem_map_of_mem he)
  · exact ⟨fun hprefix => hef.1 (leadsInto_of_trail? htrail htrail' hprefix),
      fun hprefix => hef.2 (leadsInto_of_trail? htrail' htrail hprefix)⟩
  · obtain ⟨around, hat, hnames, hothers⟩ := hgrown.others (List.mem_map_of_mem he) htrail
    refine ⟨around, hat, hnames, fun other held hheld => (hothers other held hheld).imp_left ?_⟩
    rintro ⟨_, hmem, trail, hpassed⟩
    obtain ⟨f, hf, rfl⟩ := List.mem_map.mp hmem
    exact ⟨f, hf, trail, hpassed⟩

/-! ## A list that is filled up -/

namespace Basket

/-- Names in every notation: the second item of a list comes first, and its first item stays empty. -/
def params : Entries Param := [
  ("items[1].id", { type := .integer, value := .int 7 }),
  ("user[name]", { value := .str "Ada" }),
  ("items.1.tags[]", { value := .str "new" }),
  ("user.tags.*", { type := .array, value := .str "[1, 2]" })]

def values : Entries Json := [
  ("items", .arr [.null, .obj [("id", .int 7), ("tags", .arr [.str "new"])]]),
  ("user", .obj [("name", .str "Ada"), ("tags", .arr [.arr [.int 1, .int 2]])])]

theorem holds_values : params.Pairwise NamesApart ∧ expand params = .ok values ∧ Holds params (.obj values) := by
  have hparams : params.Pairwise NamesApart := by decide +kernel
  have hvalues : expand params = .ok values := rfl
  exact ⟨hparams, hvalues, expand_holds hparams hvalues⟩

end Basket

end ApiManual
