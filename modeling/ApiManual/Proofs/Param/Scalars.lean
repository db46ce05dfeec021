import ApiManual.Proofs.Param.Entered

/-!
# Scalars in their places

A scalar that is placed stands where its keys lead. What stood elsewhere stays, and nothing new comes to stand
anywhere but there, apart from the nulls that fill a list.

* `place_found`: keys lead to the value that is placed under them.
* `place_keeps`: what stands at other places stays.
* `of_at?_place`: a scalar is an old one, or the one that was placed.
-/

namespace ApiManual

variable {value v v' x : Json} {keys : List String} {cells trail : List Cell}

/-! ## Trails -/

theorem eq_nil_of_trail? (h : v.trail? keys = some []) : keys = [] := by
  cases keys with
  | nil => rfl
  | cons key rest => simp [Json.trail?, Option.bind_eq_some_iff] at h

/-- The first key of a trail means its first cell, and the others go on from what this holds. -/
theorem of_trail?_cons {cell : Cell} (h : v.trail? keys = some (cell :: cells)) : ∃ key rest child,
    keys = key :: rest ∧ v.cellOf? key = some cell ∧ v.cell? cell = some child ∧ child.trail? rest = some cells := by
  cases keys with
  | nil => cases h
  | cons key rest =>
    obtain ⟨cell', hcell, h⟩ := Option.bind_eq_some_iff.mp h
    obtain ⟨child, hchild, h⟩ := Option.bind_eq_some_iff.mp h
    obtain ⟨below, hbelow, heq⟩ := Option.map_eq_some_iff.mp h
    obtain ⟨rfl, rfl⟩ := List.cons.inj heq
    exact ⟨key, rest, child, rfl, hcell, hchild, hbelow⟩

/-! ## What stands in places -/

/-- In a new container there is nothing but the container. -/
theorem at?_containerFor {there : Json} (hthere : there.isContainer = false) (next : String)
    (h : (containerFor next there).at? cells = some x) : x.isContainer = true := by
  cases cells with
  | nil => exact Option.some.inj h ▸ containerFor_isContainer next there
  | cons cell cells => simp [Json.at?, cell?_containerFor hthere] at h

/-- Scalars hold nothing. -/
theorem at?_cons_of_scalar (hv : v.isContainer = false) (cell : Cell) : v.at? (cell :: cells) = none := by
  cases v <;> simp_all [Json.at?, Json.cell?, Json.isContainer]

/-! ## Placing a value -/

/-- The keys of a value that is placed lead to it. -/
theorem place_found (hv : v.isContainer = true) (hkeys : keys ≠ []) (h : place value keys v = .ok v') :
    ∃ trail, v'.trail? keys = some trail ∧ v'.at? trail = some value := by
  induction keys generalizing v v' with
  | nil => exact absurd rfl hkeys
  | cons key keys ih =>
    obtain ⟨cell, child, hcell, rfl, hchild⟩ := place_cons hv h
    have hcell' := (Json.cellOf?_setCell v cell child key).trans hcell
    have hself := Json.cell?_setCell_self hcell child
    cases keys with
    | nil =>
      obtain rfl : child = value := hchild
      exact ⟨[cell], trail?_cons hcell' hself rfl, by simp [Json.at?, hself]⟩
    | cons next rest =>
      obtain ⟨trail, htrail, hat⟩ := ih (containerFor_isContainer _ _) (by simp) hchild
      exact ⟨cell :: trail, trail?_cons hcell' hself htrail, by simpa [Json.at?, hself] using hat⟩

/-- What stands in a place stays there when a value is placed neither there nor around it nor below. -/
theorem place_keeps (hv : v.isContainer = true) (h : place value keys v = .ok v') (hat : v.at? cells = some x)
    (htrail : v'.trail? keys = some trail) (haround : ¬ trail <+: cells)
    (hbelow : ¬ cells <+: trail) : v'.at? cells = some x := by
  induction keys generalizing v v' cells trail with
  | nil =>
    obtain rfl := Option.some.inj htrail
    exact absurd List.nil_prefix haround
  | cons key keys ih =>
    obtain ⟨cell, child, hcell, rfl, hchild⟩ := place_cons hv h
    have hself := Json.cell?_setCell_self hcell child
    cases cells with
    | nil => exact absurd List.nil_prefix hbelow
    | cons other cells =>
      obtain ⟨held, hheld, hat⟩ := Option.bind_eq_some_iff.mp hat
      by_cases hother : other = cell
      · subst hother
        have htrail' : (child.trail? keys).map (other :: ·) = some trail := by
          simpa [Json.trail?, Json.cellOf?_setCell, hcell, hself] using htrail
        obtain ⟨below, hpassed, rfl⟩ := Option.map_eq_some_iff.mp htrail'
        rw [List.cons_prefix_cons, not_and] at haround hbelow
        cases keys with
        | nil =>
          obtain rfl := Option.some.inj hpassed
          exact absurd List.nil_prefix (haround rfl)
        | cons next rest =>
          -- what stands below the cell is in a container, so this is where the value is placed
          change place value (next :: rest) (containerFor next ((v.cell? other).getD .null)) = .ok child at hchild
          rw [hheld, Option.getD_some] at hchild
          have hheldContainer : held.isContainer = true := by
            by_contra hscalar
            cases cells with
            | nil => exact hbelow rfl List.nil_prefix
            | cons below cells => simp [at?_cons_of_scalar (by simpa using hscalar)] at hat
          rw [containerFor_of_isContainer hheldContainer] at hchild
          have hkept := ih hheldContainer hchild hat hpassed (haround rfl) (hbelow rfl)
          simpa [Json.at?, hself] using hkept
      · have hstays := Json.cell?_setCell_of_some hother hheld child
        simpa [Json.at?, hstays] using hat

/-- Where a scalar other than null stands after one has been placed, it stood before, or it was placed there. -/
theorem of_at?_place (hv : v.isContainer = true) (hkeys : keys ≠ []) (hvalue : value.isContainer = false)
    (h : place value keys v = .ok v') (hat : v'.at? cells = some x) (hx : x.isContainer = false)
    (hnull : x ≠ .null) : v.at? cells = some x ∨ v'.trail? keys = some cells := by
  induction keys generalizing v v' cells with
  | nil => exact absurd rfl hkeys
  | cons key keys ih =>
    obtain ⟨cell, child, hcell, rfl, hchild⟩ := place_cons hv h
    have hself := Json.cell?_setCell_self hcell child
    have hcell' := (Json.cellOf?_setCell v cell child key).trans hcell
    cases cells with
    | nil =>
      obtain rfl := Option.some.inj hat
      rw [Json.isContainer_setCell, hv] at hx
      cases hx
    | cons other cells =>
      obtain ⟨held, hheld, hat⟩ := Option.bind_eq_some_iff.mp hat
      by_cases hother : other = cell
      · subst hother
        obtain rfl : child = held := Option.some.inj (hself.symm.trans hheld)
        cases keys with
        | nil =>
          obtain rfl : child = value := hchild
          cases cells with
          | nil => exact .inr (trail?_cons hcell' hself rfl)
          | cons below cells => simp [at?_cons_of_scalar hvalue] at hat
        | cons next rest =>
          rcases ih (containerFor_isContainer _ _) (by simp) hchild hat with hold | hplaced
          · cases hheld : v.cell? other with
            | none => exact absurd (at?_containerFor rfl next (by simpa [hheld] using hold)) (by simp [hx])
            | some there =>
              rw [hheld, Option.getD_some] at hold
              cases hthere : there.isContainer with
              | true =>
                rw [containerFor_of_isContainer hthere] at hold
                exact .inl (by simpa [Json.at?, hheld] using hold)
              | false => exact absurd (at?_containerFor hthere next hold) (by simp [hx])
          · exact .inr (trail?_cons hcell' hself hplaced)
      · rcases Json.cell?_of_setCell hother hheld with hheld | ⟨-, -, rfl⟩
        · exact .inl (by simpa [Json.at?, hheld] using hat)
        · cases cells with
          | nil => exact absurd (Option.some.inj hat).symm hnull
          | cons below cells => cases hat

end ApiManual
