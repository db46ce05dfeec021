import ApiManual.Proofs.Param.Entered
import Mathlib.Data.List.Lex
import Mathlib.Order.BooleanAlgebra.Basic

/-!
# When the order of parameters matters

`OrderFree`: every two orders of some parameters are refused for their notation, or give values that are the
same but for the order of fields. Whether this is so is a matter of the names (`orderFree_iff`): they are free
of their order, whatever values they have, just if their indexes are decimal and any two of them part.
`Filter.order_matters` is a set of names that is not.

* **Names that part** are free of their order by what two placements do in either order (`orderFree_of_part`).
* **Names in conflict** are refused if the index comes first (`conflict_refuses`), and expanded if names come
  before indexes (`exists_order`, `expand_ok`).
* **Names that lead into one another** show the value that was placed last (`OrderFree.eq_of_leadsInto`).
-/

namespace ApiManual

open Text

variable {value : Json} {keys path : List String} {v u : Json} {b : Bool}

/-! ## Names in conflict -/

/-- Keys that enter by index a container that others enter by name. -/
def Conflict : List String → List String → Prop
  | key :: keys, other :: others =>
    isDigits key.toList = true ∧ isDigits other.toList = false ∨ SameKey key other ∧ Conflict keys others
  | _, _ => False

/-- A name that enters by index a container that another one enters by name, below a common field. -/
def NamesConflict (name other : String) : Prop :=
  ∃ key keys others, segments name = key :: keys ∧ segments other = key :: others ∧ Conflict keys others

theorem EntersAs.conflict {key : String} {rest : List String} (h : EntersAs true keys path)
    (hkey : isDigits key.toList = false) : Conflict keys (path ++ key :: rest) := by
  induction keys generalizing path with
  | nil => exact h.elim
  | cons other keys ih =>
    cases path with
    | nil => exact .inl ⟨h, hkey⟩
    | cons _ path => exact .inr ⟨h.1, ih h.2⟩

theorem EntersAs.conflict_symm {key : String} {rest : List String} (h : EntersAs false keys path)
    (hkey : isDigits key.toList = true) : Conflict (path ++ key :: rest) keys := by
  induction keys generalizing path with
  | nil => exact h.elim
  | cons other keys ih =>
    cases path with
    | nil => exact .inl ⟨hkey, h⟩
    | cons _ path => exact .inr ⟨h.1.symm, ih h.2⟩

theorem not_conflict_self (keys : List String) : ¬Conflict keys keys := by
  induction keys with
  | nil => exact id
  | cons key keys ih =>
    rintro (⟨h, h'⟩ | ⟨-, h⟩)
    · rw [h] at h'
      cases h'
    · exact ih h

/-- Keys that do not diverge are in conflict, or lead into one another. -/
theorem conflict_or_leadsInto {keys others : List String} (h : ¬Diverge keys others) :
    Conflict keys others ∨ Conflict others keys ∨ LeadsInto keys others ∨ LeadsInto others keys := by
  induction keys generalizing others with
  | nil => exact .inr (.inr (.inl trivial))
  | cons key keys ih =>
    cases others with
    | nil => exact .inr (.inr (.inr trivial))
    | cons other others =>
      by_cases hdigits : isDigits key.toList = isDigits other.toList
      · obtain ⟨hsame, hrest⟩ : SameKey key other ∧ ¬Diverge keys others := by
          simpa [Diverge, hdigits] using h
        rcases ih hrest with hc | hc | hinto | hinto
        · exact .inl (.inr ⟨hsame, hc⟩)
        · exact .inr (.inl (.inr ⟨hsame.symm, hc⟩))
        · exact .inr (.inr (.inl ⟨hsame, hinto⟩))
        · exact .inr (.inr (.inr ⟨hsame.symm, hinto⟩))
      · cases hkey : isDigits key.toList with
        | true =>
          rw [hkey] at hdigits
          exact .inl (.inl ⟨hkey, Bool.eq_false_iff.mpr fun hother => hdigits hother.symm⟩)
        | false =>
          rw [hkey] at hdigits
          exact .inr (.inl (.inl ⟨by simpa using Ne.symm hdigits, hkey⟩))

/-- Scalars under names with decimal indexes are expanded in an order in which no name enters by name a
container that an earlier one enters by index. -/
theorem expand_ok {params : Entries Param} (hscalar : ∀ e ∈ params, e.2.decoded.isContainer = false)
    (hindexed : ∀ e ∈ params, Indexed (segments e.1))
    (hnone : params.Pairwise fun e f => ¬NamesConflict e.1 f.1) : ∃ values, expand params = .ok values := by
  cases h : expand params with
  | ok values => exact ⟨values, rfl⟩
  | error f =>
    exfalso
    obtain ⟨before, e, after, fields, rfl, hbefore, he⟩ := of_foldlM_error h
    obtain ⟨-, key, path, k, rest, u, hkeys, hname, hleads, hlist⟩ := expandOne_refused (hindexed e (by simp)) he
    rcases entered_of_expand (fun o ho => hscalar o (by simp [ho])) hbefore hleads hlist with
      ⟨u', hu', -⟩ | ⟨o, ho, keys, hokeys, henters⟩
    · obtain ⟨cell, child, hcell, hchild, -⟩ := Json.follow_cons.mp hu'
      obtain rfl := Option.some.inj hcell
      cases hchild
    · have hconflict : NamesConflict o.1 e.1 := ⟨key, keys, _, hokeys, hkeys, henters.conflict hname⟩
      exact (List.pairwise_append.mp hnone).2.2 o ho e List.mem_cons_self hconflict

/-! ## An order that is expanded -/

/-- Which keys of a name are digits. -/
def digitPattern (name : String) : List Bool := (segments name).map (isDigits ·.toList)

theorem Conflict.lt {keys others : List String} (h : Conflict keys others) :
    others.map (isDigits ·.toList) < keys.map (isDigits ·.toList) := by
  induction keys generalizing others with
  | nil => exact h.elim
  | cons key keys ih =>
    cases others with
    | nil => exact h.elim
    | cons other others =>
      rw [List.map_cons, List.map_cons, List.cons_lt_cons_iff]
      rcases h with ⟨hkey, hother⟩ | ⟨hsame, h⟩
      · rw [hkey, hother]
        exact .inl (by decide)
      · exact .inr ⟨hsame.isDigits_eq.symm, ih h⟩

theorem NamesConflict.lt {name other : String} (h : NamesConflict name other) :
    digitPattern other < digitPattern name := by
  obtain ⟨key, keys, others, hname, hother, h⟩ := h
  unfold digitPattern
  rw [hname, hother, List.map_cons, List.map_cons, List.cons_lt_cons_iff]
  exact .inr ⟨rfl, h.lt⟩

/-- Names in the order of their digits, where a name comes before an index. -/
theorem exists_order (params : Entries Param) :
    ∃ ordered : Entries Param, ordered.Perm params ∧ ordered.Pairwise fun e f => ¬NamesConflict e.1 f.1 := by
  let before (e f : String × Param) : Bool := decide (digitPattern e.1 ≤ digitPattern f.1)
  have hsorted : (params.mergeSort before).Pairwise fun e f => before e f := by
    refine List.pairwise_mergeSort (fun e f g hef hfg => ?_) (fun e f => ?_) params
    · exact decide_eq_true ((of_decide_eq_true hef).trans (of_decide_eq_true hfg))
    · rcases le_total (digitPattern e.1) (digitPattern f.1) with h | h <;> simp [before, h]
  refine ⟨params.mergeSort before, List.mergeSort_perm params before, hsorted.imp fun hef hconflict => ?_⟩
  exact absurd hconflict.lt (not_lt.mpr (of_decide_eq_true hef))

/-! ## Orders that differ -/

/-- The results of two orders that agree: both mix the notations of lists and objects, or both give values that
are the same but for the order of fields. -/
inductive SameExpansion : Except Failure (Entries Json) → Except Failure (Entries Json) → Prop
  | refused (name name' : String) :
      SameExpansion (.error (.defect (.mixedNotation name))) (.error (.defect (.mixedNotation name')))
  | expanded {values values' : Entries Json} (same : SameButOrder (.obj values) (.obj values')) :
      SameExpansion (.ok values) (.ok values')

/-- Whether parameters can be expanded, and to what, does not depend on their order. -/
def OrderFree (params : Entries Param) : Prop :=
  ∀ first second : Entries Param, first.Perm params → second.Perm params →
    SameExpansion (expand first) (expand second)

/-- Keys in conflict: where the first ones lead, the others are refused. -/
theorem conflict_refuses {others : List String} {other : Json} (h : Conflict keys others)
    (hplaced : placeBelow value keys .null = .ok v) : placeBelow other others v = .error .keyInList := by
  induction keys generalizing others v with
  | nil => exact h.elim
  | cons key keys ih =>
    cases others with
    | nil => exact h.elim
    | cons name others =>
      have hcontainer := containerFor_isContainer key .null
      obtain ⟨cell, child, hcell, hchild, rfl⟩ := place_container hcontainer hplaced
      have hkind : (containerFor key .null).byIndex? = some (isDigits key.toList) := byIndex?_containerFor rfl key
      have hv : ((containerFor key .null).setCell cell child).isContainer = true :=
        (Json.isContainer_setCell ..).trans hcontainer
      rw [cell?_containerFor rfl] at hchild
      rw [placeBelow, containerFor_of_isContainer hv, place_eq other name others hv, Json.cellIn_setCell]
      rcases h with ⟨hkey, hname⟩ | ⟨hsame, h⟩
      · -- a new list is entered by name
        have hrefused : (containerFor key .null).cellIn name = .error .keyInList := by
          rw [hkey] at hkind
          cases hlist : containerFor key .null with
          | arr items =>
            simp only [Json.cellIn, listIndex_of_not_digits hname]
            rfl
          | _ =>
            rw [hlist] at hkind
            cases hkind
        rw [hrefused]
        rfl
      · rw [← cellIn_of_sameKey hkind hsame, hcell]
        have hself := Json.cell?_setCell_self (Json.cellOf?_of_cellIn hcontainer hcell) child
        simp only [bind, Except.bind, hself, Option.getD_some, ih h hchild]

theorem perm_of_mem_of_mem {α : Type} {xs : List α} {x y : α} (hx : x ∈ xs) (hy : y ∈ xs) (hne : x ≠ y) :
    ∃ rest, (x :: y :: rest).Perm xs := by
  obtain ⟨before, after, rfl⟩ := List.append_of_mem hx
  have hrest : y ∈ before ++ after := by
    simpa [Ne.symm hne] using hy
  obtain ⟨before', after', hsplit⟩ := List.append_of_mem hrest
  refine ⟨before' ++ after', ?_⟩
  have hinner : (y :: (before' ++ after')).Perm (before ++ after) := hsplit ▸ List.perm_middle.symm
  exact (hinner.cons x).trans List.perm_middle.symm

section OrderFree

variable {params : Entries Param}

theorem OrderFree.indexed (h : OrderFree params) : ∀ e ∈ params, Indexed (segments e.1) := by
  intro e he
  obtain ⟨before, after, rfl⟩ := List.append_of_mem he
  obtain ⟨key, keys, hkeys⟩ := List.exists_cons_of_ne_nil (segments_ne_nil e.1)
  have hself := h (e :: (before ++ after)) (e :: (before ++ after)) List.perm_middle.symm List.perm_middle.symm
  rcases expandOne_nil hkeys with ⟨child, -, hchild⟩ | ⟨k, -, -, hfault⟩
  · rw [hkeys]
    exact decimal_of_below hchild
  · have hexpand : expand (e :: (before ++ after)) = .error (.fault (.indexNumeral k)) := by
      unfold expand
      rw [List.foldlM_cons, hfault]
      rfl
    rw [hexpand] at hself
    cases hself

theorem OrderFree.no_conflict (h : OrderFree params) (hscalar : ∀ e ∈ params, e.2.decoded.isContainer = false) :
    ∀ e ∈ params, ∀ f ∈ params, ¬NamesConflict e.1 f.1 := by
  rintro e he f hf ⟨key, keys, others, hkeys, hothers, hconflict⟩
  have hne : e ≠ f := by
    rintro rfl
    obtain ⟨-, rfl⟩ := List.cons.inj (hkeys.symm.trans hothers)
    exact not_conflict_self keys hconflict
  obtain ⟨rest, hperm⟩ := perm_of_mem_of_mem he hf hne
  obtain ⟨ordered, hordered, hnone⟩ := exists_order params
  obtain ⟨values, hvalues⟩ := expand_ok (fun o ho => hscalar o (hordered.mem_iff.mp ho))
    (fun o ho => h.indexed o (hordered.mem_iff.mp ho)) hnone
  have hrefused : expand (e :: f :: rest) = .error (.defect (.mixedNotation f.1)) := by
    rcases expandOne_nil hkeys with ⟨child, hfirst, hchild⟩ | ⟨k, hk, hdigits, -⟩
    · have hsecond : expandOne [(key, child)] f = .error (.defect (.mixedNotation f.1)) := by
        unfold expandOne
        rw [hothers, place_eq _ key others rfl]
        have hheld : ((Json.obj [(key, child)]).cell? (.field key)).getD .null = child := by
          simp [Json.cell?, Entries.get?]
        simp only [Json.cellIn, bind, Except.bind, hheld, conflict_refuses hconflict hchild]
        rfl
      unfold expand
      rw [List.foldlM_cons, hfirst]
      show List.foldlM expandOne [(key, child)] (f :: rest) = _
      rw [List.foldlM_cons, hsecond]
      rfl
    · refine absurd (h.indexed e he k ?_) hdigits
      rw [hkeys]
      exact hk
  have hsame := h _ _ hperm hordered
  rw [hrefused, hvalues] at hsame
  cases hsame

/-- Names without conflict find every container entered in their own way. -/
theorem kinds_of_expand {values : Entries Json} (hscalar : ∀ e ∈ params, e.2.decoded.isContainer = false)
    (hnone : ∀ e ∈ params, ∀ f ∈ params, ¬NamesConflict e.1 f.1) (hvalues : expand params = .ok values)
    {e : String × Param} (he : e ∈ params) {key next : String} {rest : List String}
    (hkeys : segments e.1 = key :: (path ++ next :: rest)) (hu : (Json.obj values).follow (key :: path) = some u)
    (hb : u.byIndex? = some b) : isDigits next.toList = b := by
  rcases entered_of_expand hscalar hvalues hu hb with ⟨u', hu', -⟩ | ⟨o, ho, keys, hokeys, henters⟩
  · obtain ⟨cell, child, hcell, hchild, -⟩ := Json.follow_cons.mp hu'
    obtain rfl := Option.some.inj hcell
    cases hchild
  · by_contra hne
    cases b with
    | true =>
      have hnext : isDigits next.toList = false := by simpa using hne
      exact hnone o ho e he ⟨key, keys, _, hokeys, hkeys, henters.conflict hnext⟩
    | false =>
      have hnext : isDigits next.toList = true := by simpa using hne
      exact hnone e he o ho ⟨key, _, keys, hkeys, hokeys, henters.conflict_symm hnext⟩

/-- Of two names of which one leads into the other, the values are found as they are placed last. -/
theorem OrderFree.eq_of_leadsInto (h : OrderFree params) (hscalar : ∀ e ∈ params, e.2.decoded.isContainer = false)
    {e f : String × Param} {rest : Entries Param} (hperm : (e :: f :: rest).Perm params) {key : String}
    {others : List String} (hkeys : segments e.1 = key :: keys) (hothers : segments f.1 = key :: others)
    (hinto : LeadsInto keys others) : e.2.decoded = f.2.decoded := by
  have hfirst : (rest ++ [e] ++ [f]).Perm params := by
    rw [List.append_assoc]
    exact List.perm_append_comm.trans hperm
  have hsecond : (rest ++ [f] ++ [e]).Perm params := by
    rw [List.append_assoc]
    exact (List.perm_append_comm.trans (List.Perm.swap e f rest)).trans hperm
  have hnone := h.no_conflict hscalar
  have hexpand {order : Entries Param} (horder : order.Perm params) : ∃ values, expand order = .ok values := by
    refine expand_ok (fun o ho => hscalar o (horder.mem_iff.mp ho)) (fun o ho => h.indexed o (horder.mem_iff.mp ho)) ?_
    exact List.pairwise_of_forall_mem_list fun o ho o' ho' =>
      hnone o (horder.mem_iff.mp ho) o' (horder.mem_iff.mp ho')
  obtain ⟨values, hvalues⟩ := hexpand hfirst
  obtain ⟨values', hvalues'⟩ := hexpand hsecond
  have hsame := h _ _ hfirst hsecond
  rw [hvalues, hvalues'] at hsame
  obtain ⟨fields, -, hlast⟩ := expand_concat hvalues
  obtain ⟨fields', -, hlast'⟩ := expand_concat hvalues'
  have hplace := expandOne_ok_iff.mp hlast
  have hplace' := expandOne_ok_iff.mp hlast'
  rw [hothers] at hplace
  rw [hkeys] at hplace'
  obtain ⟨cell, child, hcell, hchild, heq⟩ := place_container rfl hplace
  obtain ⟨cell', child', hcell', hchild', heq'⟩ := place_container rfl hplace'
  obtain rfl := Except.ok.inj hcell
  obtain rfl := Except.ok.inj hcell'
  -- the name that comes last in the first order leads to its value, so it does in the second order
  have hfound : (Json.obj values).follow (key :: others) = some f.2.decoded := by
    rw [heq]
    exact Json.follow_cons.mpr ⟨_, child, rfl, Json.cell?_setCell_self rfl child, follow_of_below hchild⟩
  cases hsame with
  | expanded hrel =>
    obtain ⟨y, hy, hrel⟩ := hrel.follow hfound
    obtain ⟨_, held, hcell, hheld, hy⟩ := Json.follow_cons.mp hy
    obtain rfl := Option.some.inj hcell
    have hcellOf : (Json.obj fields').cellOf? key = some (.field key) := rfl
    have hself := Json.cell?_setCell_self hcellOf child'
    rw [← heq'] at hself
    obtain rfl := Option.some.inj (hheld.symm.trans hself)
    have hlast : y = e.2.decoded := by
      refine follow_into (hscalar e (hperm.mem_iff.mp (by simp))) hinto hchild'
        (fun path k rest' u b hsplit hu hb => ?_) hy
      refine kinds_of_expand (fun o ho => hscalar o (hsecond.mem_iff.mp ho))
        (fun o ho o' ho' => hnone o (hsecond.mem_iff.mp ho) o' (hsecond.mem_iff.mp ho')) hvalues' (e := e) (by simp)
        (hsplit ▸ hkeys) ?_ hb
      exact Json.follow_cons.mpr ⟨_, _, rfl, hself, hu⟩
    exact hlast.symm.trans (hrel.eq_of_scalar (hscalar f (hperm.mem_iff.mp (by simp))))

theorem exists_of_not_pairwise {α : Type} {R : α → α → Prop} {xs : List α} (h : ¬xs.Pairwise R) :
    ∃ x y rest, (x :: y :: rest).Perm xs ∧ [x, y].Sublist xs ∧ ¬R x y := by
  induction xs with
  | nil => exact absurd .nil h
  | cons x xs ih =>
    by_cases hx : ∀ y ∈ xs, R x y
    · obtain ⟨y, z, rest, hperm, hsub, hyz⟩ := ih fun hxs => h (List.pairwise_cons.mpr ⟨hx, hxs⟩)
      refine ⟨y, z, x :: rest, ?_, hsub.cons x, hyz⟩
      have hmiddle : ([y, z] ++ x :: rest).Perm (x :: ([y, z] ++ rest)) := List.perm_middle
      exact hmiddle.trans (hperm.cons x)
    · obtain ⟨y, hy, hxy⟩ : ∃ y ∈ xs, ¬R x y := by simpa using hx
      obtain ⟨before, after, rfl⟩ := List.append_of_mem hy
      exact ⟨x, y, before ++ after, List.perm_middle.symm.cons x, (List.singleton_sublist.mpr hy).cons_cons x, hxy⟩

/-- The names of scalars that are free of their order part, if no two of the scalars are equal. -/
theorem OrderFree.namesPart (h : OrderFree params) (hscalar : ∀ e ∈ params, e.2.decoded.isContainer = false)
    (hdistinct : params.Pairwise fun e f => e.2.decoded ≠ f.2.decoded) : params.Pairwise NamesPart := by
  by_contra hpart
  obtain ⟨e, f, rest, hperm, hsub, hef⟩ := exists_of_not_pairwise hpart
  have hne : e.2.decoded ≠ f.2.decoded := (List.pairwise_cons.mp (hdistinct.sublist hsub)).1 f List.mem_cons_self
  obtain ⟨key, keys, hkeys⟩ := List.exists_cons_of_ne_nil (segments_ne_nil e.1)
  obtain ⟨key', others, hothers⟩ := List.exists_cons_of_ne_nil (segments_ne_nil f.1)
  unfold NamesPart at hef
  rw [hkeys, hothers] at hef
  obtain ⟨rfl, hdiverge⟩ : key = key' ∧ ¬Diverge keys others := by
    simpa [Part] using hef
  have hnone := h.no_conflict hscalar
  have he : e ∈ params := hperm.mem_iff.mp (by simp)
  have hf : f ∈ params := hperm.mem_iff.mp (by simp)
  rcases conflict_or_leadsInto hdiverge with hc | hc | hinto | hinto
  · exact hnone e he f hf ⟨key, keys, others, hkeys, hothers, hc⟩
  · exact hnone f hf e he ⟨key, others, keys, hothers, hkeys, hc⟩
  · exact hne (h.eq_of_leadsInto hscalar hperm hkeys hothers hinto)
  · have hswap : (f :: e :: rest).Perm params := (List.Perm.swap e f rest).trans hperm
    exact hne (h.eq_of_leadsInto hscalar hswap hothers hkeys hinto).symm

end OrderFree

/-! ## Names that are free of their order -/

/-- Parameters under some names, each with a number of its own. -/
def numbered (names : List String) : Entries Param :=
  names.zipIdx.map fun (name, i) => (name, { type := .integer, value := .int i })

theorem names_numbered (names : List String) : (numbered names).names = names := by
  unfold numbered Entries.names
  rw [List.map_map]
  exact List.zipIdx_map_fst 0 names

theorem scalar_numbered (names : List String) : ∀ e ∈ numbered names, e.2.decoded.isContainer = false := by
  intro e he
  obtain ⟨entry, -, rfl⟩ := List.mem_map.mp he
  rfl

theorem distinct_numbered (names : List String) :
    (numbered names).Pairwise fun e f => e.2.decoded ≠ f.2.decoded := by
  have hnumbers : (names.zipIdx.map (·.2)).Nodup := by
    rw [List.zipIdx_map_snd]
    exact List.nodup_range'
  refine List.pairwise_map.mpr ((List.pairwise_map.mp hnumbers).imp fun hne heq => hne ?_)
  exact Int.ofNat_inj.mp (Json.int.inj heq)

/-- Parameters are free of their order if their indexes are decimal and their names part. -/
theorem orderFree_of_part {params : Entries Param} (hindexed : ∀ e ∈ params, Indexed (segments e.1))
    (hpart : params.Pairwise NamesPart) : OrderFree params := by
  intro first second hfirst hsecond
  have hpart' {order : Entries Param} (h : order.Perm params) : order.Pairwise NamesPart :=
    (h.pairwise_iff NamesPart.symm).mpr hpart
  have hrefused {order : Entries Param} (h : order.Perm params) {f : Failure} (hf : expand order = .error f) :
      ∃ name, f = .defect (.mixedNotation name) :=
    expand_refused (fun e he => hindexed e (h.mem_iff.mp he)) hf
  have hperm := hfirst.trans hsecond.symm
  cases hvalues : expand first with
  | ok values =>
    obtain ⟨values', hvalues', hrel⟩ := foldlM_expandOne_perm hperm (hpart' hfirst) hvalues
    rw [show expand second = .ok values' from hvalues']
    exact .expanded hrel
  | error f =>
    cases hvalues' : expand second with
    | ok values' =>
      obtain ⟨values, hvalues'', -⟩ := foldlM_expandOne_perm hperm.symm (hpart' hsecond) hvalues'
      rw [show expand first = .ok values from hvalues''] at hvalues
      cases hvalues
    | error f' =>
      obtain ⟨name, rfl⟩ := hrefused hfirst hvalues
      obtain ⟨name', rfl⟩ := hrefused hsecond hvalues'
      exact .refused name name'

/-- Parameters under some names are free of their order, whatever they are, just if the indexes in the names are
decimal and any two names part. -/
theorem orderFree_iff (names : List String) :
    (∀ params : Entries Param, params.names = names → OrderFree params) ↔
      (∀ name ∈ names, Indexed (segments name)) ∧
        names.Pairwise fun name other => Part (segments name) (segments other) := by
  constructor
  · intro h
    have hfree := h (numbered names) (names_numbered names)
    have hparts := hfree.namesPart (scalar_numbered names) (distinct_numbered names)
    rw [← names_numbered names]
    refine ⟨fun name hname => ?_, List.pairwise_map.mpr hparts⟩
    obtain ⟨e, he, rfl⟩ := List.mem_map.mp hname
    exact hfree.indexed e he
  · rintro ⟨hindexed, hpart⟩ params rfl
    rw [Entries.names, List.pairwise_map] at hpart
    exact orderFree_of_part (fun e he => hindexed e.1 (List.mem_map_of_mem he)) hpart

/-! ## Names whose order matters -/

namespace Filter

/-- An index and a name behind one field. -/
def params : Entries Param := [("filter.0", { value := .str "b" }), ("filter.name", { value := .str "a" })]

theorem order_matters : params.names.Nodup ∧ ¬OrderFree params := by
  refine ⟨by decide, fun h => ?_⟩
  have hsame := h params params.reverse (.refl _) (List.reverse_perm _)
  have hrefused : expand params = .error (.defect (.mixedNotation "filter.name")) := rfl
  have hvalues : expand params.reverse = .ok [("filter", .obj [("name", .str "a"), ("0", .str "b")])] := rfl
  rw [hrefused, hvalues] at hsame
  cases hsame

end Filter

end ApiManual
