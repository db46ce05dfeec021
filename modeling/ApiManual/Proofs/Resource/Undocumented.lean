import ApiManual.Proofs.Resource.Descent
import ApiManual.Proofs.Resource.Layout

/-!
# Literals that no comment describes

A source may hold literals in brackets that none of its comments describes. The bracket that closes such a
literal is taken for the close of the innermost open scope, so it makes no difference exactly where all open
scopes are closed anyway before the next field.

* `Undescribed`: the lines of such a literal. `awaitsValue`: a field comment at the end of some lines is still
  without its value line.
* `openScopes`, `closersAhead`: the scopes that lines leave open, the closing brackets in front of the next
  field comment.
* `eventsFrom_append`: lines that do not await a value can be read apart from those behind them.
* `nestRun_close_of_le`: a close in front of as many others as there are open scopes changes nothing.
* `ofLines_insert`: a literal that is put in where the open scopes are closed leaves the tree as it is.
-/

namespace ApiManual

open Text

/-! ## Lines apart from those behind them -/

/-- A line that is passed over on the way to a value: it is blank or a comment. -/
def isPassedOver (line : List Char) : Bool := line.all isBlank || isComment line

/-- Whether a field comment is followed by nothing but lines that are passed over. -/
def awaitsValue : List (List Char) → Bool
  | [] => false
  | line :: lines => (fieldLine? line).isSome && lines.all isPassedOver || awaitsValue lines

/-- The lines of a literal in brackets without comments. -/
inductive Undescribed : List (List Char) → Prop where
  | mk {opener closer : List Char} {inner : List (List Char)} (hopener : CodeLine opener)
      (opens : endsOpen opener = true) (hinner : ∀ line ∈ inner, CodeLine line) (hcloser : isCloser closer = true) :
      Undescribed (opener :: (inner ++ [closer]))

section Lines

variable {lines : List (List Char)}

theorem continuations_append (h : lines.all isPassedOver = false) (later : List (List Char)) :
    continuations (lines ++ later) = continuations lines := by
  induction lines with
  | nil => simp at h
  | cons line lines ih =>
    rw [List.cons_append, continuations, continuations]
    cases htext : continuation? line with
    | none => rfl
    | some text =>
      have hcomment : isComment line = true := by
        unfold continuation? at htext
        split at htext
        · rename_i hline
          simp [isComment, hline]
        · simp at htext
      have hlines : lines.all isPassedOver = false := by simpa [isPassedOver, hcomment] using h
      simp only [ih hlines]

theorem opensScope_append (h : lines.all isPassedOver = false) (later : List (List Char)) :
    opensScope (lines ++ later) = opensScope lines := by
  have hvalue : (lines.dropWhile isPassedOver).isEmpty = false := by
    rw [List.isEmpty_eq_false_iff, ne_eq, List.dropWhile_eq_nil_iff]
    exact fun hall => by simp [List.all_eq_true.mpr hall] at h
  unfold opensScope
  change (match (lines ++ later).dropWhile isPassedOver with | [] => _ | line :: _ => _) =
    match lines.dropWhile isPassedOver with | [] => _ | line :: _ => _
  rw [List.dropWhile_append, if_neg (by simp [hvalue])]
  cases hdrop : lines.dropWhile isPassedOver with
  | nil => simp [hdrop] at hvalue
  | cons line rest => rfl

/-- Lines that do not await a value are read apart from those behind them. -/
theorem eventsFrom_append (number : Nat) (h : awaitsValue lines = false) (later : List (List Char)) :
    eventsFrom number (lines ++ later) = (do
      let events ← eventsFrom number lines
      let laterEvents ← eventsFrom (number + lines.length) later
      .ok (events ++ laterEvents)) := by
  induction lines generalizing number with
  | nil =>
    cases hlater : eventsFrom number later <;> simp [eventsFrom, bind, Except.bind, hlater]
  | cons line lines ih =>
    obtain ⟨hline, hlines⟩ := Bool.or_eq_false_iff.mp h
    have hnumber : number + (line :: lines).length = number + 1 + lines.length := by
      rw [List.length_cons]
      omega
    have hrest := ih (number + 1) hlines
    rw [List.cons_append, eventsFrom, eventsFrom, hnumber]
    cases hfield : fieldLine? line with
    | some content =>
      have hvalue : lines.all isPassedOver = false := by simpa [hfield] using hline
      simp only [continuations_append hvalue, opensScope_append hvalue, hrest]
      cases Field.ofComment (String.ofList (joined content (continuations lines))) with
      | error d => rfl
      | ok named =>
        cases eventsFrom (number + 1) lines <;> cases eventsFrom (number + 1 + lines.length) later <;> rfl
    | none =>
      simp only [hrest]
      split
      · cases eventsFrom (number + 1) lines <;> cases eventsFrom (number + 1 + lines.length) later <;> rfl
      · rfl

theorem eventsFrom_codes (number : Nat) (h : ∀ line ∈ lines, CodeLine line) (later : List (List Char)) :
    eventsFrom number (lines ++ later) = eventsFrom (number + lines.length) later := by
  induction lines generalizing number with
  | nil => rfl
  | cons line lines ih =>
    obtain ⟨hline, hlines⟩ := List.forall_mem_cons.mp h
    have hnumber : number + (line :: lines).length = number + 1 + lines.length := by
      rw [List.length_cons]
      omega
    rw [List.cons_append, eventsFrom, hline.noTag, hnumber]
    simp only [hline.noCloser, Bool.false_eq_true, if_false]
    exact ih (number + 1) hlines

/-- All that is read of a literal without comments is its closing bracket. -/
theorem Undescribed.eventsFrom (h : Undescribed lines) (number : Nat) (later : List (List Char)) :
    ∃ line, ApiManual.eventsFrom number (lines ++ later) = (do
      let events ← ApiManual.eventsFrom (number + lines.length) later
      .ok (.close line :: events)) := by
  obtain @⟨opener, closer, inner, hopener, opens, hinner, hcloser⟩ := h
  have hcodes : ∀ line ∈ opener :: inner, CodeLine line := List.forall_mem_cons.mpr ⟨hopener, hinner⟩
  refine ⟨(number + (opener :: inner).length : Nat), ?_⟩
  have hsplit : opener :: (inner ++ [closer]) ++ later = (opener :: inner) ++ closer :: later := by simp
  have hnumber : number + (opener :: (inner ++ [closer])).length = number + (opener :: inner).length + 1 := by
    simp
    omega
  rw [hsplit, eventsFrom_codes number hcodes, hnumber, ApiManual.eventsFrom, fieldLine?_of_isCloser hcloser]
  simp only [hcloser, if_true]

end Lines

/-! ## Events without their lines -/

/-- An event without its line. -/
def Event.unplaced : Event → Event
  | .field name f _ opens => .field name f 0 opens
  | .close _ => .close 0

/-- An open field without its line. -/
def OpenField.unplaced (o : OpenField) : OpenField := { o with line := 0 }

/-- Where lines begin makes no difference but in the lines of events. -/
theorem eventsFrom_unplaced {number : Nat} {lines : List (List Char)} {events : List Event}
    (h : eventsFrom number lines = .ok events) (other : Nat) :
    ∃ events', eventsFrom other lines = .ok events' ∧ events'.map Event.unplaced = events.map Event.unplaced := by
  fun_induction eventsFrom number lines generalizing events other with
  | case1 => exact ⟨[], rfl, by rw [← Except.ok.inj h]⟩
  | case2 => simp at h
  | case3 number line lines content hcontent name field hcomment ih =>
    obtain ⟨later, hlater, heq⟩ := of_bind_ok h
    obtain rfl := Except.ok.inj heq
    obtain ⟨later', hlater', hsame⟩ := ih hlater (other + 1)
    refine ⟨.field name field other (opensScope lines) :: later', ?_, by simp [hsame, Event.unplaced]⟩
    simp only [eventsFrom, hcontent, hcomment, hlater']
    rfl
  | case4 number line lines hcontent hcloser ih =>
    obtain ⟨later, hlater, heq⟩ := of_bind_ok h
    obtain rfl := Except.ok.inj heq
    obtain ⟨later', hlater', hsame⟩ := ih hlater (other + 1)
    refine ⟨.close other :: later', ?_, by simp [hsame, Event.unplaced]⟩
    simp only [eventsFrom, hcontent, hcloser, hlater']
    rfl
  | case5 number line lines hcontent hcloser ih =>
    obtain ⟨later', hlater', hsame⟩ := ih h (other + 1)
    refine ⟨later', ?_, hsame⟩
    simp only [eventsFrom, hcontent, hcloser, Bool.false_eq_true, if_false]
    exact hlater'

theorem nestRun_unplaced (here : Fields) (stack : List OpenField) (events : List Event) :
    nestRun here (stack.map OpenField.unplaced) (events.map Event.unplaced) =
      ((nestRun here stack events).1, (nestRun here stack events).2.map OpenField.unplaced) := by
  induction events generalizing here stack with
  | nil => rfl
  | cons e events ih =>
    cases e with
    | close line =>
      cases stack with
      | nil => exact ih here []
      | cons o stack => exact ih _ stack
    | field name field line opens =>
      cases h : opens && field.type.isStructured with
      | false =>
        rw [List.map_cons, Event.unplaced, nestRun_leaf _ _ _ h, nestRun_leaf _ _ _ h]
        exact ih _ stack
      | true =>
        rw [List.map_cons, Event.unplaced, nestRun_opening _ _ _ h, nestRun_opening _ _ _ h]
        exact ih [] ({ before := here, name, field, line } :: stack)

/-- A tree is read of events whatever their lines are. -/
theorem ofEvents_ok_iff {events : List Event} {fields : Fields} :
    Fields.ofEvents events = .ok fields ↔ nestRun [] [] (events.map Event.unplaced) = (fields, []) := by
  have hrun := nestRun_unplaced [] [] events
  rw [List.map_nil] at hrun
  rw [Fields.ofEvents, nest_eq_run, hrun]
  cases nestRun [] [] events with
  | mk here stack => cases stack <;> simp

/-! ## Closes that change nothing -/

/-- The closes in front of the next field. -/
def closesAhead : List Event → Nat
  | .close _ :: events => closesAhead events + 1
  | _ => 0

/-- A close in front of as many others as there are open scopes changes nothing. -/
theorem nestRun_close_of_le (here : Fields) {stack : List OpenField} {events : List Event}
    (h : stack.length ≤ closesAhead events) (line : Int) :
    nestRun here stack (.close line :: events) = nestRun here stack events := by
  induction stack generalizing here events line with
  | nil => rfl
  | cons o stack ih =>
    cases events with
    | nil => simp [closesAhead] at h
    | cons e events =>
      cases e with
      | field => simp [closesAhead] at h
      | close line' =>
        have hrest : stack.length ≤ closesAhead events := by simpa [closesAhead] using h
        rw [nestRun_close_cons, nestRun_close_cons]
        exact ih _ hrest line'

/-- How many documented scopes the lines leave open. -/
def openScopes (lines : List (List Char)) : Nat :=
  match eventsFrom 1 lines with
  | .ok events => (unclosed events).length
  | .error _ => 0

/-- The closing brackets in front of the next field comment. -/
def closersAhead (lines : List (List Char)) : Nat :=
  (lines.takeWhile fun line => (fieldLine? line).isNone).countP isCloser

theorem closesAhead_eventsFrom {number : Nat} {lines : List (List Char)} {events : List Event}
    (h : eventsFrom number lines = .ok events) : closesAhead (events.map Event.unplaced) = closersAhead lines := by
  fun_induction eventsFrom number lines generalizing events with
  | case1 =>
    obtain rfl := Except.ok.inj h
    rfl
  | case2 => simp at h
  | case3 number line lines content hcontent name field hcomment ih =>
    obtain ⟨later, hlater, heq⟩ := of_bind_ok h
    obtain rfl := Except.ok.inj heq
    simp [closersAhead, hcontent, Event.unplaced, closesAhead]
  | case4 number line lines hcontent hcloser ih =>
    obtain ⟨later, hlater, heq⟩ := of_bind_ok h
    obtain rfl := Except.ok.inj heq
    have hlater := ih hlater
    simp_all [closersAhead, Event.unplaced, closesAhead]
  | case5 number line lines hcontent hcloser ih =>
    have hlines := ih h
    simp_all [closersAhead]

/-! ## Putting a literal in -/

/-- A literal without comments, put in where no field comment awaits its value and all open scopes are closed
before the next field, leaves the tree as it is. -/
theorem ofLines_insert {before literal after : List (List Char)} {fields : Fields}
    (hread : Fields.ofLines ((before ++ after).map String.ofList) = .ok fields) (hliteral : Undescribed literal)
    (hvalued : awaitsValue before = false) (hclosed : openScopes before ≤ closersAhead after) :
    Fields.ofLines ((before ++ literal ++ after).map String.ofList) = .ok fields := by
  have hlines (lines : List (List Char)) : Fields.ofLines (lines.map String.ofList) =
      eventsFrom 1 lines >>= Fields.ofEvents := by
    simp [Fields.ofLines, outline, Function.comp_def]
  rw [hlines] at hread ⊢
  obtain ⟨events, hevents, htree⟩ := of_bind_ok hread
  rw [eventsFrom_append 1 hvalued] at hevents
  obtain ⟨front, hfront, hevents⟩ := of_bind_ok hevents
  obtain ⟨back, hback, heq⟩ := of_bind_ok hevents
  obtain rfl := Except.ok.inj heq
  obtain ⟨line, hinside⟩ := hliteral.eventsFrom (1 + before.length) after
  obtain ⟨back', hback', hsame⟩ := eventsFrom_unplaced hback (1 + before.length + literal.length)
  rw [List.append_assoc, eventsFrom_append 1 hvalued, hfront, hinside, hback']
  change Fields.ofEvents (front ++ .close line :: back') = .ok fields
  rw [ofEvents_ok_iff] at htree ⊢
  rw [List.map_append, nestRun_append] at htree ⊢
  rw [List.map_cons, hsame, Event.unplaced, ← htree]
  refine nestRun_close_of_le _ ?_ 0
  have hstack := congrArg List.length (run_stack [] [] front)
  have hrun := nestRun_unplaced [] [] front
  rw [List.map_nil] at hrun
  rw [hrun, List.length_map, closesAhead_eventsFrom hback]
  have hopen : openScopes before = (unclosed front).length := by simp [openScopes, hfront]
  simp at hstack
  omega

/-! ## A list of links beside documented fields -/

namespace Links

def opening : List (List Char) := [
  "return \x7b".toList,
  "  # @responseParam tags list".toList,
  "  \"tags\": [".toList]

def field : List (List Char) := [
  "    # @responseParam id int".toList,
  "    \"id\": tag.id,".toList]

def links : List (List Char) := [
  "    \"links\": [".toList,
  "      tag.link,".toList,
  "    ],".toList]

def closing : List (List Char) := [
  "  ],".toList,
  "\x7d".toList]

/-- The tags with these fields. -/
def tags (items : Fields) : String × Field := ("tags", { type := .array, items := some items })

def id : String × Field := ("id", { type := .integer })

theorem undescribed_links : Undescribed links := by
  have hinner : ∀ line ∈ ["      tag.link,".toList], CodeLine line := by decide +kernel
  exact .mk (by decide +kernel) (by decide +kernel) hinner (by decide +kernel)

/-- Behind the last field of a scope the literal changes nothing. -/
theorem ofLines_insert_links :
    Fields.ofLines ((opening ++ field ++ closing).map String.ofList) = .ok [tags [id]] ∧ Undescribed links ∧
      awaitsValue (opening ++ field) = false ∧ openScopes (opening ++ field) ≤ closersAhead closing ∧
      Fields.ofLines ((opening ++ field ++ links ++ closing).map String.ofList) = .ok [tags [id]] := by
  have hread : Fields.ofLines ((opening ++ field ++ closing).map String.ofList) = .ok [tags [id]] := rfl
  have hvalued : awaitsValue (opening ++ field) = false := by decide +kernel
  have hclosed : openScopes (opening ++ field) ≤ closersAhead closing := by decide +kernel
  exact ⟨hread, undescribed_links, hvalued, hclosed, ofLines_insert hread undescribed_links hvalued hclosed⟩

/-- In front of a field of an open scope, or behind a comment without a value line, the literal changes the tree. -/
theorem insert_links_changes :
    (Undescribed links ∧ awaitsValue opening = false ∧
      Fields.ofLines ((opening ++ (field ++ closing)).map String.ofList) = .ok [tags [id]] ∧
      Fields.ofLines ((opening ++ links ++ (field ++ closing)).map String.ofList) = .ok [tags [], id] ∧
      ([tags [id]] : Fields) ≠ [tags [], id]) ∧
    Fields.ofLines ((opening.take 2).map String.ofList) = .ok [("tags", { type := .array })] ∧
    Fields.ofLines ((opening.take 2 ++ links).map String.ofList) = .ok [tags []] := by
  have hne : ([tags [id]] : Fields) ≠ [tags [], id] := fun heq => by
    have hnames := congrArg Entries.names heq
    simp [Entries.names] at hnames
  exact ⟨⟨undescribed_links, by decide +kernel, rfl, rfl, hne⟩, rfl, rfl⟩

end Links

end ApiManual
