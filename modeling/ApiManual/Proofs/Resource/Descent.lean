import ApiManual.Resource.Tree
import Mathlib.Data.List.Basic

/-!
# Nesting by recursive descent

The stack that nests the fields of an outline does what reading scope by scope would do.

* `untilClose?`: the events up to the close that matches an open scope. `unclosed`: the fields without one.
* `descend`: reading scope by scope, each field with what stands before its close.
* `run_stack`: the scopes that a run leaves open are those of the fields that are not closed.
* `run_descend`: a run of the stack over closed scopes reads what the descent reads.
* `ofEvents_nests`: the tree of an outline is the one of the descent, with every field in its place, or the
  fields that are not closed are told.
-/

namespace ApiManual

/-! ## Reading scope by scope -/

/-- The events before and behind the close of the scope around them, inside which `depth` scopes are open. -/
def untilClose? : Nat → List Event → Option (List Event × List Event)
  | _, [] => none
  | 0, .close _ :: events => some ([], events)
  | depth + 1, .close line :: events => (untilClose? depth events).map fun parts => (.close line :: parts.1, parts.2)
  | depth, .field name field line opens :: events =>
    (untilClose? (if opens && field.type.isStructured then depth + 1 else depth) events).map fun parts =>
      (.field name field line opens :: parts.1, parts.2)

/-- The opening fields that no close matches, with their lines, the outermost first. -/
def unclosed : List Event → List (String × Int)
  | [] => []
  | .close _ :: events => unclosed events
  | .field name field line opens :: events =>
    if opens && field.type.isStructured && (untilClose? 0 events).isNone then (name, line) :: unclosed events
    else unclosed events

theorem untilClose?_length {depth : Nat} {events inside after : List Event}
    (h : untilClose? depth events = some (inside, after)) : inside.length + after.length < events.length := by
  fun_induction untilClose? depth events generalizing inside after with
  | case1 => simp at h
  | case2 => simp_all
  | case3 depth line events ih | case4 depth name field line opens events ih =>
    obtain ⟨⟨inside', after'⟩, hparts, heq⟩ := Option.map_eq_some_iff.mp h
    obtain ⟨rfl, rfl⟩ := Prod.mk.inj heq
    have := ih hparts
    simp only [List.length_cons]
    omega

/-- Read the fields of a scope after those that are there. A field that opens a scope holds what stands up to
its close; without one there is nothing to read. -/
def descend (here : Fields) : List Event → Option Fields
  | [] => some here
  | .close _ :: events => descend here events
  | .field name field _ opens :: events =>
    if opens && field.type.isStructured then
      match h : untilClose? 0 events with
      | none => none
      | some (inside, after) =>
        have := untilClose?_length h
        (descend [] inside).bind fun children => descend (here.set name (field.withChildren children)) after
    else descend (here.set name field) events
termination_by events => events.length
decreasing_by all_goals simp <;> omega

/-! ## The stack -/

/-- The fields of the current scope and the open scopes after one event. -/
def nestStep : Fields × List OpenField → Event → Fields × List OpenField
  | (here, []), .close _ => (here, [])
  | (here, o :: stack), .close _ => (o.before.set o.name (o.field.withChildren here), stack)
  | (here, stack), .field name field line opens =>
    if opens && field.type.isStructured then ([], { before := here, name, field, line } :: stack)
    else (here.set name field, stack)

/-- The fields of the current scope and the open scopes after some events. -/
def nestRun (here : Fields) (stack : List OpenField) (events : List Event) : Fields × List OpenField :=
  events.foldl nestStep (here, stack)

/-- How reports name an open scope. -/
def OpenField.label (o : OpenField) : String × Int := (o.name, o.line)

section Run

variable (here : Fields) (stack : List OpenField) (events : List Event)

@[simp]
theorem nestRun_nil : nestRun here stack [] = (here, stack) := rfl

theorem nestRun_append (later : List Event) :
    nestRun here stack (events ++ later) =
      nestRun (nestRun here stack events).1 (nestRun here stack events).2 later := by
  unfold nestRun
  rw [List.foldl_append]

@[simp]
theorem nestRun_close_nil (line : Int) : nestRun here [] (.close line :: events) = nestRun here [] events := rfl

@[simp]
theorem nestRun_close_cons (o : OpenField) (line : Int) :
    nestRun here (o :: stack) (.close line :: events) =
      nestRun (o.before.set o.name (o.field.withChildren here)) stack events := rfl

variable {name : String} {field : Field} {line : Int} {opens : Bool}

theorem nestRun_opening (h : (opens && field.type.isStructured) = true) :
    nestRun here stack (.field name field line opens :: events) =
      nestRun [] ({ before := here, name, field, line } :: stack) events := by
  simp [nestRun, nestStep, h]

theorem nestRun_leaf (h : (opens && field.type.isStructured) = false) :
    nestRun here stack (.field name field line opens :: events) = nestRun (here.set name field) stack events := by
  simp [nestRun, nestStep, h]

/-- Nesting ends with the fields of a run, or tells the scopes that it leaves open. -/
theorem nest_eq_run : nest here stack events = match nestRun here stack events with
    | (fields, []) => .ok fields
    | (_, open_) => .error (.scopesOpen (open_.reverse.map OpenField.label)) := by
  induction events generalizing here stack with
  | nil => cases stack <;> rfl
  | cons e events ih =>
    cases e with
    | close line => cases stack <;> exact ih _ _
    | field name field line opens =>
      rw [nest]
      cases h : opens && field.type.isStructured with
      | true => rw [nestRun_opening _ _ _ h]; exact ih _ _
      | false => rw [nestRun_leaf _ _ _ h]; exact ih _ _

end Run

/-! ## Closes that match nothing -/

/-- How many closes have nothing to close. -/
def strays : List Event → Nat
  | [] => 0
  | .close _ :: events => strays events + 1
  | .field _ field _ opens :: events =>
    if opens && field.type.isStructured then strays events - 1 else strays events

/-- A scope is closed by the events behind it iff more closes stray there than scopes are open inside it. -/
theorem untilClose?_isNone_iff (depth : Nat) (events : List Event) :
    (untilClose? depth events).isNone = true ↔ strays events ≤ depth := by
  fun_induction untilClose? depth events with
  | case1 => simp [strays]
  | case2 => simp [strays]
  | case3 depth line events ih => simp [strays, ih]
  | case4 depth name field line opens events ih =>
    rw [Option.isNone_map, ih, strays]
    split <;> omega

/-- An opening field is closed if a close strays behind it. -/
theorem unclosed_field (name : String) (field : Field) (line : Int) (opens : Bool) (events : List Event) :
    unclosed (.field name field line opens :: events) =
      if (opens && field.type.isStructured) = true ∧ strays events = 0 then (name, line) :: unclosed events
      else unclosed events := by
  rw [unclosed]
  simp only [Bool.and_eq_true, untilClose?_isNone_iff, Nat.le_zero]

/-- What stands in a scope up to its close leaves nothing open, and closes no more than is open inside. -/
theorem untilClose?_parts {depth : Nat} {events inside after : List Event}
    (h : untilClose? depth events = some (inside, after)) :
    (∃ line, events = inside ++ .close line :: after) ∧ strays inside = depth ∧ unclosed inside = [] := by
  fun_induction untilClose? depth events generalizing inside after with
  | case1 => simp at h
  | case2 line events =>
    obtain ⟨rfl, rfl⟩ := Prod.mk.inj (Option.some.inj h)
    exact ⟨⟨line, rfl⟩, rfl, rfl⟩
  | case3 depth line events ih =>
    obtain ⟨⟨inside', after'⟩, hparts, heq⟩ := Option.map_eq_some_iff.mp h
    obtain ⟨rfl, rfl⟩ := Prod.mk.inj heq
    obtain ⟨⟨line', rfl⟩, hstrays, hunclosed⟩ := ih hparts
    exact ⟨⟨line', rfl⟩, by rw [strays, hstrays], hunclosed⟩
  | case4 depth name field line opens events ih =>
    obtain ⟨⟨inside', after'⟩, hparts, heq⟩ := Option.map_eq_some_iff.mp h
    obtain ⟨rfl, rfl⟩ := Prod.mk.inj heq
    obtain ⟨⟨line', rfl⟩, hstrays, hunclosed⟩ := ih hparts
    refine ⟨⟨line', rfl⟩, ?_, ?_⟩
    · rw [strays, hstrays]
      split <;> omega
    · rw [unclosed_field, hunclosed, hstrays]
      split <;> simp_all

theorem strays_append (events later : List Event) :
    strays (events ++ later) = strays events + (strays later - (unclosed events).length) := by
  induction events with
  | nil => simp [strays, unclosed]
  | cons e events ih =>
    cases e with
    | close line =>
      simp only [List.cons_append, strays, unclosed, ih]
      omega
    | field name field line opens =>
      simp only [List.cons_append, strays, unclosed_field, ih]
      cases opens && field.type.isStructured with
      | false => simp
      | true =>
        by_cases hstrays : strays events = 0
        · simp only [hstrays, and_self, if_true, List.length_cons]
          omega
        · simp only [hstrays, and_false, if_false, if_true]
          omega

/-- Events that leave nothing open leave open what is not closed behind them. -/
theorem unclosed_append {events : List Event} (h : unclosed events = []) (later : List Event) :
    unclosed (events ++ later) = unclosed later := by
  induction events with
  | nil => rfl
  | cons e events ih =>
    cases e with
    | close line => exact ih h
    | field name field line opens =>
      rw [unclosed_field] at h
      have hclosed : ¬((opens && field.type.isStructured) = true ∧ strays events = 0) := fun hopen => by
        simp [hopen] at h
      rw [if_neg hclosed] at h
      rw [List.cons_append, unclosed_field, if_neg, ih h]
      rw [strays_append]
      exact fun hopen => hclosed ⟨hopen.1, by omega⟩

/-- The scopes that a run leaves open: those of the fields that are not closed, and of the ones open before
those that the strays leave. -/
theorem run_stack (here : Fields) (stack : List OpenField) (events : List Event) :
    (nestRun here stack events).2.map OpenField.label =
      (unclosed events).reverse ++ (stack.map OpenField.label).drop (strays events) := by
  induction events generalizing here stack with
  | nil => simp [unclosed, strays]
  | cons e events ih =>
    cases e with
    | close line =>
      cases stack with
      | nil => simpa [unclosed] using ih here []
      | cons o stack => simpa [unclosed, strays] using ih _ stack
    | field name field line opens =>
      cases h : opens && field.type.isStructured with
      | false => simpa [nestRun_leaf _ _ _ h, unclosed_field, strays, h] using ih _ stack
      | true =>
        rw [nestRun_opening _ _ _ h, ih, unclosed_field, strays, h, if_pos rfl]
        by_cases hstrays : strays events = 0
        · simp [hstrays, OpenField.label]
        · obtain ⟨n, hn⟩ := Nat.exists_eq_succ_of_ne_zero hstrays
          simp [hn]

/-! ## The stack does what the descent does -/

/-- A run over events that stay in their scope reads what the descent reads, and leaves the scopes around it
open as they were. Where the descent finds no close, there is a field that is not closed. -/
theorem run_descend (here : Fields) (stack : List OpenField) (events : List Event)
    (h : stack = [] ∨ strays events = 0) : match descend here events with
      | some fields => unclosed events = [] ∧ nestRun here stack events = (fields, stack)
      | none => unclosed events ≠ [] := by
  fun_induction descend here events generalizing stack with
  | case1 here => exact ⟨rfl, rfl⟩
  | case2 here line events ih =>
    obtain rfl : stack = [] := h.resolve_right (by simp [strays])
    exact ih [] (.inl rfl)
  | case3 here name field line opens events hopens hnone =>
    have hstrays : strays events = 0 := by
      rw [← Nat.le_zero, ← untilClose?_isNone_iff, hnone]
      rfl
    rw [unclosed_field, if_pos ⟨hopens, hstrays⟩]
    exact List.cons_ne_nil _ _
  | case4 here name field line opens events hopens inside after hparts hlength ihbelow ihafter =>
    obtain ⟨⟨line', rfl⟩, hinside, hclosed⟩ := untilClose?_parts hparts
    have hstrays : strays (inside ++ .close line' :: after) = strays after + 1 := by
      rw [strays_append, hinside, hclosed, strays]
      simp
    have hunclosed : unclosed (.field name field line opens :: (inside ++ .close line' :: after)) = unclosed after := by
      rw [unclosed_field, if_neg (by simp [hstrays]), unclosed_append hclosed, unclosed]
    have hbelow := ihbelow ({ before := here, name, field, line } :: stack) (.inr hinside)
    cases hchildren : descend [] inside with
    | none => exact absurd hclosed (by simpa [hchildren] using hbelow)
    | some children =>
      simp only [hchildren] at hbelow
      have hafter := ihafter children stack (h.imp_right fun h => by simpa [strays, hopens, hstrays] using h)
      rw [hunclosed, nestRun_opening _ _ _ hopens, nestRun_append, hbelow.2]
      exact hafter
  | case5 here name field line opens events hopens ih =>
    have hleaf : (opens && field.type.isStructured) = false := by simpa using hopens
    have hunclosed : unclosed (.field name field line opens :: events) = unclosed events := by
      rw [unclosed_field, if_neg (by simp [hleaf])]
    rw [hunclosed, nestRun_leaf _ _ _ hleaf]
    exact ih stack (h.imp_right fun h => by simpa [strays, hleaf] using h)

/-! ## Places in a tree -/

/-- The fields below a field. -/
def Field.children (field : Field) : Fields :=
  (if field.type = .array then field.items else field.properties).getD []

@[simp]
theorem Field.children_withChildren (field : Field) (children : Fields) :
    (field.withChildren children).children = children := by
  unfold Field.withChildren Field.children
  split <;> simp_all

/-- The field that names lead to, from one level to the next. -/
def Fields.at? : Fields → List String → Option Field
  | _, [] => none
  | fields, [name] => Entries.get? fields name
  | fields, name :: next :: names =>
    (Entries.get? fields name).bind fun field => Fields.at? field.children (next :: names)

/-- The names of the open scopes, the outermost first. -/
def scopeNames (stack : List OpenField) : List String := (stack.map (·.name)).reverse

/-- The tree as it would be if all open scopes were closed. -/
def plug (here : Fields) : List OpenField → Fields
  | [] => here
  | o :: stack => plug (o.before.set o.name (o.field.withChildren here)) stack

theorem scopeNames_cons (o : OpenField) (stack : List OpenField) :
    scopeNames (o :: stack) = scopeNames stack ++ [o.name] := by
  simp [scopeNames]

theorem at?_set_of_ne {here : Fields} {name other : String} (h : other ≠ name) (field : Field) (names : List String) :
    Fields.at? (here.set name field) (other :: names) = Fields.at? here (other :: names) := by
  cases names <;> simp [Fields.at?, Entries.get?_set, h]

theorem at?_set_below {before here : Fields} {name : String} {field : Field} {names : List String} (h : names ≠ []) :
    Fields.at? (before.set name (field.withChildren here)) (name :: names) = Fields.at? here names := by
  cases names with
  | nil => exact absurd rfl h
  | cons next names => simp [Fields.at?, Entries.get?_set]

/-- What stands in the current scope stands in the tree behind the names of the open scopes. -/
theorem at?_plug {here : Fields} {names : List String} (stack : List OpenField) (h : names ≠ []) :
    Fields.at? (plug here stack) (scopeNames stack ++ names) = Fields.at? here names := by
  induction stack generalizing here names with
  | nil => rfl
  | cons o stack ih =>
    rw [plug, scopeNames_cons, List.append_assoc, ih (by simp), List.singleton_append, at?_set_below h]

/-- Places outside the current scope do not see it, nor do those that it agrees on. -/
theorem at?_plug_congr {here here' : Fields} {path : List String} (stack : List OpenField)
    (hout : ¬ path <+: scopeNames stack)
    (h : ∀ names, path = scopeNames stack ++ names → Fields.at? here names = Fields.at? here' names) :
    Fields.at? (plug here stack) path = Fields.at? (plug here' stack) path := by
  induction stack generalizing here here' with
  | nil => exact h path rfl
  | cons o stack ih =>
    rw [scopeNames_cons] at hout h
    refine ih (fun hbelow => hout (hbelow.trans (List.prefix_append ..))) fun names hpath => ?_
    cases names with
    | nil =>
      rw [List.append_nil] at hpath
      exact absurd (hpath ▸ List.prefix_append ..) hout
    | cons name names =>
      by_cases hname : name = o.name
      · subst hname
        have hne : names ≠ [] := by
          rintro rfl
          exact hout (hpath ▸ List.prefix_rfl)
        rw [at?_set_below hne, at?_set_below hne]
        exact h names (by rw [hpath, List.append_assoc, List.singleton_append])
      · rw [at?_set_of_ne hname, at?_set_of_ne hname]

/-- Setting a field changes nothing at places that do not lead through it. -/
theorem at?_plug_set {here : Fields} {stack : List OpenField} {name : String} {path : List String} (field : Field)
    (hset : ¬ scopeNames stack ++ [name] <+: path) (hout : ¬ path <+: scopeNames stack) :
    Fields.at? (plug (here.set name field) stack) path = Fields.at? (plug here stack) path := by
  refine at?_plug_congr stack hout fun names hpath => ?_
  cases names with
  | nil => rfl
  | cons other names =>
    refine at?_set_of_ne (fun heq => hset ?_) field names
    rw [hpath, heq]
    exact (List.prefix_append_right_inj _).mpr (by simp)

/-- A field stays in its place as long as no later one is read into its place or into one around it. -/
theorem run_keeps {here : Fields} {stack : List OpenField} (events : List Event) {path : List String} {f : Field}
    (hat : Fields.at? (plug here stack) path = some f) (hout : ¬ path <+: scopeNames stack)
    (hlater : ∀ before name field line opens after, events = before ++ .field name field line opens :: after →
      ¬ scopeNames (nestRun here stack before).2 ++ [name] <+: path) :
    Fields.at? (plug (nestRun here stack events).1 (nestRun here stack events).2) path = some f := by
  induction events generalizing here stack with
  | nil => exact hat
  | cons e events ih =>
    cases e with
    | close line =>
      cases stack with
      | nil =>
        exact ih hat hout fun before name field line' opens after heq =>
          hlater (.close line :: before) name field line' opens after (by rw [heq]; rfl)
      | cons o stack =>
        refine ih hat (fun hbelow => hout ?_) fun before name field line' opens after heq =>
          hlater (.close line :: before) name field line' opens after (by rw [heq]; rfl)
        exact hbelow.trans (by rw [scopeNames_cons]; exact List.prefix_append ..)
    | field name field line opens =>
      have hset : ¬ scopeNames stack ++ [name] <+: path := hlater [] name field line opens events rfl
      cases h : opens && field.type.isStructured with
      | false =>
        rw [nestRun_leaf _ _ _ h]
        refine ih ((at?_plug_set field hset hout).trans hat) hout fun before name' field' line' opens' after heq => ?_
        rw [← nestRun_leaf here stack before h]
        exact hlater _ name' field' line' opens' after (by rw [heq]; rfl)
      | true =>
        rw [nestRun_opening _ _ _ h]
        refine ih ?_ ?_ fun before name' field' line' opens' after heq => ?_
        · exact (at?_plug_set (field.withChildren []) hset hout).trans hat
        · rw [scopeNames_cons]
          intro hbelow
          rcases List.prefix_concat_iff.mp hbelow with heq | hbelow
          · exact hset (heq ▸ List.prefix_rfl)
          · exact hout hbelow
        · rw [← nestRun_opening here stack before h]
          exact hlater _ name' field' line' opens' after (by rw [heq]; rfl)

/-! ## The tree of an outline -/

/-- The place of a field that follows some events: the names of the fields open around it, and its own. -/
def placeAfter (before : List Event) (name : String) : List String := (unclosed before).map (·.1) ++ [name]

/-- Among the later events one is read into this place or into one around it. -/
def Replaced (before later : List Event) (place : List String) : Prop :=
  ∃ between name field line opens rest, later = between ++ .field name field line opens :: rest ∧
    placeAfter (before ++ between) name <+: place

/-- A field with the fields that stand in the scope that it opens before these events, if it opens one. -/
def Field.filled? (field : Field) (opens : Bool) (events : List Event) : Option Field :=
  if opens && field.type.isStructured then
    (untilClose? 0 events).bind fun parts => (descend [] parts.1).map field.withChildren
  else some field

/-- Each field that no later one replaces stands in its place in the tree, with the fields in its scope. -/
def InPlace (events : List Event) (fields : Fields) : Prop :=
  ∀ before name field line opens after, events = before ++ .field name field line opens :: after →
    ¬ Replaced (before ++ [.field name field line opens]) after (placeAfter before name) →
    ∃ f, field.filled? opens after = some f ∧ Fields.at? fields (placeAfter before name) = some f

/-- What becomes of an outline. -/
inductive NestsTo (events : List Event) : Except Defect Fields → Prop where
  /-- All scopes are closed, and the tree is that of the descent. -/
  | tree {fields : Fields} (closed : unclosed events = []) (descends : descend [] events = some fields)
      (inPlace : InPlace events fields) : NestsTo events (.ok fields)
  /-- Some fields are not closed, and these are told with their lines. -/
  | scopesOpen {d : Defect} (opens : unclosed events ≠ []) (kind : d.kind = .scopes)
      (message : d.message = "nested @responseParam scope never closed for " ++
        ", ".intercalate ((unclosed events).map fun field => s!"'{field.1}' (line {field.2})")) :
      NestsTo events (.error d)

theorem scopeNames_run (here : Fields) (events : List Event) :
    scopeNames (nestRun here [] events).2 = (unclosed events).map (·.1) := by
  have hstack := congrArg (List.map (·.1)) (run_stack here [] events)
  simp only [List.map_map, List.map_nil, List.drop_nil, List.append_nil, List.map_reverse] at hstack
  unfold scopeNames
  rw [← List.reverse_reverse ((unclosed events).map _), ← hstack]
  rfl

theorem unclosed_eq_nil_of_append {before events : List Event} (h : unclosed (before ++ events) = []) :
    unclosed events = [] := by
  induction before with
  | nil => exact h
  | cons e before ih =>
    cases e with
    | close line => exact ih h
    | field name field line opens =>
      rw [List.cons_append, unclosed_field] at h
      split at h
      · simp at h
      · exact ih h

/-- A field and what stands in its scope are read into its place. -/
theorem run_filled (here : Fields) (stack : List OpenField) {name : String} {field : Field} {line : Int}
    {opens : Bool} {after : List Event} (h : unclosed (.field name field line opens :: after) = []) :
    ∃ f inside rest, field.filled? opens after = some f ∧ after = inside ++ rest ∧
      nestRun here stack (.field name field line opens :: inside) = (here.set name f, stack) := by
  unfold Field.filled?
  cases hopens : opens && field.type.isStructured with
  | false => exact ⟨field, [], after, rfl, rfl, nestRun_leaf _ _ _ hopens⟩
  | true =>
    have hstrays : strays after ≠ 0 := fun hstrays => by simp [unclosed_field, hopens, hstrays] at h
    cases hparts : untilClose? 0 after with
    | none =>
      have := (untilClose?_isNone_iff 0 after).mp (by rw [hparts]; rfl)
      omega
    | some parts =>
      obtain ⟨inside, rest⟩ := parts
      obtain ⟨⟨line', rfl⟩, hinside, hclosed⟩ := untilClose?_parts hparts
      have hbelow := run_descend [] ({ before := here, name, field, line } :: stack) inside (.inr hinside)
      cases hchildren : descend [] inside with
      | none => exact absurd hclosed (by simpa [hchildren] using hbelow)
      | some children =>
        simp only [hchildren] at hbelow
        refine ⟨field.withChildren children, inside ++ [.close line'], rest, by simp [hchildren], by simp, ?_⟩
        rw [nestRun_opening _ _ _ hopens, nestRun_append, hbelow.2]
        rfl

/-- The tree that a run ends with has each field in its place that no later one replaces. -/
theorem inPlace_run {events : List Event} {fields : Fields} (hclosed : unclosed events = [])
    (hrun : nestRun [] [] events = (fields, [])) : InPlace events fields := by
  rintro before name field line opens after rfl hkept
  have hscopes := scopeNames_run [] before
  cases hbefore : nestRun [] [] before with
  | mk here stack =>
  rw [hbefore] at hscopes
  obtain ⟨f, inside, rest, hfilled, rfl, hread⟩ :=
    run_filled here stack (unclosed_eq_nil_of_append hclosed)
  have hpart : nestRun [] [] (before ++ .field name field line opens :: inside) = (here.set name f, stack) := by
    rw [nestRun_append, hbefore, hread]
  have hend : nestRun (here.set name f) stack rest = (fields, []) := by
    rw [← hrun, ← List.cons_append, ← List.append_assoc, nestRun_append, hpart]
  have hat : Fields.at? (plug (here.set name f) stack) (placeAfter before name) = some f := by
    rw [placeAfter, ← hscopes, at?_plug stack (by simp), Fields.at?, Entries.get?_set, if_pos rfl]
  have hout : ¬ placeAfter before name <+: scopeNames stack := by
    intro hbelow
    have := hbelow.length_le
    rw [placeAfter, hscopes, List.length_append, List.length_singleton] at this
    omega
  have hkeeps := run_keeps rest hat hout fun between name' field' line' opens' later heq hbelow => by
    refine hkept ⟨inside ++ between, name', field', line', opens', later, by simp [heq], ?_⟩
    have hstack := scopeNames_run [] ((before ++ .field name field line opens :: inside) ++ between)
    rw [nestRun_append, hpart] at hstack
    rw [hstack] at hbelow
    simpa [placeAfter] using hbelow
  rw [hend] at hkeeps
  exact ⟨f, hfilled, hkeeps⟩

/-- An outline nests as the descent reads it, every field that is not replaced in its place; or it fails, just
when a field is not closed, and tells those fields, the outermost first. -/
theorem ofEvents_nests (events : List Event) : NestsTo events (Fields.ofEvents events) := by
  have hdescend := run_descend [] [] events (.inl rfl)
  have hstack := run_stack [] [] events
  unfold Fields.ofEvents
  rw [nest_eq_run]
  cases hread : descend [] events with
  | some fields =>
    simp only [hread] at hdescend
    obtain ⟨hclosed, hrun⟩ := hdescend
    rw [hrun]
    exact .tree hclosed hread (inPlace_run hclosed hrun)
  | none =>
    simp only [hread] at hdescend
    cases hrun : nestRun [] [] events with
    | mk fields stack =>
    have hlabels : stack.reverse.map OpenField.label = unclosed events := by
      rw [hrun] at hstack
      simpa using congrArg List.reverse hstack
    cases stack with
    | nil => exact absurd hlabels.symm hdescend
    | cons o stack =>
      refine .scopesOpen hdescend rfl ?_
      rw [← hlabels]
      rfl

end ApiManual
