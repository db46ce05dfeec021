import ApiManual.Proofs.Resource.Layout

/-!
# The scan of a resource's source

What `outline` makes of the lines of a method, whatever they are.

* `Declares`: what the line of a tag declares, with the `Run` of lines behind it that continue it. Each of these is
  a `ContinuationLine`, which the reader of single lines decides (`continuation?_eq_some_iff`).
* `Scanned`: events that answer to lines, one for each tag and one for each closing bracket, in the order of the
  lines and with their numbers, and no others. `FirstBad`: the first tag that holds no field.
* `scanFrom_eq_eventsFrom`: a scan that passes over the lines that continue a tag gives the same events.
* `outline_scanned`: the scan goes through exactly when each tag holds a field. Then it loses and invents
  nothing, and otherwise it names the line of the first bad tag.
-/

namespace ApiManual

open Text

/-! ## Kinds of lines -/

/-- The line `# text` with a text that is neither empty nor a tag. -/
structure ContinuationLine (text line : List Char) : Prop where
  chunk : Chunk text
  more : MoreLine text line

section Lines

variable {line text content : List Char}

theorem continuation?_eq_some_iff : continuation? line = some text ↔ ContinuationLine text line := by
  constructor
  · intro h
    unfold continuation? at h
    split at h
    · rename_i cs hline
      obtain ⟨found, hfound, h⟩ := Option.bind_eq_some_iff.mp h
      split at h
      · cases h
      · rename_i hplain
        obtain rfl := Option.some.inj h
        simp only [Bool.or_eq_true, List.isEmpty_iff, decide_eq_true_eq, not_or] at hplain
        obtain ⟨htrim, hunbroken⟩ := lineText?_eq_some_iff.mp hfound
        obtain ⟨indent, hindent, hcut⟩ := exists_trimLeft line
        obtain ⟨gap, tail, hgap, htail, hparts⟩ := exists_trim cs
        refine ⟨⟨hplain.1, htrim ▸ bare_trim cs, hunbroken⟩, indent, gap, tail, hindent, hgap, htail, hplain.2, ?_⟩
        rw [hcut, hline, ← htrim, ← hparts]
    · cases h
  · exact fun h => h.more.continuation? h.chunk

end Lines

/-! ## Runs -/

/-- The texts of the comment lines that continue a tag, up to a line that does not. -/
inductive Run (lines texts : List (List Char)) : Prop where
  | mk (run rest : List (List Char)) (more : List.Forall₂ ContinuationLine texts run)
      (ends : ∀ line ∈ rest.head?, ∀ text, ¬ ContinuationLine text line) (hlines : lines = run ++ rest)

theorem run_iff {lines texts : List (List Char)} : Run lines texts ↔ continuations lines = texts := by
  constructor
  · rintro ⟨run, rest, hmore, hends, rfl⟩
    induction hmore with
    | nil =>
      cases rest with
      | nil => rfl
      | cons line rest =>
        have hnone : continuation? line = none := Option.eq_none_iff_forall_not_mem.mpr fun text htext =>
          hends line rfl text (continuation?_eq_some_iff.mp htext)
        rw [List.nil_append, continuations, hnone]
    | cons hline _ ih => rw [List.cons_append, continuations, continuation?_eq_some_iff.mpr hline, ih]
  · rintro rfl
    induction lines with
    | nil => exact ⟨[], [], .nil, by simp, rfl⟩
    | cons line lines ih =>
      rw [continuations]
      cases htext : continuation? line with
      | some text =>
        obtain ⟨run, rest, hmore, hends, hlines⟩ := ih
        exact ⟨line :: run, rest, .cons (continuation?_eq_some_iff.mp htext) hmore, hends, by rw [hlines]; rfl⟩
      | none =>
        refine ⟨[], line :: lines, .nil, ?_, rfl⟩
        intro found hfound text hline
        obtain rfl := Option.some.inj hfound
        rw [continuation?_eq_some_iff.mpr hline] at htext
        cases htext

/-- What a tag declares: its content, extended by the comment lines behind it that continue it. -/
inductive Declares (line : List Char) (behind : List (List Char)) (declared : String) : Prop where
  | mk {content : List Char} {texts : List (List Char)} (tag : TagLine content line) (run : Run behind texts)
      (whole : declared = String.ofList (joined content texts))

theorem declares_iff {line : List Char} {behind : List (List Char)} {declared : String} :
    Declares line behind declared ↔ ∃ content, fieldLine? line = some content ∧
      declared = String.ofList (joined content (continuations behind)) := by
  constructor
  · rintro ⟨htag, hrun, hwhole⟩
    rw [← run_iff.mp hrun] at hwhole
    exact ⟨_, fieldLine?_eq_some_iff.mpr htag, hwhole⟩
  · rintro ⟨content, hcontent, hwhole⟩
    exact ⟨fieldLine?_eq_some_iff.mp hcontent, run_iff.mpr rfl, hwhole⟩

/-! ## Lines with their numbers -/

/-- The line with a number, when the first one has the number `first`, and the lines behind it. -/
def LineAt (first : Nat) (lines : List (List Char)) (number : Nat) (line : List Char)
    (behind : List (List Char)) : Prop :=
  ∃ before, lines = before ++ line :: behind ∧ number = first + before.length

/-- Each tag holds a field. -/
def TagsHold (first : Nat) (lines : List (List Char)) : Prop :=
  ∀ number line behind declared, LineAt first lines number line behind → Declares line behind declared →
    ∃ named, Field.ofComment declared = .ok named

/-- A tag that holds no field, behind tags that do. -/
structure FirstBad (first : Nat) (lines : List (List Char)) (number : Nat) (d : Defect) : Prop where
  bad : ∃ line behind declared, LineAt first lines number line behind ∧ Declares line behind declared ∧
    Field.ofComment declared = .error d
  earlier : ∀ m line behind declared, m < number → LineAt first lines m line behind → Declares line behind declared →
    ∃ named, Field.ofComment declared = .ok named

/-- The event of a line. -/
inductive Answers (number : Nat) (line : List Char) (behind : List (List Char)) : Event → Prop where
  | field {declared name : String} {field : Field} (declares : Declares line behind declared)
      (holds : Field.ofComment declared = .ok (name, field)) :
      Answers number line behind (.field name field number (opensScope behind))
  | close (closer : CloserLine line) : Answers number line behind (.close number)

/-- An event that one of the lines answers to. -/
def EventAt (first : Nat) (lines : List (List Char)) (event : Event) : Prop :=
  ∃ number line behind, LineAt first lines number line behind ∧ Answers number line behind event

def Event.line : Event → Int
  | .field _ _ line _ => line
  | .close line => line

/-- The events are those of the lines, each once and in the order of the lines. -/
structure Scanned (first : Nat) (lines : List (List Char)) (events : List Event) : Prop where
  ordered : events.Pairwise fun event later => event.line < later.line
  mem_iff : ∀ event, event ∈ events ↔ EventAt first lines event

section Numbers

variable {first number : Nat} {line found : List Char} {lines behind : List (List Char)} {event : Event}
  {events : List Event}

theorem lineAt_cons : LineAt first (line :: lines) number found behind ↔
    (number = first ∧ found = line ∧ behind = lines) ∨ LineAt (first + 1) lines number found behind := by
  constructor
  · rintro ⟨before, hlines, rfl⟩
    cases before with
    | nil =>
      obtain ⟨rfl, rfl⟩ := List.cons.inj hlines
      exact .inl ⟨rfl, rfl, rfl⟩
    | cons line' before =>
      obtain ⟨rfl, rfl⟩ := List.cons.inj hlines
      exact .inr ⟨before, rfl, by rw [List.length_cons]; omega⟩
  · rintro (⟨rfl, rfl, rfl⟩ | ⟨before, rfl, rfl⟩)
    · exact ⟨[], rfl, rfl⟩
    · exact ⟨line :: before, rfl, by rw [List.length_cons]; omega⟩

theorem LineAt.first_le (h : LineAt first lines number line behind) : first ≤ number := by
  obtain ⟨before, -, rfl⟩ := h
  omega

theorem Answers.line_eq (h : Answers number line behind event) : event.line = number := by
  cases h <;> rfl

theorem tagsHold_cons : TagsHold first (line :: lines) ↔
    (∀ declared, Declares line lines declared → ∃ named, Field.ofComment declared = .ok named) ∧
      TagsHold (first + 1) lines := by
  constructor
  · intro h
    exact ⟨fun declared => h first line lines declared (lineAt_cons.mpr (.inl ⟨rfl, rfl, rfl⟩)),
      fun number found behind declared hat => h number found behind declared (lineAt_cons.mpr (.inr hat))⟩
  · rintro ⟨hline, hlines⟩ number found behind declared hat
    obtain ⟨rfl, rfl, rfl⟩ | hat := lineAt_cons.mp hat
    · exact hline declared
    · exact hlines number found behind declared hat

theorem eventAt_cons : EventAt first (line :: lines) event ↔
    Answers first line lines event ∨ EventAt (first + 1) lines event := by
  constructor
  · rintro ⟨number, found, behind, hat, hanswers⟩
    obtain ⟨rfl, rfl, rfl⟩ | hat := lineAt_cons.mp hat
    · exact .inl hanswers
    · exact .inr ⟨number, found, behind, hat, hanswers⟩
  · rintro (hanswers | ⟨number, found, behind, hat, hanswers⟩)
    · exact ⟨first, line, lines, lineAt_cons.mpr (.inl ⟨rfl, rfl, rfl⟩), hanswers⟩
    · exact ⟨number, found, behind, lineAt_cons.mpr (.inr hat), hanswers⟩

theorem EventAt.first_le (h : EventAt first lines event) : (first : Int) ≤ event.line := by
  obtain ⟨number, line, behind, hat, hanswers⟩ := h
  have hnumber := hat.first_le
  rw [hanswers.line_eq]
  omega

/-! ## Steps -/

/-- A line that has no event adds none. -/
theorem Scanned.pass (h : Scanned (first + 1) lines events) (hline : ∀ event, ¬ Answers first line lines event) :
    Scanned first (line :: lines) events := by
  refine ⟨h.ordered, fun event => ?_⟩
  rw [eventAt_cons, h.mem_iff]
  exact (or_iff_right (hline event)).symm

/-- A line that has one event adds it in front. -/
theorem Scanned.cons (h : Scanned (first + 1) lines events)
    (hline : ∀ other, Answers first line lines other ↔ other = event) :
    Scanned first (line :: lines) (event :: events) := by
  have hhere : event.line = first := ((hline event).mpr rfl).line_eq
  refine ⟨List.pairwise_cons.mpr ⟨fun later hlater => ?_, h.ordered⟩, fun other => ?_⟩
  · have hbehind := ((h.mem_iff later).mp hlater).first_le
    omega
  · rw [List.mem_cons, eventAt_cons, hline, h.mem_iff]

/-- The first bad tag of the lines behind a line stays the first one, unless the line is itself a bad tag. -/
theorem FirstBad.cons {d : Defect} (h : FirstBad (first + 1) lines number d)
    (hline : ∀ declared, Declares line lines declared → ∃ named, Field.ofComment declared = .ok named) :
    FirstBad first (line :: lines) number d := by
  obtain ⟨⟨found, behind, declared, hat, hdeclares, hbad⟩, hearlier⟩ := h
  refine ⟨⟨found, behind, declared, lineAt_cons.mpr (.inr hat), hdeclares, hbad⟩, ?_⟩
  intro m found behind declared hm hat hdeclares
  obtain ⟨rfl, rfl, rfl⟩ | hat := lineAt_cons.mp hat
  · exact hline declared hdeclares
  · exact hearlier m found behind declared hm hat hdeclares

theorem FirstBad.not_tagsHold {d : Defect} (h : FirstBad first lines number d) : ¬ TagsHold first lines := by
  obtain ⟨line, behind, declared, hat, hdeclares, hbad⟩ := h.bad
  intro hold
  obtain ⟨named, hnamed⟩ := hold number line behind declared hat hdeclares
  rw [hbad] at hnamed
  cases hnamed

end Numbers

/-! ## What a line answers to -/

section Answers

variable {number : Nat} {line content : List Char} {lines : List (List Char)} {event : Event}

/-- The patterns of tags and of closing brackets share no line. -/
theorem not_closerLine_of_fieldLine? (h : fieldLine? line = some content) : ¬ CloserLine line := by
  intro hcloser
  rw [fieldLine?_of_isCloser (isCloser_iff.mpr hcloser)] at h
  cases h

theorem declares_of_fieldLine? (h : fieldLine? line = some content) (declared : String) :
    Declares line lines declared ↔ declared = String.ofList (joined content (continuations lines)) := by
  rw [declares_iff, h]
  constructor
  · rintro ⟨content', hcontent, rfl⟩
    obtain rfl := Option.some.inj hcontent
    rfl
  · exact fun hdeclared => ⟨content, rfl, hdeclared⟩

theorem not_declares (h : fieldLine? line = none) (declared : String) : ¬ Declares line lines declared := by
  intro hdeclares
  obtain ⟨content, hcontent, -⟩ := declares_iff.mp hdeclares
  rw [h] at hcontent
  cases hcontent

theorem answers_tag {name : String} {field : Field} (htag : fieldLine? line = some content)
    (hfield : Field.ofComment (String.ofList (joined content (continuations lines))) = .ok (name, field)) :
    Answers number line lines event ↔ event = .field name field number (opensScope lines) := by
  constructor
  · rintro (⟨hdeclares, hholds⟩ | hcloser)
    · rw [(declares_of_fieldLine? htag _).mp hdeclares, hfield] at hholds
      obtain ⟨rfl, rfl⟩ := Prod.mk.inj (Except.ok.inj hholds)
      rfl
    · exact absurd hcloser (not_closerLine_of_fieldLine? htag)
  · rintro rfl
    exact .field ((declares_of_fieldLine? htag _).mpr rfl) hfield

theorem answers_closer (hcloser : isCloser line = true) :
    Answers number line lines event ↔ event = .close number := by
  constructor
  · rintro (⟨hdeclares, -⟩ | -)
    · exact absurd hdeclares (not_declares (fieldLine?_of_isCloser hcloser) _)
    · rfl
  · rintro rfl
    exact .close (isCloser_iff.mp hcloser)

theorem not_answers (htag : fieldLine? line = none) (hcloser : isCloser line = false) (event : Event) :
    ¬ Answers number line lines event := by
  rintro (⟨hdeclares, -⟩ | hline)
  · exact not_declares htag _ hdeclares
  · rw [isCloser_iff.mpr hline] at hcloser
    cases hcloser

end Answers

/-! ## The lines in order -/

/-- What comes of a scan: the events of all lines, or the defect of the first bad tag. -/
inductive ScanOutcome (first : Nat) (lines : List (List Char)) : Except Defect (List Event) → Prop where
  | ok {events : List Event} (hold : TagsHold first lines) (scanned : Scanned first lines events) :
      ScanOutcome first lines (.ok events)
  | error {number : Nat} {d : Defect} (bad : FirstBad first lines number d) :
      ScanOutcome first lines (.error (.atLine number d))

section Outcome

variable {first : Nat} {line : List Char} {lines : List (List Char)} {event : Event} {x : Except Defect (List Event)}

theorem ScanOutcome.pass (h : ScanOutcome (first + 1) lines x) (htag : fieldLine? line = none)
    (hcloser : isCloser line = false) : ScanOutcome first (line :: lines) x := by
  cases h with
  | ok hold hscanned =>
    exact .ok (tagsHold_cons.mpr ⟨fun declared hdeclares => absurd hdeclares (not_declares htag declared), hold⟩)
      (hscanned.pass (not_answers htag hcloser))
  | error hbad => exact .error (hbad.cons fun declared hdeclares => absurd hdeclares (not_declares htag declared))

theorem ScanOutcome.cons (h : ScanOutcome (first + 1) lines x)
    (hline : ∀ other, Answers first line lines other ↔ other = event)
    (hhold : ∀ declared, Declares line lines declared → ∃ named, Field.ofComment declared = .ok named) :
    ScanOutcome first (line :: lines) (x >>= fun events => .ok (event :: events)) := by
  cases h with
  | ok hold hscanned => exact .ok (tagsHold_cons.mpr ⟨hhold, hold⟩) (hscanned.cons hline)
  | error hbad => exact .error (hbad.cons hhold)

end Outcome

theorem eventsFrom_outcome (first : Nat) (lines : List (List Char)) :
    ScanOutcome first lines (eventsFrom first lines) := by
  induction lines generalizing first with
  | nil =>
    have hnone : ∀ number line behind, ¬ LineAt first [] number line behind := by
      rintro number line behind ⟨before, hlines, -⟩
      simp at hlines
    refine .ok (fun number line behind declared hat => absurd hat (hnone number line behind)) ⟨.nil, fun event => ?_⟩
    refine iff_of_false List.not_mem_nil ?_
    rintro ⟨number, line, behind, hat, -⟩
    exact hnone number line behind hat
  | cons line lines ih =>
    rw [eventsFrom]
    cases htag : fieldLine? line with
    | some content =>
      have hdeclares : ∀ declared, Declares line lines declared ↔
          declared = String.ofList (joined content (continuations lines)) := declares_of_fieldLine? htag
      simp only
      cases hfield : Field.ofComment (String.ofList (joined content (continuations lines))) with
      | error d =>
        have hat : LineAt first (line :: lines) first line lines := lineAt_cons.mpr (.inl ⟨rfl, rfl, rfl⟩)
        refine .error ⟨⟨line, lines, _, hat, (hdeclares _).mpr rfl, hfield⟩, ?_⟩
        intro m found behind declared hm hat'
        have hfirst := hat'.first_le
        omega
      | ok named =>
        obtain ⟨name, field⟩ := named
        refine (ih (first + 1)).cons (fun other => answers_tag htag hfield) ?_
        intro declared h
        exact ⟨(name, field), by rw [(hdeclares declared).mp h, hfield]⟩
    | none =>
      simp only
      by_cases hcloser : isCloser line = true
      · rw [if_pos hcloser]
        exact (ih (first + 1)).cons (fun other => answers_closer hcloser)
          fun declared h => absurd h (not_declares htag declared)
      · rw [if_neg hcloser]
        exact (ih (first + 1)).pass htag (Bool.not_eq_true _ ▸ hcloser)

/-! ## Swallowing the lines that continue a tag -/

/-- The events of the lines, where the scan goes on behind the lines that continue a tag. -/
def scanFrom (number : Nat) : List (List Char) → Except Defect (List Event)
  | [] => .ok []
  | line :: lines =>
    match fieldLine? line with
    | some content =>
      let texts := continuations lines
      let rest := lines.drop texts.length
      match Field.ofComment (String.ofList (joined content texts)) with
      | .error d => .error (.atLine number d)
      | .ok (name, field) => do
        let events ← scanFrom (number + 1 + texts.length) rest
        .ok (.field name field number (opensScope rest) :: events)
    | none =>
      if isCloser line then do
        let events ← scanFrom (number + 1) lines
        .ok (.close number :: events)
      else scanFrom (number + 1) lines
termination_by lines => lines.length
decreasing_by
  all_goals simp only [List.length_cons, List.length_drop]
  all_goals omega

theorem eventsFrom_drop_continuations (number : Nat) (lines : List (List Char)) :
    eventsFrom (number + (continuations lines).length) (lines.drop (continuations lines).length) =
      eventsFrom number lines := by
  induction lines generalizing number with
  | nil => rfl
  | cons line lines ih =>
    rw [continuations]
    cases htext : continuation? line with
    | none => rfl
    | some text =>
      have hline := continuation?_eq_some_iff.mp htext
      have hrest := ih (number + 1)
      rw [eventsFrom, hline.more.fieldLine? hline.chunk]
      simp only [hline.more.isCloser, Bool.false_eq_true, if_false, List.length_cons, List.drop_succ_cons]
      rw [← hrest]
      congr 1
      omega

theorem opensScope_drop_continuations (lines : List (List Char)) :
    opensScope (lines.drop (continuations lines).length) = opensScope lines := by
  induction lines with
  | nil => rfl
  | cons line lines ih =>
    rw [continuations]
    cases htext : continuation? line with
    | none => rfl
    | some text =>
      have hcomment := (continuation?_eq_some_iff.mp htext).more.isComment
      rw [List.length_cons, List.drop_succ_cons, ih]
      unfold opensScope
      rw [List.dropWhile_cons_of_pos (by rw [hcomment, Bool.or_true])]

/-- A scan that passes over the lines that continue a tag finds nothing less. -/
theorem scanFrom_eq_eventsFrom (number : Nat) (lines : List (List Char)) :
    scanFrom number lines = eventsFrom number lines := by
  fun_induction scanFrom number lines with
  | case1 => rfl
  | case2 number line lines content htag texts d hbad =>
    rw [eventsFrom, htag]
    simp only [texts] at hbad ⊢
    rw [hbad]
  | case3 number line lines content htag texts rest name field hholds ih =>
    have hrest : eventsFrom (number + 1 + texts.length) rest = eventsFrom (number + 1) lines :=
      eventsFrom_drop_continuations (number + 1) lines
    have hopens : opensScope rest = opensScope lines := opensScope_drop_continuations lines
    rw [ih, hrest, hopens, eventsFrom, htag]
    simp only [texts] at hholds ⊢
    rw [hholds]
  | case4 number line lines htag hcloser ih =>
    rw [ih, eventsFrom, htag]
    simp only [hcloser, if_true]
  | case5 number line lines htag hcloser ih =>
    rw [ih, eventsFrom, htag]
    simp only
    rw [if_neg hcloser]

/-! ## The outline -/

/-- The lines that a scan goes over. -/
def within (lines : List String) (bound : Option Nat) : List (List Char) :=
  (match bound with
    | some bound => lines.take bound
    | none => lines).map String.toList

/-- A scan succeeds exactly when each tag within the bound, with the lines that continue it, holds a field. It then
gives the events of the lines, and otherwise the line of the first tag that holds none. -/
theorem outline_scanned (lines : List String) (bound : Option Nat) :
    let scan := outline lines (bound.map Int.ofNat)
    scan = scanFrom 1 (within lines bound) ∧
      ((∃ events, scan = .ok events) ↔ TagsHold 1 (within lines bound)) ∧
      (∀ events, scan = .ok events → Scanned 1 (within lines bound) events) ∧
      ∀ e, scan = .error e → ∃ number d, FirstBad 1 (within lines bound) number d ∧ e = .atLine number d ∧
        e.message = "line " ++ toString number ++ ": " ++ d.message := by
  have hscan : outline lines (bound.map Int.ofNat) = eventsFrom 1 (within lines bound) := by
    cases bound <;> rfl
  have houtcome := eventsFrom_outcome 1 (within lines bound)
  simp only [hscan]
  refine ⟨(scanFrom_eq_eventsFrom 1 _).symm, ?_⟩
  generalize eventsFrom 1 (within lines bound) = scan at houtcome
  cases houtcome with
  | @ok events hold hscanned =>
    refine ⟨iff_of_true ⟨events, rfl⟩ hold, ?_, fun e he => nomatch he⟩
    intro events' hevents
    obtain rfl := Except.ok.inj hevents
    exact hscanned
  | @error number d hbad =>
    refine ⟨iff_of_false (fun ⟨events, hevents⟩ => nomatch hevents) hbad.not_tagsHold,
      fun events hevents => (nomatch hevents), ?_⟩
    intro e he
    obtain rfl := Except.error.inj he
    exact ⟨number, d, hbad, rfl, rfl⟩

end ApiManual
