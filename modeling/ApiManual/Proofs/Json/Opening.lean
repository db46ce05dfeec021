import ApiManual.Proofs.Json.Lexemes

/-!
# How JSON texts begin

The first lexeme of a JSON text says what the text spells: an opening bracket a list or an object, a string literal
its text, and a scalar itself (`begins_of_readChars`). A JSON text that spells a text is therefore longer than it
(`length_lt_of_readChars`), and no text spells itself (`read_ne_self`).

* `Stage.Enclosed`: the machine is in a container or has left one. It stays so (`step_enclosed`, `accepts_enclosed`),
  and what comes out in the end is a container.
* `accepts_finish`: at the end of a text no container is open.
* `Begins`: a lexeme that a text with a value begins with.
-/

namespace ApiManual.Json

open Token

theorem Token.Literal.length_lt {text s : List Char} (h : Literal text s) : s.length < text.length := by
  induction h with
  | quote => simp
  | plain _ _ _ _ ih => simpa using ih
  | escape _ _ _ ih =>
    simp only [List.length_cons, List.length_append]
    omega

/-- A lexeme is a piece of the text. -/
theorem length_lexeme_le {skip : Nat} {cs lexeme : List Char} (h : lexeme ∈ lexemesFrom skip cs) :
    lexeme.length ≤ cs.length := by
  fun_induction lexemesFrom skip cs with
  | case1 => simp at h
  | case2 skip c cs ih => exact (ih h).trans (by simp)
  | case3 c cs hspace ih => exact (ih h).trans (by simp)
  | case4 c cs hspace n ih =>
    rcases List.mem_cons.mp h with rfl | h
    · simp
    · exact (ih h).trans (by simp)

/-! ## Inside a container -/

/-- The machine is in a container, or it has left one and is in no other. -/
def Stage.Enclosed : Stage → Prop
  | .value stack => stack ≠ []
  | .after v stack => stack ≠ [] ∨ v.isContainer = true
  | _ => True

section Machine

variable {stage stage' next : Stage} {token : Token} {tokens : List Token}

theorem begin_enclosed {stack : List Frame} {p : Placed} (h : Stage.begin stack p = .ok next) (hstack : stack ≠ []) :
    next.Enclosed := by
  obtain ⟨position, token⟩ := p
  cases token with
  | value v =>
    obtain ⟨-, rfl⟩ := begin_value_iff.mp h
    exact .inl hstack
  | string s =>
    obtain rfl := Except.ok.inj h
    exact .inl hstack
  | beginArray | beginObject =>
    obtain rfl := Except.ok.inj h
    trivial
  | _ => cases h

/-- What a machine in a container leaves is a container, and else it stays in one. -/
theorem step_enclosed {p : Placed} (h : stage.step p = .ok next) (hstage : stage.Enclosed) : next.Enclosed := by
  rcases stage with stack | stack | ⟨fields, closable, stack⟩ | ⟨fields, label, stack⟩ | ⟨v, _ | ⟨frame, stack⟩⟩
  case value => exact begin_enclosed h hstage
  case firstItem =>
    rw [Stage.step] at h
    split at h
    · obtain rfl := Except.ok.inj h
      exact .inr rfl
    · exact begin_enclosed h (List.cons_ne_nil _ _)
  case name =>
    rw [Stage.step] at h
    split at h
    · obtain rfl := Except.ok.inj h
      trivial
    · cases h
    · split at h
      · obtain rfl := Except.ok.inj h
        exact .inr rfl
      · cases h
    · cases h
  case colon =>
    rw [Stage.step] at h
    split at h
    · obtain rfl := Except.ok.inj h
      exact List.cons_ne_nil _ _
    · cases h
  case after.nil =>
    rw [Stage.step] at h
    split at h
    · obtain rfl := Except.ok.inj h
      exact hstage
    · cases h
  case after.cons =>
    cases frame <;> rw [Stage.step] at h <;> split at h <;> first | cases h; done | obtain rfl := Except.ok.inj h
    · exact List.cons_ne_nil _ _
    · exact .inr rfl
    · trivial
    · exact .inr rfl

theorem accepts_enclosed (h : Accepts stage tokens stage') (hstage : stage.Enclosed) : stage'.Enclosed := by
  induction tokens generalizing stage with
  | nil =>
    obtain rfl := Except.ok.inj h
    exact hstage
  | cons token tokens ih =>
    obtain ⟨next, hstep, hrest⟩ := accepts_cons.mp h
    exact ih hrest (step_enclosed hstep hstage)

/-- Behind a value in no container there is nothing else. -/
theorem accepts_after {v : Json} (h : Accepts (.after v []) tokens stage) : stage = .after v [] := by
  induction tokens with
  | nil => exact (Except.ok.inj h).symm
  | cons token tokens ih =>
    obtain ⟨next, hstep, hrest⟩ := accepts_cons.mp h
    cases token with
    | finish =>
      cases hstep
      exact ih hrest
    | _ => cases hstep

/-- At the end of a text no container is open. -/
theorem accepts_finish (h : Accepts stage (tokens ++ [.finish]) stage') : ∃ v, stage' = .after v [] := by
  induction tokens generalizing stage with
  | nil =>
    obtain ⟨next, hstep, hnil⟩ := accepts_cons.mp h
    obtain rfl := Except.ok.inj hnil
    rcases stage with _ | _ | _ | _ | ⟨v, _ | ⟨_ | _, _⟩⟩ <;>
      first | exact ⟨_, (Except.ok.inj hstep).symm⟩ | cases hstep
  | cons token tokens ih =>
    obtain ⟨next, -, hrest⟩ := accepts_cons.mp h
    exact ih hrest

end Machine

/-! ## The first lexeme -/

/-- A lexeme that a text with a value begins with. -/
inductive Begins : List Char → Json → Prop where
  | container {bracket : Char} {v : Json} (hbracket : bracket = '[' ∨ bracket = '\x7b')
      (hcontainer : v.isContainer = true) : Begins [bracket] v
  | string {body s : List Char} (hliteral : Literal body s) : Begins ('"' :: body) (.str (String.ofList s))
  | scalar {cs : List Char} {v : Json} (hscalar : scalar? cs = some (v, cs.length)) : Begins cs v

section Texts

variable {text : List Char} {v : Json} {s : String}

/-- A JSON text begins with a lexeme of its value. -/
theorem begins_of_readChars (h : readChars text = .ok v) :
    ∃ first rest, lexemes text = first :: rest ∧ Begins first v := by
  obtain ⟨entries, stack, hlexemes, hentries, haccepts⟩ := lexemes_of_readChars h
  obtain ⟨w, hend⟩ := accepts_finish haccepts
  obtain ⟨rfl, rfl⟩ := Stage.after.inj hend
  cases entries with
  | nil =>
    obtain ⟨next, hstep, -⟩ := accepts_cons.mp haccepts
    cases hstep
  | cons entry entries =>
    obtain ⟨first, token⟩ := entry
    obtain ⟨next, hstep, hrun⟩ := accepts_cons.mp haccepts
    obtain ⟨hfirst, -⟩ := List.forall_mem_cons.mp hentries
    refine ⟨first, _, hlexemes, ?_⟩
    have hcontainer : next.Enclosed → v.isContainer = true := fun henclosed =>
      (accepts_enclosed hrun henclosed).resolve_left (fun hopen => hopen rfl)
    cases hfirst with
    | mark hmark =>
      cases hmark with
      | beginArray =>
        cases hstep
        exact .container (.inl rfl) (hcontainer trivial)
      | beginObject =>
        cases hstep
        exact .container (.inr rfl) (hcontainer trivial)
      | _ => cases hstep
    | string hliteral =>
      cases hstep
      obtain ⟨rfl, -⟩ := Stage.after.inj (accepts_after hrun)
      exact .string hliteral
    | scalar hscalar =>
      obtain ⟨-, rfl⟩ := begin_value_iff.mp hstep
      obtain ⟨rfl, -⟩ := Stage.after.inj (accepts_after hrun)
      exact .scalar hscalar

/-- The first lexeme of a list or an object is its opening bracket. -/
theorem head_lexemes (h : readChars text = .ok v) (hv : v.isContainer = true) :
    ∃ bracket rest, lexemes text = [bracket] :: rest ∧ (bracket = '[' ∨ bracket = '\x7b') := by
  obtain ⟨first, rest, hlexemes, hbegins⟩ := begins_of_readChars h
  cases hbegins with
  | container hbracket => exact ⟨_, rest, hlexemes, hbracket⟩
  | string => cases hv
  | scalar hscalar =>
    rw [(plain_of_scalar? hscalar).1] at hv
    cases hv

/-- A JSON text that spells a text is longer than it. -/
theorem length_lt_of_readChars (h : readChars text = .ok (.str s)) : s.toList.length < text.length := by
  obtain ⟨first, rest, hlexemes, hbegins⟩ := begins_of_readChars h
  have hmem : first ∈ lexemes text := by simp [hlexemes]
  cases hbegins with
  | container _ hcontainer => cases hcontainer
  | @string body s hliteral =>
    rw [String.toList_ofList]
    calc s.length < body.length := hliteral.length_lt
      _ < ('"' :: body).length := by simp
      _ ≤ text.length := length_lexeme_le hmem
  | scalar hscalar => exact absurd rfl ((plain_of_scalar? hscalar).2 s)

/-- No text spells itself. -/
theorem read_ne_self (s : String) : read s ≠ .ok (.str s) := fun h =>
  absurd (length_lt_of_readChars h) (Nat.lt_irrefl _)

end Texts

end ApiManual.Json
