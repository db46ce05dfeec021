import ApiManual.Proofs.Json.Literals
import ApiManual.Proofs.Json.Readable
import ApiManual.Proofs.Json.Scalars
import ApiManual.Proofs.Text.Spaced

/-!
# The lexemes of a JSON text

`lexemes` gives the texts of the tokens of a JSON text. The white space between them does not matter: a text made
of the same lexemes with spaces and tabs around them is read as the same value (`readChars_spaced`).

* `Lexeme text token`: a text that is read as a token, wherever it stands.
* `lexemes_of_feed`: what the machine of the reader goes through is made of lexemes.
* `feed_spaced`: the machine goes through the lexemes in the same way, whatever stands between them.
-/

namespace ApiManual.Json

open Text Token

/-- The texts of the tokens, after passing over `skip` characters of a token already taken. -/
def lexemesFrom : Nat → List Char → List (List Char)
  | _, [] => []
  | skip + 1, _ :: cs => lexemesFrom skip cs
  | 0, c :: cs =>
    if isSpace c then lexemesFrom 0 cs
    else
      let n := (Token.read 0 c cs).2
      (c :: cs.take n) :: lexemesFrom n cs

def lexemes (cs : List Char) : List (List Char) := lexemesFrom 0 cs

/-- Tokens of one character. -/
inductive Mark : Char → Token → Prop where
  | beginArray : Mark '[' .beginArray
  | endArray : Mark ']' .endArray
  | beginObject : Mark '\x7b' .beginObject
  | endObject : Mark '\x7d' .endObject
  | comma : Mark ',' .comma
  | colon : Mark ':' .colon

/-- The text of a token. -/
inductive Lexeme : List Char → Token → Prop where
  | mark {c : Char} {token : Token} (h : Mark c token) : Lexeme [c] token
  | string {text s : List Char} (h : Literal text s) : Lexeme ('"' :: text) (.string (String.ofList s))
  | scalar {c : Char} {cs : List Char} {v : Json} (h : scalar? (c :: cs) = some (v, (c :: cs).length)) :
      Lexeme (c :: cs) (.value v)

/-! ## Single lexemes -/

section Single

variable {c : Char} {cs rest text : List Char} {token : Token} {position n : Nat}

theorem Lexeme.head_not_space (h : Lexeme (c :: cs) token) : isSpace c = false := by
  cases h with
  | mark h => cases h <;> rfl
  | string => rfl
  | scalar h => exact isSpace_of_scalar h

theorem Lexeme.not_last (h : Lexeme text token) : token.isLast = false := by
  cases h with
  | mark h => cases h <;> rfl
  | string => rfl
  | scalar => rfl

/-- A lexeme is read as its token, a scalar only where it stops. -/
theorem Lexeme.read (h : Lexeme (c :: cs) token) (hstops : ∀ v, token = .value v → Stops rest) (position : Nat) :
    Token.read position c (cs ++ rest) = (token, cs.length) := by
  cases h with
  | mark h => cases h <;> rfl
  | string h => simp only [Token.read, stringBody_literal h]
  | @scalar _ _ v h =>
    rw [← scalar?_append (hstops v rfl)] at h
    exact read_scalar h

/-- Behind a value no scalar goes on. -/
theorem Lexeme.stops (h : Lexeme text token)
    (htoken : token = .comma ∨ token = .endArray ∨ token = .endObject ∨ token = .finish) (rest : List Char) :
    Stops (text ++ rest) := by
  cases h with
  | mark h =>
    intro c hc
    obtain rfl := Option.some.inj hc
    cases h <;> rfl
  | string => simp at htoken
  | scalar => simp at htoken

/-- What is read as a token is its lexeme. -/
theorem lexeme_of_read (hread : Token.read position c cs = (token, n)) (hlast : token.isLast = false)
    (hstops : ∀ v, token = .value v → Stops (cs.drop n)) :
    ∃ xs rest, cs = xs ++ rest ∧ xs.length = n ∧ Lexeme (c :: xs) token := by
  unfold Token.read at hread
  split at hread
  case h_7 =>
    split at hread
    · rename_i s m hbody
      obtain ⟨rfl, rfl⟩ := Prod.mk.inj hread
      obtain ⟨xs, rest, rfl, rfl, hliteral⟩ := literal_of_stringBody hbody
      exact ⟨xs, rest, rfl, rfl, .string hliteral⟩
    · obtain ⟨rfl, -⟩ := Prod.mk.inj hread
      cases hlast
  case h_8 =>
    split at hread
    · rename_i v m hscalar
      obtain ⟨rfl, rfl⟩ := Prod.mk.inj hread
      have hpositive := scalar?_pos hscalar
      have hle := scalar?_le hscalar
      rw [List.length_cons] at hle
      have hlength : (cs.take (m - 1)).length = m - 1 := List.length_take_of_le (by omega)
      refine ⟨cs.take (m - 1), cs.drop (m - 1), (List.take_append_drop ..).symm, hlength, .scalar ?_⟩
      rw [← scalar?_append (hstops v rfl), List.cons_append, List.take_append_drop, hscalar, List.length_cons, hlength,
        Nat.sub_add_cancel hpositive]
    · obtain ⟨rfl, -⟩ := Prod.mk.inj hread
      cases hlast
  all_goals
    obtain ⟨rfl, rfl⟩ := Prod.mk.inj hread
    exact ⟨[], cs, rfl, rfl, .mark (by constructor)⟩

end Single

/-! ## The machine on tokens -/

section Machine

variable {stage stage' next : Stage} {stack : List Frame} {token : Token} {position : Nat} {v : Json}

theorem begin_position (h : Stage.begin stack ⟨position, token⟩ = .ok next) (position' : Nat) :
    Stage.begin stack ⟨position', token⟩ = .ok next := by
  cases token with
  | value v => exact begin_value_iff.mpr (begin_value_iff.mp h)
  | _ => first | exact h | cases h

theorem step_position (h : stage.step ⟨position, token⟩ = .ok next) (position' : Nat) :
    stage.step ⟨position', token⟩ = .ok next := by
  rcases stage with stack | stack | ⟨_, closable, _⟩ | _ | ⟨_, _ | ⟨_ | _, _⟩⟩
  case value =>
    have hbegin : Stage.begin stack ⟨position, token⟩ = .ok next := h
    exact begin_position hbegin position'
  case firstItem =>
    by_cases htoken : token = .endArray
    · rw [htoken] at h ⊢
      exact h
    · rw [step_firstItem htoken] at h ⊢
      exact begin_position h position'
  all_goals
    cases token <;>
      first
      | exact h
      | (cases closable <;> first | exact h | cases h)
      | cases h

theorem step_last (hlast : token.isLast = true) : stage.step ⟨position, token⟩ ≠ .ok next := by
  rcases stage with _ | _ | _ | _ | ⟨_, _ | ⟨_ | _, _⟩⟩ <;> cases token <;>
    first
    | exact absurd hlast Bool.false_ne_true
    | exact nofun

theorem step_value (h : stage.step ⟨position, .value v⟩ = .ok next) : ∃ stack, next = .after v stack := by
  rcases stage with stack | stack | _ | _ | ⟨_, _ | ⟨_ | _, _⟩⟩ <;>
    first
    | exact ⟨_, (begin_value_iff.mp h).2⟩
    | cases h

/-- Behind a value there is a comma, a closing bracket or the end. -/
theorem step_after (h : (Stage.after v stack).step ⟨position, token⟩ = .ok next) :
    token = .comma ∨ token = .endArray ∨ token = .endObject ∨ token = .finish := by
  rcases stack with _ | ⟨_ | _, _⟩ <;> cases token <;>
    first
    | exact .inl rfl
    | exact .inr (.inl rfl)
    | exact .inr (.inr (.inl rfl))
    | exact .inr (.inr (.inr rfl))
    | cases h

/-- The machine goes over the tokens, wherever they stand. -/
def Accepts (stage : Stage) (tokens : List Token) (stage' : Stage) : Prop :=
  (tokens.map (Placed.mk 0)).foldlM Stage.step stage = .ok stage'

theorem accepts_cons {tokens : List Token} : Accepts stage (token :: tokens) stage' ↔
    ∃ next, stage.step ⟨0, token⟩ = .ok next ∧ Accepts next tokens stage' := by
  unfold Accepts
  rw [List.map_cons, List.foldlM_cons]
  constructor
  · exact of_bind_ok
  · rintro ⟨next, hstep, h⟩
    rw [hstep]
    exact h

end Machine

/-! ## Going over a text -/

section Texts

variable {stage stage' : Stage} {stack : List Frame} {position : Nat} {v : Json} {c : Char} {cs rest gap : List Char}

theorem lexemesFrom_skip (xs cs : List Char) : lexemesFrom xs.length (xs ++ cs) = lexemes cs := by
  induction xs with
  | nil => rfl
  | cons x xs ih => exact ih

theorem scanFrom_drop (n position : Nat) (cs : List Char) :
    ∃ position', scanFrom n position cs = scanFrom 0 position' (cs.drop n) := by
  induction n generalizing position cs with
  | zero => exact ⟨position, rfl⟩
  | succ n ih =>
    cases cs with
    | nil => exact ⟨position, rfl⟩
    | cons c cs => exact ih (position + 1) cs

theorem feed_space (hspace : isSpace c = true) : feed stage position (c :: cs) = feed stage (position + 1) cs := by
  unfold feed
  rw [scanFrom, if_pos hspace]

theorem feed_gap (hgap : Gap gap) (stage : Stage) (position : Nat) (cs : List Char) :
    ∃ position', feed stage position (gap ++ cs) = feed stage position' cs := by
  induction gap generalizing position with
  | nil => exact ⟨position, rfl⟩
  | cons c gap ih =>
    obtain ⟨hc, hgap⟩ := List.forall_mem_cons.mp hgap
    obtain ⟨position', h⟩ := ih hgap (position + 1)
    have hspace : isSpace c = true := by rcases hc with rfl | rfl <;> rfl
    exact ⟨position', (feed_space hspace).trans h⟩

/-- The first step over a text that begins with a token. -/
theorem of_feed_cons (hspace : isSpace c = false) (h : feed stage position (c :: cs) = .ok stage') :
    ∃ token n next position', Token.read position c cs = (token, n) ∧ token.isLast = false ∧
      stage.step ⟨position, token⟩ = .ok next ∧ feed next position' (cs.drop n) = .ok stage' := by
  unfold feed at h
  rw [scanFrom, if_neg (by simp [hspace])] at h
  generalize hread : Token.read position c cs = taken at h
  obtain ⟨token, n⟩ := taken
  simp only at h
  split at h
  · rename_i hlast
    rw [List.foldlM_cons] at h
    obtain ⟨next, hstep, -⟩ := of_bind_ok h
    exact absurd hstep (step_last hlast)
  · rename_i hlast
    rw [List.foldlM_cons] at h
    obtain ⟨next, hstep, hrest⟩ := of_bind_ok h
    obtain ⟨position', hscan⟩ := scanFrom_drop n (position + 1) cs
    rw [hscan] at hrest
    exact ⟨token, n, next, position', rfl, by simpa using hlast, hstep, hrest⟩

/-- What is left behind a value begins with no letter or digit. -/
theorem stops_of_feed (h : feed (.after v stack) position cs = .ok stage') : Stops cs := by
  cases cs with
  | nil => simp [Stops]
  | cons c cs =>
    by_cases hspace : isSpace c = true
    · intro d hd
      obtain rfl := Option.some.inj hd
      simp only [isSpace, Bool.or_eq_true, beq_iff_eq] at hspace
      rcases hspace with ((rfl | rfl) | rfl) | rfl <;> rfl
    · obtain ⟨token, n, next, position', hread, hlast, hstep, -⟩ := of_feed_cons (by simpa using hspace) h
      have htoken := step_after hstep
      have hvalue : ∀ v, token = .value v → Stops (cs.drop n) := by
        rintro v rfl
        simp at htoken
      obtain ⟨xs, rest, rfl, -, hlexeme⟩ := lexeme_of_read hread hlast hvalue
      exact hlexeme.stops htoken rest

/-- A text that the machine goes over is made of lexemes. -/
theorem lexemes_of_feed (h : feed stage position cs = .ok stage') :
    ∃ entries : List (List Char × Token), lexemes cs = entries.map Prod.fst ∧
      (∀ entry ∈ entries, Lexeme entry.1 entry.2) ∧ Accepts stage (entries.map Prod.snd ++ [.finish]) stage' := by
  induction hlength : cs.length using Nat.strongRecOn generalizing cs stage position with
  | ind length ih =>
    cases cs with
    | nil =>
      obtain ⟨next, hstep, hnil⟩ := of_bind_ok h
      refine ⟨[], rfl, by simp, accepts_cons.mpr ⟨next, step_position hstep 0, hnil⟩⟩
    | cons c cs =>
      by_cases hspace : isSpace c = true
      · rw [feed_space hspace] at h
        obtain ⟨entries, hlexemes, hentries, haccepts⟩ := ih cs.length (by simp at hlength; omega) h rfl
        refine ⟨entries, ?_, hentries, haccepts⟩
        rw [← hlexemes, lexemes, lexemesFrom, if_pos hspace]
        rfl
      · obtain ⟨token, n, next, position', hread, hlast, hstep, hrest⟩ := of_feed_cons (by simpa using hspace) h
        have hvalue : ∀ v, token = .value v → Stops (cs.drop n) := by
          rintro v rfl
          obtain ⟨stack, rfl⟩ := step_value hstep
          exact stops_of_feed hrest
        obtain ⟨xs, rest, rfl, rfl, hlexeme⟩ := lexeme_of_read hread hlast hvalue
        rw [List.drop_left] at hrest hvalue
        obtain ⟨entries, hlexemes, hentries, haccepts⟩ := ih rest.length (by simp at hlength; omega) hrest rfl
        refine ⟨(c :: xs, token) :: entries, ?_, List.forall_mem_cons.mpr ⟨hlexeme, hentries⟩,
          accepts_cons.mpr ⟨next, step_position hstep 0, haccepts⟩⟩
        rw [lexemes, lexemesFrom, if_neg hspace]
        simp only [hlexeme.read hvalue 0, List.take_left, lexemesFrom_skip, hlexemes, List.map_cons]

/-- The machine goes over the lexemes in the same way, whatever spaces and tabs stand between them. -/
theorem feed_spaced {entries : List (List Char × Token)} (hentries : ∀ entry ∈ entries, Lexeme entry.1 entry.2)
    (haccepts : Accepts stage (entries.map Prod.snd ++ [.finish]) stage')
    (hspaced : Spaced (entries.map Prod.fst) cs) (position : Nat) : feed stage position cs = .ok stage' := by
  induction entries generalizing stage cs position with
  | nil =>
    cases hspaced with
    | @gap gap hgap =>
      obtain ⟨position', h⟩ := feed_gap hgap stage position []
      obtain ⟨next, hstep, hnil⟩ := accepts_cons.mp haccepts
      rw [List.append_nil] at h
      rw [h, feed, scanFrom, List.foldlM_cons, step_position hstep position']
      exact hnil
  | cons entry entries ih =>
    obtain ⟨text, token⟩ := entry
    obtain ⟨hlexeme, hbehind⟩ := List.forall_mem_cons.mp hentries
    obtain ⟨next, hstep, hrun⟩ := accepts_cons.mp haccepts
    cases hspaced with
    | @piece gap rest _ hgap _ hrest =>
      obtain ⟨position', h⟩ := feed_gap hgap stage position (text ++ rest)
      rw [h]
      have hstops : ∀ v, token = .value v → Stops rest := by
        rintro v rfl
        obtain ⟨stack, rfl⟩ := step_value hstep
        exact stops_of_feed (ih hbehind hrun hrest 0)
      cases text with
      | nil => cases hlexeme
      | cons c xs =>
        rw [List.cons_append, feed_token hlexeme.head_not_space (hlexeme.read hstops position') hlexeme.not_last,
          step_position hstep position']
        exact ih hbehind hrun hrest _

/-- No text with a byte order mark in front is gone over. -/
theorem unmarked_of_feed (h : feed stage position cs = .ok stage') : cs.head? ≠ some '\ufeff' := by
  intro hhead
  obtain ⟨ds, rfl⟩ := List.head?_eq_some_iff.mp hhead
  obtain ⟨token, n, next, position', hread, hlast, -⟩ := of_feed_cons rfl h
  have hinvalid : Token.read position '\ufeff' ds = (.invalid, 0) := by
    unfold Token.read
    simp [scalar?_nonscalar (c := '\ufeff') (by decide) ds]
  obtain ⟨rfl, -⟩ := Prod.mk.inj (hinvalid.symm.trans hread)
  cases hlast

end Texts

/-! ## Reading values -/

section Values

variable {text cs : List Char} {v : Json}

theorem readChars_eq_ok_iff :
    readChars text = .ok v ↔ ∃ stack, feed (.value []) 0 text = .ok (.after v stack) := by
  have htokens : ofTokens (scan text) = .ok v ↔ ∃ stack, feed (.value []) 0 text = .ok (.after v stack) := by
    unfold ofTokens
    constructor
    · intro h
      obtain ⟨stage, hfeed, hstage⟩ := of_bind_ok h
      split at hstage
      · obtain rfl := Except.ok.inj hstage
        exact ⟨_, hfeed⟩
      · cases hstage
    · rintro ⟨stack, h⟩
      rw [show List.foldlM Stage.step (.value []) (scan text) = _ from h]
      rfl
  rw [← htokens]
  unfold readChars
  split
  · rename_i hmark
    constructor
    · exact nofun
    · intro h
      obtain ⟨stack, hfeed⟩ := htokens.mp h
      exact absurd hmark (unmarked_of_feed hfeed)
  · cases ofTokens (scan text) <;> simp

/-- The lexemes of a text that is JSON. -/
theorem lexemes_of_readChars (h : readChars text = .ok v) : ∃ (entries : List (List Char × Token)) (stack : List Frame),
    lexemes text = entries.map Prod.fst ∧ (∀ entry ∈ entries, Lexeme entry.1 entry.2) ∧
      Accepts (.value []) (entries.map Prod.snd ++ [.finish]) (.after v stack) := by
  obtain ⟨stack, hfeed⟩ := readChars_eq_ok_iff.mp h
  obtain ⟨entries, hlexemes, hentries, haccepts⟩ := lexemes_of_feed hfeed
  exact ⟨entries, stack, hlexemes, hentries, haccepts⟩

/-- A text with the lexemes of another one is read as the same value. -/
theorem readChars_spaced (h : readChars text = .ok v) (hspaced : Spaced (lexemes text) cs) : readChars cs = .ok v := by
  obtain ⟨entries, stack, hlexemes, hentries, haccepts⟩ := lexemes_of_readChars h
  rw [hlexemes] at hspaced
  exact readChars_eq_ok_iff.mpr ⟨stack, feed_spaced hentries haccepts hspaced 0⟩

/-- Lexemes stay whole in the lines of a docstring, string literals if there is no break in them. None begins as a
tag does. -/
theorem Lexeme.movable {token : Token} (h : Lexeme text token) (honeLine : text.head? = some '"' → OneLine text) :
    Movable text ∧ text.head? ≠ some '@' := by
  cases h with
  | mark h => cases h <;> exact ⟨by decide, by decide⟩
  | @string text _ h =>
    refine ⟨⟨by simp, ⟨?_, ?_⟩, ⟨honeLine rfl, ?_⟩⟩, by simp⟩
    · intro c hc
      obtain rfl := Option.some.inj hc
      decide
    · intro c hc
      rw [List.getLast?_cons, h.getLast?] at hc
      obtain rfl := Option.some.inj hc
      decide
    · intro htab
      rcases List.mem_cons.mp htab with heq | htab
      · cases heq
      · exact absurd (h.printable _ htab) (by decide)
  | scalar h =>
    have hchars := isScalarChar_of_scalar? h
    refine ⟨movable_of_solid (by simp) fun c hc => not_isBlank_of_isScalarChar (hchars c hc), fun hhead => ?_⟩
    exact absurd (hchars '@' (List.mem_of_head? hhead)) (by decide)

theorem lexemes_movable (h : readChars text = .ok v)
    (hstrings : ∀ lexeme ∈ lexemes text, lexeme.head? = some '"' → OneLine lexeme) :
    ∀ lexeme ∈ lexemes text, Movable lexeme ∧ lexeme.head? ≠ some '@' := by
  intro lexeme hmem
  obtain ⟨entries, -, hlexemes, hentries, -⟩ := lexemes_of_readChars h
  have hstring := hstrings lexeme hmem
  rw [hlexemes] at hmem
  obtain ⟨entry, hentry, rfl⟩ := List.mem_map.mp hmem
  exact (hentries entry hentry).movable hstring

end Values

end ApiManual.Json
