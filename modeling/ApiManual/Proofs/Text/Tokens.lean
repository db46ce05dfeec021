import ApiManual.Proofs.Text.Trim

/-!
# The tokens of a text

`tokens` gives the parts of a text between blanks. A cut in front of a blank parts no token
(`tokens_append`), and a text of more than blanks begins with its first token (`exists_token`).
-/

namespace ApiManual.Text

/-- The parts of a text between blanks. -/
def tokens (cs : List Char) : List (List Char) := (cs.splitOnP isBlank).filter (!·.isEmpty)

variable {cs ds gap token rest : List Char}

/-! ## Tokens of a text that is put together -/

@[simp]
theorem tokens_nil : tokens [] = [] := rfl

theorem tokens_append_cons {c : Char} (hc : isBlank c = true) (cs ds : List Char) :
    tokens (cs ++ c :: ds) = tokens cs ++ tokens ds := by
  unfold tokens
  rw [List.splitOnP_append_cons cs ds hc, List.filter_append]

theorem tokens_append (h : ∀ c ∈ ds.head?, isBlank c = true) (cs : List Char) :
    tokens (cs ++ ds) = tokens cs ++ tokens ds := by
  cases ds with
  | nil => simp [tokens]
  | cons d ds =>
    have hd : isBlank d = true := h d rfl
    have hds : tokens (d :: ds) = tokens ds := tokens_append_cons hd [] ds
    rw [tokens_append_cons hd, hds]

theorem tokens_blanks (h : Blanks gap) : tokens gap = [] := by
  induction gap with
  | nil => rfl
  | cons c gap ih =>
    obtain ⟨hc, hgap⟩ := List.forall_mem_cons.mp h
    exact (tokens_append_cons hc [] gap).trans (ih hgap)

theorem tokens_token (h : Token token) : tokens token = [token] := by
  have hsolid : ∀ c ∈ token, ¬ isBlank c = true := fun c hc => by simp [h.solid c hc]
  unfold tokens
  rw [List.splitOnP_eq_singleton (by simpa using hsolid)]
  simp [h.nonempty]

/-- Blanks in front of a text hold no token. -/
theorem tokens_behind (h : Blanks gap) (cs : List Char) : tokens (gap ++ cs) = tokens cs := by
  induction gap with
  | nil => rfl
  | cons c gap ih =>
    obtain ⟨hc, hgap⟩ := List.forall_mem_cons.mp h
    exact (tokens_append_cons hc [] (gap ++ cs)).trans (ih hgap)

/-- The tokens of a text that begins with one. -/
theorem tokens_cons (hgap : Blanks gap) (htoken : Token token) (hrest : ∀ c ∈ rest.head?, isBlank c = true) :
    tokens (gap ++ (token ++ rest)) = token :: tokens rest := by
  rw [tokens_behind hgap, tokens_append hrest, tokens_token htoken]
  rfl

/-! ## The first token -/

/-- A text that is not of blanks alone begins with its first token, behind blanks. -/
theorem exists_token (h : ¬ Blanks cs) : ∃ gap token rest, cs = gap ++ (token ++ rest) ∧ Blanks gap ∧
    Token token ∧ ∀ c ∈ rest.head?, isBlank c = true := by
  have hcut : cs = cs.takeWhile isBlank ++ trimLeft cs := List.takeWhile_append_dropWhile.symm
  refine ⟨cs.takeWhile isBlank, firstToken (trimLeft cs), afterToken (trimLeft cs), ?_, ?_, ⟨?_, ?_⟩, ?_⟩
  · rw [firstToken_append_afterToken, ← hcut]
  · exact fun c hc => List.mem_takeWhile_imp hc
  · intro hnone
    cases hleft : trimLeft cs with
    | nil => exact h fun c hc => List.dropWhile_eq_nil_iff.mp hleft c hc
    | cons c rest =>
      have hc : isBlank c = false := by
        have := List.head?_dropWhile_not isBlank cs
        rw [← trimLeftBy, ← trimLeft, hleft] at this
        simpa using this
      simp [hleft, firstToken, hc] at hnone
  · exact fun c hc => by simpa using List.mem_takeWhile_imp hc
  · intro c hc
    have := List.head?_dropWhile_not (fun c => !isBlank c) (trimLeft cs)
    rw [← afterToken, hc] at this
    simpa using this

/-- A token does not begin where there is a blank. -/
theorem gap_ne_nil (htoken : Token token) (h : ∀ c ∈ (gap ++ (token ++ rest)).head?, isBlank c = true) : gap ≠ [] := by
  rintro rfl
  obtain ⟨c, token, rfl⟩ := List.exists_cons_of_ne_nil htoken.nonempty
  have hsolid := htoken.solid c List.mem_cons_self
  simp [h c rfl] at hsolid

/-! ## Trimming tokens -/

/-- Cutting blanks off the right end keeps the front of a text, if anything is left. -/
theorem head?_trimRight (h : ∀ c ∈ cs.head?, isBlank c = true) : ∀ c ∈ (trimRight cs).head?, isBlank c = true := by
  obtain ⟨tail, htail⟩ := prefix_trimRightBy isBlank cs
  intro c hc
  refine h c ?_
  rw [← htail, List.head?_append, ← trimRight, hc]
  rfl

theorem trim_token (hgap : Blanks gap) (htoken : Token token) (rest : List Char) :
    trim (gap ++ (token ++ rest)) = token ++ trimRight rest := by
  have hleft : trimLeft (gap ++ (token ++ rest)) = token ++ rest := trimLeft_padded hgap htoken.head
  have htrim : trim (gap ++ (token ++ rest)) = trimRight (trimLeft (gap ++ (token ++ rest))) := rfl
  rw [htrim, hleft]
  exact trimRightBy_append_of_last htoken.last rest

/-- Blanks may be cut off either end first. -/
theorem trimLeft_trimRight (cs : List Char) : trimLeft (trimRight cs) = trim cs := by
  by_cases h : Blanks cs
  · have hright : trimRight cs = [] := trimRightBy_eq_nil h
    have htrim : trim cs = [] := trimBy_eq_nil h
    rw [hright, htrim]
    rfl
  · obtain ⟨gap, token, rest, rfl, hgap, htoken, -⟩ := exists_token h
    have hlast : ∀ c ∈ (gap ++ token).getLast?, isBlank c = false := by
      rw [List.getLast?_append_of_ne_nil _ htoken.nonempty]
      exact htoken.last
    have hright : trimRight (gap ++ (token ++ rest)) = gap ++ (token ++ trimRight rest) := by
      rw [← List.append_assoc, trimRight, trimRightBy_append_of_last hlast, List.append_assoc]
      rfl
    rw [hright, trim_token hgap htoken]
    exact trimLeft_padded hgap htoken.head

theorem trim_trimRight (cs : List Char) : trim (trimRight cs) = trim cs := by
  have h : trim (trimRight cs) = trimRight (trimLeft (trimRight cs)) := rfl
  rw [h, trimLeft_trimRight]
  exact List.rdropWhile_idempotent isBlank (trimLeft cs)

end ApiManual.Text
