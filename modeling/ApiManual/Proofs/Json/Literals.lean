import ApiManual.Proofs.Json.Strings

/-!
# String literals

`Literal text s` says that `text` spells the characters `s` of a string up to its closing quote. It does so whatever
stands behind the quote (`stringBody_literal`), and all that is read as a string is such a text
(`literal_of_stringBody`).
-/

namespace ApiManual.Json.Token

/-- The characters of a string as they are written, with the closing quote. An escape may look at what stands
behind it, but only inside the string. -/
inductive Literal : List Char → List Char → Prop where
  | quote : Literal ['"'] []
  | plain {c : Char} {text s : List Char} (hquote : c ≠ '"') (hslash : c ≠ '\\') (hprintable : 0x20 ≤ c.toNat)
      (hrest : Literal text s) : Literal (c :: text) (c :: s)
  | escape {c : Char} {xs text s : List Char} (hprintable : ∀ x ∈ xs, 0x20 ≤ x.toNat)
      (hescape : ∀ start position rest, escape start position (xs ++ (text ++ rest)) = .ok (c, xs.length))
      (hrest : Literal text s) : Literal ('\\' :: (xs ++ text)) (c :: s)

variable {text s cs rest xs : List Char}

/-- The text of a string is read back, whatever stands behind it. -/
theorem stringBody_literal (h : Literal text s) (start position : Nat) (rest : List Char) :
    stringBody start 0 position (text ++ rest) = .ok (s, text.length) := by
  induction h generalizing position with
  | quote => rfl
  | plain hquote hslash hprintable _ ih =>
    rw [List.cons_append, stringBody, if_neg hquote, if_neg hslash, if_neg (by omega), ih]
    rfl
  | escape _ hescape _ ih =>
    rw [List.cons_append, stringBody, if_neg (by decide), if_pos rfl, List.append_assoc, hescape]
    simp only [stringBody_skip, ih, Except.map, List.length_cons, List.length_append]
    congr 2
    omega

theorem Literal.printable (h : Literal text s) : ∀ c ∈ text, 0x20 ≤ c.toNat := by
  induction h with
  | quote => simp
  | plain _ _ hprintable _ ih => exact List.forall_mem_cons.mpr ⟨hprintable, ih⟩
  | escape hprintable _ _ ih =>
    exact List.forall_mem_cons.mpr ⟨by decide, List.forall_mem_append.mpr ⟨hprintable, ih⟩⟩

theorem Literal.ne_nil (h : Literal text s) : text ≠ [] := by
  cases h <;> simp

theorem Literal.getLast? (h : Literal text s) : text.getLast? = some '"' := by
  induction h with
  | quote => rfl
  | plain _ _ _ hrest ih => rw [List.getLast?_cons, ih]; rfl
  | escape _ _ hrest ih =>
    rw [← List.cons_append, List.getLast?_append_of_ne_nil _ hrest.ne_nil, ih]

/-! ## Escapes -/

theorem hexValue?_printable {c : Char} {d : Nat} (h : hexValue? c = some d) : 0x20 ≤ c.toNat := by
  by_contra hcontrol
  have hlow : ∀ n < 0x20, hexValue? (Char.ofNat n) = none := by decide
  have hnone := hlow c.toNat (by omega)
  rw [Char.ofNat_toNat, h] at hnone
  cases hnone

theorem hexQuad?_printable {n : Nat} (h : hexQuad? cs = some n) : ∀ c ∈ cs, 0x20 ≤ c.toNat := by
  unfold hexQuad? at h
  split at h
  · simp only [Option.bind_eq_bind, Option.bind_eq_some_iff] at h
    obtain ⟨_, ha, _, hb, _, hc, _, hd, -⟩ := h
    simp [hexValue?_printable ha, hexValue?_printable hb, hexValue?_printable hc, hexValue?_printable hd]
  · cases h

/-- A `u` escape takes four digits, or ten characters with those of a second escape. -/
theorem of_unicodeEscape {position n : Nat} {c : Char} (h : unicodeEscape position cs = .ok (c, n)) :
    ∃ m, 5 ≤ cs.length ∧ hexQuad? (cs.take 4) = some m ∧ (n = 4 ∧ c = charOf m ∨
      n = 10 ∧ 11 ≤ cs.length ∧ (cs.drop 4).take 2 = ['\\', 'u'] ∧ ∃ m', hexQuad? ((cs.drop 6).take 4) = some m') := by
  unfold unicodeEscape at h
  split at h
  · cases h
  · rename_i hlength
    split at h
    · cases h
    · rename_i m hm
      refine ⟨m, by omega, hm, ?_⟩
      simp only at h
      split at h
      · rename_i hpair
        simp only [Bool.and_eq_true, decide_eq_true_eq, beq_iff_eq, List.length_drop] at hpair
        split at h
        · cases h
        · rename_i m' hm'
          rw [List.drop_drop] at hm'
          split at h
          · obtain ⟨-, rfl⟩ := Prod.mk.inj (Except.ok.inj h)
            exact .inr ⟨rfl, by omega, hpair.2, m', hm'⟩
          · obtain ⟨rfl, rfl⟩ := Prod.mk.inj (Except.ok.inj h)
            exact .inl ⟨rfl, rfl⟩
      · obtain ⟨rfl, rfl⟩ := Prod.mk.inj (Except.ok.inj h)
        exact .inl ⟨rfl, rfl⟩

theorem unicodeEscape_position {position : Nat} {c : Char} {n : Nat} (h : unicodeEscape position cs = .ok (c, n))
    (position' : Nat) : unicodeEscape position' cs = .ok (c, n) := by
  unfold unicodeEscape at h ⊢
  split at h
  · cases h
  · rename_i hlength
    rw [if_neg hlength]
    split at h
    · cases h
    · simp only at h ⊢
      split at h
      · rename_i hpair
        rw [if_pos hpair]
        split at h
        · cases h
        · exact h
      · rename_i hpair
        rw [if_neg hpair]
        exact h

/-- A `u` escape looks at eleven characters. -/
theorem unicodeEscape_take (position : Nat) (cs : List Char) :
    unicodeEscape position cs = unicodeEscape position (cs.take 11) := by
  have hshort : (cs.take 11).length < 5 ↔ cs.length < 5 := by rw [List.length_take]; omega
  have hquad : (cs.take 11).take 4 = cs.take 4 := by rw [List.take_take]; rfl
  have hlong : 6 < ((cs.take 11).drop 4).length ↔ 6 < (cs.drop 4).length := by
    rw [List.length_drop, List.length_drop, List.length_take]
    omega
  have hpair : ((cs.take 11).drop 4).take 2 = (cs.drop 4).take 2 := by rw [List.drop_take, List.take_take]; rfl
  have hquad' : (((cs.take 11).drop 4).drop 2).take 4 = ((cs.drop 4).drop 2).take 4 := by
    rw [List.drop_take, List.drop_take, List.take_take]
    rfl
  unfold unicodeEscape
  simp only [hshort, hquad, hlong, hpair, hquad']

/-- Behind a lone escape no second one begins, unless there is room for all of it in the string. -/
theorem Literal.room (h : Literal text s) {rest : List Char} (hpair : (text ++ rest).take 2 = ['\\', 'u']) :
    7 ≤ text.length := by
  cases h with
  | quote => cases hpair
  | plain _ hslash => exact absurd (List.cons.inj hpair).1 hslash
  | @escape c xs text s _ hescape hrest =>
    have hlength := List.length_pos_of_ne_nil hrest.ne_nil
    have hu : (xs ++ (text ++ rest)).take 1 = ['u'] := by simpa using hpair
    obtain ⟨cs, hcs⟩ : ∃ cs, xs ++ (text ++ rest) = 'u' :: cs := by
      cases hwhole : xs ++ (text ++ rest) with
      | nil => simp [hwhole] at hu
      | cons c cs => exact ⟨cs, by simpa [hwhole] using hu⟩
    have hread := hescape 0 0 rest
    rw [hcs, Token.escape] at hread
    cases hunicode : unicodeEscape (0 + 1) cs with
    | error e => simp [hunicode, Except.map] at hread
    | ok taken =>
      obtain ⟨c', n⟩ := taken
      obtain ⟨-, hn⟩ : c' = c ∧ n + 1 = xs.length := by simpa [hunicode, Except.map] using hread
      obtain ⟨m, -, -, hcases⟩ := of_unicodeEscape hunicode
      simp only [List.length_cons, List.length_append]
      omega

/-- An escape in a string is read without what stands behind the string. -/
theorem unicodeEscape_local {position : Nat} {c : Char} (hread : unicodeEscape position (xs ++ (text ++ rest)) =
    .ok (c, xs.length)) (h : Literal text s) (position' : Nat) (rest' : List Char) :
    unicodeEscape position' (xs ++ (text ++ rest')) = .ok (c, xs.length) := by
  have hpositive := List.length_pos_of_ne_nil h.ne_nil
  by_cases hlong : 11 ≤ (xs ++ text).length
  · have htake : (xs ++ (text ++ rest')).take 11 = (xs ++ (text ++ rest)).take 11 := by
      rw [← List.append_assoc, ← List.append_assoc, List.take_append_of_le_length hlong,
        List.take_append_of_le_length hlong]
    rw [unicodeEscape_take, htake, ← unicodeEscape_take]
    exact unicodeEscape_position hread position'
  · rw [List.length_append] at hlong
    obtain ⟨m, -, hm, ⟨hfour, rfl⟩ | ⟨hten, -⟩⟩ := of_unicodeEscape hread
    · rw [List.take_left' hfour] at hm
      have hlone : ((text ++ rest').take 2 == ['\\', 'u']) = false := by
        refine beq_eq_false_iff_ne.mpr fun hpair => ?_
        have := h.room hpair
        omega
      unfold unicodeEscape
      rw [if_neg (by simp only [List.length_append]; omega), List.take_left' hfour, List.drop_left' hfour, hm]
      simp only [hlone, Bool.and_false, Bool.false_eq_true, if_false, hfour]
    · omega

theorem printable_of_unicodeEscape {position : Nat} {c : Char}
    (hread : unicodeEscape position (xs ++ rest) = .ok (c, xs.length)) : ∀ x ∈ xs, 0x20 ≤ x.toNat := by
  obtain ⟨m, -, hm, ⟨hfour, -⟩ | ⟨hten, hlength, hpair, m', hm'⟩⟩ := of_unicodeEscape hread
  · rw [List.take_left' hfour] at hm
    exact hexQuad?_printable hm
  · rw [List.take_append_of_le_length (by omega)] at hm
    rw [List.drop_append_of_le_length (by omega), List.take_append_of_le_length (by simp; omega)] at hpair
    rw [List.drop_append_of_le_length (by omega), List.take_left' (by simp; omega)] at hm'
    have hparts : xs = xs.take 4 ++ ((xs.drop 4).take 2 ++ xs.drop 6) := by
      rw [← List.drop_drop (i := 2) (j := 4), List.take_append_drop, List.take_append_drop]
    rw [hparts, hpair]
    have hmark : ∀ x ∈ ['\\', 'u'], 0x20 ≤ x.toNat := by simp
    exact List.forall_mem_append.mpr ⟨hexQuad?_printable hm,
      List.forall_mem_append.mpr ⟨hmark, hexQuad?_printable hm'⟩⟩

/-- What an escape takes is not empty and stands in the text. -/
theorem of_escape {start position n : Nat} {c : Char} (h : escape start position cs = .ok (c, n)) :
    (∃ ds m, cs = 'u' :: ds ∧ n = m + 1 ∧ unicodeEscape (position + 1) ds = .ok (c, m)) ∨
    ∃ d ds, cs = d :: ds ∧ n = 1 ∧ 0x20 ≤ d.toNat ∧ ∀ start' position' rest,
      escape start' position' (d :: rest) = .ok (c, 1) := by
  unfold escape at h
  split at h
  case h_2 ds =>
    cases hunicode : unicodeEscape (position + 1) ds with
    | error e => simp [hunicode, Except.map] at h
    | ok taken =>
      obtain ⟨c', m⟩ := taken
      obtain ⟨rfl, rfl⟩ : c' = c ∧ m + 1 = n := by simpa [hunicode, Except.map] using h
      exact .inl ⟨ds, m, rfl, rfl, hunicode⟩
  case h_1 => cases h
  case h_11 => cases h
  all_goals
    obtain ⟨rfl, rfl⟩ := Prod.mk.inj (Except.ok.inj h)
    exact .inr ⟨_, _, rfl, rfl, by decide, fun _ _ _ => rfl⟩

/-- An escape that a string goes on behind is part of a literal. -/
theorem Literal.of_escape {start position : Nat} {c : Char} (h : Literal text s)
    (hescape : Token.escape start position (xs ++ (text ++ rest)) = .ok (c, xs.length)) :
    Literal ('\\' :: (xs ++ text)) (c :: s) := by
  rcases Token.of_escape hescape with ⟨ds, m, hds, hlength, hunicode⟩ | ⟨d, ds, hds, hlength, hd, hany⟩
  · cases xs with
    | nil => cases hlength
    | cons x xs =>
      obtain ⟨rfl, rfl⟩ := List.cons.inj hds
      obtain rfl : xs.length = m := by simpa using hlength
      have hprintable : ∀ y ∈ 'u' :: xs, 0x20 ≤ y.toNat :=
        List.forall_mem_cons.mpr ⟨by decide, printable_of_unicodeEscape hunicode⟩
      refine .escape hprintable (fun start position rest => ?_) h
      rw [List.cons_append, Token.escape, unicodeEscape_local hunicode h]
      rfl
  · obtain ⟨x, rfl⟩ := List.length_eq_one_iff.mp hlength
    obtain ⟨rfl, -⟩ := List.cons.inj hds
    exact .escape (by simpa using hd) (fun start position rest => hany start position _) h

/-- The characters of a string behind one that is taken. -/
theorem of_map_stringBody {x : Except (Flaw × Nat) (List Char × Nat)} {f : List Char → List Char} {n : Nat}
    (h : (x.map fun (s, n) => (f s, n + 1)) = .ok (s, n)) : ∃ s' n', x = .ok (s', n') ∧ s = f s' ∧ n = n' + 1 := by
  cases x with
  | error e => cases h
  | ok taken =>
    obtain ⟨rfl, rfl⟩ := Prod.mk.inj (Except.ok.inj h)
    exact ⟨taken.1, taken.2, rfl, rfl, rfl⟩

theorem of_stringBody_skip {start skip position n : Nat} (h : stringBody start skip position cs = .ok (s, n)) :
    ∃ xs ys m, cs = xs ++ ys ∧ xs.length = skip ∧ n = m + skip ∧
      stringBody start 0 (position + skip) ys = .ok (s, m) := by
  induction skip generalizing position cs n with
  | zero => exact ⟨[], cs, n, rfl, rfl, rfl, h⟩
  | succ skip ih =>
    cases cs with
    | nil => cases h
    | cons c cs =>
      rw [stringBody] at h
      obtain ⟨s', n', hbody, rfl, rfl⟩ := of_map_stringBody (f := id) h
      obtain ⟨xs, ys, m, rfl, hlength, rfl, hrest⟩ := ih hbody
      rw [Nat.add_right_comm, Nat.add_assoc] at hrest
      exact ⟨c :: xs, ys, m, rfl, by rw [List.length_cons, hlength], rfl, hrest⟩

/-- All that is read as the characters of a string is a literal. -/
theorem literal_of_stringBody {start position n : Nat} (h : stringBody start 0 position cs = .ok (s, n)) :
    ∃ text rest, cs = text ++ rest ∧ n = text.length ∧ Literal text s := by
  induction hlength : cs.length using Nat.strongRecOn generalizing cs s position n with
  | ind length ih =>
    cases cs with
    | nil => cases h
    | cons c cs =>
      rw [stringBody] at h
      split at h
      · rename_i hquote
        obtain ⟨rfl, rfl⟩ := Prod.mk.inj (Except.ok.inj h)
        exact ⟨['"'], cs, by rw [hquote]; rfl, rfl, .quote⟩
      · rename_i hquote
        split at h
        · rename_i hslash
          split at h
          · cases h
          · rename_i e skip hescape
            obtain ⟨s', n', hbody, rfl, rfl⟩ := of_map_stringBody h
            obtain ⟨xs, ys, m, rfl, rfl, rfl, hrest⟩ := of_stringBody_skip hbody
            obtain ⟨text, rest, rfl, rfl, hliteral⟩ := ih ys.length (by simp at hlength; omega) hrest rfl
            refine ⟨'\\' :: (xs ++ text), rest, by simp [hslash], by simp; omega, ?_⟩
            exact hliteral.of_escape hescape
        · rename_i hslash
          split at h
          · cases h
          · obtain ⟨s', n', hbody, rfl, rfl⟩ := of_map_stringBody h
            obtain ⟨text, rest, rfl, rfl, hliteral⟩ := ih cs.length (by simp at hlength; omega) hbody rfl
            exact ⟨c :: text, rest, rfl, rfl, .plain hquote hslash (by omega) hliteral⟩

end ApiManual.Json.Token
