import ApiManual.Proofs.Text.Lines
import ApiManual.Text.Search

/-!
# Searching texts that are put together

`Clear pattern cs rest` says that the pattern begins nowhere in `cs` where `rest` stands behind it. A search passes
over such a text: `splitAtFirst?_append` and `replaceFrom_append`. A text is clear of a pattern whose first
character it does not have (`clear_of_head`), and one without the pattern is clear of it in front of a character
that the pattern does not have (`clear_of_stop`).

A map that does not tell the replacement from the pattern does not see what is replaced (`flatMap_replaceAll`).
-/

namespace ApiManual.Text

/-- The pattern begins nowhere in `cs` where `rest` stands behind it. -/
def Clear (pattern cs rest : List Char) : Prop :=
  ∀ front back, cs = front ++ back → back ≠ [] → ¬ pattern <+: back ++ rest

variable {pattern replacement cs ds rest : List Char} {c x : Char}

/-! ## Clear texts -/

theorem clear_nil : Clear pattern [] rest := by
  intro front back heq hback
  exact absurd (List.append_eq_nil_iff.mp heq.symm).2 hback

theorem clear_cons : Clear pattern (c :: cs) rest ↔ ¬ pattern <+: c :: (cs ++ rest) ∧ Clear pattern cs rest := by
  constructor
  · intro h
    refine ⟨h [] (c :: cs) rfl (List.cons_ne_nil c cs), fun front back heq => ?_⟩
    exact h (c :: front) back (by rw [heq, List.cons_append])
  · rintro ⟨hfirst, h⟩ front back heq hback
    cases front with
    | nil =>
      rw [List.nil_append] at heq
      rwa [← heq]
    | cons d front => exact h front back (List.cons.inj heq).2 hback

theorem Clear.append (hcs : Clear pattern cs (ds ++ rest)) (hds : Clear pattern ds rest) :
    Clear pattern (cs ++ ds) rest := by
  induction cs with
  | nil => exact hds
  | cons c cs ih =>
    obtain ⟨hfirst, hcs⟩ := clear_cons.mp hcs
    refine clear_cons.mpr ⟨?_, ih hcs⟩
    rwa [← List.append_assoc] at hfirst

/-- A text is clear of a pattern whose first character it does not have. -/
theorem clear_of_head (h : x ∉ cs) (hx : pattern.head? = some x) (rest : List Char) : Clear pattern cs rest := by
  rintro front back rfl hback hfront
  obtain ⟨d, back, rfl⟩ := List.exists_cons_of_ne_nil hback
  obtain ⟨tail, htail⟩ := hfront
  have hhead := congrArg List.head? htail
  rw [List.head?_append, hx] at hhead
  obtain rfl := Option.some.inj hhead
  exact h (List.mem_append_right _ List.mem_cons_self)

/-- A pattern does not go on over a character that it does not have. -/
theorem prefix_of_stop (hx : x ∉ pattern) (h : pattern <+: cs ++ x :: rest) : pattern <+: cs := by
  rcases Nat.lt_or_ge cs.length pattern.length with hlt | hge
  · have hstop : cs ++ [x] <+: cs ++ x :: rest := ⟨rest, by simp⟩
    have hin : cs ++ [x] <+: pattern := List.prefix_of_prefix_length_le hstop h (by
      rw [List.length_append, List.length_singleton]
      omega)
    exact absurd (hin.subset (by simp)) hx
  · exact List.prefix_of_prefix_length_le h (List.prefix_append ..) hge

/-- A text without the pattern is clear of it in front of a character that the pattern does not have. -/
theorem clear_of_stop (hx : x ∉ pattern) (h : ¬ pattern <:+: cs) (rest : List Char) :
    Clear pattern cs (x :: rest) := by
  rintro front back rfl - hfront
  exact h ((prefix_of_stop hx hfront).isInfix.trans (List.suffix_append front back).isInfix)

theorem clear_of_absent (h : ¬ pattern <:+: cs) : Clear pattern cs [] := by
  rintro front back rfl - hfront
  rw [List.append_nil] at hfront
  exact h (hfront.isInfix.trans (List.suffix_append front back).isInfix)

theorem Clear.absent (h : Clear pattern cs rest) (hne : pattern ≠ []) : ¬ pattern <:+: cs := by
  rintro ⟨front, tail, rfl⟩
  refine h front (pattern ++ tail) (List.append_assoc ..) (by simp [hne]) ?_
  exact ⟨tail ++ rest, (List.append_assoc ..).symm⟩

theorem Clear.of_suffix (h : Clear pattern cs rest) (hsuffix : ds <:+ cs) : Clear pattern ds rest := by
  obtain ⟨lead, rfl⟩ := hsuffix
  rintro front back rfl
  exact h (lead ++ front) back (List.append_assoc ..).symm

/-- A text is clear of what begins with a pattern that it is clear of. -/
theorem Clear.of_prefix {longer : List Char} (h : Clear pattern cs rest) (hlonger : pattern <+: longer) :
    Clear longer cs rest :=
  fun front back heq hback hfront => h front back heq hback (hlonger.trans hfront)

/-- A text without the pattern is clear of it also between spaces. -/
theorem clear_spaced (hspace : ' ' ∉ pattern) (hx : pattern.head? = some x) (h : ¬ pattern <:+: cs)
    (rest : List Char) : Clear pattern (' ' :: (cs ++ [' '])) rest := by
  have hblank : x ∉ [' '] := by
    rw [List.mem_singleton]
    rintro rfl
    exact hspace (List.mem_of_head? hx)
  exact (clear_of_head hblank hx _).append ((clear_of_stop hspace h rest).append (clear_of_head hblank hx rest))

/-- A text without the pattern is clear of it also with a space behind. -/
theorem clear_lead (hspace : ' ' ∉ pattern) (hx : pattern.head? = some x) (h : ¬ pattern <:+: cs) (rest : List Char) :
    Clear pattern (lead cs) rest := by
  unfold lead
  split
  · exact clear_nil
  · exact (clear_spaced hspace hx h rest).of_suffix (List.suffix_cons ..)

/-! ## Searching -/

theorem splitAtFirst?_eq_none_iff : splitAtFirst? pattern cs = none ↔ ¬ pattern <:+: cs := by
  induction cs with
  | nil => cases pattern <;> simp [splitAtFirst?]
  | cons c cs ih =>
    rw [splitAtFirst?, List.infix_cons_iff, not_or, ← ih, ← List.isPrefixOf_iff_prefix]
    cases pattern.isPrefixOf (c :: cs) <;> simp

theorem splitAtFirst?_self (pattern rest : List Char) : splitAtFirst? pattern (pattern ++ rest) = some ([], rest) := by
  have hfront : pattern.isPrefixOf (pattern ++ rest) = true :=
    List.isPrefixOf_iff_prefix.mpr (List.prefix_append ..)
  have hdrop : (pattern ++ rest).drop pattern.length = rest := List.drop_left
  cases hcs : pattern ++ rest with
  | nil =>
    obtain ⟨rfl, rfl⟩ := List.append_eq_nil_iff.mp hcs
    rfl
  | cons c cs => rw [splitAtFirst?, ← hcs, if_pos hfront, hdrop]

theorem splitAtFirst?_append (h : Clear pattern cs rest) : splitAtFirst? pattern (cs ++ rest) =
    (splitAtFirst? pattern rest).map fun parts => (cs ++ parts.1, parts.2) := by
  induction cs with
  | nil => simp
  | cons c cs ih =>
    obtain ⟨hfirst, hcs⟩ := clear_cons.mp h
    rw [List.cons_append, splitAtFirst?, if_neg (by rwa [List.isPrefixOf_iff_prefix]), ih hcs, Option.map_map]
    rfl

/-- A text is parted in front of the first occurrence of the pattern. -/
theorem of_splitAtFirst? {before after : List Char} (h : splitAtFirst? pattern cs = some (before, after)) :
    cs = before ++ (pattern ++ after) ∧ Clear pattern before (pattern ++ after) := by
  induction cs generalizing before with
  | nil =>
    rw [splitAtFirst?] at h
    split at h
    · rename_i hnil
      obtain ⟨rfl, rfl⟩ := Prod.mk.inj (Option.some.inj h)
      rw [List.isEmpty_iff.mp hnil]
      exact ⟨rfl, clear_nil⟩
    · cases h
  | cons c cs ih =>
    rw [splitAtFirst?] at h
    split at h
    · rename_i hfront
      obtain ⟨rfl, rfl⟩ := Prod.mk.inj (Option.some.inj h)
      rw [List.isPrefixOf_iff_prefix] at hfront
      exact ⟨List.prefix_iff_eq_append.mp hfront |>.symm, clear_nil⟩
    · rename_i hfront
      obtain ⟨⟨front, back⟩, hparts, heq⟩ := Option.map_eq_some_iff.mp h
      obtain ⟨rfl, rfl⟩ := Prod.mk.inj heq
      obtain ⟨rfl, hclear⟩ := ih hparts
      rw [List.isPrefixOf_iff_prefix] at hfront
      exact ⟨rfl, clear_cons.mpr ⟨hfront, hclear⟩⟩

/-! ## Replacing -/

theorem replaceFrom_skip (pattern replacement xs rest : List Char) :
    replaceFrom pattern replacement xs.length (xs ++ rest) = replaceFrom pattern replacement 0 rest := by
  induction xs with
  | nil => rfl
  | cons x xs ih => exact ih

theorem replaceFrom_self (h : pattern ≠ []) (replacement rest : List Char) :
    replaceFrom pattern replacement 0 (pattern ++ rest) = replacement ++ replaceFrom pattern replacement 0 rest := by
  obtain ⟨p, ps, rfl⟩ := List.exists_cons_of_ne_nil h
  have hfront : (p :: ps).isPrefixOf (p :: (ps ++ rest)) = true :=
    List.isPrefixOf_iff_prefix.mpr (List.prefix_append (p :: ps) rest)
  rw [List.cons_append, replaceFrom, if_pos hfront]
  exact congrArg (replacement ++ ·) (replaceFrom_skip _ _ ps rest)

theorem replaceFrom_append (h : Clear pattern cs rest) (replacement : List Char) :
    replaceFrom pattern replacement 0 (cs ++ rest) = cs ++ replaceFrom pattern replacement 0 rest := by
  induction cs with
  | nil => rfl
  | cons c cs ih =>
    obtain ⟨hfirst, hcs⟩ := clear_cons.mp h
    rw [List.cons_append, replaceFrom, if_neg (by rwa [List.isPrefixOf_iff_prefix]), ih hcs, List.cons_append]

/-- One character is replaced wherever it stands. -/
theorem replaceAll_singleton (x : Char) (replacement cs : List Char) :
    replaceAll [x] replacement cs = cs.flatMap fun c => if c = x then replacement else [c] := by
  have hself : ∀ cs, replaceFrom [x] replacement 0 cs = cs.flatMap fun c => if c = x then replacement else [c] := by
    intro cs
    induction cs with
    | nil => rfl
    | cons c cs ih =>
      rw [replaceFrom, List.flatMap_cons, ← ih]
      by_cases hc : c = x
      · simp [hc]
      · simp [hc, Ne.symm hc]
  exact hself cs

theorem flatMap_replaceFrom {α : Type} {f : Char → List α} (hne : pattern ≠ [])
    (h : replacement.flatMap f = pattern.flatMap f) (skip : Nat) (cs : List Char) :
    (replaceFrom pattern replacement skip cs).flatMap f = (cs.drop skip).flatMap f := by
  induction cs generalizing skip with
  | nil => simp [replaceFrom]
  | cons c cs ih =>
    cases skip with
    | succ skip => exact ih skip
    | zero =>
      rw [replaceFrom]
      split
      · rename_i hfront
        obtain ⟨p, ps, rfl⟩ := List.exists_cons_of_ne_nil hne
        have hcut : p :: ps ++ cs.drop ps.length = c :: cs :=
          List.prefix_iff_eq_append.mp (List.isPrefixOf_iff_prefix.mp hfront)
        have hbehind := ih ps.length
        rw [List.flatMap_append, h, List.length_cons, Nat.add_sub_cancel, hbehind, ← List.flatMap_append, hcut,
          List.drop_zero]
      · rw [List.flatMap_cons, ih 0, List.drop_zero, List.drop_zero, List.flatMap_cons]

theorem flatMap_replaceAll {α : Type} {f : Char → List α} (hne : pattern ≠ [])
    (h : replacement.flatMap f = pattern.flatMap f) (cs : List Char) :
    (replaceAll pattern replacement cs).flatMap f = cs.flatMap f := by
  rw [replaceAll, if_neg (by simpa using hne), flatMap_replaceFrom hne h, List.drop_zero]

/-! ## Joined texts -/

section Joined

variable {separator : Char} {between part : List Char} {parts : List (List Char)}

theorem joinWith_splitOn (separator : Char) (cs : List Char) : joinWith [separator] (splitOn separator cs) = cs := by
  rw [splitOn_eq]
  exact List.intercalate_splitOn separator

theorem joinWith_cons (between part : List Char) (parts : List (List Char)) :
    joinWith between (part :: parts) = part ++ parts.flatMap (between ++ ·) := by
  induction parts generalizing part with
  | nil => simp
  | cons next parts ih => rw [joinWith_cons_cons, ih, List.flatMap_cons, List.append_assoc]

theorem mem_joinWith (h : c ∈ joinWith between parts) : c ∈ between ∨ ∃ part ∈ parts, c ∈ part := by
  induction parts with
  | nil => exact absurd h List.not_mem_nil
  | cons first parts ih =>
    cases parts with
    | nil => exact .inr ⟨first, by simp, by simpa using h⟩
    | cons next parts =>
      rw [joinWith_cons_cons, List.mem_append, List.mem_append] at h
      rcases h with hfirst | hbetween | hrest
      · exact .inr ⟨first, by simp, hfirst⟩
      · exact .inl hbetween
      · exact (ih hrest).imp_right fun ⟨part, hpart, hc⟩ => ⟨part, List.mem_cons_of_mem _ hpart, hc⟩

theorem infix_joinWith (between : List Char) (h : part ∈ parts) : part <:+: joinWith between parts := by
  induction parts with
  | nil => exact absurd h List.not_mem_nil
  | cons first parts ih =>
    cases parts with
    | nil => simpa using (List.mem_singleton.mp h ▸ List.infix_refl part)
    | cons next parts =>
      rw [joinWith_cons_cons]
      rcases List.mem_cons.mp h with rfl | hrest
      · exact (List.prefix_append ..).isInfix
      · exact (ih hrest).trans ((List.suffix_append ..).trans (List.suffix_append ..)).isInfix

theorem exists_mem_splitOn (h : c ∈ cs) (hne : c ≠ separator) : ∃ part ∈ splitOn separator cs, c ∈ part := by
  rw [← joinWith_splitOn separator cs] at h
  exact (mem_joinWith h).resolve_left (by simpa using hne)

theorem infix_of_mem_splitOn (h : part ∈ splitOn separator cs) : part <:+: cs := by
  have hjoined := infix_joinWith [separator] h
  rwa [joinWith_splitOn] at hjoined

theorem joinWith_spaced (separator : Char) (first : List Char) (rest : List (List Char)) :
    joinWith [separator, ' '] (first :: rest) = joinWith [separator] (first :: rest.map (' ' :: ·)) := by
  induction rest generalizing first with
  | nil => rfl
  | cons next rest ih =>
    rw [joinWith_cons_cons, ih next, List.map_cons, joinWith_cons_cons]
    cases rest <;> simp

/-- Texts that are joined with a space behind each separator are parted again. -/
theorem map_trim_splitOn (hne : parts ≠ []) (hbare : ∀ part ∈ parts, Bare isBlank part)
    (h : ∀ part ∈ parts, separator ∉ part) (hspace : separator ≠ ' ') :
    (splitOn separator (joinWith [separator, ' '] parts)).map trim = parts := by
  obtain ⟨first, rest, rfl⟩ := List.exists_cons_of_ne_nil hne
  obtain ⟨hfirst, hrest⟩ := List.forall_mem_cons.mp h
  have hspaced : ∀ part ∈ rest.map (' ' :: ·), separator ∉ part := by
    intro part hpart
    obtain ⟨text, htext, rfl⟩ := List.mem_map.mp hpart
    simpa [hspace] using hrest text htext
  rw [joinWith_spaced, splitOn_joinWith (by simp) (List.forall_mem_cons.mpr ⟨hfirst, hspaced⟩), List.map_cons,
    List.map_map]
  simp only [Function.comp_def, trim_space]
  rw [← List.map_cons, map_trim_of_bare hbare]

/-- Joined texts without the pattern are clear of it in front of a character that it does not have. -/
theorem clear_joinWith {stop stop' : Char} (hstop : stop ∉ pattern) (hstop' : stop' ∉ pattern)
    (hx : pattern.head? = some x) (hbetween : x ∉ between) (h : ∀ part ∈ parts, ¬ pattern <:+: part)
    (rest : List Char) : Clear pattern (joinWith (stop :: between) parts) (stop' :: rest) := by
  induction parts with
  | nil => exact clear_nil
  | cons first parts ih =>
    obtain ⟨hfirst, hparts⟩ := List.forall_mem_cons.mp h
    cases parts with
    | nil =>
      rw [joinWith_singleton]
      exact clear_of_stop hstop' hfirst rest
    | cons next parts =>
      have hhead : x ∉ stop :: between := by
        rw [List.mem_cons, not_or]
        exact ⟨fun heq => hstop (heq ▸ List.mem_of_head? hx), hbetween⟩
      rw [joinWith_cons_cons]
      exact (clear_of_stop hstop hfirst _).append ((clear_of_head hhead hx _).append (ih hparts))

end Joined

end ApiManual.Text
