import ApiManual.Proofs.Text.Trim
import ApiManual.Text.Lines
import ApiManual.Text.Word

/-!
# Lines of texts

* `lines_oneLine`: a line holds no line breaks.
* `not_isWordChar_of_isBlank`: blanks, line breaks among them, are no word characters.
* `lines_joinWith`: lines that are joined are parted again.
* `exists_lines_append`: the lines behind a line feed do not depend on what stands in front of it.
-/

namespace ApiManual.Text

/-- A text without line breaks. -/
def OneLine (cs : List Char) : Prop := ∀ c ∈ cs, isLineBreak c = false

instance (cs : List Char) : Decidable (OneLine cs) :=
  decidable_of_iff (cs.any isLineBreak = false) (by simp [OneLine])

/-- A line with a character that is no blank. -/
def Inked (line : List Char) : Prop := ∃ c ∈ line, isBlank c = false

/-- A text without line breaks and tabs. -/
structure Plain (cs : List Char) : Prop where
  oneLine : OneLine cs
  untabbed : '\t' ∉ cs

instance (cs : List Char) : Decidable (Plain cs) :=
  decidable_of_iff (cs.any isLineBreak = false ∧ '\t' ∉ cs)
    ⟨fun ⟨h, h'⟩ => ⟨by simpa [OneLine] using h, h'⟩, fun ⟨h, h'⟩ => ⟨by simpa [OneLine] using h, h'⟩⟩

theorem mem_of_mem_trimRightBy {p : Char → Bool} {c : Char} {cs : List Char} (h : c ∈ trimRightBy p cs) :
    c ∈ cs := by
  have := (List.dropWhile_sublist p).subset (List.mem_reverse.mp h)
  exact List.mem_reverse.mp this

theorem mem_of_mem_trim {c : Char} {cs : List Char} (h : c ∈ trim cs) : c ∈ cs :=
  (List.dropWhile_sublist _).subset (mem_of_mem_trimRightBy h)

theorem OneLine.of_subset {cs ds : List Char} (h : OneLine cs) (hsub : ∀ c ∈ ds, c ∈ cs) : OneLine ds :=
  fun c hc => h c (hsub c hc)

theorem OneLine.trim {cs : List Char} (h : OneLine cs) : OneLine (trim cs) :=
  h.of_subset fun _ => mem_of_mem_trim

theorem OneLine.lineFeed_notMem {cs : List Char} (h : OneLine cs) : '\n' ∉ cs :=
  fun hmem => absurd (h '\n' hmem) (by decide)

theorem Plain.of_subset {cs ds : List Char} (h : Plain cs) (hsub : ∀ c ∈ ds, c ∈ cs) : Plain ds :=
  ⟨h.oneLine.of_subset hsub, fun hmem => h.untabbed (hsub _ hmem)⟩

theorem Plain.append {cs ds : List Char} (hcs : Plain cs) (hds : Plain ds) : Plain (cs ++ ds) := by
  constructor
  · intro c hc
    exact (List.mem_append.mp hc).elim (hcs.oneLine c) (hds.oneLine c)
  · intro hmem
    exact (List.mem_append.mp hmem).elim hcs.untabbed hds.untabbed

theorem Plain.indented {line : List Char} (h : Plain line) (indent : Nat) :
    Plain (List.replicate indent ' ' ++ line) := by
  refine Plain.append ⟨?_, ?_⟩ h
  · intro c hc
    rw [List.eq_of_mem_replicate hc]
    decide
  · intro hc
    exact absurd (List.eq_of_mem_replicate hc) (by decide)

/-! ## Blanks, breaks and words -/

theorem Ranges.mem_of_holds {ranges : Ranges} {c : Char} (h : ranges.holds c = true) :
    c.toNat ∈ ranges.flatMap fun range => List.range' range.1 (range.2 + 1 - range.1) := by
  obtain ⟨range, hrange, hc⟩ := List.any_eq_true.mp h
  simp only [Bool.and_eq_true, decide_eq_true_eq] at hc
  exact List.mem_flatMap.mpr ⟨range, hrange, List.mem_range'_1.mpr (by omega)⟩

/-- What holds of the code points that are blanks holds of blanks. -/
theorem of_isBlank {P : Char → Prop}
    (h : ∀ n ∈ blankRanges.flatMap fun range => List.range' range.1 (range.2 + 1 - range.1), P (Char.ofNat n))
    {c : Char} (hc : isBlank c = true) : P c := by
  have hholds := h _ (Ranges.mem_of_holds hc)
  rwa [Char.ofNat_toNat] at hholds

theorem not_isWordChar_of_isBlank {c : Char} (h : isBlank c = true) : isWordChar c = false :=
  of_isBlank (P := fun c => isWordChar c = false) (by decide +kernel) h

theorem not_isBlank_of_isWordChar {c : Char} (h : isWordChar c = true) : isBlank c = false := by
  by_contra hblank
  simp [not_isWordChar_of_isBlank (by simpa using hblank)] at h

theorem isBlank_of_isLineBreak {c : Char} (h : isLineBreak c = true) : isBlank c = true := by
  simp only [isLineBreak, Bool.or_eq_true, beq_iff_eq] at h
  rcases h with ((((((((rfl | rfl) | rfl) | rfl) | rfl) | rfl) | rfl) | rfl) | rfl) | rfl <;> decide

theorem plain_of_word {name : List Char} (h : ∀ c ∈ name, isWordChar c = true) : Plain name := by
  constructor
  · intro c hc
    by_contra hbreak
    have hblank := isBlank_of_isLineBreak (by simpa using hbreak)
    simp [not_isBlank_of_isWordChar (h c hc)] at hblank
  · intro htab
    exact absurd (not_isBlank_of_isWordChar (h '\t' htab)) (by decide)

/-! ## Parting a text into lines -/

/-- A character that is no break joins the first line. -/
theorem forall_consFirst {P : List Char → Prop} {c : Char} {parts : List (List Char)}
    (hnil : P [c]) (hcons : ∀ part, P part → P (c :: part)) (h : ∀ part ∈ parts, P part) :
    ∀ part ∈ consFirst c parts, P part := by
  cases parts with
  | nil => simpa [consFirst] using hnil
  | cons part parts =>
    simp only [List.mem_cons, forall_eq_or_imp] at h
    simpa [consFirst] using ⟨hcons part h.1, h.2⟩

theorem lines_oneLine (cs : List Char) : ∀ line ∈ lines cs, OneLine line := by
  fun_induction lines cs with
  | case1 => simp
  | case2 cs ih => simpa [OneLine] using ih
  | case3 c cs hc hbreak ih => simpa [OneLine] using ih
  | case4 c cs hc hbreak ih =>
    have hb : isLineBreak c = false := by simpa using hbreak
    refine forall_consFirst (by simpa [OneLine] using hb) (fun part hpart => ?_) ih
    simpa [OneLine, hb] using hpart

theorem splitOn_eq (separator : Char) (cs : List Char) : splitOn separator cs = List.splitOn separator cs := by
  induction cs with
  | nil => rfl
  | cons c cs ih =>
    rw [splitOn, ih, List.splitOn, List.splitOn, List.splitOnP_cons_eq_if_modifyHead]
    by_cases hc : c = separator
    · simp [hc]
    · cases hparts : List.splitOnP (· == separator) cs with
      | nil => exact absurd hparts (List.splitOnP_ne_nil _ _)
      | cons part parts => simp [hc, consFirst]

theorem splitOn_joinWith {separator : Char} {parts : List (List Char)} (hne : parts ≠ [])
    (h : ∀ part ∈ parts, separator ∉ part) : splitOn separator (joinWith [separator] parts) = parts := by
  rw [splitOn_eq]
  exact List.splitOn_intercalate separator h hne

@[simp]
theorem joinWith_nil (separator : List Char) : joinWith separator [] = [] := rfl

@[simp]
theorem joinWith_singleton (separator part : List Char) : joinWith separator [part] = part :=
  List.intercalate_singleton

@[simp]
theorem joinWith_cons_cons (separator part next : List Char) (parts : List (List Char)) :
    joinWith separator (part :: next :: parts) = part ++ (separator ++ joinWith separator (next :: parts)) :=
  List.intercalate_cons_cons.trans (List.append_assoc ..)

theorem joinWith_append (separator : List Char) {parts parts' : List (List Char)} (hne : parts ≠ [])
    (hne' : parts' ≠ []) :
    joinWith separator (parts ++ parts') = joinWith separator parts ++ (separator ++ joinWith separator parts') := by
  induction parts with
  | nil => exact absurd rfl hne
  | cons first parts ih =>
    cases parts with
    | nil =>
      cases parts' with
      | nil => exact absurd rfl hne'
      | cons next parts' => rw [List.singleton_append, joinWith_cons_cons, joinWith_singleton]
    | cons next parts =>
      rw [List.cons_append, List.cons_append, joinWith_cons_cons, ← List.cons_append, ih (by simp),
        joinWith_cons_cons]
      simp

theorem joinWith_concat (separator part : List Char) {parts : List (List Char)} (hne : parts ≠ []) :
    joinWith separator (parts ++ [part]) = joinWith separator parts ++ (separator ++ part) := by
  rw [joinWith_append separator hne (by simp), joinWith_singleton]

/-- Joined lines are bare if they are and the outer ones are not empty. -/
theorem bare_joinWith {p : Char → Bool} (separator : List Char) {parts : List (List Char)}
    (h : ∀ part ∈ parts, Bare p part) (hfirst : ∀ part ∈ parts.head?, part ≠ [])
    (hlast : ∀ part ∈ parts.getLast?, part ≠ []) : Bare p (joinWith separator parts) := by
  constructor
  · cases parts with
    | nil => simp
    | cons first parts =>
      have hhead := (h first List.mem_cons_self).head
      cases parts with
      | nil => rwa [joinWith_singleton]
      | cons next parts => rwa [joinWith_cons_cons, List.head?_append_of_ne_nil _ (hfirst first rfl)]
  · obtain rfl | ⟨front, last, rfl⟩ := List.eq_nil_or_concat parts
    · simp
    · have hend := (h last (by simp)).last
      by_cases hfront : front = []
      · rwa [hfront, List.concat_eq_append, List.nil_append, joinWith_singleton]
      · have hne : last ≠ [] := hlast last (by simp)
        rwa [List.concat_eq_append, joinWith_concat _ _ hfront, ← List.append_assoc,
          List.getLast?_append_of_ne_nil _ hne]

theorem lines_cons_of_oneLine {c : Char} {cs : List Char} (hc : isLineBreak c = false) :
    lines (c :: cs) = consFirst c (lines cs) := by
  -- by cases, for the equation of `lines` takes long to be found
  generalize hwhole : c :: cs = whole
  fun_cases lines whole with
  | case1 => cases hwhole
  | case2 =>
    cases hwhole
    simp [isLineBreak] at hc
  | case3 _ _ _ hbreak =>
    cases hwhole
    simp [hc] at hbreak
  | case4 =>
    cases hwhole
    rfl

theorem lines_append {line : List Char} (h : OneLine line) (cs : List Char) :
    lines (line ++ '\n' :: cs) = line :: lines cs := by
  induction line with
  | nil => rfl
  | cons c line ih =>
    obtain ⟨hc, hline⟩ := List.forall_mem_cons.mp h
    rw [List.cons_append, lines_cons_of_oneLine hc, ih hline]
    rfl

theorem lines_of_oneLine {line : List Char} (h : OneLine line) (hne : line ≠ []) : lines line = [line] := by
  induction line with
  | nil => exact absurd rfl hne
  | cons c line ih =>
    obtain ⟨hc, hline⟩ := List.forall_mem_cons.mp h
    rw [lines_cons_of_oneLine hc]
    cases line with
    | nil => rfl
    | cons d line => rw [ih hline (by simp)]; rfl

/-- Lines that are joined are parted again, if the last is not empty. -/
theorem lines_joinWith {ls : List (List Char)} (h : ∀ line ∈ ls, OneLine line)
    (hlast : ∀ line ∈ ls.getLast?, line ≠ []) : lines (joinWith ['\n'] ls) = ls := by
  induction ls with
  | nil => rfl
  | cons line ls ih =>
    obtain ⟨hline, hls⟩ := List.forall_mem_cons.mp h
    cases ls with
    | nil =>
      rw [joinWith_singleton]
      exact lines_of_oneLine hline (hlast line rfl)
    | cons next ls =>
      rw [joinWith_cons_cons, List.singleton_append, lines_append hline, ih hls hlast]

/-! ## Lines behind others and in front of them -/

theorem lines_cons_of_break {c : Char} {cs : List Char} (hbreak : isLineBreak c = true)
    (hpair : ∀ rest, c = '\r' → cs = '\n' :: rest → False) : lines (c :: cs) = [] :: lines cs := by
  generalize hwhole : c :: cs = whole
  fun_cases lines whole with
  | case1 => cases hwhole
  | case2 rest =>
    obtain ⟨hc, hcs⟩ := List.cons.inj hwhole
    exact (hpair rest hc hcs).elim
  | case3 =>
    cases hwhole
    rfl
  | case4 _ _ _ hbreak' =>
    cases hwhole
    exact absurd hbreak hbreak'

/-- A line feed parts what stands in front of it from what stands behind it. -/
theorem exists_lines_append (cs : List Char) : ∃ first front, ∀ rest,
    lines (cs ++ '\n' :: rest) = first :: (front ++ lines rest) := by
  fun_induction lines cs with
  | case1 => exact ⟨[], [], fun rest => rfl⟩
  | case2 cs ih =>
    obtain ⟨first, front, h⟩ := ih
    exact ⟨[], first :: front, fun rest => congrArg ([] :: ·) (h rest)⟩
  | case3 c cs hpair hbreak ih =>
    obtain ⟨first, front, h⟩ := ih
    by_cases hend : c = '\r' ∧ cs = []
    · obtain ⟨rfl, rfl⟩ := hend
      exact ⟨[], [], fun rest => rfl⟩
    · refine ⟨[], first :: front, fun rest => ?_⟩
      rw [List.cons_append, lines_cons_of_break hbreak, h]
      · rfl
      · intro rest' hc hcs
        cases cs with
        | nil => exact hend ⟨hc, rfl⟩
        | cons d cs =>
          obtain ⟨rfl, -⟩ := List.cons.inj hcs
          exact hpair cs hc rfl
  | case4 c cs hpair hbreak ih =>
    obtain ⟨first, front, h⟩ := ih
    refine ⟨c :: first, front, fun rest => ?_⟩
    rw [List.cons_append, lines_cons_of_oneLine (by simpa using hbreak), h]
    rfl

theorem lines_eq_nil {cs : List Char} (h : lines cs = []) : cs = [] := by
  fun_cases lines cs with
  | case1 => rfl
  | case2 cs => exact absurd h (List.cons_ne_nil _ _)
  | case3 c cs hpair hbreak => simp [lines_cons_of_break hbreak hpair] at h
  | case4 c cs hpair hbreak =>
    rw [lines_cons_of_oneLine (by simpa using hbreak)] at h
    cases hlines : lines cs <;> simp [hlines, consFirst] at h

/-- The first line goes up to the first break. -/
theorem head?_lines {cs line : List Char} (h : line ∈ (lines cs).head?) :
    line = cs.takeWhile fun c => !isLineBreak c := by
  fun_induction lines cs generalizing line with
  | case1 => simp at h
  | case2 cs ih =>
    obtain rfl : [] = line := by simpa using h
    rfl
  | case3 c cs hpair hbreak ih =>
    obtain rfl : [] = line := by simpa using h
    simp [hbreak]
  | case4 c cs hpair hbreak ih =>
    cases hlines : lines cs with
    | nil =>
      have hcs : cs = [] := lines_eq_nil hlines
      obtain rfl : [c] = line := by simpa [hlines, consFirst] using h
      simp [hbreak, hcs]
    | cons first rest =>
      obtain rfl : c :: first = line := by simpa [hlines, consFirst] using h
      have hfirst : first = cs.takeWhile fun c => !isLineBreak c := ih (by simp [hlines])
      simp [hbreak, ← hfirst]

/-- Lines that are joined with others behind them are parted from these again. -/
theorem lines_joinWith_append {ls : List (List Char)} (h : ∀ line ∈ ls, OneLine line)
    (hlast : ∀ line ∈ ls.getLast?, line ≠ []) (rest : List (List Char)) :
    lines (joinWith ['\n'] (ls ++ rest)) = ls ++ lines (joinWith ['\n'] rest) := by
  cases rest with
  | nil => rw [List.append_nil, lines_joinWith h hlast]; exact (List.append_nil ls).symm
  | cons next rest =>
    clear hlast
    induction ls with
    | nil => rfl
    | cons line ls ih =>
      obtain ⟨hline, hls⟩ := List.forall_mem_cons.mp h
      have hjoin := joinWith_append ['\n'] (List.cons_ne_nil line []) (show ls ++ next :: rest ≠ [] by simp)
      simp only [joinWith_singleton, List.singleton_append] at hjoin
      rw [List.cons_append, hjoin, lines_append hline, ih hls]
      rfl

/-- What stands in front of lines gives lines of its own. -/
theorem exists_lines_joinWith (before : List (List Char)) {ls : List (List Char)} (hne : ls ≠ []) :
    ∃ front, lines (joinWith ['\n'] (before ++ ls)) = front ++ lines (joinWith ['\n'] ls) := by
  by_cases hbefore : before = []
  · exact ⟨[], by rw [hbefore]; rfl⟩
  · obtain ⟨first, front, h⟩ := exists_lines_append (joinWith ['\n'] before)
    refine ⟨first :: front, ?_⟩
    rw [joinWith_append _ hbefore hne, List.singleton_append, h]
    rfl

/-- The first line of lines that are joined goes up to the first break of the first of them. -/
theorem head?_lines_joinWith {first line : List Char} {rest : List (List Char)}
    (h : line ∈ (lines (joinWith ['\n'] (first :: rest))).head?) :
    line = first.takeWhile fun c => !isLineBreak c := by
  cases rest with
  | nil => rw [head?_lines h, joinWith_singleton]
  | cons next rest =>
    rw [head?_lines h, joinWith_cons_cons]
    refine takeWhile_append_of_head (fun c hc => ?_) first
    obtain rfl := Option.some.inj hc
    rfl

end ApiManual.Text
