import ApiManual.Number.Numeral
import ApiManual.Proofs.Text.Trim

/-!
# Characters that stand in no numeral

A text with a foreign character, such as `#` or `*`, is read as no number: `readInteger?_eq_none` and
`readFloat?_eq_none`. The character stays where the numeral is brought into plain form (`mem_plain?`), and no part of
a number takes it.
-/

namespace ApiManual

namespace Number

/-- Neither a digit nor a sign, a blank or a letter of a numeral. -/
structure Foreign (c : Char) : Prop where
  padding : isPadding c = false
  decimal : Text.decimalValue? c = none
  digit : c.isDigit = false
  mark : c ∉ "_+-.eE".toList
  letter : c.toLower ∉ "infinity".toList ++ "nan".toList

theorem foreign_hash : Foreign '#' := ⟨by decide, by decide, by decide, by decide, by decide⟩

theorem foreign_star : Foreign '*' := ⟨by decide, by decide, by decide, by decide, by decide⟩

variable {c : Char} {cs ds : List Char}

theorem Foreign.ne (hc : Foreign c) {d : Char} (hd : d ∈ "_+-.eE".toList) : c ≠ d :=
  fun heq => hc.mark (heq ▸ hd)

theorem mem_dropUnderscores? {afterDigit : Bool} (h : dropUnderscores? afterDigit cs = some ds) (hc : c ≠ '_')
    (hmem : c ∈ cs) : c ∈ ds := by
  induction cs generalizing afterDigit ds with
  | nil => exact absurd hmem List.not_mem_nil
  | cons d cs ih =>
    rw [dropUnderscores?] at h
    rcases List.mem_cons.mp hmem with rfl | hmem
    · rw [if_neg hc] at h
      obtain ⟨rest, -, rfl⟩ := Option.map_eq_some_iff.mp h
      exact List.mem_cons_self
    · split at h
      · split at h
        · exact ih h hmem
        · cases h
      · obtain ⟨rest, hrest, rfl⟩ := Option.map_eq_some_iff.mp h
        exact List.mem_cons_of_mem d (ih hrest hmem)

theorem mem_plain? (h : plain? cs = some ds) (hc : Foreign c) (hmem : c ∈ cs) : c ∈ ds := by
  refine mem_dropUnderscores? h (hc.ne (by decide)) (List.mem_map.mpr ⟨c, Text.mem_trimBy hc.padding hmem, ?_⟩)
  rw [hc.decimal]

theorem mem_takeSign (hc : Foreign c) (hmem : c ∈ cs) : c ∈ (takeSign cs).2 := by
  have hminus := hc.ne (d := '-') (by decide)
  have hplus := hc.ne (d := '+') (by decide)
  unfold takeSign
  split <;> simp_all

theorem readInteger?_eq_none (hc : Foreign c) (hmem : c ∈ cs) : readInteger? cs = none := by
  unfold readInteger?
  cases hplain : plain? cs with
  | none => rfl
  | some ds =>
    have hdigits := mem_takeSign hc (mem_plain? hplain hc hmem)
    simp only [Option.bind_eq_bind, Option.bind_some]
    refine if_neg fun hall => ?_
    simp only [Bool.and_eq_true] at hall
    have hdigit := List.all_eq_true.mp hall.1.2 c hdigits
    simp [hc.digit] at hdigit

/-! ## Floats -/

theorem readExponent?_eq_none (hc : Foreign c) (hmem : c ∈ cs) : readExponent? cs = none := by
  cases cs with
  | nil => exact absurd hmem List.not_mem_nil
  | cons d cs =>
    rw [readExponent?]
    refine if_neg ?_
    rintro ⟨hletter, -, hall⟩
    rcases List.mem_cons.mp hmem with rfl | hmem
    · exact hletter.elim (hc.ne (by decide)) (hc.ne (by decide))
    · have hdigit := List.all_eq_true.mp hall c (mem_takeSign hc hmem)
      simp [hc.digit] at hdigit

theorem readDecimal?_eq_none (hc : Foreign c) (hmem : c ∈ cs) (negative : Bool) : readDecimal? negative cs = none := by
  have hrest := Text.mem_dropWhile hc.digit hmem
  unfold readDecimal?
  simp only
  split
  · rename_i rest hpoint
    rw [hpoint] at hrest
    have hfraction := (List.mem_cons.mp hrest).resolve_left (hc.ne (by decide))
    rw [readExponent?_eq_none hc (Text.mem_dropWhile hc.digit hfraction)]
    simp
  · rw [readExponent?_eq_none hc hrest]
    simp

theorem readFloat?_eq_none (hc : Foreign c) (hmem : c ∈ cs) : readFloat? cs = none := by
  unfold readFloat?
  cases hplain : plain? cs with
  | none => rfl
  | some ds =>
    have hbody := mem_takeSign hc (mem_plain? hplain hc hmem)
    have hword : ∀ word : String, (word.toList.all fun d => d ∈ "infinity".toList ++ "nan".toList) = true →
        String.ofList ((takeSign ds).2.map Char.toLower) ≠ word := by
      rintro word hletters rfl
      rw [String.toList_ofList, List.all_eq_true] at hletters
      exact hc.letter (of_decide_eq_true (hletters _ (List.mem_map_of_mem hbody)))
    have hinf := hword "inf" (by decide)
    have hinfinity := hword "infinity" (by decide)
    have hnan := hword "nan" (by decide)
    simp only [Option.bind_some, readPlainFloat?, hinf, hinfinity, hnan, or_self, if_false]
    exact readDecimal?_eq_none hc hbody _

end Number

end ApiManual
