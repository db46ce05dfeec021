import ApiManual.Text.Blank
import Mathlib.Data.List.Basic
import Mathlib.Data.List.DropRight
import Mathlib.Data.List.TakeWhile

/-!
# Trimming and parting texts that are put together

A text between blanks is what trimming leaves of them (`trimBy_padded`), what stands on either side of a text without
margins is cut on its own (`trimBy_around`), and a token in front of a blank is the first token (`firstToken_append`).
-/

namespace ApiManual.Text

/-- No character of the class stands at either end. -/
structure Bare (p : Char → Bool) (cs : List Char) : Prop where
  head : ∀ c ∈ cs.head?, p c = false
  last : ∀ c ∈ cs.getLast?, p c = false

/-- A text of blanks alone. -/
def Blanks (cs : List Char) : Prop := ∀ c ∈ cs, isBlank c = true

/-- A word: no blanks, and not empty. -/
structure Token (cs : List Char) : Prop where
  nonempty : cs ≠ []
  solid : ∀ c ∈ cs, isBlank c = false

-- The tests run over the text: there is a slower instance that goes over all characters there are.
instance (p : Char → Bool) (cs : List Char) : Decidable (Bare p cs) :=
  decidable_of_iff (cs.head?.any p = false ∧ cs.getLast?.any p = false)
    ⟨fun ⟨h, h'⟩ => ⟨(Option.any_eq_false p _).mp h, (Option.any_eq_false p _).mp h'⟩,
    fun ⟨h, h'⟩ => ⟨(Option.any_eq_false p _).mpr h, (Option.any_eq_false p _).mpr h'⟩⟩

instance (cs : List Char) : Decidable (Blanks cs) :=
  decidable_of_iff (cs.all isBlank = true) List.all_eq_true

instance (cs : List Char) : Decidable (Token cs) :=
  decidable_of_iff (cs ≠ [] ∧ cs.any isBlank = false)
    ⟨fun ⟨h, h'⟩ => ⟨h, by simpa using h'⟩, fun ⟨h, h'⟩ => ⟨h, by simpa using h'⟩⟩

theorem Bare.of_forall {p : Char → Bool} {cs : List Char} (h : ∀ c ∈ cs, p c = false) : Bare p cs :=
  ⟨fun c hc => h c (List.mem_of_head? hc), fun c hc => h c (List.mem_of_getLast? hc)⟩

/-! ## Fronts and ends -/

theorem dropWhile_append_of_head {α : Type} {p : α → Bool} {ys : List α} (h : ∀ y ∈ ys.head?, p y = false)
    (xs : List α) : (xs ++ ys).dropWhile p = xs.dropWhile p ++ ys := by
  have hys : ys.dropWhile p = ys := by
    cases ys with
    | nil => rfl
    | cons y ys => rw [List.dropWhile_cons_of_neg (by simp [h y rfl])]
  rw [List.dropWhile_append, hys]
  split
  · rename_i hxs
    rw [List.isEmpty_iff.mp hxs, List.nil_append]
  · rfl

theorem takeWhile_append_of_head {α : Type} {p : α → Bool} {ys : List α} (h : ∀ y ∈ ys.head?, p y = false)
    (xs : List α) : (xs ++ ys).takeWhile p = xs.takeWhile p := by
  have hys : ys.takeWhile p = [] := by
    cases ys with
    | nil => rfl
    | cons y ys => simp [h y rfl]
  rw [List.takeWhile_append, hys, List.append_nil]
  split
  · rename_i hwhole
    exact ((List.takeWhile_prefix _).eq_of_length hwhole).symm
  · rfl

theorem rdropWhile_append_of_last {α : Type} {p : α → Bool} {xs : List α} (h : ∀ x ∈ xs.getLast?, p x = false)
    (ys : List α) : List.rdropWhile p (xs ++ ys) = xs ++ List.rdropWhile p ys := by
  unfold List.rdropWhile
  rw [List.reverse_append, dropWhile_append_of_head (by simpa using h), List.reverse_append, List.reverse_reverse]

theorem mem_dropWhile {α : Type} {p : α → Bool} {x : α} {xs : List α} (hx : p x = false) (h : x ∈ xs) :
    x ∈ xs.dropWhile p := by
  rw [← List.takeWhile_append_dropWhile (p := p) (l := xs), List.mem_append] at h
  refine h.resolve_left fun htaken => ?_
  simp [List.mem_takeWhile_imp htaken] at hx

/-! ## Trimming -/

section Trim

variable {p : Char → Bool} {left cs right : List Char}

theorem trimLeftBy_append (h : ∀ c ∈ left, p c = true) (cs : List Char) :
    trimLeftBy p (left ++ cs) = trimLeftBy p cs :=
  List.dropWhile_append_of_pos h

theorem trimLeftBy_eq_self (h : ∀ c ∈ cs.head?, p c = false) : trimLeftBy p cs = cs := by
  cases cs with
  | nil => rfl
  | cons c cs => simp [trimLeftBy, h c (by simp)]

theorem trimRightBy_append (h : ∀ c ∈ right, p c = true) : trimRightBy p (cs ++ right) = trimRightBy p cs := by
  unfold trimRightBy
  rw [List.reverse_append, List.dropWhile_append_of_pos (by simpa using h)]

theorem trimRightBy_eq_self (h : ∀ c ∈ cs.getLast?, p c = false) : trimRightBy p cs = cs := by
  unfold trimRightBy
  rw [← trimLeftBy, trimLeftBy_eq_self (by simpa using h), List.reverse_reverse]

/-- Cutting blanks off the right end stops where a text ends in no blank. -/
theorem trimRightBy_append_of_last (hlast : ∀ c ∈ cs.getLast?, p c = false)
    (ds : List Char) : trimRightBy p (cs ++ ds) = cs ++ trimRightBy p ds :=
  rdropWhile_append_of_last hlast ds

theorem prefix_trimRightBy (p : Char → Bool) (cs : List Char) : trimRightBy p cs <+: cs := by
  have h := List.dropWhile_suffix p (l := cs.reverse)
  rw [← List.reverse_prefix, List.reverse_reverse] at h
  exact h

theorem infix_trim (cs : List Char) : trim cs <:+: cs :=
  (prefix_trimRightBy isBlank _).isInfix.trans (List.dropWhile_suffix isBlank).isInfix

theorem trimBy_append_left (h : ∀ c ∈ left, p c = true) : trimBy p (left ++ cs) = trimBy p cs := by
  unfold trimBy
  rw [trimLeftBy_append h]

theorem trimBy_append_right (h : ∀ c ∈ right, p c = true) : trimBy p (cs ++ right) = trimBy p cs := by
  unfold trimBy trimLeftBy
  rw [List.dropWhile_append]
  split
  · rename_i hnil
    rw [List.dropWhile_eq_nil_iff.mpr h, List.isEmpty_iff.mp hnil]
  · exact trimRightBy_append h

theorem trimLeftBy_eq_nil (h : ∀ c ∈ cs, p c = true) : trimLeftBy p cs = [] :=
  List.dropWhile_eq_nil_iff.mpr h

theorem trimRightBy_eq_nil (h : ∀ c ∈ cs, p c = true) : trimRightBy p cs = [] := by
  unfold trimRightBy
  rw [← trimLeftBy, trimLeftBy_eq_nil (by simpa using h), List.reverse_nil]

theorem trimBy_eq_nil (h : ∀ c ∈ cs, p c = true) : trimBy p cs = [] := by
  unfold trimBy
  rw [trimLeftBy_eq_nil h]
  rfl

theorem trimBy_eq_self (h : Bare p cs) : trimBy p cs = cs := by
  unfold trimBy
  rw [trimLeftBy_eq_self h.head, trimRightBy_eq_self h.last]

theorem trimBy_padded (h : Bare p cs) (hleft : ∀ c ∈ left, p c = true) (hright : ∀ c ∈ right, p c = true) :
    trimBy p (left ++ cs ++ right) = cs := by
  rw [trimBy_append_right hright, trimBy_append_left hleft, trimBy_eq_self h]

/-- The ends are cut on either side of a text that is bare. -/
theorem trimBy_around (h : Bare p cs) (hne : cs ≠ []) (left right : List Char) :
    trimBy p (left ++ (cs ++ right)) = trimLeftBy p left ++ (cs ++ trimRightBy p right) := by
  have hhead : ∀ c ∈ (cs ++ right).head?, p c = false := by
    rw [List.head?_append_of_ne_nil _ hne]
    exact h.head
  have hlast : ∀ c ∈ (trimLeftBy p left ++ cs).getLast?, p c = false := by
    rw [List.getLast?_append_of_ne_nil _ hne]
    exact h.last
  have hleft : trimLeftBy p (left ++ (cs ++ right)) = trimLeftBy p left ++ (cs ++ right) :=
    dropWhile_append_of_head hhead left
  rw [trimBy, hleft, ← List.append_assoc, trimRightBy_append_of_last hlast, List.append_assoc]

theorem mem_trimRightBy {c : Char} (hc : p c = false) (h : c ∈ cs) : c ∈ trimRightBy p cs :=
  List.mem_reverse.mpr (mem_dropWhile hc (List.mem_reverse.mpr h))

/-- What is not of the class stays. -/
theorem mem_trimBy {c : Char} (hc : p c = false) (h : c ∈ cs) : c ∈ trimBy p cs :=
  mem_trimRightBy hc (mem_dropWhile hc h)

theorem map_trim_of_bare {ls : List (List Char)} (h : ∀ line ∈ ls, Bare isBlank line) : ls.map trim = ls := by
  conv => rhs; rw [← List.map_id ls]
  exact List.map_congr_left fun line hline => trimBy_eq_self (h line hline)

theorem trim_padded (h : Bare isBlank cs) (hleft : Blanks left) (hright : Blanks right) :
    trim (left ++ cs ++ right) = cs :=
  trimBy_padded h hleft hright

theorem trimLeft_padded (hleft : Blanks left) (h : ∀ c ∈ cs.head?, isBlank c = false) :
    trimLeft (left ++ cs) = cs := by
  unfold trimLeft
  rw [trimLeftBy_append hleft _, trimLeftBy_eq_self h]

end Trim

/-! ## What trimming takes away -/

theorem head?_trimLeft (cs : List Char) : ∀ c ∈ (trimLeft cs).head?, isBlank c = false := by
  intro c hc
  have hnot := List.head?_dropWhile_not isBlank cs
  rw [← trimLeftBy, ← trimLeft, hc] at hnot
  simpa using hnot

/-- A text is what trimming leaves of it on the left, behind blanks. -/
theorem exists_trimLeft (cs : List Char) : ∃ left, Blanks left ∧ cs = left ++ trimLeft cs :=
  ⟨cs.takeWhile isBlank, fun _ hc => List.mem_takeWhile_imp hc, List.takeWhile_append_dropWhile.symm⟩

/-- A text is what trimming leaves of it, between blanks. -/
theorem exists_trim (cs : List Char) : ∃ left right, Blanks left ∧ Blanks right ∧ cs = left ++ trim cs ++ right := by
  obtain ⟨left, hleft, hcs⟩ := exists_trimLeft cs
  obtain ⟨back, hback, hreverse⟩ := exists_trimLeft (trimLeft cs).reverse
  refine ⟨left, back.reverse, hleft, fun c hc => hback c (List.mem_reverse.mp hc), ?_⟩
  have hright : trimLeft cs = trim cs ++ back.reverse := by
    rw [← List.reverse_reverse (trimLeft cs), hreverse, List.reverse_append]
    rfl
  rw [List.append_assoc, ← hright]
  exact hcs

theorem bare_trim (cs : List Char) : Bare isBlank (trim cs) := by
  constructor
  · intro c hc
    obtain ⟨right, hright⟩ : trim cs <+: trimLeft cs := prefix_trimRightBy isBlank (trimLeft cs)
    refine head?_trimLeft cs c ?_
    rw [← hright, List.head?_append, hc]
    rfl
  · intro c hc
    have hcut : trim cs = (trimLeft (trimLeft cs).reverse).reverse := rfl
    rw [hcut, List.getLast?_reverse] at hc
    exact head?_trimLeft (trimLeft cs).reverse c hc

@[simp]
theorem trimLeft_space (cs : List Char) : trimLeft (' ' :: cs) = trimLeft cs := by
  have hspace : Blanks [' '] := by decide
  exact trimLeftBy_append hspace cs

theorem trim_space (cs : List Char) : trim (' ' :: cs) = trim cs := by
  have hspace : Blanks [' '] := by decide
  exact trimBy_append_left hspace

/-! ## Texts in front of others -/

/-- A text with the space that parts it from what follows, if there is any text. -/
def lead (cs : List Char) : List Char := if cs = [] then [] else cs ++ [' ']

section Lead

variable {p : Char → Bool} {cs : List Char}

theorem trimLeftBy_lead (h : Bare p cs) : trimLeftBy p (lead cs) = lead cs := by
  refine trimLeftBy_eq_self ?_
  unfold lead
  split
  · simp
  · rename_i hne
    rw [List.head?_append_of_ne_nil _ hne]
    exact h.head

theorem trimLeft_spaced (h : Bare isBlank cs) : trimLeft (' ' :: (cs ++ [' '])) = lead cs := by
  have hlead : trimLeft (lead cs) = lead cs := trimLeftBy_lead h
  rw [trimLeft_space, ← hlead]
  unfold lead
  split
  · rename_i hnone
    rw [hnone]
    rfl
  · rfl

theorem trim_lead (h : Bare isBlank cs) : trim (lead cs) = cs := by
  have hspace : Blanks [' '] := by decide
  unfold lead
  split
  · rename_i hnone
    rw [hnone]
    rfl
  · exact (trimBy_append_right hspace).trans (trimBy_eq_self h)

theorem firstToken_lead (hne : cs ≠ []) (rest : List Char) : firstToken (lead cs ++ rest) = firstToken cs := by
  have hspace : ∀ c ∈ (' ' :: rest).head?, (!isBlank c) = false := by
    simp
    decide
  rw [lead, if_neg hne, List.append_assoc, firstToken]
  exact takeWhile_append_of_head hspace cs

end Lead

/-- What stands between two texts that are bare makes no difference to the ends. -/
theorem Bare.around {p : Char → Bool} {cs ds : List Char} (hcs : Bare p cs) (hds : Bare p ds) (hne : cs ≠ [])
    (hne' : ds ≠ []) (middle : List Char) : Bare p (cs ++ (middle ++ ds)) := by
  constructor
  · rw [List.head?_append_of_ne_nil _ hne]
    exact hcs.head
  · rw [← List.append_assoc, List.getLast?_append_of_ne_nil _ hne']
    exact hds.last

/-! ## Tokens -/

section Tokens

variable {token rest : List Char}

theorem Token.head (h : Token token) : ∀ c ∈ (token ++ rest).head?, isBlank c = false := by
  cases token with
  | nil => exact absurd rfl h.nonempty
  | cons c cs => simpa using h.solid c (by simp)

theorem Token.last (h : Token token) : ∀ c ∈ token.getLast?, isBlank c = false :=
  fun c hc => h.solid c (List.mem_of_getLast? hc)

theorem firstToken_append (h : Token token) (hrest : ∀ c ∈ rest.head?, isBlank c = true) :
    firstToken (token ++ rest) = token := by
  unfold firstToken
  rw [List.takeWhile_append_of_pos (by simpa using h.solid)]
  cases rest with
  | nil => simp
  | cons c cs => simp [hrest c (by simp)]

theorem afterToken_append (h : Token token) (hrest : ∀ c ∈ rest.head?, isBlank c = true) :
    afterToken (token ++ rest) = rest := by
  have happend := firstToken_append_afterToken (token ++ rest)
  rw [firstToken_append h hrest] at happend
  exact List.append_cancel_left happend

end Tokens

end ApiManual.Text
