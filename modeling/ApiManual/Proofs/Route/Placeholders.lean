import ApiManual.Proofs.Entries
import ApiManual.Proofs.Text.Search
import ApiManual.Route.Response

/-!
# The placeholders of a URI

Bindings are put for the placeholders of a URI one after the other, each wherever its placeholder stands, and
parameters in a pass of their own. As bindings hold no brackets, all of this is one substitution in which every
placeholder is filled on its own (`bindUri_parts`), whatever the order of the bindings is.

* `UriPart`: text, or a placeholder by what stands between its brackets; `UriPart.filled` says what is put for it.
* `parameterName?_eq_some_iff`: the placeholders that name a parameter.
* `replaceAll_parts`, `foldl_parts`: one binding, and all of them.
* `fillFrom_parts`: the pass over what is not bound.
-/

namespace ApiManual

open Text

/-- A text without curly brackets. -/
def Braceless (cs : List Char) : Prop := '\x7b' ∉ cs ∧ '\x7d' ∉ cs

instance (cs : List Char) : Decidable (Braceless cs) := inferInstanceAs (Decidable (_ ∧ _))

/-- The placeholder of what stands between its brackets. -/
def placeholderChars (inner : List Char) : List Char := '\x7b' :: (inner ++ ['\x7d'])

inductive UriPart where
  | text (cs : List Char)
  | placeholder (inner : List Char)
  deriving DecidableEq, Repr

namespace UriPart

def chars : UriPart → List Char
  | text cs => cs
  | placeholder inner => placeholderChars inner

/-- Only the brackets of the placeholder itself stand in the part. -/
def Plain : UriPart → Prop
  | text cs => Braceless cs
  | placeholder inner => Braceless inner

instance (part : UriPart) : Decidable part.Plain := by
  cases part <;> exact inferInstanceAs (Decidable (Braceless _))

end UriPart

/-- A binding of a placeholder to a text without brackets. -/
structure Binds (binding : String × String) : Prop where
  key : ∃ inner, Braceless inner ∧ binding.1 = String.ofList (placeholderChars inner)
  value : Braceless binding.2.toList

/-- The parameter that a placeholder names: word characters, then perhaps a question mark. -/
def parameterName? (inner : List Char) : Option (List Char) :=
  let name := inner.takeWhile isWordChar
  if name.isEmpty then none
  else match inner.dropWhile isWordChar with
    | [] | ['?'] => some name
    | _ => none

namespace UriPart

/-- What stands in place of the part: the text that is bound to exactly this placeholder, or else the value of the
parameter that it names, or else the part itself. -/
def filled (bindings : Entries String) (path : Entries Param) : UriPart → List Char
  | text cs => cs
  | placeholder inner => match bindings.get? (String.ofList (placeholderChars inner)) with
    | some value => value.toList
    | none => match (parameterName? inner).bind fun name => path.get? (String.ofList name) with
      | some p => p.value.plain.toList
      | none => placeholderChars inner

end UriPart

/-! ## Names -/

theorem parameterName?_eq_some_iff {inner name : List Char} : parameterName? inner = some name ↔
    name ≠ [] ∧ (∀ c ∈ name, isWordChar c = true) ∧ (inner = name ∨ inner = name ++ ['?']) := by
  have hparts : inner.takeWhile isWordChar ++ inner.dropWhile isWordChar = inner := List.takeWhile_append_dropWhile
  constructor
  · intro h
    simp only [parameterName?] at h
    split at h
    · cases h
    · rename_i hne
      split at h
      · rename_i hrest
        obtain rfl := Option.some.inj h
        rw [hrest, List.append_nil] at hparts
        exact ⟨by simpa using hne, fun c => List.mem_takeWhile_imp, .inl hparts.symm⟩
      · rename_i hrest
        obtain rfl := Option.some.inj h
        rw [hrest] at hparts
        exact ⟨by simpa using hne, fun c => List.mem_takeWhile_imp, .inr hparts.symm⟩
      · cases h
  · rintro ⟨hne, hword, rfl | rfl⟩
    · simp [parameterName?, List.takeWhile_eq_self_iff.mpr hword, List.dropWhile_eq_nil_iff.mpr hword, hne]
    · have hmark : isWordChar '?' = false := by decide +kernel
      simp [parameterName?, List.takeWhile_append_of_pos hword, List.dropWhile_append_of_pos hword, hmark, hne]

/-- The name of a placeholder is read up to its closing bracket. -/
theorem placeholderName?_inner {inner : List Char} (h : Braceless inner) (rest : List Char) :
    placeholderName? (inner ++ '\x7d' :: rest) = (parameterName? inner).map fun name => (name, inner.length + 1) := by
  have hbracket : isWordChar '\x7d' = false := by decide +kernel
  have hstop : ∀ c ∈ ('\x7d' :: rest).head?, isWordChar c = false := by simpa using hbracket
  have hlength := congrArg List.length (List.takeWhile_append_dropWhile (p := isWordChar) (l := inner))
  have hclosed : '\x7d' ∉ inner.dropWhile isWordChar := fun hmem => h.2 ((List.dropWhile_sublist _).subset hmem)
  simp only [placeholderName?, parameterName?, takeWhile_append_of_head hstop, dropWhile_append_of_head hstop]
  split
  · rfl
  · rw [List.length_append] at hlength
    -- What follows the name is the bracket, a question mark and the bracket, or no end of a placeholder.
    rcases hrest : inner.dropWhile isWordChar with _ | ⟨c, _ | ⟨d, more⟩⟩ <;> rw [hrest] at hclosed hlength
    · simp_all
    · by_cases hc : c = '?'
      · simp_all
      · rw [List.singleton_append]
        split <;> simp_all
    · rw [List.cons_append, List.cons_append]
      split <;> simp_all

/-! ## Bindings -/

section Bindings

variable {parts : List UriPart} {bindings : Entries String}

theorem placeholderChars_head (inner : List Char) : (placeholderChars inner).head? = some '\x7b' := rfl

/-- A placeholder begins with no other one. -/
theorem eq_of_prefix_placeholder {inner key rest : List Char} (hinner : Braceless inner) (hkey : Braceless key)
    (h : placeholderChars key <+: placeholderChars inner ++ rest) : key = inner := by
  have hstop : ∀ cs : List Char, Braceless cs → ∀ ds : List Char,
      (cs ++ '\x7d' :: ds).takeWhile (· ≠ '\x7d') = cs := by
    intro cs hcs ds
    rw [takeWhile_append_of_head (by simp), List.takeWhile_eq_self_iff]
    intro c hc
    simpa using fun heq : c = '\x7d' => hcs.2 (heq ▸ hc)
  obtain ⟨tail, htail⟩ := h
  have hinside : key ++ '\x7d' :: tail = inner ++ '\x7d' :: rest := by simpa [placeholderChars] using htail
  rw [← hstop key hkey tail, hinside, hstop inner hinner rest]

/-- The parts with the placeholders that are bound as text. -/
def UriPart.bound (bindings : Entries String) : UriPart → UriPart
  | text cs => text cs
  | placeholder inner => match bindings.get? (String.ofList (placeholderChars inner)) with
    | some value => text value.toList
    | none => placeholder inner

theorem UriPart.Plain.bound {part : UriPart} (h : part.Plain) (hbinds : ∀ b ∈ bindings, Binds b) :
    (part.bound bindings).Plain := by
  cases part with
  | text cs => exact h
  | placeholder inner =>
    unfold UriPart.bound
    simp only
    split
    · rename_i value hget
      obtain ⟨b, hb, rfl⟩ := Entries.exists_of_get? hget
      exact (hbinds b hb).value
    · exact h

/-- One binding is put wherever its placeholder stands, and nowhere else. -/
theorem replaceAll_parts {b : String × String} (hb : Binds b) (hparts : ∀ part ∈ parts, part.Plain) :
    replaceAll b.1.toList b.2.toList (parts.flatMap UriPart.chars) =
      (parts.map (UriPart.bound [b])).flatMap UriPart.chars := by
  obtain ⟨key, value⟩ := b
  obtain ⟨inner, hinner, rfl⟩ := hb.key
  rw [replaceAll, if_neg (by simp [placeholderChars]), String.toList_ofList]
  induction parts with
  | nil => rfl
  | cons part parts ih =>
    obtain ⟨hpart, hparts⟩ := List.forall_mem_cons.mp hparts
    rw [List.flatMap_cons, List.map_cons, List.flatMap_cons, ← ih hparts]
    cases part with
    | text cs => exact replaceFrom_append (clear_of_head hpart.1 (placeholderChars_head inner) _) _
    | placeholder other =>
      by_cases heq : other = inner
      · subst heq
        have hbound : UriPart.bound [(String.ofList (placeholderChars other), value)] (.placeholder other) =
            .text value.toList := by
          simp [UriPart.bound, Entries.get?]
        rw [hbound]
        exact replaceFrom_self (List.cons_ne_nil _ _) _ _
      · have hbound : UriPart.bound [(String.ofList (placeholderChars inner), value)] (.placeholder other) =
            .placeholder other := by
          have hne : String.ofList (placeholderChars other) ≠ String.ofList (placeholderChars inner) := fun hkeys =>
            heq (by simpa [placeholderChars] using String.ofList_injective hkeys)
          simp [UriPart.bound, Entries.get?, List.lookup_cons, beq_false_of_ne hne]
        rw [hbound]
        refine replaceFrom_append (clear_cons.mpr ⟨fun hfront => ?_, ?_⟩) _
        · exact heq (eq_of_prefix_placeholder hpart hinner hfront).symm
        · refine clear_of_head ?_ (placeholderChars_head inner) _
          simpa using hpart.1

/-- All bindings are put, of two for one placeholder the first. -/
theorem foldl_parts (hbinds : ∀ b ∈ bindings, Binds b) (hparts : ∀ part ∈ parts, part.Plain) :
    bindings.foldl (fun cs b => replaceAll b.1.toList b.2.toList cs) (parts.flatMap UriPart.chars) =
      (parts.map (UriPart.bound bindings)).flatMap UriPart.chars := by
  induction bindings generalizing parts with
  | nil =>
    have hnone : UriPart.bound [] = id := by
      funext part
      cases part <;> rfl
    rw [hnone, List.map_id]
    rfl
  | cons b bindings ih =>
    obtain ⟨hb, hrest⟩ := List.forall_mem_cons.mp hbinds
    have hfirst : ∀ part ∈ parts.map (UriPart.bound [b]), part.Plain := by
      intro part hpart
      obtain ⟨part, hmem, rfl⟩ := List.mem_map.mp hpart
      exact (hparts part hmem).bound (by simpa using hb)
    have hboth : UriPart.bound bindings ∘ UriPart.bound [b] = UriPart.bound (b :: bindings) := by
      funext part
      cases part with
      | text cs => rfl
      | placeholder inner =>
        obtain ⟨key, value⟩ := b
        by_cases hkey : String.ofList (placeholderChars inner) = key
        · simp [UriPart.bound, Entries.get?, hkey]
        · simp [UriPart.bound, Entries.get?, List.lookup_cons, beq_false_of_ne hkey]
    rw [List.foldl_cons, replaceAll_parts hb hparts, ih hrest hfirst, List.map_map, hboth]

end Bindings

/-! ## Parameters -/

section Parameters

variable {path : Entries Param} {parts : List UriPart}

theorem fillFrom_skip (path : Entries Param) (xs rest : List Char) :
    fillFrom path xs.length (xs ++ rest) = fillFrom path 0 rest := by
  induction xs with
  | nil => rfl
  | cons x xs ih => exact ih

theorem fillFrom_text {cs : List Char} (h : '\x7b' ∉ cs) (path : Entries Param) (rest : List Char) :
    fillFrom path 0 (cs ++ rest) = cs ++ fillFrom path 0 rest := by
  induction cs with
  | nil => rfl
  | cons c cs ih =>
    obtain ⟨hc, hcs⟩ := not_or.mp (List.mem_cons.not.mp h)
    rw [List.cons_append, fillFrom, if_neg (Ne.symm hc), ih hcs, List.cons_append]

theorem fillFrom_placeholder {inner : List Char} (h : Braceless inner) (path : Entries Param) (rest : List Char) :
    fillFrom path 0 (placeholderChars inner ++ rest) =
      (UriPart.placeholder inner).filled [] path ++ fillFrom path 0 rest := by
  have hread := placeholderName?_inner h rest
  have hinner : placeholderChars inner ++ rest = '\x7b' :: (inner ++ '\x7d' :: rest) := by simp [placeholderChars]
  rw [hinner, fillFrom, if_pos rfl, hread]
  simp only [UriPart.filled, Entries.get?_nil]
  cases parameterName? inner with
  | none =>
    have hopen : '\x7b' ∉ inner ++ ['\x7d'] := by simpa using h.1
    have hpass := fillFrom_text hopen path rest
    rw [List.append_assoc, List.singleton_append] at hpass
    simp [placeholderChars, hpass]
  | some name =>
    have hskip := fillFrom_skip path (inner ++ ['\x7d']) rest
    rw [List.length_append, List.length_singleton, List.append_assoc, List.singleton_append] at hskip
    have htake : (inner ++ '\x7d' :: rest).take (inner.length + 1) = inner ++ ['\x7d'] := by
      rw [← List.singleton_append, ← List.append_assoc]
      exact List.take_left' (by simp)
    simp only [Option.map_some, Option.bind_some, hskip, htake]
    rfl

/-- The pass over the parts puts for each placeholder the value of the parameter that it names. -/
theorem fillFrom_parts (hparts : ∀ part ∈ parts, part.Plain) :
    fillFrom path 0 (parts.flatMap UriPart.chars) = parts.flatMap (UriPart.filled [] path) := by
  induction parts with
  | nil => rfl
  | cons part parts ih =>
    obtain ⟨hpart, hparts⟩ := List.forall_mem_cons.mp hparts
    rw [List.flatMap_cons, List.flatMap_cons, ← ih hparts]
    cases part with
    | text cs => exact fillFrom_text hpart.1 path _
    | placeholder inner => exact fillFrom_placeholder hpart path _

end Parameters

/-! ## Both -/

theorem UriPart.filled_bound (bindings : Entries String) (path : Entries Param) (part : UriPart) :
    (part.bound bindings).filled [] path = part.filled bindings path := by
  cases part with
  | text cs => rfl
  | placeholder inner =>
    unfold UriPart.bound
    simp only [UriPart.filled]
    cases bindings.get? (String.ofList (placeholderChars inner)) <;> rfl

/-- A URI is filled in one go: what is put for each of its parts depends on this part, the bindings and the
parameters alone, and the bindings may stand in any order. -/
theorem bindUri_parts {parts : List UriPart} {bindings order : Entries String} (hparts : ∀ part ∈ parts, part.Plain)
    (hbinds : ∀ b ∈ bindings, Binds b) (hdistinct : bindings.names.Nodup) (horder : order.Perm bindings)
    (path : Entries Param) :
    bindUri (String.ofList (parts.flatMap UriPart.chars)) order path =
      String.ofList (parts.flatMap (UriPart.filled bindings path)) := by
  have hsame : UriPart.filled order path = UriPart.filled bindings path := by
    funext part
    cases part with
    | text cs => rfl
    | placeholder inner => simp only [UriPart.filled, Entries.get?_of_perm hdistinct horder]
  have hplain : ∀ part ∈ parts.map (UriPart.bound order), part.Plain := by
    intro part hpart
    obtain ⟨part, hmem, rfl⟩ := List.mem_map.mp hpart
    exact (hparts part hmem).bound fun b hb => hbinds b (horder.mem_iff.mp hb)
  have hbound := foldl_parts (fun b hb => hbinds b (horder.mem_iff.mp hb)) hparts
  have hfilled : (parts.map (UriPart.bound order)).flatMap (UriPart.filled [] path) =
      parts.flatMap (UriPart.filled order path) := by
    rw [List.flatMap_map]
    exact List.flatMap_congr fun part _ => part.filled_bound order path
  simp only [bindUri, String.toList_ofList]
  rw [hbound, fillFrom_parts hplain, hfilled, hsame]

/-! ## A value with brackets of its own -/

namespace ShopOrders

def parts : List UriPart := [.text "shops/".toList, .placeholder "shop".toList, .text "/orders/".toList,
  .placeholder "id?".toList, .text "/".toList, .placeholder "a b".toList, .placeholder []]

def bindings : Entries String := [("\x7bshop\x7d", "eu"), ("\x7b\x7d", "all")]

def path : Entries Param :=
  [("shop", { type := .integer, value := .int 3 }), ("id", { value := .str "\x7bshop\x7d" })]

theorem binds_bindings : ∀ b ∈ bindings, Binds b := by
  refine List.forall_mem_cons.mpr ⟨⟨⟨"shop".toList, by decide, rfl⟩, by decide⟩, ?_⟩
  exact List.forall_mem_singleton.mpr ⟨⟨[], by decide, rfl⟩, by decide⟩

theorem bindUri_shopOrders :
    (∀ part ∈ parts, part.Plain) ∧ (∀ b ∈ bindings, Binds b) ∧ bindings.names.Nodup ∧
      bindings.reverse.Perm bindings ∧
      bindUri "shops/\x7bshop\x7d/orders/\x7bid?\x7d/\x7ba b\x7d\x7b\x7d" bindings.reverse path =
        "shops/eu/orders/\x7bshop\x7d/\x7ba b\x7dall" := by
  have hparts : ∀ part ∈ parts, part.Plain := by decide
  have hdistinct : bindings.names.Nodup := by decide
  have horder : bindings.reverse.Perm bindings := List.reverse_perm bindings
  exact ⟨hparts, binds_bindings, hdistinct, horder, bindUri_parts hparts binds_bindings hdistinct horder path⟩

end ShopOrders

end ApiManual
