import ApiManual.Docstring
import ApiManual.Proofs.Text.Lines

/-!
# The lines of docstrings

A docstring is read line by line, so what its tags hold stands on one line: `read_tags_oneLine`.
-/

namespace ApiManual

open Text

/-! ## Tags -/

theorem Tag.ofLine?_oneLine {line : List Char} {tag : Tag} (hline : OneLine line)
    (h : Tag.ofLine? line = some tag) : OneLine tag.content.toList := by
  unfold Tag.ofLine? at h
  split at h
  · rename_i cs
    simp only at h
    split at h
    · simp at h
    · obtain rfl := Option.some.inj h
      have hcs : OneLine cs := hline.of_subset fun c hc => List.mem_cons_of_mem _ hc
      rw [String.toList_ofList]
      exact (hcs.of_subset fun c hc => (List.dropWhile_sublist _).subset hc).trim
  · simp at h

theorem Tag.extend_oneLine {tag : Tag} {line : List Char} (htag : OneLine tag.content.toList)
    (hline : OneLine line) : OneLine (tag.extend line).content.toList := by
  unfold Tag.extend
  rw [String.toList_ofList]
  refine OneLine.trim fun c hc => ?_
  rcases List.mem_append.mp hc with hc | hc
  · exact htag c hc
  · rcases List.mem_cons.mp hc with rfl | hc
    · decide
    · exact hline c hc

/-- What has been read of the tags stands on one line each. -/
def Draft.TagsOneLine (d : Draft) : Prop := ∀ tag ∈ d.tags, OneLine tag.content.toList

theorem Draft.add_oneLine {d : Draft} {line : List Char} (hd : d.TagsOneLine) (hline : OneLine line) :
    (d.add line).TagsOneLine := by
  unfold Draft.add
  split
  · rename_i tag htag
    intro t ht
    rcases List.mem_cons.mp ht with rfl | ht
    · exact Tag.ofLine?_oneLine hline htag
    · exact hd t ht
  · split
    · rename_i tag tags _ htags
      split
      · exact hd
      · intro t ht
        rcases List.mem_cons.mp ht with rfl | ht
        · exact Tag.extend_oneLine (hd tag (by simp [htags])) hline
        · exact hd t (by simp [htags, ht])
    · exact hd
    · exact hd

theorem Draft.foldl_oneLine {d : Draft} {ls : List (List Char)} (hd : d.TagsOneLine)
    (hls : ∀ line ∈ ls, OneLine line) :
    (ls.foldl (fun (d : Draft) l => d.add (trim l)) d).TagsOneLine := by
  induction ls generalizing d with
  | nil => exact hd
  | cons line ls ih =>
    exact ih (Draft.add_oneLine hd (hls line (by simp)).trim) fun l hl => hls l (by simp [hl])

theorem Draft.finish_tags (d : Draft) : d.finish.tags = d.tags.reverse := by
  unfold Draft.finish
  split <;> rfl

theorem Docstring.read_tags_oneLine (text : String) :
    ∀ tag ∈ (Docstring.read text).tags, OneLine tag.content.toList := by
  intro tag htag
  unfold Docstring.read Docstring.ofLines at htag
  rw [Draft.finish_tags, List.mem_reverse] at htag
  exact Draft.foldl_oneLine (d := {}) (by simp [Draft.TagsOneLine]) (lines_oneLine _) tag htag

theorem Docstring.read?_tags_oneLine (text : Option String) :
    ∀ tag ∈ (Docstring.read? text).tags, OneLine tag.content.toList := by
  cases text with
  | none => simp [Docstring.read?]
  | some text => exact Docstring.read_tags_oneLine text

end ApiManual
