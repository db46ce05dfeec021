import ApiManual.Entries
import Mathlib.Data.List.Basic
import Mathlib.Data.List.Induction

/-!
# Names and values of ordered entries

What setting a name does to the names (`names_set`) and to what the values hold (`perm_flatMap_set`), and
what is left of it when the name is left out (`erase_set`).
Entries that are set one after the other keep the order in which their names come first
(`inFirstOrder_ofPairs`).
-/

namespace ApiManual

/-- The names of a list without repetition, each at the place where it comes first. -/
structure InFirstOrder (keys names : List String) : Prop where
  order : names.Pairwise fun name name' => keys.idxOf name < keys.idxOf name'
  mem_iff : ∀ name, name ∈ names ↔ name ∈ keys

theorem InFirstOrder.nodup {keys names : List String} (h : InFirstOrder keys names) : names.Nodup :=
  h.order.imp fun hlt heq => absurd (heq ▸ hlt) (Nat.lt_irrefl _)

/-- The last pair of its name. -/
def LastOfName {α : Type} (pairs : List (String × α)) (name : String) (value : α) : Prop :=
  ∃ before after, pairs = before ++ (name, value) :: after ∧ ∀ later ∈ after, later.1 ≠ name

namespace Entries

variable {α β : Type} {entries : Entries α} {name : String}

theorem names_append (first second : Entries α) :
    names (first ++ second) = first.names ++ second.names := List.map_append

theorem set_of_fresh (h : name ∉ entries.names) (value : α) :
    entries.set name value = entries ++ [(name, value)] := by
  induction entries with
  | nil => rfl
  | cons entry entries ih =>
    obtain ⟨n, v⟩ := entry
    simp only [names, List.map_cons, List.mem_cons, not_or] at h
    simp [set, Ne.symm h.1, ih h.2]

theorem names_set_of_mem (h : name ∈ entries.names) (value : α) :
    (entries.set name value).names = entries.names := by
  induction entries with
  | nil => simp [names] at h
  | cons entry entries ih =>
    obtain ⟨n, v⟩ := entry
    by_cases hn : n = name
    · simp [set, names, hn]
    · have hrest : name ∈ names entries := by
        simpa [names, Ne.symm hn] using h
      simpa [set, names, hn] using ih hrest

theorem names_set (entries : Entries α) (name : String) (value : α) :
    (entries.set name value).names = if name ∈ entries.names then entries.names else entries.names ++ [name] := by
  by_cases h : name ∈ entries.names
  · rw [if_pos h, names_set_of_mem h]
  · rw [if_neg h, set_of_fresh h, names_append]
    rfl

theorem set_ne_nil (entries : Entries α) (name : String) (value : α) : entries.set name value ≠ [] := by
  cases entries with
  | nil => simp [set]
  | cons entry entries =>
    unfold set
    split <;> exact List.cons_ne_nil _ _

theorem nodup_names_set (h : entries.names.Nodup) (name : String) (value : α) :
    (entries.set name value).names.Nodup := by
  rw [names_set]
  split
  · exact h
  · rename_i hfresh
    refine List.nodup_append.mpr ⟨h, by simp, fun n hn n' hn' => ?_⟩
    obtain rfl := List.mem_singleton.mp hn'
    exact fun heq => hfresh (heq ▸ hn)

theorem set_set (entries : Entries α) (name : String) (value value' : α) :
    (entries.set name value).set name value' = entries.set name value' := by
  induction entries with
  | nil => simp [set]
  | cons entry entries ih =>
    obtain ⟨n, v⟩ := entry
    by_cases hn : n = name
    · simp [set, hn]
    · simp [set, hn, ih]

/-! ## Looking names up -/

/-- An entry is found under its name where names are different. -/
theorem get?_of_mem {value : α} (hdistinct : entries.names.Nodup) (h : (name, value) ∈ entries) :
    entries.get? name = some value := by
  induction entries with
  | nil => simp at h
  | cons entry entries ih =>
    obtain ⟨n, v⟩ := entry
    obtain ⟨hfresh, hrest⟩ := List.nodup_cons.mp hdistinct
    rcases List.mem_cons.mp h with heq | hmem
    · obtain ⟨rfl, rfl⟩ := Prod.mk.inj heq
      simp [get?]
    · have hne : name ≠ n := fun heq => hfresh (List.mem_map.mpr ⟨(name, value), hmem, heq⟩)
      have hget : get? ((n, v) :: entries) name = get? entries name := by
        simp [get?, List.lookup_cons, beq_false_of_ne hne]
      rw [hget]
      exact ih hrest hmem

theorem get?_of_fresh (h : name ∉ entries.names) : entries.get? name = none := by
  rw [get?, List.lookup_eq_none_iff]
  intro entry hentry
  have hne : name ≠ entry.1 := fun heq => h (heq ▸ List.mem_map_of_mem hentry)
  simpa using hne

/-- The order of entries with different names makes no difference to what is found. -/
theorem get?_of_perm {order : Entries α} (hdistinct : entries.names.Nodup) (h : order.Perm entries) (name : String) :
    order.get? name = entries.get? name := by
  have hnames : order.names.Perm entries.names := h.map Prod.fst
  by_cases hname : name ∈ entries.names
  · obtain ⟨⟨name, value⟩, hmem, rfl⟩ := List.mem_map.mp hname
    rw [get?_of_mem hdistinct hmem, get?_of_mem (hnames.nodup_iff.mpr hdistinct) (h.mem_iff.mpr hmem)]
  · rw [get?_of_fresh hname, get?_of_fresh (hnames.mem_iff.not.mpr hname)]

theorem map_merge (f : α → β) (entries later : Entries α) :
    (entries.merge later).map (fun e => (e.1, f e.2)) =
      merge (entries.map fun e => (e.1, f e.2)) (later.map fun e => (e.1, f e.2)) := by
  induction later generalizing entries with
  | nil => rfl
  | cons entry later ih =>
    have hset := map_set f entries entry.1 entry.2
    unfold merge at ih ⊢
    rw [List.foldl_cons, ih, hset]
    rfl

/-- Of entries and later ones with different names, a later one is found first. -/
theorem get?_merge {later : Entries α} (hdistinct : later.names.Nodup) (entries : Entries α) (name : String) :
    (entries.merge later).get? name = (later.get? name).or (entries.get? name) := by
  induction later generalizing entries with
  | nil => rfl
  | cons entry later ih =>
    obtain ⟨n, v⟩ := entry
    obtain ⟨hfresh, hrest⟩ := List.nodup_cons.mp hdistinct
    have hstep := ih hrest (entries.set n v)
    rw [get?_set] at hstep
    refine hstep.trans ?_
    by_cases hn : name = n
    · subst hn
      have hnone : get? later name = none := get?_of_fresh hfresh
      have hfirst : get? ((name, v) :: later) name = some v := by
        simp [get?]
      rw [hnone, hfirst, if_pos rfl]
      rfl
    · have hskip : get? ((n, v) :: later) name = get? later name := by
        simp [get?, List.lookup_cons, beq_false_of_ne hn]
      rw [hskip, if_neg hn]

/-- What is found among entries with different names is found among those that are kept, if it is kept. -/
theorem get?_filter (hdistinct : entries.names.Nodup) (p : String × α → Bool) (name : String) :
    get? (entries.filter p) name = (entries.get? name).filter fun value => p (name, value) := by
  induction entries with
  | nil => rfl
  | cons entry entries ih =>
    obtain ⟨n, v⟩ := entry
    obtain ⟨hfresh, hrest⟩ := List.nodup_cons.mp hdistinct
    have hkept : n ∉ names (entries.filter p) := fun h => hfresh (List.filter_sublist.map _ |>.subset h)
    by_cases hn : name = n
    · subst hn
      cases hp : p (name, v) with
      | true => simp [get?, hp, Option.filter]
      | false =>
        rw [List.filter_cons_of_neg (by simp [hp]), get?_of_fresh hkept]
        simp [get?, hp, Option.filter]
    · have hskip : get? ((n, v) :: entries) name = get? entries name := by
        simp [get?, List.lookup_cons, beq_false_of_ne hn]
      rw [hskip, ← ih hrest, List.filter_cons]
      split
      · simp [get?, List.lookup_cons, beq_false_of_ne hn]
      · rfl

/-! ## Leaving a name out -/

theorem erase_set (entries : Entries α) (name : String) (value : α) :
    (entries.set name value).erase name = entries.erase name := by
  induction entries with
  | nil => simp [set, erase]
  | cons entry entries ih =>
    obtain ⟨n, v⟩ := entry
    unfold set
    split
    · rename_i hn
      simp [erase, hn]
    · simp only [erase, List.filter_cons] at ih ⊢
      rw [ih]

theorem get?_erase (entries : Entries α) {name other : String} (h : other ≠ name) :
    (entries.erase name).get? other = entries.get? other := by
  induction entries with
  | nil => rfl
  | cons entry entries ih =>
    obtain ⟨n, v⟩ := entry
    simp only [erase, get?, List.filter_cons] at ih ⊢
    grind

/-! ## Values -/

/-- Setting a name adds to what all values hold what the new value holds beyond the one it replaces. -/
theorem perm_flatMap_set {f : String × α → List β} {value : α} {new : β}
    (hnone : entries.get? name = none → (f (name, value)).Perm [new])
    (hsome : ∀ old, entries.get? name = some old → (f (name, value)).Perm (new :: f (name, old))) :
    ((entries.set name value).flatMap f).Perm (new :: entries.flatMap f) := by
  induction entries with
  | nil => simpa [set] using hnone rfl
  | cons entry entries ih =>
    obtain ⟨n, v⟩ := entry
    by_cases hn : n = name
    · subst hn
      have hf := hsome v (by simp [get?])
      rw [set, if_pos rfl, List.flatMap_cons, List.flatMap_cons]
      exact hf.append_right _
    · have hget : get? ((n, v) :: entries) name = get? entries name := by
        simp [get?, List.lookup_cons, beq_false_of_ne (Ne.symm hn)]
      rw [hget] at hnone hsome
      rw [set, if_neg hn, List.flatMap_cons, List.flatMap_cons]
      exact ((ih hnone hsome).append_left _).trans List.perm_middle

/-- What holds of the values of all pairs holds of the values of their entries. -/
theorem forall_ofPairs {P : α → Prop} {pairs : List (String × α)} (h : ∀ pair ∈ pairs, P pair.2) :
    ∀ entry ∈ ofPairs pairs, P entry.2 := by
  unfold ofPairs merge
  refine List.foldlRecOn pairs _ (motive := fun entries : Entries α => ∀ entry ∈ entries, P entry.2) (by simp) ?_
  intro entries hentries pair hpair
  exact forall_set pair.1 hentries (h pair hpair)

/-! ## The order of names -/

/-- A name that is set after others stands behind them if it is new. -/
theorem inFirstOrder_set {keys : List String} (h : InFirstOrder keys entries.names) (name : String) (value : α) :
    InFirstOrder (keys ++ [name]) (entries.set name value).names := by
  have hkeep : ∀ n ∈ keys, (keys ++ [name]).idxOf n = keys.idxOf n := fun n hn => List.idxOf_append_of_mem hn
  have horder : entries.names.Pairwise fun n n' => (keys ++ [name]).idxOf n < (keys ++ [name]).idxOf n' := by
    refine h.order.imp_of_mem fun hn hn' hlt => ?_
    rwa [hkeep _ ((h.mem_iff _).mp hn), hkeep _ ((h.mem_iff _).mp hn')]
  rw [names_set]
  by_cases hname : name ∈ entries.names
  · have hkey := (h.mem_iff name).mp hname
    rw [if_pos hname]
    refine ⟨horder, fun n => ?_⟩
    rw [h.mem_iff, List.mem_append, List.mem_singleton]
    exact ⟨.inl, fun hn => hn.elim id (fun heq => heq ▸ hkey)⟩
  · have hkey : name ∉ keys := fun hkey => hname ((h.mem_iff name).mpr hkey)
    rw [if_neg hname]
    refine ⟨?_, fun n => by rw [List.mem_append, List.mem_append, h.mem_iff]⟩
    refine List.pairwise_append.mpr ⟨horder, List.pairwise_singleton _ _, ?_⟩
    intro n hn n' hn'
    obtain rfl := List.mem_singleton.mp hn'
    have hlast : (keys ++ [n']).idxOf n' = keys.length := by
      rw [List.idxOf_append_of_notMem hkey, List.idxOf_cons_self, Nat.add_zero]
    rw [hkeep n ((h.mem_iff n).mp hn), hlast]
    exact List.idxOf_lt_length_iff.mpr ((h.mem_iff n).mp hn)

theorem inFirstOrder_merge {keys : List String} (h : InFirstOrder keys entries.names)
    (later : Entries α) : InFirstOrder (keys ++ later.names) (merge entries later).names := by
  induction later generalizing entries keys with
  | nil => simpa [merge, names] using h
  | cons entry later ih =>
    have hnext := ih (inFirstOrder_set h entry.1 entry.2)
    rw [List.append_assoc] at hnext
    exact hnext

/-- The names of entries that are set one after the other stand in the order in which they come first. -/
theorem inFirstOrder_ofPairs (pairs : List (String × α)) :
    InFirstOrder (pairs.map (·.1)) (ofPairs pairs).names := by
  have hnone : InFirstOrder [] (names ([] : Entries α)) := ⟨.nil, fun _ => Iff.rfl⟩
  exact inFirstOrder_merge hnone pairs

/-! ## Pairs that are set one after the other -/

theorem ofPairs_concat (pairs : List (String × α)) (pair : String × α) :
    ofPairs (pairs ++ [pair]) = (ofPairs pairs).set pair.1 pair.2 := by
  unfold ofPairs merge
  rw [List.foldl_append]
  rfl

theorem lastOfName_concat {pairs : List (String × α)} {pair : String × α} {value : α} :
    LastOfName (pairs ++ [pair]) name value ↔
      if name = pair.1 then pair.2 = value else LastOfName pairs name value := by
  obtain ⟨n, v⟩ := pair
  constructor
  · rintro ⟨before, after, heq, hafter⟩
    obtain rfl | ⟨after, last, rfl⟩ := List.eq_nil_or_concat after
    · obtain ⟨-, hpair⟩ := List.append_inj' heq rfl
      obtain ⟨rfl, rfl⟩ := Prod.mk.inj (List.singleton_inj.mp hpair)
      rw [if_pos rfl]
    · rw [List.concat_eq_append, ← List.cons_append, ← List.append_assoc] at heq
      obtain ⟨rfl, hpair⟩ := List.append_inj' heq rfl
      obtain rfl := List.singleton_inj.mp hpair
      simp only [List.concat_eq_append, List.forall_mem_append] at hafter
      rw [if_neg (hafter.2 _ List.mem_cons_self).symm]
      exact ⟨before, after, rfl, hafter.1⟩
  · intro h
    split at h
    · rename_i hname
      subst hname h
      exact ⟨pairs, [], rfl, by simp⟩
    · rename_i hname
      obtain ⟨before, after, rfl, hafter⟩ := h
      refine ⟨before, after ++ [(n, v)], by simp, ?_⟩
      rw [List.forall_mem_append]
      exact ⟨hafter, by simpa using Ne.symm hname⟩

/-- Of the pairs of one name the last gives the value. -/
theorem get?_ofPairs_eq_some_iff {pairs : List (String × α)} {value : α} :
    (ofPairs pairs).get? name = some value ↔ LastOfName pairs name value := by
  induction pairs using List.reverseRecOn with
  | nil => simp [ofPairs, merge, LastOfName]
  | append_singleton pairs pair ih =>
    rw [ofPairs_concat, get?_set, lastOfName_concat]
    split
    · exact Option.some_inj
    · exact ih

/-- A name that any pair has is the name of a last one. -/
theorem exists_lastOfName {pairs : List (String × α)} (h : name ∈ pairs.map (·.1)) :
    ∃ value, LastOfName pairs name value := by
  induction pairs using List.reverseRecOn with
  | nil => simp at h
  | append_singleton pairs pair ih =>
    simp only [lastOfName_concat]
    split
    · exact ⟨pair.2, rfl⟩
    · rename_i hname
      rw [List.map_append, List.mem_append, List.map_singleton, List.mem_singleton] at h
      exact ih (h.resolve_right hname)

end Entries

end ApiManual
