/-!
# Ordered entries

`Entries α` holds values under names, in the order in which the names came first. Setting a name that
is present replaces its value and keeps its place.
-/

namespace ApiManual

abbrev Entries (α : Type) := List (String × α)

namespace Entries

variable {α : Type}

def get? (entries : Entries α) (name : String) : Option α := List.lookup name entries

def set : Entries α → String → α → Entries α
  | [], name, value => [(name, value)]
  | (n, v) :: entries, name, value =>
    if n = name then (n, value) :: entries else (n, v) :: set entries name value

def erase (entries : Entries α) (name : String) : Entries α := entries.filter (·.1 != name)

def names (entries : Entries α) : List String := entries.map (·.1)

def has (entries : Entries α) (name : String) : Bool := entries.any (·.1 == name)

/-- Set all of the later entries in order. -/
def merge (entries later : Entries α) : Entries α := later.foldl (fun es e => es.set e.1 e.2) entries

/-- The entries of a list of pairs; of two with one name the last gives the value. -/
def ofPairs (pairs : List (String × α)) : Entries α := merge [] pairs

@[simp]
theorem get?_nil (name : String) : get? ([] : Entries α) name = none := rfl

theorem get?_set (entries : Entries α) (name : String) (value : α) (other : String) :
    (entries.set name value).get? other = if other = name then some value else entries.get? other := by
  induction entries with
  | nil => by_cases h : other = name <;> simp [set, get?, List.lookup_cons, h, beq_false_of_ne]
  | cons e es ih =>
    obtain ⟨n, v⟩ := e
    by_cases hn : n = name <;> by_cases ho : other = n <;> grind [set, get?]

theorem exists_of_get? {entries : Entries α} {name : String} {value : α} (h : entries.get? name = some value) :
    ∃ e ∈ entries, e.2 = value := by
  obtain ⟨before, after, rfl, -⟩ := List.lookup_eq_some_iff.mp h
  exact ⟨(name, value), by simp, rfl⟩

/-- What holds of all entries and of a new one holds of all entries after the new one has been set. -/
theorem forall_mem_set {P : String × α → Prop} {entries : Entries α} {name : String} {value : α}
    (h : ∀ e ∈ entries, P e) (hvalue : P (name, value)) : ∀ e ∈ entries.set name value, P e := by
  induction entries with
  | nil => simpa [set] using hvalue
  | cons e es ih =>
    obtain ⟨n, v⟩ := e
    obtain ⟨hv, hes⟩ := List.forall_mem_cons.mp h
    unfold set
    split
    · rename_i hname
      exact List.forall_mem_cons.mpr ⟨hname ▸ hvalue, hes⟩
    · exact List.forall_mem_cons.mpr ⟨hv, ih hes⟩

/-- What holds of all values and of a new one holds of all values after the new one has been set. -/
theorem forall_set {P : α → Prop} {entries : Entries α} {value : α} (name : String)
    (h : ∀ e ∈ entries, P e.2) (hvalue : P value) : ∀ e ∈ entries.set name value, P e.2 :=
  forall_mem_set (P := fun e => P e.2) h hvalue

/-! ## Values that are mapped -/

variable {β : Type} (f : α → β)

theorem get?_map (entries : Entries α) (name : String) :
    get? (entries.map fun e => (e.1, f e.2)) name = (entries.get? name).map f := by
  induction entries with
  | nil => rfl
  | cons e es ih =>
    obtain ⟨n, v⟩ := e
    simp only [get?, List.map_cons, List.lookup_cons] at ih ⊢
    cases name == n
    · exact ih
    · rfl

theorem map_set (entries : Entries α) (name : String) (value : α) :
    (entries.set name value).map (fun e => (e.1, f e.2)) =
      set (entries.map fun e => (e.1, f e.2)) name (f value) := by
  induction entries with
  | nil => rfl
  | cons e es ih =>
    obtain ⟨n, v⟩ := e
    by_cases h : n = name <;> simp [set, h, ih]

end Entries

end ApiManual
