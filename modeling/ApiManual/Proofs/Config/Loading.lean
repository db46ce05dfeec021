import ApiManual.Config.Load
import ApiManual.Proofs.Entries
import ApiManual.Proofs.Results

/-!
# How loading a configuration ends

Loading ends in one of four ways (`Config.load_ends`):

* with the configuration that the settings of both files make, where a setting of the second file counts
  before one of the first,
* with an error that is reported: a file cannot be read, is no YAML or no mapping, or a setting is wrong,
* without a word, because a key at the top of one of the files is no text (`NullKey.load_unreported`),
* without a word, because a file holds a scalar that has the form of its kind and no value.

The settings of both files are put together by name: `named_overlay` says so of the tables, and
`ChecksAs.unique` that what is found under the names settles how the check ends.
-/

namespace ApiManual

namespace Setting

/-! ## Keys that are texts -/

theorem sameKey_str (key : Setting) (name : String) : key.sameKey (str name) = true ↔ key = str name := by
  cases key <;> simp [sameKey, wholeNumber?, number?]
  case float x => cases x.toInt? <;> simp

theorem isText_of_sameKey {key other : Setting} (h : key.sameKey other = true) : isText key = isText other := by
  cases hother : isText other
  · cases key with
    | str s =>
      -- A text is no number, so it stands for another key only if that is a text too.
      cases other <;> simp [sameKey, wholeNumber?, number?, isText] at h hother
      case float x => cases hx : x.toInt? <;> simp [hx] at h
    | _ => rfl
  · cases other with
    | str name =>
      rw [(sameKey_str key name).mp h]
      rfl
    | _ => cases hother

theorem named_setKey_str (name : String) (value : Setting) (entries : List (Setting × Setting)) :
    named (setKey (str name) value entries) = (named entries).set name value := by
  induction entries with
  | nil => rfl
  | cons entry entries ih =>
    obtain ⟨key, old⟩ := entry
    unfold setKey
    split
    · rename_i hkey
      obtain rfl := (sameKey_str key name).mp hkey
      simp [named, Entries.set]
    · rename_i hkey
      rw [sameKey_str] at hkey
      cases key with
      | str s =>
        have hne : s ≠ name := fun heq => hkey (heq ▸ rfl)
        simp [named, Entries.set, hne, ih]
      | _ => simpa [named] using ih

theorem named_setKey_other {key : Setting} (h : isText key = false) (value : Setting)
    (entries : List (Setting × Setting)) : named (setKey key value entries) = named entries := by
  have hplain {other : Setting} (hother : isText other = false) (v : Setting) (es : List (Setting × Setting)) :
      named ((other, v) :: es) = named es := by
    cases other <;> first | rfl | cases hother
  induction entries with
  | nil => exact hplain h value []
  | cons entry entries ih =>
    obtain ⟨other, old⟩ := entry
    unfold setKey
    split
    · rename_i hkey
      have hother : isText other = false := (isText_of_sameKey hkey).trans h
      rw [hplain hother, hplain hother]
    · cases other with
      | str s => simp [named, ih]
      | _ => simpa [named] using ih

theorem all_setKey (key value : Setting) (entries : List (Setting × Setting)) :
    (setKey key value entries).all (isText ·.1) = (entries.all (isText ·.1) && isText key) := by
  induction entries with
  | nil => simp [setKey]
  | cons entry entries ih =>
    obtain ⟨other, old⟩ := entry
    unfold setKey
    split
    · rename_i hkey
      simp only [List.all_cons, isText_of_sameKey hkey]
      cases isText key <;> simp
    · simp [ih, Bool.and_assoc]

theorem nodup_names_setKey {entries : List (Setting × Setting)} (h : (named entries).names.Nodup)
    (key value : Setting) : (named (setKey key value entries)).names.Nodup := by
  cases hkey : isText key
  · rw [named_setKey_other hkey]
    exact h
  · cases key with
    | str name =>
      rw [named_setKey_str]
      exact Entries.nodup_names_set h name value
    | _ => cases hkey

/-! ## Two tables in one -/

/-- Of two tables in one, the entries under names are those of both under names. -/
theorem named_overlay (settings later : List (Setting × Setting)) :
    named (overlay settings later) = Entries.merge (named settings) (named later) := by
  induction later generalizing settings with
  | nil => rfl
  | cons entry later ih =>
    obtain ⟨key, value⟩ := entry
    have hstep := ih (setKey key value settings)
    cases hkey : isText key
    · rw [named_setKey_other hkey] at hstep
      cases key with
      | str name => cases hkey
      | _ => exact hstep
    · cases key with
      | str name =>
        rw [named_setKey_str] at hstep
        exact hstep
      | _ => cases hkey

theorem all_overlay (settings later : List (Setting × Setting)) :
    (overlay settings later).all (isText ·.1) = (settings ++ later).all (isText ·.1) := by
  induction later generalizing settings with
  | nil => simp [overlay]
  | cons entry later ih =>
    have hstep := ih (setKey entry.1 entry.2 settings)
    rw [List.all_append, all_setKey] at hstep
    rw [List.all_append, List.all_cons, ← Bool.and_assoc]
    exact hstep

end Setting

/-- Settings that have the same value under every name make the same configuration. -/
theorem Config.ofSettings_congr {fields fields' : Entries Setting}
    (h : ∀ name, fields.get? name = fields'.get? name) : Config.ofSettings fields = Config.ofSettings fields' := by
  simp only [Config.ofSettings, optional, h]

/-! ## Tables from YAML -/

namespace Yaml

open Setting

variable {entries : List (Setting × Setting)}

theorem scalarSetting_ne_table {kind : Kind} {text : String} : scalarSetting kind text ≠ .ok (.table entries) := by
  intro h
  cases kind with
  | bool =>
    have h := of_mapError_ok h
    grind [booleanSetting]
  | int =>
    have h := of_mapError_ok h
    grind [integerSetting]
  | float =>
    have h := of_mapError_ok h
    grind [floatSetting]
  | timestamp =>
    have h := of_mapError_ok h
    grind [timestampSetting]
  | binary => grind [scalarSetting, binarySetting]
  | _ => cases h

theorem scalarValue_ne_table {d : Document} {node : Node} :
    (d.scalarValue node).toOption.getD .null ≠ .table entries := by
  intro h
  cases hvalue : d.scalarValue node with
  | error e => simp [hvalue, Except.toOption] at h
  | ok value =>
    obtain rfl : value = .table entries := by
      simpa [hvalue, Except.toOption] using h
    obtain ⟨text, -, hscalar⟩ := of_bind_ok hvalue
    split at hscalar
    · cases hscalar
    · exact scalarSetting_ne_table hscalar

/-- A table that a node makes is built key by key, so it has every name once. -/
theorem settingTo_distinct {d : Document} {fuel level : Nat} {node : Node}
    (h : d.settingTo fuel level node = .table entries) : (named entries).names.Nodup := by
  have hbuilt (entry : Node × Node → Setting × Setting) (nodes : List (Node × Node)) :
      (named (nodes.foldl (fun table node => setKey (entry node).1 (entry node).2 table) [])).names.Nodup :=
    List.foldlRecOn nodes _ (motive := fun table => (named table).names.Nodup) List.nodup_nil
      fun table htable node _ => nodup_names_setKey htable _ _
  induction fuel generalizing level node with
  | zero => cases h
  | succ fuel ih =>
    unfold Document.settingTo at h
    dsimp only at h
    split at h
    · split at h
      · cases h
      · exact ih h
    · cases h
    · cases h
    · cases h
    · obtain rfl := Setting.table.inj h
      exact hbuilt (fun node => (d.settingTo fuel (level + 1) node.1, d.settingTo fuel (level + 1) node.2)) _
    · cases h
    · exact absurd h scalarValue_ne_table

/-- A table that YAML spells has every name once. -/
theorem read_distinct {cs : List Char} (h : read cs = .ok (.table entries)) : (named entries).names.Nodup := by
  obtain ⟨document, -, h⟩ := of_bind_ok h
  split at h
  · cases h
  · obtain ⟨-, -, h⟩ := of_bind_ok h
    exact settingTo_distinct (Except.ok.inj h)

end Yaml

/-! ## Files -/

section Files

variable {tree : FileTree} {file : Path}

/-- The settings that a file gives: those of the mapping that its text spells, or none where it spells null. -/
inductive Gives (tree : FileTree) (file : Path) : List (Setting × Setting) → Prop
  | mapping {text : String} {entries : List (Setting × Setting)} (readable : tree.read file = .ok text)
      (spells : Yaml.read text.toList = .ok (.table entries)) : Gives tree file entries
  | nothing {text : String} (readable : tree.read file = .ok text)
      (spells : Yaml.read text.toList = .ok .null) : Gives tree file []

/-- The errors that a file is refused with for what is in it. -/
inductive Refuses (tree : FileTree) (file : Path) : LoadError → Prop
  | unreadable {e : FileError} (failure : tree.read file = .error e) : Refuses tree file (.unreadable e)
  | notYaml {text : String} {e : Yaml.Error} (readable : tree.read file = .ok text)
      (failure : Yaml.read text.toList = .error e) (mistake : ∀ u, e ≠ .unreadable u) :
      Refuses tree file (.notYaml file e)
  | notMapping {text : String} {value : Setting} (readable : tree.read file = .ok text)
      (spells : Yaml.read text.toList = .ok value) (notNull : value ≠ .null)
      (notTable : ∀ entries, value ≠ .table entries) : Refuses tree file (.notMapping file)

/-- The faults of a file: a scalar that has no value, or a name that no file has. -/
inductive Stumps (tree : FileTree) (file : Path) : LoadFault → Prop
  | noValue {text : String} {u : Yaml.Unreadable} (readable : tree.read file = .ok text)
      (failure : Yaml.read text.toList = .error (.unreadable u)) : Stumps tree file (.unreadable u)
  | unnameable (name : file.isNameable = false) : Stumps tree file .pathNotNameable

theorem Gives.distinct {settings : List (Setting × Setting)} (h : Gives tree file settings) :
    (Setting.named settings).names.Nodup := by
  cases h with
  | mapping readable spells => exact Yaml.read_distinct spells
  | nothing => exact List.nodup_nil

/-- How reading one file ends. -/
inductive TopEnds (tree : FileTree) (file : Path) : Except LoadError (List (Setting × Setting)) → Prop
  | given {settings : List (Setting × Setting)} (gives : Gives tree file settings) : TopEnds tree file (.ok settings)
  | refused {e : LoadError} (refuses : Refuses tree file e) : TopEnds tree file (.error e)
  | stumped {f : LoadFault} (stumps : Stumps tree file f) : TopEnds tree file (.error (.fault f))

theorem topSettings_ends (tree : FileTree) (file : Path) : TopEnds tree file (topSettings tree file) := by
  unfold topSettings
  cases hname : file.isNameable with
  | false => exact .stumped (.unnameable hname)
  | true =>
    cases hread : tree.read file with
    | error e => exact .refused (.unreadable hread)
    | ok text =>
      simp only [Bool.not_true, Bool.false_eq_true, if_false, mapError_ok, bind, Except.bind, pure, Except.pure]
      cases hspelled : Yaml.read text.toList with
      | error e => cases e with
        | unreadable u => exact .stumped (.noValue hread hspelled)
        | _ => exact .refused (.notYaml hread hspelled nofun)
      | ok value => cases value with
        | null => exact .given (.nothing hread hspelled)
        | table entries => exact .given (.mapping hread hspelled)
        | _ => exact .refused (.notMapping hread hspelled nofun nofun)

end Files

/-! ## Both files -/

/-- The settings of the second file, if there is one. -/
def GivesLater (tree : FileTree) : Option Path → List (Setting × Setting) → Prop
  | none, settings => settings = []
  | some file, settings => Gives tree file settings

/-- Checking the settings of two files ends in a result, where a name has the value of the second file or else
that of the first one. -/
def ChecksAs (first second : List (Setting × Setting)) (result : Checked Config) : Prop :=
  ∃ fields : Entries Setting,
    (∀ name, fields.get? name = ((Setting.named second).get? name).or ((Setting.named first).get? name)) ∧
      Config.ofSettings fields = result

theorem ChecksAs.unique {first second : List (Setting × Setting)} {result result' : Checked Config}
    (h : ChecksAs first second result) (h' : ChecksAs first second result') : result = result' := by
  obtain ⟨fields, hfields, rfl⟩ := h
  obtain ⟨fields', hfields', rfl⟩ := h'
  exact Config.ofSettings_congr fun name => (hfields name).trans (hfields' name).symm

/-- The ways in which loading ends. -/
inductive LoadEnds (tree : FileTree) (path : Path) (override : Option Path) : Except LoadError Config → Prop
  /-- With a configuration. -/
  | loaded {first second : List (Setting × Setting)} {config : Config} (base : Gives tree path first)
      (later : GivesLater tree override second) (texts : ∀ entry ∈ first ++ second, isText entry.1 = true)
      (checked : ChecksAs first second (.ok config)) : LoadEnds tree path override (.ok config)
  /-- With the problems of the settings. -/
  | invalid {first second : List (Setting × Setting)} {problems : List Problem} (base : Gives tree path first)
      (later : GivesLater tree override second) (texts : ∀ entry ∈ first ++ second, isText entry.1 = true)
      (checked : ChecksAs first second (.problems problems)) :
      LoadEnds tree path override (.error (.invalid path problems))
  /-- With a report on one of the files. -/
  | refused {file : Path} {e : LoadError} {line : String} (asked : file = path ∨ override = some file)
      (refuses : Refuses tree file e) (report : e.message? = some line) : LoadEnds tree path override (.error e)
  /-- Without a word, on a key that is no text. -/
  | keyNotText {first second : List (Setting × Setting)} (base : Gives tree path first)
      (later : GivesLater tree override second) (key : ∃ entry ∈ first ++ second, isText entry.1 = false) :
      LoadEnds tree path override (.error (.fault .keyNotText))
  /-- Without a word, on a fault of one of the files. -/
  | stumped {file : Path} {f : LoadFault} (asked : file = path ∨ override = some file)
      (stumps : Stumps tree file f) : LoadEnds tree path override (.error (.fault f))

theorem Refuses.reported {tree : FileTree} {file : Path} {e : LoadError} (h : Refuses tree file e) :
    ∃ line, e.message? = some line := by
  cases h <;> exact ⟨_, rfl⟩

theorem ofTop_ends {tree : FileTree} {path : Path} {override : Option Path} {first second : List (Setting × Setting)}
    (base : Gives tree path first) (later : GivesLater tree override second) :
    LoadEnds tree path override (Config.ofTop path (overlay first second)) := by
  have hdistinct : (Setting.named second).names.Nodup := by
    cases override with
    | none =>
      obtain rfl : second = [] := later
      exact List.nodup_nil
    | some file => exact Gives.distinct later
  have hchecked : ChecksAs first second (Config.ofSettings (Setting.named (overlay first second))) := by
    refine ⟨_, fun name => ?_, rfl⟩
    rw [Setting.named_overlay, Entries.get?_merge hdistinct]
  unfold Config.ofTop
  rw [Setting.all_overlay]
  split
  · rename_i htexts
    rw [List.all_eq_true] at htexts
    cases hresult : Config.ofSettings (Setting.named (overlay first second)) with
    | ok config => exact .loaded base later htexts (hresult ▸ hchecked)
    | problems ps => exact .invalid base later htexts (hresult ▸ hchecked)
  · rename_i hkey
    rw [Bool.not_eq_true, List.all_eq_false] at hkey
    obtain ⟨entry, hmem, hentry⟩ := hkey
    exact .keyNotText base later ⟨entry, hmem, by simpa using hentry⟩

/-- Loading gives the configuration of both files, or reports what is wrong with them; without a word it
ends only on a key that is no text, on a scalar without a value, or on a name that no file has. -/
theorem Config.load_ends (tree : FileTree) (path : Path) (override : Option Path) :
    LoadEnds tree path override (Config.load tree path override) := by
  have hfirst := topSettings_ends tree path
  unfold Config.load
  generalize topSettings tree path = settings at hfirst ⊢
  cases hfirst with
  | refused refuses =>
    obtain ⟨line, hline⟩ := refuses.reported
    exact .refused (.inl rfl) refuses hline
  | stumped stumps => exact .stumped (.inl rfl) stumps
  | @given first base =>
    cases override with
    | none =>
      have hlater : GivesLater tree none [] := rfl
      exact ofTop_ends base hlater
    | some file =>
      have hsecond := topSettings_ends tree file
      show LoadEnds tree path (some file)
        (topSettings tree file >>= fun later => Config.ofTop path (overlay first later))
      generalize topSettings tree file = settings at hsecond ⊢
      cases hsecond with
      | refused refuses =>
        obtain ⟨line, hline⟩ := refuses.reported
        exact .refused (.inr rfl) refuses hline
      | stumped stumps => exact .stumped (.inr rfl) stumps
      | given later => exact ofTop_ends base later

/-! ## A key that is no text -/

namespace NullKey

/-- A configuration file with one question mark, which is a null key. -/
def tree : FileTree := { files := [(["config.yaml"], "?")] }

theorem load_unreported :
    ¬((∃ config, Config.load tree ["config.yaml"] none = .ok config) ∨
      ∃ e line, Config.load tree ["config.yaml"] none = .error e ∧ e.message? = some line) := by
  have hload : Config.load tree ["config.yaml"] none = .error (.fault .keyNotText) := rfl
  rintro (⟨config, h⟩ | ⟨e, line, h, hline⟩)
  · rw [hload] at h
    cases h
  · rw [hload] at h
    obtain rfl := Except.error.inj h
    cases hline

end NullKey

end ApiManual
