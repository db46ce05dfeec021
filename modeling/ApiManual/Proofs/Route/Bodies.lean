import ApiManual.Proofs.Entries
import ApiManual.Proofs.Route.Reading

/-!
# Bodies that can be written

The body of a call holds configured values beside those of its parameters. A client that cannot write it breaks off
where JSON has no word for a value, and else fails as it fails for other reasons.

* `toJson_ofJson`: of the values of parameters only floats that are not finite are in the way.
* `bodyFlaw?_alike`: what is in the way of a body does not hang on placeholders.
* `Docstring.WordlessBody`: JSON has no word for the body of a call, whatever the generator.
* `callFor_ok_iff`, `callFor_error_iff`: when there is a call for parameters that can be read, and which.
-/

namespace ApiManual

/-! ## Flaws -/

namespace Setting

/-- What is in the way of a setting where a client writes it as JSON. -/
def flaw? (v : Setting) : Option NoJson :=
  match v.toJson true with
  | .ok _ => none
  | .error flaw => some flaw

/-- Two parts are written one after the other just if each of them is. -/
theorem written_both {α β γ : Type} {p q : Prop} [Decidable p] [Decidable q] {first : Except NoJson α}
    {second : Except NoJson β} {a : α} {b : β} (hfirst : first = if p then .ok a else .error .notFinite)
    (hsecond : second = if q then .ok b else .error .notFinite) (f : α → β → γ) :
    (do .ok (f (← first) (← second))) = if p ∧ q then Except.ok (f a b) else .error .notFinite := by
  rw [hfirst, hsecond]
  by_cases hp : p
  · by_cases hq : q
    · rw [if_pos hp, if_pos hq, if_pos ⟨hp, hq⟩]
      rfl
    · rw [if_pos hp, if_neg hq, if_neg (not_and_of_not_right _ hq)]
      rfl
  · rw [if_neg hp, if_neg (not_and_of_not_left _ hp)]
    rfl

mutual

/-- A value is written as it is, unless it holds a float that is infinite or no number. -/
theorem toJson_ofJson : ∀ v : Json, (ofJson v).toJson true = if v.Finite then .ok v else .error .notFinite
  | .null | .bool _ | .int _ | .str _ => by simp [ofJson, toJson, Json.isFinite]
  | .float x => by
    rw [ofJson, toJson, floatToJson]
    simp only [Json.each_float, Json.isFinite]
    cases x.isFinite <;> rfl
  | .arr items => by
    rw [ofJson, toJson, toJsonList_ofJsonList items]
    simp only [Json.each_arr]
    split <;> rfl
  | .obj fields => by
    rw [ofJson, toJson, toJsonFields_ofJsonFields fields]
    simp only [Json.each_obj]
    split <;> rfl

theorem toJsonList_ofJsonList : ∀ items : List Json, toJsonList true (ofJsonList items) =
    if ∀ item ∈ items, item.Finite then .ok items else .error .notFinite
  | [] => by simp [ofJsonList, toJsonList]
  | item :: items => by
    simp only [List.forall_mem_cons]
    exact written_both (toJson_ofJson item) (toJsonList_ofJsonList items) List.cons

theorem toJsonFields_ofJsonFields : ∀ fields : List (String × Json), toJsonFields true (ofJsonFields fields) =
    if ∀ field ∈ fields, field.2.Finite then .ok fields else .error .notFinite
  | [] => by simp [ofJsonFields, toJsonFields]
  | (name, v) :: fields => by
    simp only [List.forall_mem_cons]
    exact written_both (toJson_ofJson v) (toJsonFields_ofJsonFields fields) fun v fields => (name, v) :: fields

end

theorem flaw?_ofJson (v : Json) : (ofJson v).flaw? = if v.Finite then none else some .notFinite := by
  unfold flaw?
  rw [toJson_ofJson]
  by_cases h : v.Finite
  · rw [if_pos h, if_pos h]
  · rw [if_neg h, if_neg h]

end Setting

/-- The first value that is in the way decides. -/
theorem bodyFlaw?_eq (body : Entries Setting) : bodyFlaw? body = body.findSome? (·.2.flaw?) := by
  unfold bodyFlaw?
  rw [Setting.toJson]
  induction body with
  | nil => rfl
  | cons entry body ih =>
    rw [List.findSome?_cons, ← ih, List.map_cons, Setting.toJsonFields, Setting.flaw?]
    cases entry.2.toJson true with
    | error flaw => rfl
    | ok v =>
      generalize Setting.toJsonFields true (List.map _ body) = written
      cases written <;> rfl

/-! ## Placeholders -/

mutual

theorem skeleton_finite : ∀ v : Json, v.skeleton.Finite ↔ v.Finite
  | .null | .bool _ | .int _ | .str _ => by simp [Json.skeleton, Json.isFinite]
  | .float x => by
    rw [Json.skeleton]
    split <;> simp_all [Json.isFinite]
  | .arr items => by
    simp only [Json.skeleton, Json.each_arr]
    exact itemSkeletons_finite items
  | .obj fields => by
    simp only [Json.skeleton, Json.each_obj]
    exact fieldSkeletons_finite fields

theorem itemSkeletons_finite : ∀ items : List Json,
    (∀ item ∈ itemSkeletons items, item.Finite) ↔ ∀ item ∈ items, item.Finite
  | [] => Iff.rfl
  | item :: items => by
    rw [itemSkeletons, List.forall_mem_cons, List.forall_mem_cons, skeleton_finite item, itemSkeletons_finite items]

theorem fieldSkeletons_finite : ∀ fields : List (String × Json),
    (∀ field ∈ fieldSkeletons fields, field.2.Finite) ↔ ∀ field ∈ fields, field.2.Finite
  | [] => Iff.rfl
  | (name, v) :: fields => by
    rw [fieldSkeletons, List.forall_mem_cons, List.forall_mem_cons, skeleton_finite v, fieldSkeletons_finite fields]

end

theorem map_flaw?_sentValues (values : Entries Json) (configured : Entries Setting) :
    (sentValues values configured).map (fun entry => (entry.1, entry.2.flaw?)) =
      Entries.merge ((fieldSkeletons values).map fun entry => (entry.1, (Setting.ofJson entry.2).flaw?))
        (configured.map fun entry => (entry.1, entry.2.flaw?)) := by
  unfold sentValues
  rw [Entries.map_merge, fieldSkeletons_eq_map, List.map_map, List.map_map]
  congr 1
  refine List.map_congr_left fun entry _ => ?_
  simp [Setting.flaw?_ofJson, skeleton_finite]

/-- What is in the way of a body hangs on the skeletons of the parameters' values alone. -/
theorem bodyFlaw?_alike {values others : Entries Json} (h : fieldSkeletons values = fieldSkeletons others)
    (configured : Entries Setting) :
    bodyFlaw? (sentValues values configured) = bodyFlaw? (sentValues others configured) := by
  have hflaws : ∀ body : Entries Setting,
      bodyFlaw? body = (body.map fun entry => (entry.1, entry.2.flaw?)).findSome? (·.2) := by
    intro body
    rw [bodyFlaw?_eq, List.findSome?_map]
    rfl
  rw [hflaws, hflaws, map_flaw?_sentValues, map_flaw?_sentValues, h]

/-! ## Calls -/

section Calls

variable {record : RouteRecord} {params : Params} {method : String} {query body : Entries Json}
  (hquery : expandRead params.query = .ok query) (hbody : expandRead params.body = .ok body)

/-- JSON has no word for the first thing that is in the way of the body, if the call has a body. -/
def RouteRecord.Wordless (record : RouteRecord) (method : String) (body : Entries Json) : Prop :=
  isBodyless method = false ∧ bodyFlaw? (sentValues body record.rules.calls.body) = some .wordless

instance (record : RouteRecord) (method : String) (body : Entries Json) : Decidable (record.Wordless method body) :=
  inferInstanceAs (Decidable (_ ∧ _))

theorem flaw?_call (path : Entries Param) : (record.call path method query body).flaw? =
    if isBodyless method then none else bodyFlaw? (sentValues body record.rules.calls.body) := by
  unfold RouteRecord.call Call.flaw?
  cases isBodyless method <;> rfl

theorem flaw?_call_wordless_iff (path : Entries Param) :
    (record.call path method query body).flaw? = some .wordless ↔ record.Wordless method body := by
  rw [flaw?_call]
  unfold RouteRecord.Wordless
  cases isBodyless method <;> simp

theorem call_of_bodyless (hmethod : isBodyless method = true) (path : Entries Param) (body body' : Entries Json) :
    record.call path method query body = record.call path method query body' := by
  unfold RouteRecord.call
  simp [hmethod]

/-- With every generator the call has such a body. -/
def Docstring.WordlessBody (doc : Docstring) (record : RouteRecord) (method : String) : Prop :=
  ∀ g params body, doc.params "bodyParam" g = .ok params → expandRead params = .ok body → record.Wordless method body

theorem wordlessBody_iff {doc : Docstring} {g : Generator} {params : Entries Param}
    (hparams : doc.params "bodyParam" g = .ok params) (hbody : expandRead params = .ok body) :
    doc.WordlessBody record method ↔ record.Wordless method body := by
  refine ⟨fun h => h g params body hparams hbody, fun h g' params' body' hparams' hbody' => ?_⟩
  have halike := Docstring.expand_params_alike hparams hparams'
  rw [hbody, hbody'] at halike
  cases halike with
  | ok hskeletons => exact ⟨h.1, bodyFlaw?_alike hskeletons _ ▸ h.2⟩

include hquery hbody

/-- With parameters that can be read, nothing but the body fails a call. -/
theorem callFor_eq : callFor record params method =
    if record.Wordless method body then .error (.fault .unsendable)
    else .ok (record.call params.path method query body) := by
  have hsent : callFor record params method =
      let c := record.call params.path method query body
      if c.flaw? = some .wordless then .error (.fault .unsendable) else .ok c := by
    unfold callFor
    simp only [hquery, bind, Except.bind, pure, Except.pure, throw, throwThe, MonadExceptOf.throw]
    cases hmethod : isBodyless method with
    | true => simp only [if_true, call_of_bodyless hmethod params.path [] body]
    | false => simp only [hbody, Bool.false_eq_true, if_false]
  rw [hsent]
  simp only [flaw?_call_wordless_iff]

theorem callFor_ok_iff {c : Call} : callFor record params method = .ok c ↔
    ¬ record.Wordless method body ∧ c = record.call params.path method query body := by
  rw [callFor_eq hquery hbody]
  split <;> simp_all [eq_comm]

theorem callFor_error_iff {f : Failure} : callFor record params method = .error f ↔
    record.Wordless method body ∧ f = .fault .unsendable := by
  rw [callFor_eq hquery hbody]
  split <;> simp_all [eq_comm]

end Calls

end ApiManual
