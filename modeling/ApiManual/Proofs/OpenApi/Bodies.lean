import ApiManual.Proofs.OpenApi.Paths
import ApiManual.Proofs.OpenApi.Typed
import ApiManual.Proofs.Sample.Sent

/-!
# Bodies in documents and in samples

An operation stands under the first method of its route. It asks for a body if any method of the route takes one,
and its samples send one if there are parameters for it. `assembled_bodies`: when both agree with the first method.

* `Json.operationAt?`: what a document has at a slot. `assemble_operationAt?` says which routes it is made of.
* `Json.AsksForBody`, `Json.ShowsSample`: what an operation says of a body, and which samples it shows.
-/

namespace ApiManual

/-! ## What stands at a slot -/

namespace PathItems

/-- The operation at a slot. -/
def operationAt? (paths : PathItems) (slot : Slot) : Option Json :=
  (paths.get? slot.1).bind fun operations => Entries.get? operations slot.2

theorem operationAt?_put (paths : PathItems) (entry : Slot × Json) (slot : Slot) :
    (paths.put entry).operationAt? slot = if slot = entry.1 then some entry.2 else paths.operationAt? slot := by
  obtain ⟨⟨path, method⟩, op⟩ := entry
  obtain ⟨path', method'⟩ := slot
  unfold operationAt? put
  rw [Entries.get?_set]
  by_cases hpath : path' = path
  · subst hpath
    by_cases hmethod : method' = method
    · simp [Entries.get?_set, hmethod]
    · cases hget : Entries.get? paths path' <;> simp [Entries.get?_set, hmethod, Entries.get?_nil]
  · simp [hpath]

/-- At the slots that entries are put to there is one of them, and elsewhere what was there before. -/
theorem operationAt?_putAll (paths : PathItems) (entries : List (Option (Slot × Json))) (slot : Slot) :
    (∃ op, (slot, op) ∈ entries.filterMap id ∧ (paths.putAll entries).operationAt? slot = some op) ∨
      slot ∉ (entries.filterMap id).map (·.1) ∧ (paths.putAll entries).operationAt? slot = paths.operationAt? slot := by
  unfold putAll
  generalize entries.filterMap id = entries
  induction entries generalizing paths with
  | nil => exact .inr ⟨by simp, rfl⟩
  | cons entry entries ih =>
    rcases ih (paths.put entry) with ⟨op, hop, hat⟩ | ⟨hslot, hat⟩
    · exact .inl ⟨op, List.mem_cons_of_mem _ hop, hat⟩
    · rw [operationAt?_put] at hat
      by_cases heq : slot = entry.1
      · rw [if_pos heq] at hat
        exact .inl ⟨entry.2, by simp [heq], hat⟩
      · rw [if_neg heq] at hat
        exact .inr ⟨by simpa [heq] using hslot, hat⟩

/-- Paths without operations make no difference. -/
theorem operationAt?_filter {paths : PathItems} (hdistinct : paths.names.Nodup) (slot : Slot) :
    operationAt? (paths.filter fun item => !item.2.isEmpty) slot = paths.operationAt? slot := by
  unfold operationAt?
  rw [Entries.get?_filter hdistinct]
  cases Entries.get? paths slot.1 with
  | none => rfl
  | some operations => cases operations <;> rfl

end PathItems

/-- What a document has at a slot. -/
def Json.operationAt? (manual : Json) (slot : Slot) : Option Json := manual.under? ["paths", slot.1, slot.2]

section Documents

variable {config : Config} {sampler : Sampler} {routes : List Route} {manual : Json}

theorem exists_paths (h : assemble config sampler routes = .ok manual) :
    ∃ paths, pathItems sampler routes = .ok paths ∧ ∀ slot, manual.operationAt? slot = paths.operationAt? slot := by
  obtain ⟨paths, hpaths, heq⟩ := of_bind_ok h
  obtain rfl := Except.ok.inj heq
  refine ⟨paths, hpaths, fun slot => ?_⟩
  have hunder : ∀ v : Json, v.under? [slot.2] = Entries.get? v.members slot.2 := by
    intro v
    unfold Json.under?
    cases hget : Entries.get? v.members slot.2 <;> simp [hget]
  have hpath : Entries.get? (paths.map fun item => (item.1, Json.obj item.2)) slot.1 =
      (Entries.get? paths slot.1).map Json.obj := Entries.get?_map Json.obj paths slot.1
  change ((Entries.get? (paths.map fun item => (item.1, Json.obj item.2)) slot.1).bind fun v => v.under? [slot.2]) = _
  rw [hpath, PathItems.operationAt?]
  cases Entries.get? paths slot.1 with
  | none => rfl
  | some operations => exact hunder (.obj operations)

/-- A document has an operation at the slot of each route, and it is that of a route with this slot. -/
theorem assemble_operationAt? (h : assemble config sampler routes = .ok manual) {route : Route} (hroute : route ∈ routes)
    {slot : Slot} (hslot : route.slot? = some slot) :
    ∃ op, manual.operationAt? slot = some op ∧
      ∃ documented ∈ routes, documented.slot? = some slot ∧ operation sampler documented documented.group = .ok op := by
  obtain ⟨paths, hpaths, hat⟩ := exists_paths h
  have hok := pathItems_ok_iff.mp ⟨paths, hpaths⟩
  rw [pathItems_eq] at hpaths
  obtain ⟨entries, hbuilt, rfl⟩ := of_map_ok hpaths
  have hdistinct : ((emptyItems routes).putAll entries).names.Nodup := by
    rw [names_built hbuilt]
    exact (inFirstOrder_emptyItems routes).nodup
  rw [hat, PathItems.operationAt?_filter hdistinct]
  obtain ⟨method, hmethod, -⟩ := Option.map_eq_some_iff.mp hslot
  have hmethods : route.methods ≠ [] := fun hnil => by simp [hnil] at hmethod
  obtain ⟨own, hown⟩ := hok route hroute hmethods
  have hmem : (slot, own) ∈ entries.filterMap id := (mem_built_iff hbuilt).mpr ⟨route, hroute, hslot, hown⟩
  rcases (emptyItems routes).operationAt?_putAll entries slot with ⟨op, hop, hfound⟩ | ⟨hnone, -⟩
  · exact ⟨op, hfound, (mem_built_iff hbuilt).mp hop⟩
  · exact absurd (List.mem_map_of_mem hmem) hnone

end Documents

/-! ## Bodies of operations -/

/-- The operation asks for a body. -/
def Json.AsksForBody (op : Json) : Prop := (op.under? ["requestBody"]).isSome

/-- The operation shows this sample in a language: its samples stand in the order of the languages. -/
def Json.ShowsSample (op : Json) (tabs : Entries String) (l : Language) (source : String) : Prop :=
  ∃ samples tab entry, op.under? ["x-code-samples"] = some samples ∧ (tab, entry) ∈ tabs.zip samples.items ∧
    Language.ofName? tab.1 = some l ∧ entry.under? ["source"] = some (.str source)

/-- The operation and its samples agree with a method and with the values of the body: the operation asks for a
body just if the method takes one, and each of its samples sends one just if it is asked for and there are values. -/
structure Json.BodyAgrees (tabs : Entries String) (method : String) (values : Entries Json) (op : Json) : Prop where
  asks : op.AsksForBody ↔ takesBody method = true
  sends : ∀ l source, op.ShowsSample tabs l source → (SendsBody l source ↔ op.AsksForBody ∧ values ≠ [])

section Operation

variable {base : String} {tabs : Entries String} {route : Route} {group : String} {op : Json}

/-- How a sample is listed. -/
def listed (tab : String × String) (source : String) : Json := .obj [("lang", .str tab.2), ("source", .str source)]

/-- The samples of a document are written in known languages, and each sends a body just if the route has
parameters of one. -/
theorem of_documentSamples {samples : Json} {settled : Route}
    (h : documentSamples base tabs route = .ok (samples, settled)) :
    settled.methods = route.methods ∧ ∃ sources, samples = .arr (List.zipWith listed tabs sources) ∧
      List.Forall₂ (fun tab source => ∃ l, Language.ofName? tab.1 = some l ∧
        (SendsBody l source ↔ route.params.body ≠ [])) tabs sources := by
  unfold documentSamples at h
  obtain ⟨sources, hsources, heq⟩ := of_bind_ok h
  obtain ⟨rfl, rfl⟩ := Prod.mk.inj (Except.ok.inj heq)
  refine ⟨rfl, sources, rfl, ?_⟩
  have hsent := forall₂_comp (samplesFrom_sends base route (.ofParams route.params) tabs.names)
    (mapM_eq_ok_iff.mp hsources)
  refine (List.forall₂_map_left_iff.mp hsent).imp fun tab source ⟨sample, hsends, hsample⟩ => ?_
  exact hsends source hsample

/-- The parts of an operation that tell of a body. -/
theorem operation_body (h : operation (some (documentSamples base tabs)) route group = .ok op) :
    (op.AsksForBody ↔ ∃ method ∈ route.methods, takesBody method = true) ∧
      ∃ samples settled, documentSamples base tabs route = .ok (samples, settled) ∧
        op.under? ["x-code-samples"] = some samples := by
  unfold operation at h
  obtain ⟨responses, -, hrest⟩ := of_bind_ok h
  obtain ⟨⟨entries, settled⟩, hentry, hmade⟩ := of_bind_ok hrest
  obtain ⟨⟨samples, settled'⟩, hsamples, heq⟩ := of_bind_ok hentry
  obtain ⟨rfl, rfl⟩ := Prod.mk.inj (Except.ok.inj heq)
  obtain rfl := Except.ok.inj hmade
  obtain ⟨hmethods, -⟩ := of_documentSamples hsamples
  rw [← List.any_eq_true, ← hmethods]
  refine ⟨?_, samples, settled', hsamples, ?_⟩
  · unfold Json.AsksForBody
    cases settled'.authenticated <;> cases settled'.methods.any takesBody <;> exact Iff.rfl
  · cases settled'.authenticated <;> cases settled'.methods.any takesBody <;> rfl

theorem zip_zipWith {α β γ : Type} (f : α → β → γ) (xs : List α) (ys : List β) :
    xs.zip (List.zipWith f xs ys) = (xs.zip ys).map fun e => (e.1, f e.1 e.2) := by
  induction xs generalizing ys with
  | nil => rfl
  | cons x xs ih => cases ys <;> simp [ih]

/-- The samples that an operation shows are those of the list. -/
theorem showsSample_iff {sources : List String} {l : Language} {source : String}
    (h : op.under? ["x-code-samples"] = some (.arr (List.zipWith listed tabs sources))) :
    op.ShowsSample tabs l source ↔ ∃ tab, (tab, source) ∈ tabs.zip sources ∧ Language.ofName? tab.1 = some l := by
  constructor
  · rintro ⟨samples, tab, entry, hsamples, hentry, hl, hsource⟩
    obtain rfl := Option.some.inj (h.symm.trans hsamples)
    rw [Json.items, zip_zipWith] at hentry
    obtain ⟨⟨tab', source'⟩, hmem, heq⟩ := List.mem_map.mp hentry
    obtain ⟨rfl, rfl⟩ := Prod.mk.inj heq
    obtain rfl : source' = source := Json.str.inj (Option.some.inj hsource)
    exact ⟨tab', hmem, hl⟩
  · rintro ⟨tab, hmem, hl⟩
    refine ⟨_, tab, listed tab source, h, ?_, hl, rfl⟩
    rw [Json.items, zip_zipWith]
    exact List.mem_map.mpr ⟨_, hmem, rfl⟩

/-- An operation and its samples agree with the first method just if a body is asked for by this one alone, and
samples that send one are those of an operation that asks for it. -/
theorem bodyAgrees_iff (h : operation (some (documentSamples base tabs)) route group = .ok op) (method : String)
    {values : Entries Json} (hvalues : expand route.params.body = .ok values) :
    op.BodyAgrees tabs method values ↔
      ((∃ m ∈ route.methods, takesBody m = true) ↔ takesBody method = true) ∧
        (tabs ≠ [] → values ≠ [] → ∃ m ∈ route.methods, takesBody m = true) := by
  obtain ⟨hasks, samples, settled, hdocument, hsamples⟩ := operation_body h
  obtain ⟨-, sources, rfl, hsent⟩ := of_documentSamples hdocument
  have hparams : route.params.body ≠ [] ↔ values ≠ [] := (expand_eq_nil_iff hvalues).not.symm
  constructor
  · rintro ⟨hmethod, hsends⟩
    refine ⟨hasks.symm.trans hmethod, fun htabs hne => ?_⟩
    cases hsent with
    | nil => exact absurd rfl htabs
    | @cons tab source tabs sources hfirst _ =>
      obtain ⟨l, hl, hsource⟩ := hfirst
      have hshown := (showsSample_iff hsamples).mpr ⟨tab, List.mem_cons_self, hl⟩
      exact hasks.mp ((hsends l source hshown).mp (hsource.mpr (hparams.mpr hne))).1
  · rintro ⟨hmethod, hsends⟩
    refine ⟨hasks.trans hmethod, fun l source hshown => ?_⟩
    obtain ⟨tab, hmem, hl⟩ := (showsSample_iff hsamples).mp hshown
    obtain ⟨l', hl', hsource⟩ := List.forall₂_zip hsent hmem
    obtain rfl : l' = l := Option.some.inj (hl'.symm.trans hl)
    rw [hsource, hparams, hasks]
    have htabs : tabs ≠ [] := by
      rintro rfl
      cases hmem
    exact ⟨fun hne => ⟨hsends htabs hne, hne⟩, And.right⟩

end Operation

/-! ## Bodies of documents -/

/-- The operation at the slot of a route is that of a route with this slot. It and its samples agree with the
first method of this route just if a body is asked for by this method alone, and samples that send one are
those of an operation that asks for it. -/
theorem assembled_bodies {config : Config} {routes : List Route} {manual : Json}
    (h : assemble config config.sampler routes = .ok manual) {route : Route} (hroute : route ∈ routes) {slot : Slot}
    (hslot : route.slot? = some slot) :
    ∃ op, manual.operationAt? slot = some op ∧ ∃ documented ∈ routes, documented.slot? = some slot ∧
      ∀ method values, documented.methods.head? = some method → expand documented.params.body = .ok values →
        (op.BodyAgrees config.languageTabs method values ↔
          ((∃ m ∈ documented.methods, takesBody m = true) → takesBody method = true) ∧
            (config.languageTabs ≠ [] → values ≠ [] → ∃ m ∈ documented.methods, takesBody m = true)) := by
  obtain ⟨op, hat, documented, hdocumented, hsame, hop⟩ := assemble_operationAt? h hroute hslot
  refine ⟨op, hat, documented, hdocumented, hsame, fun method values hmethod hvalues => ?_⟩
  have hown : takesBody method = true → ∃ m ∈ documented.methods, takesBody m = true :=
    fun htakes => ⟨method, List.mem_of_mem_head? hmethod, htakes⟩
  rw [bodyAgrees_iff hop method hvalues, show (_ ↔ takesBody method = true) ↔ (_ → _) from ⟨Iff.mp, fun hmp => ⟨hmp, hown⟩⟩]

/-! ## Bodies that do not agree -/

namespace Notes

def config : Config := { languageTabs := [("bash", "Bash"), ("javascript", "JavaScript"), ("python", "Python")] }

def tabs : Entries String := config.languageTabs

def values : Entries Json := [("text", .str "hi")]

/-- A route with a text in its body. -/
def route (methods : List String) : Route :=
  { id := "x", group := "Notes", title := "Notes.", methods, uri := "/notes",
    params := { body := [("text", { value := .str "hi" })] } }

theorem expand_text (methods : List String) : expand (route methods).params.body = .ok values := by
  have hkeys : segments "text" = ["text"] := by decide +kernel
  have hplaced : expandOne [] ("text", { value := .str "hi" }) = .ok values := by
    unfold expandOne
    rw [hkeys]
    rfl
  change List.foldlM expandOne [] [("text", { value := .str "hi" })] = _
  rw [List.foldlM_cons, hplaced]
  rfl

/-- A route that is put agrees with its samples. -/
theorem bodyAgrees_put : ∃ manual op, assemble config config.sampler [route ["PUT", "GET"]] = .ok manual ∧
    manual.operationAt? ("/notes", "put") = some op ∧ op.BodyAgrees tabs "PUT" values := by
  obtain ⟨manual, hmanual⟩ : ∃ manual, assemble config config.sampler [route ["PUT", "GET"]] = .ok manual :=
    exists_of_isOk (by decide +kernel)
  have hslot : (route ["PUT", "GET"]).slot? = some ("/notes", "put") := by decide +kernel
  obtain ⟨op, hat, documented, hdocumented, -, hagrees⟩ :=
    assembled_bodies hmanual (List.mem_singleton_self _) hslot
  obtain rfl := List.mem_singleton.mp hdocumented
  refine ⟨manual, op, hmanual, hat, (hagrees "PUT" _ rfl (expand_text _)).mpr ⟨fun _ => rfl, fun _ _ => ?_⟩⟩
  exact ⟨"PUT", List.mem_cons_self, rfl⟩

theorem exists_operation (methods : List String) (slot : Slot) (hslot : (route methods).slot? = some slot)
    (hmade : (assemble config config.sampler [route methods]).isOk = true) :
    ∃ manual op, assemble config config.sampler [route methods] = .ok manual ∧ manual.operationAt? slot = some op ∧
      operation config.sampler (route methods) "Notes" = .ok op := by
  obtain ⟨manual, hmanual⟩ := exists_of_isOk hmade
  obtain ⟨op, hat, documented, hdocumented, -, hop⟩ :=
    assemble_operationAt? hmanual (List.mem_singleton_self _) hslot
  obtain rfl := List.mem_singleton.mp hdocumented
  exact ⟨manual, op, hmanual, hat, hop⟩

/-- An operation that gets asks for a body if its route can also be posted to, and one that deletes asks for none
though its samples send one. -/
theorem bodyDisagrees_get_delete :
    (∃ manual op, assemble config config.sampler [route ["GET", "POST"]] = .ok manual ∧
      manual.operationAt? ("/notes", "get") = some op ∧ op.AsksForBody ∧ ¬ op.BodyAgrees tabs "GET" values) ∧
    ∃ manual op, assemble config config.sampler [route ["DELETE"]] = .ok manual ∧
      manual.operationAt? ("/notes", "delete") = some op ∧ ¬ op.AsksForBody ∧ ¬ op.BodyAgrees tabs "DELETE" values := by
  constructor
  · obtain ⟨manual, op, hmanual, hat, hop⟩ := exists_operation ["GET", "POST"] ("/notes", "get")
      (by decide +kernel) (by decide +kernel)
    have hasks : op.AsksForBody := (operation_body hop).1.mpr ⟨"POST", by simp [route], rfl⟩
    exact ⟨manual, op, hmanual, hat, hasks, fun hagrees => absurd (hagrees.asks.mp hasks) (by decide)⟩
  · obtain ⟨manual, op, hmanual, hat, hop⟩ := exists_operation ["DELETE"] ("/notes", "delete")
      (by decide +kernel) (by decide +kernel)
    have hnone : ¬ ∃ method ∈ (route ["DELETE"]).methods, takesBody method = true := by simp [route, takesBody]
    refine ⟨manual, op, hmanual, hat, fun hasks => hnone ((operation_body hop).1.mp hasks), fun hagrees => hnone ?_⟩
    exact ((bodyAgrees_iff hop "DELETE" (expand_text _)).mp hagrees).2 (by decide) (by decide)

end Notes

end ApiManual
