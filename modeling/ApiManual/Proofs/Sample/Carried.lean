import ApiManual.Proofs.Param.Skeleton
import ApiManual.Proofs.Sample.Form
import ApiManual.Proofs.Sample.Leaves
import ApiManual.Proofs.Sample.Sent
import Mathlib.Data.List.Dedup

/-!
# Queries in the addresses of samples

A sample that is not for `GET` shows the query in its address. `queryCarried_iff`: whether all values of query
parameters are read from it hangs on the names of the parameters. Each has to lead to a field, or to an item of
a list in a field, and no two to the same. A value below an object is lost, for the names in the object are written.

* `subperm_of_ownPlaces`: the values of such names are written. `queryCarried_of_ownPlaces`: they are read again.
* `count_le_places`: a text that all parameters have and nothing else is written in the places of names only.
-/

namespace ApiManual

/-! ## Names with places of their own -/

/-- No name begins with all the keys of another one. -/
def Unnested (names : List String) : Prop :=
  names.Pairwise fun name other => ¬ segments name <+: segments other ∧ ¬ segments other <+: segments name

/-- The value of each name is written, in a place of its own. -/
structure OwnPlaces (names : List String) : Prop where
  written : ∀ name ∈ names, ∃ place, queryPlace? name = some place
  distinct : names.Pairwise fun name other => queryPlace? name ≠ queryPlace? other

section Places

variable {params : Entries Param} {values : Entries Json}

/-- Names with places of their own lead to places none of which is around another. -/
theorem OwnPlaces.exists_placeOf (hplaces : OwnPlaces params.names) (hnames : Unnested params.names) :
    ∃ placeOf : String × Param → List Cell,
      (∀ e ∈ params, queryPlace? e.1 = some (placeOf e)) ∧ (params.map placeOf).Pairwise PlacesApart := by
  let placeOf : String × Param → List Cell := fun e => (queryPlace? e.1).getD []
  have hplace : ∀ e ∈ params, queryPlace? e.1 = some (placeOf e) := by
    intro e he
    obtain ⟨place, hplace⟩ := hplaces.written e.1 (List.mem_map_of_mem he)
    simp [placeOf, hplace]
  refine ⟨placeOf, hplace, List.pairwise_map.mpr ?_⟩
  have hboth := (List.pairwise_map.mp hnames).and (List.pairwise_map.mp hplaces.distinct)
  refine hboth.imp_of_mem fun {e f} he hf ⟨hkeys, hne⟩ => ?_
  rw [hplace e he, hplace f hf] at hne
  have hne : placeOf e ≠ placeOf f := fun heq => hne (congrArg some heq)
  exact ⟨not_prefix_of_queryPlace? (hplace e he) (hplace f hf) hne hkeys.1,
    not_prefix_of_queryPlace? (hplace f hf) (hplace e he) hne.symm hkeys.2⟩

/-- Parameters with places of their own are leaves of the query. -/
theorem exists_leaves (hscalar : ∀ e ∈ params, e.2.decoded.isContainer = false) (hnames : Unnested params.names)
    (hplaces : OwnPlaces params.names) (h : expand params = .ok values) :
    ∃ placeOf : String × Param → List Cell, (params.map placeOf).Nodup ∧
      ∀ e ∈ params, (placeOf e, e.2.decoded) ∈ queryLeaves values := by
  obtain ⟨placeOf, hplace, hapart⟩ := hplaces.exists_placeOf hnames
  have hzip : List.Forall₂ (fun e place => queryPlace? e.1 = some place) params (params.map placeOf) :=
    List.forall₂_map_right_iff.mpr (List.forall₂_same.mpr hplace)
  have hnone : WithoutObjects [] := fun field hfield => absurd hfield List.not_mem_nil
  obtain ⟨hat, -⟩ := at?_of_written hnone hzip hscalar hapart h
  have hat := List.forall₂_same.mp (List.forall₂_map_right_iff.mp hat)
  refine ⟨placeOf, hapart.imp fun {place other} hboth (heq : place = other) => hboth.1 (heq ▸ List.prefix_rfl),
    fun e he => (mem_queryLeaves_iff (nodup_names_expand h)).mpr ⟨hat e he, ?_⟩⟩
  rcases queryPlace?_eq_some_iff.mp (hplace e he) with ⟨key, -, hcells⟩ | ⟨key, index, i, -, -, hcells⟩
  · exact .inl ⟨key, hcells, hscalar e he⟩
  · exact .inr ⟨key, i, hcells⟩

/-- Parameters with places of their own are written into the query string, each with its text. -/
theorem subperm_of_ownPlaces (hscalar : ∀ e ∈ params, e.2.decoded.isContainer = false)
    (hnames : Unnested params.names) (hplaces : OwnPlaces params.names) (h : expand params = .ok values) :
    (params.map (·.2.decoded.plain)).Subperm ((queryPairs values).map (·.2)) := by
  obtain ⟨placeOf, hdistinct, hleaf⟩ := exists_leaves hscalar hnames hplaces h
  have hnodup : (params.map fun e => (placeOf e, e.2.decoded)).Nodup := by
    refine List.Nodup.of_map Prod.fst ?_
    rwa [List.map_map]
  obtain ⟨leaves, hperm, hsublist⟩ := List.subperm_of_subset hnodup (List.forall_mem_map.mpr hleaf)
  have hleaves : (params.map (·.2.decoded.plain)).Subperm ((queryLeaves values).map (·.2.plain)) := by
    refine ⟨leaves.map (·.2.plain), ?_, hsublist.map _⟩
    simpa [Function.comp_def] using hperm.map fun leaf : List Cell × Json => leaf.2.plain
  exact hleaves.trans ((List.sublist_append_left ..).subperm.trans (perm_queryTexts values).symm.subperm)

end Places

/-! ## Texts that nothing else has -/

/-- A text of one letter, again and again. -/
def fill (n : Nat) : String := String.ofList (List.replicate (n + 1) 'x')

/-- Some of these texts is not among others. -/
theorem exists_fill_notMem (texts : List String) : ∃ n, fill n ∉ texts := by
  obtain ⟨n, hn⟩ : ∃ n, ∀ text ∈ texts, text.length ≤ n := by
    induction texts with
    | nil => exact ⟨0, by simp⟩
    | cons text texts ih =>
      obtain ⟨n, hn⟩ := ih
      refine ⟨max text.length n, List.forall_mem_cons.mpr ⟨Nat.le_max_left .., fun other hother => ?_⟩⟩
      exact (hn other hother).trans (Nat.le_max_right ..)
  refine ⟨n, fun hmem => ?_⟩
  have hlength := hn _ hmem
  simp only [fill, String.length_ofList, List.length_replicate] at hlength
  omega

/-- Lists, objects and null have other texts. -/
theorem of_plain_eq_fill {x : Json} {n : Nat} (h : x.plain = fill n) : x.isContainer = false ∧ x ≠ .null := by
  have hhead := congrArg (fun text : String => text.toList.head?) h
  cases x with
  | null | arr | obj => simp [Json.plain, Json.literal, Json.literalChars, fill, List.replicate_succ] at hhead
  | _ => exact ⟨rfl, Json.noConfusion⟩

/-- The names in the objects of a query do not hang on the scalars in it. -/
theorem innerNames_of_skeletons {values others : Entries Json} (h : fieldSkeletons values = fieldSkeletons others) :
    innerNames values = innerNames others := by
  have hskeletons : ∀ values : Entries Json, innerNames values = innerNames (fieldSkeletons values) := by
    intro values
    have hnames : ∀ v : Json, v.members.names = v.skeleton.members.names := by
      intro v
      rw [← fieldSkeletons_members, fieldSkeletons_eq_map]
      simp [Entries.names]
    unfold innerNames
    rw [fieldSkeletons_eq_map, List.flatMap_map]
    exact List.flatMap_congr fun field _ => hnames field.2
  rw [hskeletons values, h, ← hskeletons others]

/-! ## Names whose values are all written -/

/-- Parameters of these names that all have one text. -/
def textParams (names : List String) (text : String) : Entries Param :=
  names.map fun name => (name, { value := .str text })

theorem textParams_scalar {names : List String} {text : String} {e : String × Param} (he : e ∈ textParams names text) :
    e.2.type.isStructured = false ∧ e.2.value = .str text := by
  obtain ⟨name, -, rfl⟩ := List.mem_map.mp he
  exact ⟨rfl, rfl⟩

theorem decoded_of_scalar {p : Param} (htype : p.type.isStructured = false) : p.decoded = p.value := by
  simp [Param.decoded, htype]

/-- A text that nothing else has is written in different places of names, once in each. -/
theorem count_le_places {names : List String} {values : Entries Json} {n : Nat}
    (h : expand (textParams names (fill n)) = .ok values) (hfresh : fill n ∉ innerNames values) :
    ((queryPairs values).map (·.2)).count (fill n) ≤ (names.filterMap queryPlace?).dedup.length := by
  have hscalar : ∀ e ∈ textParams names (fill n), e.2.decoded.isContainer = false := by
    intro e he
    obtain ⟨htype, hvalue⟩ := textParams_scalar he
    rw [decoded_of_scalar htype, hvalue]
    rfl
  -- the leaves with the text have different places, and names lead to these
  let written := (queryLeaves values).filter fun leaf => leaf.2.plain == fill n
  have hcount : ((queryPairs values).map (·.2)).count (fill n) = (written.map (·.1)).length := by
    rw [(perm_queryTexts values).count_eq, List.count_append, List.count_eq_zero_of_not_mem hfresh, Nat.add_zero,
      List.count_eq_countP, List.countP_map, List.countP_eq_length_filter, List.length_map]
    rfl
  have hnodup : (written.map (·.1)).Nodup :=
    (nodup_queryLeaves (nodup_names_expand h)).sublist (List.filter_sublist.map _)
  rw [hcount]
  refine hnodup.length_le_of_subset fun place hplace => ?_
  obtain ⟨⟨place, x⟩, hleaf, rfl⟩ := List.mem_map.mp hplace
  obtain ⟨hleaf, htext⟩ := List.mem_filter.mp hleaf
  obtain ⟨hx, hnull⟩ := of_plain_eq_fill (beq_iff_eq.mp htext)
  obtain ⟨e, he, hplace⟩ := exists_queryPlace? hscalar h hleaf hx hnull
  obtain ⟨name, hname, rfl⟩ := List.mem_map.mp he
  exact List.mem_dedup.mpr (List.mem_filterMap.mpr ⟨name, hname, hplace⟩)

/-- Names with as many different places as there are names have places of their own. -/
theorem ownPlaces_of_length_le {names : List String} (h : names.length ≤ (names.filterMap queryPlace?).dedup.length) :
    OwnPlaces names := by
  have hdedup := (List.dedup_sublist (names.filterMap queryPlace?)).length_le
  have hplaces := List.length_filterMap_le queryPlace? names
  have hsome : ∀ name ∈ names, (queryPlace? name).isSome := List.filterMap_length_eq_length.mp (by omega)
  have hdistinct : (names.filterMap queryPlace?).Nodup := by
    have heq := (List.dedup_sublist (names.filterMap queryPlace?)).eq_of_length (by omega)
    exact heq ▸ List.nodup_dedup _
  refine ⟨fun name hname => Option.isSome_iff_exists.mp (hsome name hname), ?_⟩
  refine (List.pairwise_filterMap.mp hdistinct).imp_of_mem fun {name other} hname _ hne heq => ?_
  obtain ⟨place, hplace⟩ := Option.isSome_iff_exists.mp (hsome name hname)
  exact hne place hplace place (heq ▸ hplace) rfl

/-! ## Samples -/

/-- In the samples of all routes with this URI and these names of query parameters, the address has every value:
whenever the parameters are scalars and the sample is not for `GET`. -/
def QueryCarried (base uri : String) (names : List String) : Prop :=
  ∀ (route : Route) (r : SampleRequest), route.uri = uri → route.params.query.names = names →
    (∀ e ∈ route.params.query, e.2.type.isStructured = false ∧ e.2.value.isContainer = false) →
    SampleRequest.ofRoute base route = .ok r → r.method ≠ "GET" →
    ∃ rest, codeSample base "bash" route = .ok ("curl -X " ++ r.method ++ " \"" ++ r.fullUrl ++ "\"" ++ rest) ∧
      (route.params.query.map (·.2.value.plain)).Subperm (queryValues r.fullUrl)

theorem bash_of_method {r : SampleRequest} (h : r.method ≠ "GET") :
    ∃ rest, r.bash = "curl -X " ++ r.method ++ " \"" ++ r.fullUrl ++ "\"" ++ rest := by
  have hquote : " \"" = " " ++ "\"" := by decide +kernel
  refine ⟨String.join (r.headers.map SampleRequest.headerArgument) ++ (String.join [] ++
    SampleRequest.whenAny r.body (SampleRequest.nextArgument ++ "-d '" ++ (Json.obj r.body).compact ++ "'")), ?_⟩
  rw [SampleRequest.bash_eq, if_neg h, if_neg h, hquote]
  simp only [String.append_assoc]

theorem of_ofRoute {base : String} {route : Route} {r : SampleRequest} (h : SampleRequest.ofRoute base route = .ok r) :
    r.url = joinUrl base route.uri ∧ expand route.params.query = .ok r.query := by
  obtain ⟨query, hquery, hrest⟩ := of_bind_ok h
  obtain ⟨body, -, heq⟩ := of_bind_ok hrest
  obtain rfl := Except.ok.inj heq
  exact ⟨rfl, hquery⟩

theorem names_textParams (names : List String) (text : String) : (textParams names text).names = names := by
  simp [textParams, Entries.names, Function.comp_def]

theorem texts_textParams (names : List String) (text : String) :
    (textParams names text).map (·.2.value.plain) = List.replicate names.length text := by
  simp [textParams, Function.comp_def, Json.plain]

/-- Names that expand do so with any texts, and with the same names in objects. -/
theorem expand_textParams {names : List String} {text : String} {plain : Entries Json}
    (h : expand (textParams names text) = .ok plain) (other : String) :
    ∃ values, expand (textParams names other) = .ok values ∧ innerNames values = innerNames plain := by
  have halike : List.Forall₂ AlikeEntries (textParams names text) (textParams names other) := by
    rw [textParams, textParams, List.forall₂_map_left_iff, List.forall₂_map_right_iff]
    exact List.forall₂_same.mpr fun name _ => ⟨rfl, rfl, rfl, rfl, rfl, rfl⟩
  have houtcome := expand_alike halike
  rw [h] at houtcome
  generalize hother : expand (textParams names other) = x at houtcome
  cases houtcome with
  | ok hskeletons => exact ⟨_, rfl, (innerNames_of_skeletons hskeletons).symm⟩

section Address

variable {base uri : String} {names : List String}

/-- Values with places of their own are read from the address. -/
theorem queryCarried_of_ownPlaces (hurl : TakesQuery (joinUrl base uri)) (hnames : Unnested names)
    (hplaces : OwnPlaces names) : QueryCarried base uri names := by
  rintro route r rfl rfl hscalar hr hmethod
  obtain ⟨hbase, hquery⟩ := of_ofRoute hr
  obtain ⟨rest, hbash⟩ := bash_of_method hmethod
  refine ⟨rest, hbash ▸ codeSample_of_ofRoute hr, ?_⟩
  have hdecoded : ∀ e ∈ route.params.query, e.2.decoded = e.2.value := fun e he => decoded_of_scalar (hscalar e he).1
  have htexts : route.params.query.map (·.2.value.plain) = route.params.query.map (·.2.decoded.plain) :=
    List.map_congr_left fun e he => by rw [hdecoded e he]
  have hsubperm := subperm_of_ownPlaces (fun e he => hdecoded e he ▸ (hscalar e he).2) hnames hplaces hquery
  rw [htexts, queryValues_fullUrl (hbase ▸ hurl)]
  exact hsubperm.trans (List.sublist_append_right ..).subperm

/-- A text that is neither in the address nor a name in an object is read once for each name only if the names
have places of their own. -/
theorem ownPlaces_of_queryCarried (hurl : TakesQuery (joinUrl base uri))
    (hexpands : ∃ values, expand (textParams names "") = .ok values) (hcarried : QueryCarried base uri names) :
    OwnPlaces names := by
  obtain ⟨plain, hplain⟩ := hexpands
  obtain ⟨n, hfresh⟩ := exists_fill_notMem (queryValues (joinUrl base uri) ++ innerNames plain)
  rw [List.mem_append, not_or] at hfresh
  obtain ⟨values, hvalues, hinner⟩ := expand_textParams hplain (fill n)
  let route : Route := { id := "", group := "", title := "", methods := ["POST"], uri,
                         params := { query := textParams names (fill n) } }
  have hr : SampleRequest.ofRoute base route = .ok (.ofValues base route values []) := by
    unfold SampleRequest.ofRoute
    rw [show expand route.params.query = .ok values from hvalues]
    rfl
  obtain ⟨rest, -, hsubperm⟩ := hcarried route _ rfl (names_textParams names (fill n))
    (fun e he => ⟨(textParams_scalar he).1, by rw [(textParams_scalar he).2]; rfl⟩) hr (show "POST" ≠ "GET" by decide)
  refine ownPlaces_of_length_le (le_trans ?_ (count_le_places hvalues (hinner ▸ hfresh.2)))
  have hcount := hsubperm.count_le (fill n)
  have hown : (queryValues (SampleRequest.ofValues base route values []).url).count (fill n) = 0 :=
    List.count_eq_zero_of_not_mem hfresh.1
  rw [show route.params.query.map (·.2.value.plain) = _ from texts_textParams names (fill n),
    List.count_replicate_self, queryValues_fullUrl hurl, List.count_append, hown, Nat.zero_add] at hcount
  exact hcount

/-- Behind an address that takes a query, the values of query parameters are carried just if their names have
places of their own. -/
theorem queryCarried_iff (hurl : TakesQuery (joinUrl base uri)) (hnames : Unnested names)
    (hexpands : ∃ values, expand (textParams names "") = .ok values) :
    QueryCarried base uri names ↔ OwnPlaces names :=
  ⟨ownPlaces_of_queryCarried hurl hexpands, queryCarried_of_ownPlaces hurl hnames⟩

end Address

/-! ## Values that are lost -/

namespace Users

def route (query : Entries Param) : Route :=
  { id := "x", group := "Users", title := "Users.", methods := ["POST"], uri := "/users", params := { query } }

theorem takesQuery : TakesQuery (joinUrl "https://api.test" "/users") where
  unmarked := by decide +kernel
  free := by decide +kernel

/-- The names of a list and of a field, in any order of the items. -/
def names : List String := ["tags[1]", "page", "tags[]"]

theorem queryCarried_names : TakesQuery (joinUrl "https://api.test" "/users") ∧ Unnested names ∧
    (∃ values, expand (textParams names "") = .ok values) ∧ QueryCarried "https://api.test" "/users" names := by
  have hnames : Unnested names := by
    unfold Unnested
    decide +kernel
  have hexpands : ∃ values, expand (textParams names "") = .ok values := exists_of_isOk (by decide +kernel)
  have hwritten : ∀ name ∈ names, (queryPlace? name).isSome := by decide +kernel
  have hplaces : OwnPlaces names :=
    ⟨fun name hname => Option.isSome_iff_exists.mp (hwritten name hname), by decide +kernel⟩
  exact ⟨takesQuery, hnames, hexpands, (queryCarried_iff takesQuery hnames hexpands).mpr hplaces⟩

/-- Of a value below an object the address has the name only. -/
theorem filter_lost : ∃ r, SampleRequest.ofRoute "https://api.test" (route [("filter.name", { value := .str "Ada" })]) =
      .ok r ∧ codeSample "https://api.test" "bash" (route [("filter.name", { value := .str "Ada" })]) =
      .ok ("curl -X POST \"" ++ r.fullUrl ++ "\"") ∧
    r.fullUrl = "https://api.test/users?filter=name" ∧ ¬ List.Subperm ["Ada"] (queryValues r.fullUrl) := by
  have hr : SampleRequest.ofRoute "https://api.test" (route [("filter.name", { value := .str "Ada" })]) =
      .ok (.ofValues "https://api.test" (route [("filter.name", { value := .str "Ada" })])
        [("filter", .obj [("name", .str "Ada")])] []) := rfl
  refine ⟨_, hr, (codeSample_of_ofRoute hr).trans (congrArg Except.ok (by decide +kernel)), by decide +kernel, fun hsubperm => ?_⟩
  rw [queryValues_fullUrl takesQuery] at hsubperm
  have hmem := hsubperm.subset List.mem_cons_self
  exact absurd hmem (by decide +kernel)

end Users

end ApiManual
