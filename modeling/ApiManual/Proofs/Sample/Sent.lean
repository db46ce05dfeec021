import ApiManual.Proofs.Param.Places
import ApiManual.Sample.Series

/-!
# Samples that send a body

A sample sends a body if it holds one and a call that takes it. `samplesFrom_sends`: the samples of a route do
so in every language just if the route has parameters of a body, whatever its methods.

* `SendsBody`: what a sample that sends a body looks like.
* `SendsBody.ends`, `SampleRequest.render_ends`: samples with a body end otherwise than samples without one.
* `expand_eq_nil_iff`, `Store.expand_eq_nil_iff`: parameters that are expanded leave values.
-/

namespace ApiManual

/-- The end of a `fetch` call. -/
def fetchEnd : String :=
  "\x7d)\n    .then(response => response.json())\n    .then(json => console.log(json));"

/-- A sample in a language sends a body: as the data of a command, which are its last argument, or as a value that
the call takes. -/
inductive SendsBody : Language → String → Prop where
  | bash (command body : String) : SendsBody .bash (command ++ " \\\n    -d '" ++ body ++ "'")
  | javascript (lead body call : String) : SendsBody .javascript
      (lead ++ "\nconst body = " ++ body ++ ";\n" ++ call ++ "    body: JSON.stringify(body),\n" ++ fetchEnd)
  | python (lead body call : String) : SendsBody .python
      (lead ++ "payload = " ++ body ++ "\n" ++ call ++ ", json=payload)\nresponse.json()")

/-! ## How samples end -/

/-- Texts with one end do not agree in front of it where they differ. -/
theorem append_ne_append {x y : String} (hlength : x.toList.length = y.toList.length) (hne : x ≠ y)
    (a b z : String) : a ++ x ++ z ≠ b ++ y ++ z := by
  intro h
  have hlists := congrArg String.toList h
  simp only [String.toList_append] at hlists
  have hfront := List.append_cancel_right hlists
  exact hne (String.toList_inj.mp (List.append_inj_right' hfront hlength))

/-- What stands behind the last place where samples differ. -/
def Language.sampleEnd : Language → String
  | .bash => ""
  | .javascript => fetchEnd
  | .python => ")\nresponse.json()"

/-- What stands at that place in a sample with a body. -/
def Language.sentMark : Language → String
  | .bash => "'"
  | .javascript => "),\n"
  | .python => "d"

/-- What stands at that place in a sample without a body. -/
def Language.bareMark : Language → String
  | .bash => "\""
  | .javascript => "s,\n"
  | .python => "s"

theorem SendsBody.ends {l : Language} {sample : String} (h : SendsBody l sample) :
    ∃ a, sample = a ++ l.sentMark ++ l.sampleEnd := by
  cases h with
  | bash command body => exact ⟨_, (String.append_empty ..).symm⟩
  | javascript lead body call =>
    refine ⟨lead ++ "\nconst body = " ++ body ++ ";\n" ++ call ++ "    body: JSON.stringify(body", ?_⟩
    have hcut : "    body: JSON.stringify(body),\n" = "    body: JSON.stringify(body" ++ "),\n" := by decide +kernel
    simp only [Language.sentMark, Language.sampleEnd, hcut, String.append_assoc]
  | python lead body call =>
    refine ⟨lead ++ "payload = " ++ body ++ "\n" ++ call ++ ", json=payloa", ?_⟩
    have hcut : ", json=payload)\nresponse.json()" = ", json=payloa" ++ ("d" ++ ")\nresponse.json()") := by decide +kernel
    simp only [Language.sentMark, Language.sampleEnd, hcut, String.append_assoc]

/-- Texts that all end in one way still do so behind a text that does. -/
theorem exists_append_join {mark : String} {texts : List String} (htexts : ∀ text ∈ texts, ∃ a, text = a ++ mark)
    (lead : String) : ∃ a, lead ++ mark ++ String.join texts = a ++ mark := by
  induction texts generalizing lead with
  | nil => exact ⟨lead, by simp⟩
  | cons text texts ih =>
    obtain ⟨⟨b, rfl⟩, hrest⟩ := List.forall_mem_cons.mp htexts
    obtain ⟨a, ha⟩ := ih hrest (lead ++ mark ++ b)
    refine ⟨a, ?_⟩
    rw [String.join_cons, ← ha]
    simp only [String.append_assoc]

namespace SampleRequest

variable {r : SampleRequest}

theorem whenAny_nil (text : String) : whenAny [] text = "" := rfl

theorem whenAny_of_ne_nil {values : Entries Json} (h : values ≠ []) (text : String) : whenAny values text = text := by
  simp [whenAny, h]

/-- A header as an argument of the command. -/
def headerArgument (header : String × String) : String :=
  nextArgument ++ "-H \"" ++ header.1 ++ ": " ++ header.2 ++ "\""

/-- A value of the query as an argument of the command. -/
def queryArgument (value : String × Json) : String :=
  nextArgument ++ "--data-urlencode \"" ++ value.1 ++ "=" ++ value.2.plain ++ "\""

theorem bash_eq (r : SampleRequest) : r.bash = "curl -X " ++ r.method ++ " " ++
    (if r.method = "GET" then "-G \"" ++ r.url else "\"" ++ r.fullUrl) ++ "\"" ++
    String.join (r.headers.map headerArgument) ++
    String.join (if r.method = "GET" then r.query.map queryArgument else []) ++
    whenAny r.body (nextArgument ++ "-d '" ++ (Json.obj r.body).compact ++ "'") := rfl

/-- The command without a body ends behind an address, a header or a value of the query. -/
theorem bash_ends (hbody : r.body = []) : ∃ a, r.bash = a ++ "\"" := by
  have htexts : ∀ text ∈ r.headers.map headerArgument ++ (if r.method = "GET" then r.query.map queryArgument else []),
      ∃ a, text = a ++ "\"" := by
    intro text htext
    rcases List.mem_append.mp htext with htext | htext
    · obtain ⟨header, -, rfl⟩ := List.mem_map.mp htext
      exact ⟨_, rfl⟩
    · split at htext
      · obtain ⟨value, -, rfl⟩ := List.mem_map.mp htext
        exact ⟨_, rfl⟩
      · cases htext
  obtain ⟨a, ha⟩ := exists_append_join htexts
    ("curl -X " ++ r.method ++ " " ++ if r.method = "GET" then "-G \"" ++ r.url else "\"" ++ r.fullUrl)
  refine ⟨a, ha ▸ ?_⟩
  rw [bash_eq, hbody, whenAny_nil, String.join_append]
  simp only [String.append_assoc, String.append_empty]

theorem render_ends (hbody : r.body = []) (l : Language) :
    ∃ a, r.render l = a ++ l.bareMark ++ l.sampleEnd := by
  cases l with
  | bash =>
    obtain ⟨a, ha⟩ := bash_ends hbody
    exact ⟨a, ha.trans (String.append_empty ..).symm⟩
  | javascript =>
    refine ⟨"const url = new URL(\"" ++ r.url ++ "\");\n" ++
      whenAny r.query ("\nconst params = " ++ (Json.obj r.query).indented 4 ++ ";\n" ++
        "Object.keys(params).forEach(key => url.searchParams.append(key, params[key]));\n") ++
      "\nconst headers = " ++ r.allHeaders.toJson.indented 4 ++ ";\n" ++
      "\nfetch(url, \x7b\n    method: \"" ++ r.method ++ "\",\n    headers: header", ?_⟩
    have hcut : "\",\n    headers: headers,\n" = "\",\n    headers: header" ++ "s,\n" := by decide +kernel
    change r.javascript = _ ++ "s,\n" ++ fetchEnd
    unfold javascript fetchEnd
    rw [hbody, whenAny_nil, whenAny_nil, hcut]
    simp only [String.append_assoc, String.append_empty]
  | python =>
    by_cases hquery : r.query = []
    · refine ⟨"import requests\n\nurl = \"" ++ r.url ++ "\"\nheaders = " ++ r.allHeaders.toJson.layout ++ "\n" ++
        "\nresponse = requests.request(\"" ++ r.method ++ "\", url, headers=header", ?_⟩
      have hcut : "\", url, headers=headers" = "\", url, headers=header" ++ "s" := by decide +kernel
      change r.python = _ ++ "s" ++ ")\nresponse.json()"
      unfold python
      rw [hbody, hquery, whenAny_nil, whenAny_nil, whenAny_nil, whenAny_nil, hcut]
      simp only [String.append_assoc, String.append_empty]
    · refine ⟨"import requests\n\nurl = \"" ++ r.url ++ "\"\nheaders = " ++ r.allHeaders.toJson.layout ++ "\n" ++
        "params = " ++ (Json.obj r.query).layout ++ "\n" ++
        "\nresponse = requests.request(\"" ++ r.method ++ "\", url, headers=headers" ++ ", params=param", ?_⟩
      have hcut : ", params=params" = ", params=param" ++ "s" := by decide +kernel
      change r.python = _ ++ "s" ++ ")\nresponse.json()"
      unfold python
      rw [hbody, whenAny_nil, whenAny_nil, whenAny_of_ne_nil hquery, whenAny_of_ne_nil hquery, hcut]
      simp only [String.append_assoc, String.append_empty]

/-- The body is one more argument behind the command without a body. -/
theorem bash_eq_append (r : SampleRequest) (hbody : r.body ≠ []) :
    r.bash = { r with body := [] }.bash ++ " \\\n    -d '" ++ ((Json.obj r.body).compact ++ "'") := by
  have hargument : " \\\n    -d '" = nextArgument ++ "-d '" := by decide +kernel
  rw [bash_eq, bash_eq, whenAny_of_ne_nil hbody, whenAny_nil, hargument]
  simp only [fullUrl, String.append_assoc, String.append_empty]

theorem sendsBody_render (hbody : r.body ≠ []) (l : Language) : SendsBody l (r.render l) := by
  cases l with
  | bash =>
    change SendsBody .bash r.bash
    rw [bash_eq_append r hbody, ← String.append_assoc]
    exact .bash _ _
  | javascript =>
    have hsample : r.javascript = "const url = new URL(\"" ++ r.url ++ "\");\n" ++
        whenAny r.query ("\nconst params = " ++ (Json.obj r.query).indented 4 ++ ";\n" ++
          "Object.keys(params).forEach(key => url.searchParams.append(key, params[key]));\n") ++
        "\nconst headers = " ++ r.allHeaders.toJson.indented 4 ++ ";\n" ++ "\nconst body = " ++
        (Json.obj r.body).indented 4 ++ ";\n" ++
        ("\nfetch(url, \x7b\n    method: \"" ++ r.method ++ "\",\n    headers: headers,\n") ++
        "    body: JSON.stringify(body),\n" ++ fetchEnd := by
      unfold javascript fetchEnd
      rw [whenAny_of_ne_nil hbody, whenAny_of_ne_nil hbody]
      simp only [String.append_assoc]
    change SendsBody .javascript r.javascript
    rw [hsample]
    exact .javascript _ _ _
  | python =>
    have hsample : r.python = "import requests\n\nurl = \"" ++ r.url ++ "\"\nheaders = " ++
        r.allHeaders.toJson.layout ++ "\n" ++ whenAny r.query ("params = " ++ (Json.obj r.query).layout ++ "\n") ++
        "payload = " ++ (Json.obj r.body).layout ++ "\n" ++
        ("\nresponse = requests.request(\"" ++ r.method ++ "\", url, headers=headers" ++
          whenAny r.query ", params=params") ++ ", json=payload)\nresponse.json()" := by
      have hcut : ", json=payload)\nresponse.json()" = ", json=payload" ++ ")\nresponse.json()" := by decide +kernel
      unfold python
      rw [whenAny_of_ne_nil hbody, whenAny_of_ne_nil hbody, hcut]
      simp only [String.append_assoc]
    change SendsBody .python r.python
    rw [hsample]
    exact .python _ _ _

/-- The sample of a request sends a body just if there are values for one. -/
theorem sendsBody_render_iff (r : SampleRequest) (l : Language) : SendsBody l (r.render l) ↔ r.body ≠ [] := by
  refine ⟨fun h hbody => ?_, fun hbody => sendsBody_render hbody l⟩
  obtain ⟨a, ha⟩ := h.ends
  obtain ⟨b, hb⟩ := render_ends hbody l
  refine append_ne_append ?_ ?_ a b l.sampleEnd (ha.symm.trans hb) <;> cases l <;> decide +kernel

end SampleRequest

theorem codeSample_of_ofRoute {base : String} {route : Route} {r : SampleRequest}
    (h : SampleRequest.ofRoute base route = .ok r) : codeSample base "bash" route = .ok r.bash := by
  have hlanguage : Language.ofName? "bash" = some .bash := by decide +kernel
  unfold codeSample
  rw [hlanguage, h]
  rfl

/-! ## Values of a body -/

theorem expandOne_ne_nil {fields fields' : Entries Json} {e : String × Param} (h : expandOne fields e = .ok fields') :
    fields' ≠ [] := by
  unfold expandOne at h
  split at h
  · rename_i v hplace
    obtain rfl := Except.ok.inj h
    obtain ⟨key, keys, hkeys⟩ := List.exists_cons_of_ne_nil (segments_ne_nil e.1)
    rw [hkeys] at hplace
    obtain ⟨cell, child, hcell, rfl, -⟩ := place_cons rfl hplace
    obtain rfl : .field key = cell := Option.some.inj hcell
    exact Entries.set_ne_nil fields key child
  · cases h

/-- Parameters that are expanded leave values. -/
theorem expand_eq_nil_iff {params : Entries Param} {values : Entries Json} (h : expand params = .ok values) :
    values = [] ↔ params = [] := by
  cases params with
  | nil =>
    obtain rfl := Except.ok.inj h
    exact iff_of_true rfl rfl
  | cons e params =>
    unfold expand at h
    rw [List.foldlM_cons] at h
    obtain ⟨fields, hfields, hrest⟩ := of_bind_ok h
    refine iff_of_false ?_ (List.cons_ne_nil e params)
    exact foldlM_invariant (P := (· ≠ [])) (expandOne_ne_nil hfields)
      (fun fields e _ fields' _ hone => expandOne_ne_nil hone) hrest

namespace Store

theorem put_table (value : Shape) (key : String) (keys : List String) (store : Store) (fields : List (String × Shape)) :
    ∃ child, (put value (key :: keys) store (.table fields)).1 = .table (Entries.set fields key child) := by
  cases keys <;> exact ⟨_, rfl⟩

theorem putAll_table {params : Entries Param} {store : Store} {fields : List (String × Shape)} {s : Shape}
    (h : (putAll params store (.table fields)).1 = .ok s) :
    ∃ fields', s = .table fields' ∧ (fields' = [] ↔ fields = [] ∧ params = []) := by
  induction params generalizing store fields with
  | nil => exact ⟨fields, (Except.ok.inj h).symm, by simp⟩
  | cons e params ih =>
    obtain ⟨name, p⟩ := e
    obtain ⟨key, keys, hkeys⟩ := List.exists_cons_of_ne_nil (segments_ne_nil name)
    have hput := put_table (if p.value.isContainer then .valueOf name else .ofJson p.decoded) key keys store fields
    rw [putAll, hkeys] at h
    generalize put (if p.value.isContainer then .valueOf name else .ofJson p.decoded) (key :: keys) store
      (.table fields) = placed at h hput
    obtain ⟨there, store', fault⟩ := placed
    obtain ⟨child, rfl⟩ := hput
    cases fault with
    | some e => cases h
    | none =>
      obtain ⟨fields', rfl, hfields'⟩ := ih h
      exact ⟨fields', rfl, by simp [hfields', Entries.set_ne_nil]⟩

theorem expand_eq_nil_iff {params : Entries Param} {store : Store} {values : Entries Json}
    (h : (store.expand params).1 = .ok values) : values = [] ↔ params = [] := by
  unfold expand at h
  obtain ⟨s, hs, rfl⟩ := of_map_ok h
  obtain ⟨fields, rfl, hfields⟩ := putAll_table hs
  rw [Shape.value, Json.members]
  cases fields <;> simp_all [fieldValues]

end Store

/-! ## Samples one after the other -/

theorem ofShared_body {base : String} {route : Route} {shared shared' : SharedValues} {r : SampleRequest}
    (h : SampleRequest.ofShared base route shared = (.ok r, shared')) : r.body = [] ↔ route.params.body = [] := by
  unfold SampleRequest.ofShared at h
  split at h
  · cases h
  · rename_i query _ _
    split at h
    · cases h
    · rename_i body _ hbody
      obtain rfl := Except.ok.inj (Prod.mk.inj h).1
      exact Store.expand_eq_nil_iff (congrArg Prod.fst hbody)

/-- A sample of a series, where it is written, sends a body just if the route has parameters of one. -/
def SendsWhere (route : Route) (language : String) (sample : Except Failure String) : Prop :=
  ∀ text, sample = .ok text → ∃ l, Language.ofName? language = some l ∧ (SendsBody l text ↔ route.params.body ≠ [])

theorem nextSample_sends (base : String) (route : Route) (shared : SharedValues) (language : String) :
    SendsWhere route language (nextSample base route shared language).1 := by
  intro text htext
  unfold nextSample at htext
  split at htext
  · cases htext
  · rename_i l hl
    generalize hrequest : SampleRequest.ofShared base route shared = made at htext
    obtain ⟨request, shared'⟩ := made
    obtain ⟨r, rfl, rfl⟩ := of_map_ok htext
    exact ⟨l, hl, by rw [SampleRequest.sendsBody_render_iff, ne_eq, ofShared_body hrequest]⟩

theorem samplesFrom_sends (base : String) (route : Route) (shared : SharedValues) (languages : List String) :
    List.Forall₂ (SendsWhere route) languages (samplesFrom base route shared languages).1 := by
  induction languages generalizing shared with
  | nil => exact .nil
  | cons language languages ih => exact .cons (nextSample_sends base route shared language) (ih _)

end ApiManual
