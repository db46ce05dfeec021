import ApiManual.Proofs.Route.Steps
import ApiManual.Route.Describe

/-!
# Tags in another order

A handler is described from its tags name by name, so how tags of different names are interleaved in its
docstring makes no difference.

* `Docstring.SameByName`: two docstrings that agree on their prose and, name by name, on their tags.
* `readRoute_sameByName`: reading a route looks at no more than that.
* `exec_describeRoute_sameByName`: the result, the calls, the log and the generator are the same.
-/

namespace ApiManual

open Text Work

namespace Docstring

/-- Two docstrings with one prose, whose tags have under each name the same contents in the same order. -/
structure SameByName (d d' : Docstring) : Prop where
  summary : d.summary = d'.summary
  details : d.details = d'.details
  contents : ∀ name, (d.tagsNamed name).map (·.content) = (d'.tagsNamed name).map (·.content)

/-! ## What tags are looked up by -/

/-- Tags of one name are told by their contents. -/
theorem tagsNamed_eq_map (d : Docstring) (name : String) :
    d.tagsNamed name = ((d.tagsNamed name).map (·.content)).map fun content => { name, content } := by
  have hself : ∀ tag ∈ d.tagsNamed name, ({ name, content := tag.content } : Tag) = tag := by
    intro tag htag
    have hname : tag.name = name := by simpa using (List.mem_filter.mp htag).2
    rw [← hname]
  rw [List.map_map]
  exact ((List.map_congr_left hself).trans (List.map_id _)).symm

theorem first?_eq_head? (d : Docstring) (name : String) : d.first? name = (d.tagsNamed name).head? :=
  List.head?_filter.symm

/-- A tag is there in some letter case iff one of the names of that spelling has tags. -/
theorem hasTag_iff (d : Docstring) (name : String) :
    d.hasTag name = true ↔ ∃ n, lower n.toList = lower name.toList ∧ d.tagsNamed n ≠ [] := by
  simp only [hasTag, tagsNamed, List.any_eq_true, beq_iff_eq, ne_eq, List.filter_eq_nil_iff, not_forall,
    not_not]
  constructor
  · rintro ⟨tag, htag, hlower⟩
    exact ⟨tag.name, hlower, tag, htag, rfl⟩
  · rintro ⟨n, hlower, tag, htag, rfl⟩
    exact ⟨tag, htag, hlower⟩

namespace SameByName

variable {d d' : Docstring}

theorem tagsNamed_eq (h : d.SameByName d') (name : String) : d.tagsNamed name = d'.tagsNamed name := by
  rw [tagsNamed_eq_map d, tagsNamed_eq_map d', h.contents]

theorem first?_eq (h : d.SameByName d') (name : String) : d.first? name = d'.first? name := by
  rw [first?_eq_head?, first?_eq_head?, h.tagsNamed_eq]

theorem hasTag_eq (h : d.SameByName d') (name : String) : d.hasTag name = d'.hasTag name := by
  rw [Bool.eq_iff_iff, hasTag_iff, hasTag_iff]
  simp only [h.tagsNamed_eq]

/-- Two neighbours of different names may change places. -/
theorem swap (d : Docstring) (before after : List Tag) {x y : Tag} (hxy : x.name ≠ y.name) :
    SameByName { d with tags := before ++ x :: y :: after } { d with tags := before ++ y :: x :: after } := by
  refine ⟨rfl, rfl, fun name => ?_⟩
  simp only [tagsNamed, List.filter_append, List.filter_cons]
  by_cases hx : x.name = name
  · have hy : y.name ≠ name := fun hy => hxy (hx.trans hy.symm)
    simp [hx, hy]
  · simp [hx]

end SameByName

end Docstring

/-! ## What a route is read from -/

section Read

variable {d d' : Docstring}

theorem readParams_sameByName (h : d.SameByName d') : readParams d = readParams d' := by
  unfold readParams
  simp only [h.tagsNamed_eq]

theorem ofTags_sameByName (h : d.SameByName d') (lookup : ResourceLookup) :
    ResourceSchema.ofTags lookup d.tags = ResourceSchema.ofTags lookup d'.tags :=
  congrArg (·.mapM (ResourceSchema.ofTag lookup)) (h.tagsNamed_eq "responseResource")

theorem declaredResponses_sameByName (h : d.SameByName d') :
    declaredResponses d.tags = declaredResponses d'.tags :=
  congrArg (·.mapM fun tag => ResponseExample.ofContent tag.content) (h.tagsNamed_eq "response")

theorem responsesFor_sameByName (h : d.SameByName d') (record : RouteRecord) :
    responsesFor record d.tags = responsesFor record d'.tags := by
  unfold responsesFor
  rw [declaredResponses_sameByName h]

theorem routeGroup_sameByName {doc doc' : Option String}
    (h : (Docstring.read? doc).SameByName (Docstring.read? doc')) (ownerDoc : Option String) :
    routeGroup doc ownerDoc = routeGroup doc' ownerDoc := by
  unfold routeGroup
  simp only [h.first?_eq]

/-- A route is read from the prose and the tags of each name, the identity and the owner's docstring. -/
theorem readRoute_sameByName {source source' : HandlerSource} (hidentity : source.identity = source'.identity)
    (howner : source.ownerDoc = source'.ownerDoc)
    (h : (Docstring.read? source.doc).SameByName (Docstring.read? source'.doc)) (lookup : ResourceLookup)
    (responses : Bool) (record : RouteRecord) :
    readRoute lookup responses record source = readRoute lookup responses record source' := by
  unfold readRoute readNote
  simp only [readParams_sameByName h, ofTags_sameByName h, responsesFor_sameByName h, h.hasTag_eq, h.summary,
    h.details, routeGroup_sameByName h, hidentity, howner]

end Read

/-! ## Describing a route -/

/-- Handlers whose docstrings agree name by name are described alike by every session: with the same
route or the same failure, and leaving the same session behind. -/
theorem exec_describeRoute_sameByName {source source' : HandlerSource}
    (hidentity : source.identity = source'.identity) (howner : source.ownerDoc = source'.ownerDoc)
    (h : (Docstring.read? source.doc).SameByName (Docstring.read? source'.doc)) (lookup : ResourceLookup)
    (responses : Bool) (record : RouteRecord) (s : Session) :
    exec (describeRoute lookup responses record source) s =
      exec (describeRoute lookup responses record source') s := by
  unfold describeRoute
  rw [readRoute_sameByName hidentity howner h, hidentity]

/-! ## Two orders of three tags -/

namespace TwoOrders

/-- The tags of a kind next to each other. -/
def grouped : HandlerSource :=
  { identity := "shop:list"
    doc := some "Orders.\n\n@queryParam page integer\n@queryParam size integer\n@bodyParam note string" }

/-- A tag of another kind in between. -/
def mixed : HandlerSource :=
  { identity := "shop:list"
    doc := some "Orders.\n\n@queryParam page integer\n@bodyParam note string\n@queryParam size integer" }

def record : RouteRecord := { handler := .named "shop:list", methods := ["POST"], uri := "/orders" }

/-- Without modules, no resource can be found. -/
def lookup : ResourceLookup := Source.Modules.resource []

def session : Session := { generator := .ofSeed 7 }

theorem grouped_sameByName_mixed :
    (Docstring.read? grouped.doc).SameByName (Docstring.read? mixed.doc) := by
  have hgrouped : Docstring.read? grouped.doc =
      { summary := "Orders.", tags := [⟨"queryParam", "page integer"⟩] ++ ⟨"queryParam", "size integer"⟩ ::
          ⟨"bodyParam", "note string"⟩ :: [] } := by decide +kernel
  have hmixed : Docstring.read? mixed.doc =
      { summary := "Orders.", tags := [⟨"queryParam", "page integer"⟩] ++ ⟨"bodyParam", "note string"⟩ ::
          ⟨"queryParam", "size integer"⟩ :: [] } := by decide +kernel
  rw [hgrouped, hmixed]
  exact .swap { summary := "Orders." } [⟨"queryParam", "page integer"⟩] [] (by decide)

theorem exec_grouped_mixed :
    grouped.identity = mixed.identity ∧ grouped.ownerDoc = mixed.ownerDoc ∧
      (Docstring.read? grouped.doc).SameByName (Docstring.read? mixed.doc) ∧
      exec (describeRoute lookup true record grouped) session =
        exec (describeRoute lookup true record mixed) session := by
  have hidentity : grouped.identity = mixed.identity := rfl
  have howner : grouped.ownerDoc = mixed.ownerDoc := rfl
  exact ⟨hidentity, howner, grouped_sameByName_mixed,
    exec_describeRoute_sameByName hidentity howner grouped_sameByName_mixed lookup true record session⟩

end TwoOrders

end ApiManual
