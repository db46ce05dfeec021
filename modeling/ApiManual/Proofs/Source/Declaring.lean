import ApiManual.Docstring
import ApiManual.Proofs.Text.Search
import ApiManual.Source.Lookup

/-!
# The owner of a handler

A handler is looked up under the class that its identity names, while the class that declares it can stand
anywhere behind that one in the order of inheritance.

* `DeclaredBy`: the first layer of a class that defines an attribute. Where there is one it gives the attribute
  (`attribute?_eq_some_iff`).
* `ownerPath_pathText`, `handler_of_owner`: an identity is read back into its parts.
* `handler_owners`: the docstring of the owner is that of the named class. For a method that this class defines
  itself it is that of the declaring class; for an inherited one it is so, and the handler gets the group, exactly
  when the two classes do not differ there. For a function of a module it is that of the module.
-/

namespace ApiManual

open Text Source

/-! ## Declaring layers -/

/-- The first layer that defines the attribute, in the order of inheritance. -/
inductive DeclaredBy (layers : List Layer) (name : String) (declaring : Layer) (node : Node) : Prop where
  | mk (before after : List Layer) (hlayers : layers = before ++ declaring :: after)
      (undefined : ∀ layer ∈ before, layer.attributes.lookup name = none)
      (defined : declaring.attributes.lookup name = some node)

section Declared

variable {layers : List Layer} {name : String} {node : Node}

theorem exists_declaredBy_iff : (∃ declaring, DeclaredBy layers name declaring node) ↔
    layers.findSome? (fun layer : Layer => layer.attributes.lookup name) = some node := by
  rw [List.findSome?_eq_some_iff]
  constructor
  · rintro ⟨declaring, before, after, hlayers, hundefined, hdefined⟩
    exact ⟨before, declaring, after, hlayers, hdefined, hundefined⟩
  · rintro ⟨before, declaring, after, hlayers, hdefined, hundefined⟩
    exact ⟨declaring, before, after, hlayers, hundefined, hdefined⟩

/-- An attribute of a class is what the first layer that defines it says, or what no layer defines and all classes
have. -/
theorem attribute?_eq_some_iff : (Node.cls layers).attribute? name = some node ↔
    (∃ declaring, DeclaredBy layers name declaring node) ∨
      (∀ layer ∈ layers, layer.attributes.lookup name = none) ∧ (Node.cls layers).given? name = some node := by
  have hattribute : (Node.cls layers).attribute? name =
      (layers.findSome? fun layer : Layer => layer.attributes.lookup name).or ((Node.cls layers).given? name) := by
    simp only [Node.attribute?, Option.orElse_eq_or]
  rw [hattribute, Option.or_eq_some_iff, exists_declaredBy_iff, List.findSome?_eq_none_iff]

/-- A class declares what it defines itself. -/
theorem DeclaredBy.eq_named {named declaring : Layer} {inherited : List Layer}
    (h : DeclaredBy (named :: inherited) name declaring node) (hnamed : (named.attributes.lookup name).isSome = true) :
    declaring = named := by
  obtain ⟨before, after, hlayers, hundefined, -⟩ := h
  cases before with
  | nil => exact (List.cons.inj hlayers).1.symm
  | cons first before =>
    obtain ⟨rfl, -⟩ := List.cons.inj hlayers
    rw [hundefined named List.mem_cons_self] at hnamed
    cases hnamed

end Declared

/-! ## Identities -/

/-- A part of a path. -/
structure Segment (name : String) : Prop where
  nonempty : name ≠ ""
  undotted : '.' ∉ name.toList

instance (name : String) : Decidable (Segment name) :=
  decidable_of_iff (name ≠ "" ∧ '.' ∉ name.toList) ⟨fun ⟨h, h'⟩ => ⟨h, h'⟩, fun ⟨h, h'⟩ => ⟨h, h'⟩⟩

def pathText (path : List String) : List Char := joinWith ['.'] (path.map String.toList)

/-- The identity `module:Class.method`, also with nested classes or with none. -/
def identityOf (module : String) (path : List String) : String :=
  String.ofList (module.toList ++ ':' :: pathText path)

/-- The module has a name that an identity can begin with, and can be imported. -/
structure Imports (modules : Modules) (module : String) (m : Module) : Prop where
  nonempty : module ≠ ""
  undivided : ':' ∉ module.toList
  imported : importModule modules module = .ok m

section Paths

variable {owners : List String} {name : String}

theorem splitAtLast?_of_not_mem {c : Char} {cs : List Char} (h : c ∉ cs) : splitAtLast? c cs = none := by
  have hnone : cs.reverse.dropWhile (· != c) = [] := by
    rw [List.dropWhile_eq_nil_iff]
    intro d hd
    rw [bne_iff_ne]
    rintro rfl
    exact h (List.mem_reverse.mp hd)
  unfold splitAtLast?
  rw [hnone]

theorem splitAtLast?_append {c : Char} {ds : List Char} (cs : List Char) (h : c ∉ ds) :
    splitAtLast? c (cs ++ c :: ds) = some (cs, ds) := by
  have hpass : ∀ d ∈ ds.reverse, (d != c) = true := by
    intro d hd
    rw [bne_iff_ne]
    rintro rfl
    exact h (List.mem_reverse.mp hd)
  have hreverse : (cs ++ c :: ds).reverse = ds.reverse ++ c :: cs.reverse := by simp
  unfold splitAtLast?
  rw [hreverse, List.dropWhile_append_of_pos hpass, List.takeWhile_append_of_pos hpass]
  simp

theorem pathText_ne_nil {path : List String} (hne : path ≠ []) (h : ∀ s ∈ path, Segment s) : pathText path ≠ [] := by
  obtain ⟨first, rest, rfl⟩ := List.exists_cons_of_ne_nil hne
  have hfirst : first.toList ≠ [] := by
    intro hnil
    exact (h first List.mem_cons_self).nonempty (String.toList_eq_nil_iff.mp hnil)
  cases rest with
  | nil => simpa [pathText] using hfirst
  | cons next rest => simp [pathText, hfirst]

/-- The last part of a path is parted from those before it. -/
theorem ownerPath_pathText (howners : ∀ s ∈ owners, Segment s) (hname : Segment name) :
    ownerPath (pathText (owners ++ [name])) = (owners, String.ofList (pathText owners), name) := by
  by_cases hne : owners = []
  · subst hne
    have hpath : pathText ([] ++ [name]) = name.toList := by simp [pathText]
    unfold ownerPath
    rw [hpath, splitAtLast?_of_not_mem hname.undotted]
    simp [pathText]
  · have hpath : pathText (owners ++ [name]) = pathText owners ++ '.' :: name.toList := by
      unfold pathText
      rw [List.map_append, List.map_singleton, joinWith_concat _ _ (by simpa using hne)]
      rfl
    have hsegments : splitOn '.' (pathText owners) = owners.map String.toList := by
      refine splitOn_joinWith (by simpa using hne) ?_
      simp only [List.forall_mem_map]
      exact fun s hs => (howners s hs).undotted
    unfold ownerPath
    rw [hpath, splitAtLast?_append _ hname.undotted]
    simp [pathText_ne_nil hne howners, hsegments, Function.comp_def]

/-- What is found for an identity whose owner is there. -/
theorem handler_of_owner {modules : Modules} {module : String} {m : Module} (hmodule : Imports modules module m)
    (howners : ∀ s ∈ owners, Segment s) (hname : Segment name) {owner : Owner}
    (hfollow : (Owner.module m).follow? owners = some owner) :
    modules.handler (identityOf module (owners ++ [name])) =
      .ok ((owner.attribute? name).map fun node =>
        { identity := identityOf module (owners ++ [name]), doc := node.doc, ownerDoc := owner.doc }) := by
  have hsplit : splitAtFirst? [':'] (identityOf module (owners ++ [name])).toList =
      some (module.toList, pathText (owners ++ [name])) := by
    have hclear : Clear [':'] module.toList (':' :: pathText (owners ++ [name])) :=
      clear_of_head hmodule.undivided rfl _
    have hself : splitAtFirst? [':'] (':' :: pathText (owners ++ [name])) = some ([], pathText (owners ++ [name])) :=
      splitAtFirst?_self [':'] _
    rw [identityOf, String.toList_ofList, splitAtFirst?_append hclear, hself]
    simp
  have hempty : (module.toList.isEmpty || (pathText (owners ++ [name])).isEmpty) = false := by
    have hsegments : ∀ s ∈ owners ++ [name], Segment s := by
      intro s hs
      obtain hs | hs := List.mem_append.mp hs
      · exact howners s hs
      · rwa [List.mem_singleton.mp hs]
    have hpath : pathText (owners ++ [name]) ≠ [] := pathText_ne_nil (by simp) hsegments
    have hmodule : module.toList ≠ [] := fun hnil => hmodule.nonempty (String.toList_eq_nil_iff.mp hnil)
    rw [List.isEmpty_eq_false_iff.mpr hmodule, List.isEmpty_eq_false_iff.mpr hpath]
    rfl
  unfold Modules.handler
  simp only [hsplit, hempty, Bool.false_eq_true, if_false, String.ofList_toList, hmodule.imported,
    ownerPath_pathText howners hname, hfollow, bind, Except.bind, pure, Except.pure]

end Paths

/-! ## Groups -/

/-- The group that a docstring gives on its own. -/
def docGroup? (doc : Option String) : Option String :=
  match (Docstring.read? doc).first? "group" with
  | some tag => if tag.content = "" then none else some tag.content
  | none => none

theorem routeGroup_eq (handlerDoc ownerDoc : Option String) :
    routeGroup handlerDoc ownerDoc = ((docGroup? handlerDoc).or (docGroup? ownerDoc)).getD "general" := by
  show (docGroup? handlerDoc <|> docGroup? ownerDoc).getD "general" = _
  cases docGroup? handlerDoc <;> rfl

/-- Two owners give a handler the same group if it has one of its own, or if they agree. -/
theorem routeGroup_eq_iff (handlerDoc ownerDoc ownerDoc' : Option String) :
    routeGroup handlerDoc ownerDoc = routeGroup handlerDoc ownerDoc' ↔
      (docGroup? handlerDoc).isSome = true ∨
        (docGroup? ownerDoc).getD "general" = (docGroup? ownerDoc').getD "general" := by
  rw [routeGroup_eq, routeGroup_eq]
  cases docGroup? handlerDoc <;> simp

/-! ## Owners -/

/-- The handler of a class gets the docstring of the class that its identity names, which declares the methods that
it defines itself. An inherited handler gets the docstring of the class that declares it, and the group of that class,
exactly when the named class does not make the difference. A function of a module gets the docstring of the module. -/
theorem handler_owners {modules : Modules} {module : String} {m : Module} (hmodule : Imports modules module m) :
    (∀ owners name named inherited node, (∀ s ∈ owners, Segment s) → Segment name →
      (Owner.module m).follow? owners = some (.node (.cls (named :: inherited))) →
      (Node.cls (named :: inherited)).attribute? name = some node → node.present? = some node →
      ∃ source, modules.handler (identityOf module (owners ++ [name])) = .ok (some source) ∧ source.doc = node.doc ∧
        source.ownerDoc = named.doc ∧
        ((∃ declaring, DeclaredBy (named :: inherited) name declaring node) ∨
          ∀ layer ∈ named :: inherited, layer.attributes.lookup name = none) ∧
        ∀ declaring, DeclaredBy (named :: inherited) name declaring node →
          ((named.attributes.lookup name).isSome = true → source.ownerDoc = declaring.doc) ∧
          (source.ownerDoc = declaring.doc ↔ named.doc = declaring.doc) ∧
          (routeGroup source.doc source.ownerDoc = routeGroup source.doc declaring.doc ↔
            (docGroup? node.doc).isSome = true ∨
              (docGroup? named.doc).getD "general" = (docGroup? declaring.doc).getD "general")) ∧
    ∀ name node, Segment name → m.attribute? name = some node → node.present? = some node →
      ∃ source, modules.handler (identityOf module [name]) = .ok (some source) ∧ source.doc = node.doc ∧
        source.ownerDoc = m.doc := by
  constructor
  · intro owners name named inherited node howners hname hfollow hnode hpresent
    refine ⟨⟨identityOf module (owners ++ [name]), node.doc, named.doc⟩, ?_, rfl, rfl,
      (attribute?_eq_some_iff.mp hnode).imp_right And.left, ?_⟩
    · rw [handler_of_owner hmodule howners hname hfollow, Owner.attribute?, hnode, Option.bind_some, hpresent]
      rfl
    · intro declaring hdeclared
      refine ⟨fun hnamed => ?_, Iff.rfl, routeGroup_eq_iff ..⟩
      rw [hdeclared.eq_named hnamed]
  · intro name node hname hnode hpresent
    refine ⟨⟨identityOf module [name], node.doc, m.doc⟩, ?_, rfl, rfl⟩
    have howners : ∀ s ∈ ([] : List String), Segment s := by simp
    rw [← List.nil_append [name], handler_of_owner hmodule howners hname rfl, Owner.attribute?, hnode,
      Option.bind_some, hpresent]
    rfl

/-! ## An inherited handler -/

namespace Backoffice

def base : Layer := .mk ["Base"] (some "Orders.\n\n@group Orders") [("show", .function (some "Show."))]

def admin : Layer := .mk ["Admin"] none []

def shop : Module where
  doc := some "The shop."
  attributes := [("Base", .cls [base]), ("Admin", .cls [admin, base]), ("ping", .function (some "Ping."))]

def modules : Modules := [("shop", shop)]

theorem linked : linkModule (some "The shop.") [
    ("Base", .cls (some "Orders.\n\n@group Orders") [("show", .function (some "Show."))] []),
    ("Admin", .cls none [] ["Base"]),
    ("ping", .function (some "Ping."))] = .ok shop := by rfl

theorem imports : Imports modules "shop" shop := ⟨by decide, by decide, rfl⟩

theorem declared : DeclaredBy [admin, base] "show" base (.function (some "Show.")) :=
  ⟨[admin], [], rfl, by decide, rfl⟩

theorem handler_owners_shop :
    (∃ source, modules.handler "shop:Base.show" = .ok (some source) ∧ source.doc = some "Show." ∧
      source.ownerDoc = base.doc ∧ routeGroup source.doc source.ownerDoc = routeGroup source.doc base.doc) ∧
    ∃ source, modules.handler "shop:ping" = .ok (some source) ∧ source.doc = some "Ping." ∧
      source.ownerDoc = shop.doc := by
  obtain ⟨hclass, hfunction⟩ := handler_owners imports
  constructor
  · obtain ⟨source, hsource, hdoc, -, -, hdeclaring⟩ := hclass ["Base"] "show" base [] (.function (some "Show."))
      (by decide) (by decide) rfl rfl rfl
    obtain ⟨howner, -, hgroup⟩ := hdeclaring base ⟨[], [], rfl, by decide, rfl⟩
    exact ⟨source, hsource, hdoc, howner rfl, hgroup.mpr (.inr rfl)⟩
  · exact hfunction "ping" (.function (some "Ping.")) (by decide) rfl rfl

/-- The handler is written in the class of the orders, but gets neither its docstring nor its group. -/
theorem inherited_owner_lost :
    modules.handler "shop:Admin.show" = .ok (some ⟨"shop:Admin.show", some "Show.", none⟩) ∧
      DeclaredBy [admin, base] "show" base (.function (some "Show.")) ∧
      base.doc = some "Orders.\n\n@group Orders" ∧
      routeGroup (some "Show.") none = "general" ∧ routeGroup (some "Show.") base.doc = "Orders" := by
  refine ⟨rfl, declared, rfl, ?_, ?_⟩
  · decide +kernel
  · decide +kernel

end Backoffice

end ApiManual
