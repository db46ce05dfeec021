import ApiManual.OpenApi.Document
import ApiManual.Proofs.Entries
import ApiManual.Proofs.Results

/-!
# Operations under their paths

The operations of a document are written group by group into path items that stand in the order of the
routes. `assemble_paths`: as long as no two routes take one slot, routes and operations correspond one to
one.

* `perm_groupMembers`: grouping neither loses nor repeats a route.
* `pathItems_eq`: operations are built first and put into their places afterwards.
* `perm_operations_putAll`: each operation that is put into a place of its own stays there.
-/

namespace ApiManual

/-- Where an operation stands: its path and the key of its method. -/
abbrev Slot := String × String

/-- The slot of a route, if it has a method. -/
def Route.slot? (route : Route) : Option Slot :=
  route.methods.head?.map fun method => (pathKey route.uri, lowerString method)

/-- The operations of all paths with their slots. -/
def PathItems.operations (paths : PathItems) : List (Slot × Json) :=
  paths.flatMap fun item => item.2.map fun op => ((item.1, op.1), op.2)

/-! ## Groups -/

/-- The routes of all groups, each with the name of its group. -/
def members (groups : Entries (List Route)) : List (String × Route) :=
  groups.flatMap fun group => group.2.map fun route => (group.1, route)

/-- Add a route to its group. -/
def join (groups : Entries (List Route)) (route : Route) : Entries (List Route) :=
  groups.set route.group ((groups.get? route.group).getD [] ++ [route])

def groupMembers (routes : List Route) : List (String × Route) := members (groupRoutes routes)

theorem perm_members_join (groups : Entries (List Route)) (route : Route) :
    (members (join groups route)).Perm ((route.group, route) :: members groups) := by
  apply Entries.perm_flatMap_set
  · intro hnone
    simp [hnone]
  · intro old hold
    simp only [hold, Option.getD_some, List.map_append, List.map_cons, List.map_nil]
    exact List.perm_append_singleton _ _

theorem perm_members_foldl (groups : Entries (List Route)) (routes : List Route) :
    (members (routes.foldl join groups)).Perm
      (routes.map (fun route => (route.group, route)) ++ members groups) := by
  induction routes generalizing groups with
  | nil => exact List.Perm.refl _
  | cons route routes ih =>
    have hrest := ih (join groups route)
    exact hrest.trans (((perm_members_join groups route).append_left _).trans List.perm_middle)

theorem perm_groupMembers (routes : List Route) :
    (groupMembers routes).Perm (routes.map fun route => (route.group, route)) := by
  have hperm := perm_members_foldl [] routes
  rwa [show members [] = [] from rfl, List.append_nil] at hperm

theorem mem_groupMembers {routes : List Route} {member : String × Route} :
    member ∈ groupMembers routes ↔ member.2 ∈ routes ∧ member.1 = member.2.group := by
  rw [(perm_groupMembers routes).mem_iff, List.mem_map]
  constructor
  · rintro ⟨route, hroute, rfl⟩
    exact ⟨hroute, rfl⟩
  · rintro ⟨hroute, hgroup⟩
    exact ⟨member.2, hroute, by rw [← hgroup]⟩

/-! ## Operations before they are put into place -/

/-- The operation that a route adds for a group, with its slot. -/
def Route.entry (sampler : Sampler) (group : String) (route : Route) :
    Except Failure (Option (Slot × Json)) :=
  match route.methods with
  | [] => .ok none
  | method :: _ =>
    (operation sampler route group).map fun op => some ((pathKey route.uri, lowerString method), op)

/-- Put an operation into its place. -/
def PathItems.put (paths : PathItems) (entry : Slot × Json) : PathItems :=
  paths.set entry.1.1 (Entries.set ((paths.get? entry.1.1).getD []) entry.1.2 entry.2)

def PathItems.putAll (paths : PathItems) (entries : List (Option (Slot × Json))) : PathItems :=
  (entries.filterMap id).foldl PathItems.put paths

/-- The paths of all routes, still without operations. -/
def emptyItems (routes : List Route) : PathItems :=
  Entries.ofPairs (routes.map fun route => (pathKey route.uri, []))

section Entry

variable {sampler : Sampler} {route : Route}

theorem addOperation_eq (paths : PathItems) (group : String) (route : Route) :
    addOperation sampler paths group route =
      (route.entry sampler group).map fun entry => paths.putAll [entry] := by
  unfold addOperation Route.entry
  cases route.methods with
  | nil => rfl
  | cons method methods =>
    simp only
    cases operation sampler route group <;> rfl

theorem entry_ok_iff {group : String} :
    (∃ entry, route.entry sampler group = .ok entry) ↔
      (route.methods ≠ [] → ∃ op, operation sampler route group = .ok op) := by
  unfold Route.entry
  cases route.methods with
  | nil => simp
  | cons method methods => cases operation sampler route group <;> simp [Except.map]

/-- A route adds an operation at its slot and nowhere else. -/
theorem entry_eq_some_iff {group : String} {slot : Slot} {op : Json} :
    route.entry sampler group = .ok (some (slot, op)) ↔
      route.slot? = some slot ∧ operation sampler route group = .ok op := by
  unfold Route.entry Route.slot?
  cases route.methods with
  | nil => simp
  | cons method methods => cases operation sampler route group <;> simp [Except.map]

theorem entry_slot {group : String} {entry : Option (Slot × Json)}
    (h : route.entry sampler group = .ok entry) : entry.map (·.1) = route.slot? := by
  cases entry with
  | none =>
    unfold Route.entry at h
    unfold Route.slot?
    cases hmethods : route.methods with
    | nil => rfl
    | cons method methods => cases hop : operation sampler route group <;> simp [hmethods, hop, Except.map] at h
  | some entry => exact (entry_eq_some_iff.mp h).1.symm

end Entry

/-- `Route.entry` of a route with the name of its group. -/
def memberEntry (sampler : Sampler) (member : String × Route) : Except Failure (Option (Slot × Json)) :=
  member.2.entry sampler member.1

theorem slots_of_entries {sampler : Sampler} {members : List (String × Route)}
    {entries : List (Option (Slot × Json))}
    (h : List.Forall₂ (fun member entry => memberEntry sampler member = .ok entry) members entries) :
    (entries.filterMap id).map (·.1) = members.filterMap (·.2.slot?) := by
  induction h with
  | nil => rfl
  | @cons member entry members entries hentry _ ih =>
    have hslot := entry_slot hentry
    cases entry with
    | none => simpa [← hslot] using ih
    | some entry => simpa [← hslot] using ih

theorem foldlM_groups (sampler : Sampler) (groups : Entries (List Route)) (paths : PathItems) :
    groups.foldlM (fun paths (group, members) =>
      members.foldlM (fun paths route => addOperation sampler paths group route) paths) paths =
    (members groups).foldlM (fun paths member => addOperation sampler paths member.1 member.2) paths := by
  induction groups generalizing paths with
  | nil => rfl
  | cons group groups ih =>
    unfold members
    rw [List.foldlM_cons, List.flatMap_cons, List.foldlM_append, List.foldlM_map]
    congr 1
    funext paths'
    exact ih paths'

theorem foldlM_members (sampler : Sampler) (members : List (String × Route)) (paths : PathItems) :
    members.foldlM (fun paths member => addOperation sampler paths member.1 member.2) paths =
      (members.mapM (memberEntry sampler)).map paths.putAll := by
  induction members generalizing paths with
  | nil => rfl
  | cons member members ih =>
    rw [List.foldlM_cons, mapM_cons_eq, addOperation_eq]
    cases hentry : memberEntry sampler member with
    | error f =>
      rw [memberEntry] at hentry
      rw [hentry]
      rfl
    | ok entry =>
      rw [memberEntry] at hentry
      rw [hentry]
      have hrest := ih (paths.putAll [entry])
      cases hread : members.mapM (memberEntry sampler) with
      | error f =>
        rw [hread] at hrest
        exact hrest
      | ok entries =>
        rw [hread] at hrest
        refine hrest.trans ?_
        cases entry <;> rfl

/-- All operations are built, and then they are put into their places. -/
theorem pathItems_eq (sampler : Sampler) (routes : List Route) :
    pathItems sampler routes = ((groupMembers routes).mapM (memberEntry sampler)).map fun entries =>
      List.filter (fun item => !item.2.isEmpty) ((emptyItems routes).putAll entries) := by
  have hfold := (foldlM_groups sampler (groupRoutes routes) (emptyItems routes)).trans
    (foldlM_members sampler (groupMembers routes) (emptyItems routes))
  unfold pathItems
  simp only
  rw [← emptyItems, hfold]
  cases (groupMembers routes).mapM (memberEntry sampler) <;> rfl

/-! ## Operations in their places -/

namespace PathItems

variable {paths : PathItems}

/-- An operation that is put into a place of its own is added to the others. -/
theorem perm_operations_put (paths : PathItems) {entry : Slot × Json} (h : entry.1 ∉ paths.operations.map (·.1)) :
    (paths.put entry).operations.Perm (entry :: paths.operations) := by
  obtain ⟨⟨path, method⟩, op⟩ := entry
  apply Entries.perm_flatMap_set
  · intro hnone
    simp [hnone, Entries.set]
  · intro old hold
    have hfresh : method ∉ Entries.names old := by
      intro hmethod
      obtain ⟨⟨_, op'⟩, hop', rfl⟩ := List.mem_map.mp hmethod
      obtain ⟨before, after, hpaths, -⟩ := List.lookup_eq_some_iff.mp hold
      refine h (List.mem_map.mpr ⟨((path, _), op'), ?_, rfl⟩)
      refine List.mem_flatMap.mpr ⟨(path, old), by simp [hpaths], ?_⟩
      exact List.mem_map.mpr ⟨_, hop', rfl⟩
    simp only [hold, Option.getD_some]
    rw [Entries.set_of_fresh hfresh, List.map_append]
    exact List.perm_append_singleton _ _

theorem perm_operations_putAll (paths : PathItems) {entries : List (Option (Slot × Json))}
    (h : ((entries.filterMap id).map (·.1) ++ paths.operations.map (·.1)).Nodup) :
    (paths.putAll entries).operations.Perm (entries.filterMap id ++ paths.operations) := by
  unfold putAll
  generalize entries.filterMap id = entries at h ⊢
  induction entries generalizing paths with
  | nil => exact List.Perm.refl _
  | cons entry entries ih =>
    rw [List.map_cons, List.cons_append, List.nodup_cons] at h
    obtain ⟨hfresh, hrest⟩ := h
    have hput := perm_operations_put paths fun hmem => hfresh (List.mem_append_right _ hmem)
    have hslots : (entries.map (·.1) ++ (paths.put entry).operations.map (·.1)).Perm
        (entry.1 :: (entries.map (·.1) ++ paths.operations.map (·.1))) :=
      ((hput.map _).append_left _).trans List.perm_middle
    have hnext := ih (paths.put entry) (hslots.nodup_iff.mpr (List.nodup_cons.mpr ⟨hfresh, hrest⟩))
    exact hnext.trans ((hput.append_left _).trans List.perm_middle)

/-- Operations that are put under paths that are there keep the paths as they are. -/
theorem names_putAll {entries : List (Option (Slot × Json))}
    (h : ∀ entry ∈ entries.filterMap id, entry.1.1 ∈ paths.names) : (paths.putAll entries).names = paths.names := by
  unfold putAll
  generalize entries.filterMap id = entries at h ⊢
  induction entries generalizing paths with
  | nil => rfl
  | cons entry entries ih =>
    obtain ⟨hentry, hentries⟩ := List.forall_mem_cons.mp h
    have hput : (paths.put entry).names = paths.names := Entries.names_set_of_mem hentry _
    rw [List.foldl_cons, ih (by rwa [hput]), hput]

theorem operations_filter (paths : PathItems) :
    PathItems.operations (paths.filter fun item => !item.2.isEmpty) = paths.operations := by
  unfold operations
  induction paths with
  | nil => rfl
  | cons item paths ih =>
    obtain ⟨path, ops⟩ := item
    cases ops with
    | nil => simpa using ih
    | cons op ops =>
      rw [List.filter_cons_of_pos (by simp), List.flatMap_cons, ih, List.flatMap_cons]

end PathItems

theorem operations_emptyItems (routes : List Route) : (emptyItems routes).operations = [] := by
  have hempty : ∀ item ∈ emptyItems routes, item.2 = [] :=
    Entries.forall_ofPairs (P := fun ops : Entries Json => ops = []) (List.forall_mem_map.mpr fun _ _ => rfl)
  refine List.flatMap_eq_nil_iff.mpr fun item hitem => ?_
  rw [hempty item hitem]
  rfl

theorem inFirstOrder_emptyItems (routes : List Route) :
    InFirstOrder (routes.map fun route => pathKey route.uri) (emptyItems routes).names := by
  have h := Entries.inFirstOrder_ofPairs (routes.map fun route => (pathKey route.uri, ([] : Entries Json)))
  rwa [List.map_map] at h

/-! ## Routes and operations -/

/-- The tags of an operation are its group alone. -/
theorem operation_tags {sampler : Sampler} {route : Route} {group : String} {op : Json}
    (h : operation sampler route group = .ok op) : Entries.get? op.members "tags" = some (textList [group]) := by
  unfold operation at h
  cases hresponses : responseEntries route with
  | error f => simp [hresponses, bind, Except.bind] at h
  | ok responses =>
    cases hsamples : sampleEntry sampler route with
    | error f => simp [hresponses, hsamples, bind, Except.bind] at h
    | ok sampled =>
      obtain ⟨samples, route'⟩ := sampled
      simp only [hresponses, hsamples, bind, Except.bind, pure, Except.pure] at h
      obtain rfl := Except.ok.inj h
      cases route'.authenticated <;> rfl

/-- Routes and the operations of paths correspond one to one. -/
structure Corresponds (sampler : Sampler) (routes : List Route) (paths : PathItems) : Prop where
  /-- A route with a method has its operation at its slot, tagged with its own group. -/
  each : ∀ route ∈ routes, ∀ slot, route.slot? = some slot → ∃ op,
    operation sampler route route.group = .ok op ∧ Entries.get? op.members "tags" = some (textList [route.group]) ∧
      (slot, op) ∈ paths.operations
  only : ∀ entry ∈ paths.operations, ∃ route ∈ routes,
    route.slot? = some entry.1 ∧ operation sampler route route.group = .ok entry.2
  distinct : (paths.operations.map (·.1)).Nodup
  inhabited : ∀ item ∈ paths, item.2 ≠ []
  /-- Paths stand in the order in which they come first among all routes. -/
  order : paths.names.Pairwise fun path path' =>
    (routes.map fun route => pathKey route.uri).idxOf path <
      (routes.map fun route => pathKey route.uri).idxOf path'

section Routes

variable {sampler : Sampler} {routes : List Route}

theorem pathItems_ok_iff :
    (∃ paths, pathItems sampler routes = .ok paths) ↔
      ∀ route ∈ routes, route.methods ≠ [] → ∃ op, operation sampler route route.group = .ok op := by
  have hbuilt : (∃ paths, pathItems sampler routes = .ok paths) ↔
      ∃ entries, (groupMembers routes).mapM (memberEntry sampler) = .ok entries := by
    rw [pathItems_eq]
    cases (groupMembers routes).mapM (memberEntry sampler) <;> simp [Except.map]
  rw [hbuilt]
  constructor
  · rintro ⟨entries, hentries⟩ route hroute
    have hmem : (route.group, route) ∈ groupMembers routes := mem_groupMembers.mpr ⟨hroute, rfl⟩
    obtain ⟨entry, -, hentry⟩ := exists_of_forall₂ (mapM_eq_ok_iff.mp hentries).flip hmem
    exact entry_ok_iff.mp ⟨entry, hentry⟩
  · intro h
    refine exists_mapM_ok fun member hmember => ?_
    obtain ⟨hroute, hgroup⟩ := mem_groupMembers.mp hmember
    rw [memberEntry, hgroup]
    exact entry_ok_iff.mpr (h member.2 hroute)

section Built

variable {entries : List (Option (Slot × Json))}
  (hbuilt : (groupMembers routes).mapM (memberEntry sampler) = .ok entries)

include hbuilt

/-- The operations that are built are those of the routes at their slots. -/
theorem mem_built_iff {slot : Slot} {op : Json} :
    (slot, op) ∈ entries.filterMap id ↔
      ∃ route ∈ routes, route.slot? = some slot ∧ operation sampler route route.group = .ok op := by
  have hentries := mapM_eq_ok_iff.mp hbuilt
  rw [List.mem_filterMap]
  constructor
  · rintro ⟨entry, hentry, rfl⟩
    obtain ⟨member, hmember, hop⟩ := exists_of_forall₂ hentries hentry
    obtain ⟨hroute, hgroup⟩ := mem_groupMembers.mp hmember
    rw [memberEntry, hgroup] at hop
    exact ⟨member.2, hroute, entry_eq_some_iff.mp hop⟩
  · rintro ⟨route, hroute, hslot, hop⟩
    have hmember : (route.group, route) ∈ groupMembers routes := mem_groupMembers.mpr ⟨hroute, rfl⟩
    obtain ⟨entry, hentry, hentryOk⟩ := exists_of_forall₂ hentries.flip hmember
    have hsome := entry_eq_some_iff.mpr ⟨hslot, hop⟩
    obtain rfl : entry = some (slot, op) := Except.ok.inj (hentryOk.symm.trans hsome)
    exact ⟨_, hentry, rfl⟩

/-- The slots of the operations that are built are those of the routes, though in another order. -/
theorem perm_slots_built : ((entries.filterMap id).map (·.1)).Perm (routes.filterMap Route.slot?) := by
  have hslots := slots_of_entries (mapM_eq_ok_iff.mp hbuilt)
  have hperm := (perm_groupMembers routes).filterMap (·.2.slot?)
  rw [List.filterMap_map] at hperm
  rw [hslots]
  exact hperm

theorem names_built : ((emptyItems routes).putAll entries).names = (emptyItems routes).names := by
  refine PathItems.names_putAll fun entry hentry => ?_
  obtain ⟨route, hroute, hslot, -⟩ := (mem_built_iff hbuilt).mp hentry
  obtain ⟨method, -, hslot⟩ := Option.map_eq_some_iff.mp hslot
  rw [(inFirstOrder_emptyItems routes).mem_iff, ← hslot]
  exact List.mem_map.mpr ⟨route, hroute, rfl⟩

theorem perm_operations_built (hslots : (routes.filterMap Route.slot?).Nodup) :
    ((emptyItems routes).putAll entries).operations.Perm (entries.filterMap id) := by
  have hnodup : ((entries.filterMap id).map (·.1) ++ (emptyItems routes).operations.map (·.1)).Nodup := by
    rw [operations_emptyItems, List.map_nil, List.append_nil]
    exact (perm_slots_built hbuilt).nodup_iff.mpr hslots
  have hperm := PathItems.perm_operations_putAll (emptyItems routes) hnodup
  rwa [operations_emptyItems, List.append_nil] at hperm

end Built

theorem pathItems_corresponds (hslots : (routes.filterMap Route.slot?).Nodup) {paths : PathItems}
    (h : pathItems sampler routes = .ok paths) : Corresponds sampler routes paths := by
  have hok := pathItems_ok_iff.mp ⟨paths, h⟩
  rw [pathItems_eq] at h
  cases hbuilt : (groupMembers routes).mapM (memberEntry sampler) with
  | error f => simp [hbuilt, Except.map] at h
  | ok entries =>
    rw [hbuilt] at h
    obtain rfl := Except.ok.inj h
    have hperm := perm_operations_built hbuilt hslots
    constructor
    case each =>
      intro route hroute slot hslot
      obtain ⟨method, hmethod, -⟩ := Option.map_eq_some_iff.mp hslot
      have hmethods : route.methods ≠ [] := fun hnil => by simp [hnil] at hmethod
      obtain ⟨op, hop⟩ := hok route hroute hmethods
      refine ⟨op, hop, operation_tags hop, ?_⟩
      rw [PathItems.operations_filter, hperm.mem_iff]
      exact (mem_built_iff hbuilt).mpr ⟨route, hroute, hslot, hop⟩
    case only =>
      intro entry hentry
      rw [PathItems.operations_filter, hperm.mem_iff] at hentry
      exact (mem_built_iff hbuilt).mp hentry
    case distinct =>
      rw [PathItems.operations_filter, (hperm.map _).nodup_iff]
      exact (perm_slots_built hbuilt).nodup_iff.mpr hslots
    case inhabited =>
      intro item hitem
      simpa using (List.mem_filter.mp hitem).2
    case order =>
      have horder := (inFirstOrder_emptyItems routes).order
      rw [← names_built hbuilt] at horder
      exact horder.sublist (List.filter_sublist.map _)

end Routes

/-- A document is made iff each operation can be, and as long as no two routes take one slot, its paths
correspond to the routes. -/
theorem assemble_paths (config : Config) (sampler : Sampler) {routes : List Route}
    (hslots : (routes.filterMap Route.slot?).Nodup) :
    ((∃ manual, assemble config sampler routes = .ok manual) ↔
      ∀ route ∈ routes, route.methods ≠ [] → ∃ op, operation sampler route route.group = .ok op) ∧
    ∀ manual, assemble config sampler routes = .ok manual → ∃ paths,
      Entries.get? manual.members "paths" = some (.obj (paths.map fun item => (item.1, .obj item.2))) ∧
        Corresponds sampler routes paths := by
  rw [← pathItems_ok_iff]
  unfold assemble
  cases hpaths : pathItems sampler routes with
  | error f => simp [bind, Except.bind]
  | ok paths =>
    refine ⟨⟨fun _ => ⟨paths, rfl⟩, fun _ => ⟨_, rfl⟩⟩, ?_⟩
    intro manual hmanual
    obtain rfl := Except.ok.inj hmanual
    exact ⟨paths, rfl, pathItems_corresponds hslots hpaths⟩

/-! ## Groups that alternate -/

namespace Alternating

def route (group : String) (methods : List String) (uri : String) : Route :=
  { id := routeId uri methods, group, title := "T.", methods, uri }

/-- Routes of two groups that share their paths, and one without methods before the others of its path. -/
def routes : List Route :=
  [route "carts" ["GET"] "/carts", route "orders" [] "orders", route "orders" ["POST"] "//carts",
    route "carts" ["PUT"] "orders/", route "orders" ["GET"] "/orders", route "carts" ["DELETE"] "orders"]

def config : Config := { languageTabs := [("bash", "Bash")] }

theorem assemble_alternating : (routes.filterMap Route.slot?).Nodup ∧
    ∃ manual, assemble config config.sampler routes = .ok manual ∧ ∃ paths,
      Entries.get? manual.members "paths" = some (.obj (paths.map fun item => (item.1, .obj item.2))) ∧
        Corresponds config.sampler routes paths := by
  have hslots : (routes.filterMap Route.slot?).Nodup := by decide +kernel
  obtain ⟨hmade, hpaths⟩ := assemble_paths config config.sampler hslots
  have hbuilt : ∀ route ∈ routes, route.methods ≠ [] → ∃ op, operation config.sampler route route.group = .ok op := by
    intro route hroute _
    simp only [routes, List.mem_cons, List.not_mem_nil, or_false] at hroute
    rcases hroute with rfl | rfl | rfl | rfl | rfl | rfl <;> exact ⟨_, rfl⟩
  obtain ⟨manual, hmanual⟩ := hmade.mpr hbuilt
  exact ⟨hslots, manual, hmanual, hpaths manual hmanual⟩

end Alternating

end ApiManual
