import BoundaryProxy.Proofs.Catalog.DepthFirst
import BoundaryProxy.Proofs.Text.Fragment
import BoundaryProxy.Registry.Discovery

/-!
# `Proofs.Registry.Discovery` — every property of the registry root is accounted for

A container is a registry if a type that it leads to lists the marker with one argument. Interfaces may inherit from
each other in a circle, so what a container leads to is told by a relation on the catalog (`Inherits`), not by a walk
through it; the walk that the discovery makes finds exactly that (`mem_reach_iff`). It stops at the first marker it
meets, and the container itself is what it looks at first.

* `marks_of_memberType?_eq_some`, `memberType?_eq_none_iff`: the member type that is found is the argument of a marker
  the container implements, and none is found only if it implements none.
* **`discoverRegistries_accounts`**: a host without the property or the root is reported once; otherwise each property
  of the root, in order, is left out, described or reported, and nothing else comes of it.
-/

namespace BoundaryProxy

variable {c : Catalog} {p : Profile} {marker : String} {container m t : TypeExpr} {model : Interface}

/-! ## What a container implements -/

/-- A type is the marker of the registries of a member type. -/
def IsMarker (marker : String) (m t : TypeExpr) : Prop :=
  t.name = marker ∧ t.args = [m]

/-- A type is another one or inherits from it, where everything in between resolves. -/
def Inherits (c : Catalog) : TypeExpr → TypeExpr → Prop :=
  Relation.ReflTransGen (LeadsTo c.get? Interface.bases)

/-- A type resolves and lists the marker of a member type itself. -/
def Implements (c : Catalog) (marker : String) (t m : TypeExpr) : Prop :=
  ∃ model, c.get? t = some model ∧ ∃ base ∈ model.bases, IsMarker marker m base

/-- The first of some bases that is a marker is the one of a member type. -/
def FirstMarker (marker : String) (bases : List TypeExpr) (m : TypeExpr) : Prop :=
  ∃ front base back, bases = front ++ base :: back ∧ IsMarker marker m base ∧
    ∀ earlier ∈ front, ∀ other, ¬ IsMarker marker other earlier

/-- A member type belongs to a container. -/
structure Marks (c : Catalog) (marker : String) (container m : TypeExpr) : Prop where
  /-- Some type that the container leads to implements its marker. -/
  implemented : ∃ t, Inherits c container t ∧ Implements c marker t m
  /-- What the container lists itself goes first. -/
  own : ∀ model other, c.get? container = some model → Implements c marker container other →
    FirstMarker marker model.bases m

theorem markerArgument?_eq_some_iff : Discovery.markerArgument? marker t = some m ↔ IsMarker marker m t := by
  unfold Discovery.markerArgument? IsMarker
  split
  · next member hargs =>
    rw [Option.ite_none_right_eq_some, hargs, Option.some.injEq, List.cons.injEq, and_iff_left rfl]
  · next hargs => exact ⟨nofun, fun h => absurd h.2 (hargs m)⟩

theorem markerArgument?_eq_none_iff :
    Discovery.markerArgument? marker t = none ↔ ∀ other, ¬ IsMarker marker other t := by
  rw [Option.eq_none_iff_forall_ne_some]
  exact forall_congr' fun other => not_congr markerArgument?_eq_some_iff

/-- The marker that is found among some bases is the first of them. -/
theorem firstMarker_iff {bases : List TypeExpr} :
    bases.findSome? (Discovery.markerArgument? marker) = some m ↔ FirstMarker marker bases m := by
  simp only [List.findSome?_eq_some_iff, markerArgument?_eq_some_iff, markerArgument?_eq_none_iff, FirstMarker]

/-! ## The walk -/

/-- **The walk from a container** finds the interfaces of the types it leads to. -/
theorem mem_reach_iff : model ∈ c.reach (·.bases.reverse) [container] [] ↔
    ∃ t, Inherits c container t ∧ c.get? t = some model := by
  have hlook : ∀ u ∉ ([] : List TypeExpr), c.get? u = c.get? u := fun _ _ => rfl
  obtain ⟨found, visited, hvisit⟩ := c.exists_depthFirst (·.bases.reverse) [container] [] hlook
  have hreach := Catalog.reach_append hvisit hlook []
  rw [List.append_nil, Catalog.reach_nil, List.append_nil] at hreach
  -- the order in which the bases are visited does not matter to where they lead
  have hleads : LeadsTo c.get? (·.bases.reverse) = LeadsTo c.get? Interface.bases := by
    funext t u
    simp only [LeadsTo, List.mem_reverse]
  rw [hreach, List.mem_filterMap]
  refine exists_congr fun t => and_congr_left fun ht => ?_
  constructor
  · intro hmem
    obtain ⟨root, hroot, hpath⟩ := hvisit.reached hmem
    rw [List.mem_singleton.mp hroot, hleads] at hpath
    exact hpath
  · intro hpath
    have hroot : (c.get? container).isSome := isSome_of_reaches hpath (by rw [ht]; rfl)
    exact (hvisit.mem_iff hroot).mpr (by rwa [hleads])

/-- What is found on the way is implemented by a type on the way. -/
theorem implements_of_mem_reach (hmodel : model ∈ c.reach (·.bases.reverse) [container] [])
    (h : model.bases.findSome? (Discovery.markerArgument? marker) = some m) :
    ∃ t, Inherits c container t ∧ Implements c marker t m := by
  obtain ⟨t, hpath, ht⟩ := mem_reach_iff.mp hmodel
  obtain ⟨base, hbase, hm⟩ := List.exists_of_findSome?_eq_some h
  exact ⟨t, hpath, model, ht, base, hbase, markerArgument?_eq_some_iff.mp hm⟩

/-- **The member type that is found** belongs to the container. -/
theorem marks_of_memberType?_eq_some (h : Discovery.memberType? c marker container = some m) :
    Marks c marker container m where
  implemented := by
    obtain ⟨model, hmodel, hm⟩ := List.exists_of_findSome?_eq_some h
    exact implements_of_mem_reach hmodel hm
  own := by
    rintro model other hmodel ⟨model', hmodel', base, hbase, hother⟩
    obtain rfl := Option.some.inj (hmodel.symm.trans hmodel')
    -- the container comes first in the walk, and as it lists a marker the search does not get past it
    unfold Discovery.memberType? at h
    rw [Catalog.reach_cons_of_get?_eq_some List.not_mem_nil hmodel, List.findSome?_cons] at h
    cases hown : model.bases.findSome? (Discovery.markerArgument? marker) with
    | some first =>
      rw [hown] at h
      exact firstMarker_iff.mp (hown.trans h)
    | none =>
      have hnone := List.findSome?_eq_none_iff.mp hown base hbase
      exact absurd hother (markerArgument?_eq_none_iff.mp hnone other)

/-- **No member type is found** exactly if no type that the container leads to implements a marker. -/
theorem memberType?_eq_none_iff : Discovery.memberType? c marker container = none ↔
    ∀ t other, Inherits c container t → ¬ Implements c marker t other := by
  constructor
  · rintro h t other hpath ⟨model, hmodel, base, hbase, hother⟩
    have hmem : model ∈ c.reach (·.bases.reverse) [container] [] := mem_reach_iff.mpr ⟨t, hpath, hmodel⟩
    have hnone := List.findSome?_eq_none_iff.mp (List.findSome?_eq_none_iff.mp h model hmem) base hbase
    exact markerArgument?_eq_none_iff.mp hnone other hother
  · intro h
    rw [Option.eq_none_iff_forall_ne_some]
    intro other hsome
    obtain ⟨t, hpath, hother⟩ := (marks_of_memberType?_eq_some hsome).implemented
    exact h t other hpath hother

/-! ## What becomes of the properties -/

/-- The profile leaves a container out: a fragment that it names stands in the container's simple name. -/
def Excluded (p : Profile) (container : TypeExpr) : Prop :=
  ∃ fragment ∈ p.excludedRegistries, ∃ before after, container.simpleName = before ++ fragment ++ after

theorem isExcluded_iff : Discovery.isExcluded p container = true ↔ Excluded p container := by
  unfold Discovery.isExcluded Excluded
  simp only [List.any_eq_true, Text.hasFragment_iff]

/-- The notice of a discovery that left something out. -/
def skipped (message : String) : Diagnostic :=
  ⟨.warning, some .registrySkipped, message⟩

/-- Each of the properties of a registry root, in order, is left out for its container's name, is described as a
    registry, or is reported. A container that is left out is not looked at further. -/
inductive Accounted (c : Catalog) (p : Profile) (root : TypeExpr) :
    List PropertyDecl → List RegistryDescriptor → List Diagnostic → Prop
  | done : Accounted c p root [] [] []
  | excluded {property : PropertyDecl} {rest : List PropertyDecl} {descriptors : List RegistryDescriptor}
      {diagnostics : List Diagnostic} : Excluded p property.type → Accounted c p root rest descriptors diagnostics →
      Accounted c p root (property :: rest) descriptors diagnostics
  | described {property : PropertyDecl} {m : TypeExpr} {rest : List PropertyDecl}
      {descriptors : List RegistryDescriptor} {diagnostics : List Diagnostic} : ¬ Excluded p property.type →
      Marks c p.registryMarker property.type m → Accounted c p root rest descriptors diagnostics →
      Accounted c p root (property :: rest) (⟨property.name, property.type, m, .int⟩ :: descriptors) diagnostics
  | reported {property : PropertyDecl} {rest : List PropertyDecl} {descriptors : List RegistryDescriptor}
      {diagnostics : List Diagnostic} : ¬ Excluded p property.type →
      (∀ t other, Inherits c property.type t → ¬ Implements c p.registryMarker t other) →
      Accounted c p root rest descriptors diagnostics →
      Accounted c p root (property :: rest) descriptors
        (skipped s!"{root}.{property.name} ({property.type}) does not implement {p.registryMarker}<T>; skipped" ::
          diagnostics)

/-- What the discovery of a host's registries returns and reports. -/
inductive Discovered (c : Catalog) (p : Profile) (host : Interface) :
    List RegistryDescriptor → List Diagnostic → Prop
  /-- The host has no property by the name. -/
  | noProperty : (∀ property ∈ host.properties, property.name ≠ p.registryProperty) →
      Discovered c p host []
        [skipped s!"{host.type} has no '{p.registryProperty}' property; no registries discovered"]
  /-- The type of the first such property does not resolve. -/
  | noRoot {front back : List PropertyDecl} {property : PropertyDecl} :
      host.properties = front ++ property :: back → (∀ earlier ∈ front, earlier.name ≠ p.registryProperty) →
      property.name = p.registryProperty → c.get? property.type = none →
      Discovered c p host [] [skipped s!"registry root type {property.type} is not available"]
  /-- It resolves, and each of its properties is looked at. -/
  | listed {front back : List PropertyDecl} {property : PropertyDecl} {root : Interface}
      {descriptors : List RegistryDescriptor} {diagnostics : List Diagnostic} :
      host.properties = front ++ property :: back → (∀ earlier ∈ front, earlier.name ≠ p.registryProperty) →
      property.name = p.registryProperty → c.get? property.type = some root →
      Accounted c p property.type root.properties descriptors diagnostics →
      Discovered c p host descriptors diagnostics

/-- The properties of a registry root are accounted for by what the examination of each gives. -/
theorem accounted_examine (root : TypeExpr) (properties : List PropertyDecl) :
    Accounted c p root properties ((properties.filterMap (Discovery.examine c p root)).filterMap Sum.getRight?)
      (((properties.filterMap (Discovery.examine c p root)).filterMap Sum.getLeft?).map (·.diagnostic)) := by
  induction properties with
  | nil => exact .done
  | cons property rest ih =>
    by_cases hexcluded : Discovery.isExcluded p property.type
    · have hexamine : Discovery.examine c p root property = none := by
        rw [Discovery.examine, if_pos hexcluded]
      rw [List.filterMap_cons_none hexamine]
      exact .excluded (isExcluded_iff.mp hexcluded) ih
    · have hkept : ¬ Excluded p property.type := fun h => hexcluded (isExcluded_iff.mpr h)
      cases hmember : Discovery.memberType? c p.registryMarker property.type with
      | some m =>
        have hexamine : Discovery.examine c p root property =
            some (.inr ⟨property.name, property.type, m, .int⟩) := by
          rw [Discovery.examine, if_neg hexcluded, hmember]
        rw [List.filterMap_cons_some hexamine]
        exact .described hkept (marks_of_memberType?_eq_some hmember) ih
      | none =>
        have hexamine : Discovery.examine c p root property =
            some (.inl (.noMarker root property.name property.type p.registryMarker)) := by
          rw [Discovery.examine, if_neg hexcluded, hmember]
        rw [List.filterMap_cons_some hexamine]
        exact .reported hkept (memberType?_eq_none_iff.mp hmember) ih

/-- **Every host's registries** are discovered, and nothing else is returned or reported. -/
theorem discoverRegistries_accounts (c : Catalog) (p : Profile) (host : Interface) :
    Discovered c p host (discoverRegistries c p host).1 ((discoverRegistries c p host).2.map (·.diagnostic)) := by
  unfold discoverRegistries Discovery.registryProperty?
  cases hproperty : host.properties.find? (·.name == p.registryProperty) with
  | none =>
    refine .noProperty fun property hmem => ?_
    simpa using List.find?_eq_none.mp hproperty property hmem
  | some property =>
    obtain ⟨hname, front, back, hsplit, hfront⟩ := List.find?_eq_some_iff_append.mp hproperty
    have hearlier : ∀ earlier ∈ front, earlier.name ≠ p.registryProperty := fun earlier hmem => by
      simpa using hfront earlier hmem
    cases hroot : c.get? property.type with
    | none =>
      simp only [hroot]
      exact .noRoot hsplit hearlier (beq_iff_eq.mp hname) hroot
    | some root =>
      simp only [hroot]
      exact .listed hsplit hearlier (beq_iff_eq.mp hname) hroot (accounted_examine property.type root.properties)

end BoundaryProxy
