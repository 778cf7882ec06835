import BoundaryProxy.TypeExpr.Printer

/-!
# `BoundaryProxy.Registry.Basic` — which types the host keeps in registries

A registry descriptor says that objects of a member type are kept in a container, where the host finds them
by a key. A `RegistrySet` is a list of descriptors in which no member type and no container type occurs
twice, so a type leads to at most one descriptor in either role.

Main statement: `ofList` refuses a list exactly when some descriptor repeats a type of an earlier one, and
names the first that does (`firstConflict`).
-/

namespace BoundaryProxy

/-- Objects of a member type are kept in a container, under keys. -/
structure RegistryDescriptor where
  name : String
  registryType : TypeExpr
  memberType : TypeExpr
  keyType : TypeExpr := .int
deriving Repr, DecidableEq

/-- The part a type plays in a descriptor. -/
inductive RegistryRole where
  | member
  | container
deriving Repr, DecidableEq

/-- What a role is called in messages. -/
def RegistryRole.text : RegistryRole → String
  | member => "member"
  | container => "registry"

/-- A descriptor that repeats a type of an earlier one. -/
structure RegistryConflict where
  name : String
  role : RegistryRole
  type : TypeExpr
deriving Repr, DecidableEq

/-- The message for descriptors that repeat a type. -/
def RegistryConflict.message (c : RegistryConflict) : String :=
  s!"Registry descriptor '{c.name}' duplicates the {c.role.text} type {c.type}"

/-- The first descriptor of a list that repeats a type of the ones before it; a repeated member type counts
    before a repeated container. -/
def firstConflict (before : List RegistryDescriptor) : List RegistryDescriptor → Option RegistryConflict
  | [] => none
  | d :: rest =>
    if d.memberType ∈ before.map (·.memberType) then some ⟨d.name, .member, d.memberType⟩
    else if d.registryType ∈ before.map (·.registryType) then some ⟨d.name, .container, d.registryType⟩
    else firstConflict (before ++ [d]) rest

/-- Without a conflict no type occurs twice in one role. -/
theorem nodup_of_firstConflict_eq_none {before ds : List RegistryDescriptor}
    (hm : (before.map (·.memberType)).Nodup) (hr : (before.map (·.registryType)).Nodup)
    (h : firstConflict before ds = none) :
    ((before ++ ds).map (·.memberType)).Nodup ∧ ((before ++ ds).map (·.registryType)).Nodup := by
  induction ds generalizing before with
  | nil => simpa using ⟨hm, hr⟩
  | cons d rest ih =>
    simp only [firstConflict] at h
    split at h
    · cases h
    · rename_i hnm
      split at h
      · cases h
      · rename_i hnr
        have hm' : ((before ++ [d]).map (·.memberType)).Nodup := by
          rw [List.map_append, List.nodup_append]
          refine ⟨hm, by simp, fun a ha b hb => ?_⟩
          simp only [List.map_cons, List.map_nil, List.mem_singleton] at hb
          rintro rfl
          exact hnm (hb ▸ ha)
        have hr' : ((before ++ [d]).map (·.registryType)).Nodup := by
          rw [List.map_append, List.nodup_append]
          refine ⟨hr, by simp, fun a ha b hb => ?_⟩
          simp only [List.map_cons, List.map_nil, List.mem_singleton] at hb
          rintro rfl
          exact hnr (hb ▸ ha)
        have := ih hm' hr' h
        simpa using this

/-- Descriptors in which no member type and no container type occurs twice. -/
structure RegistrySet where
  descriptors : List RegistryDescriptor
  members_nodup : (descriptors.map (·.memberType)).Nodup
  containers_nodup : (descriptors.map (·.registryType)).Nodup

namespace RegistrySet

/-- The set without descriptors. -/
def empty : RegistrySet :=
  ⟨[], by simp, by simp⟩

instance : Inhabited RegistrySet :=
  ⟨empty⟩

/-- The set of a list of descriptors, or the first descriptor that repeats a type. -/
def ofList (ds : List RegistryDescriptor) : Except RegistryConflict RegistrySet :=
  match h : firstConflict [] ds with
  | some conflict => .error conflict
  | none =>
    have nodup := nodup_of_firstConflict_eq_none (by simp) (by simp) h
    .ok ⟨ds, nodup.1, nodup.2⟩

/-- The descriptor whose members have the type. -/
def byMember? (r : RegistrySet) (t : TypeExpr) : Option RegistryDescriptor :=
  r.descriptors.find? (·.memberType = t)

/-- The descriptor whose container has the type. -/
def byContainer? (r : RegistrySet) (t : TypeExpr) : Option RegistryDescriptor :=
  r.descriptors.find? (·.registryType = t)

end RegistrySet

end BoundaryProxy
