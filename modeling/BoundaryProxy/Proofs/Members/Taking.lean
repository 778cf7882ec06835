import BoundaryProxy.Proofs.Catalog.Lookup
import BoundaryProxy.Proofs.Catalog.VisitOrder
import BoundaryProxy.Proofs.Members.Enumeration

/-!
# `Proofs.Members.Taking` — which interface a name is taken from

Several interfaces that are reached may declare a member of one kind under one name. The members of the name come from
the interface at whose visit one is added (`Takes`). This is the first one visited that declares the name
(`takes_iff_find?`), so there is one such interface (`existsUnique_takes`), and of the name there is in the end what it
declares (`Takes.shows`).
-/

namespace BoundaryProxy

open Relation (ReflTransGen)

/-- The kinds of members. Names are only compared among members of one kind. -/
inductive MemberKind where
  | method
  | getter
  | setter
  | event
deriving DecidableEq

namespace MemberKind

/-- The names under which an interface declares members of a kind. -/
def declared : MemberKind → Interface → List String
  | method, i => i.plainMethods.map (·.name)
  | getter, i => i.getters.map (·.name)
  | setter, i => i.setters.map (·.name)
  | event, i => i.events.map (·.name)

/-- The names of the members of a kind that were collected. -/
def collected : MemberKind → MemberSet → List String
  | method, s => s.methods.map (·.name)
  | getter, s => s.getters.map (·.name)
  | setter, s => s.setters.map (·.name)
  | event, s => s.events.map (·.name)

/-- Absorbing an interface adds a member of a name. -/
def Adds (k : MemberKind) (n : String) (s : MemberSet) (i : Interface) : Prop :=
  (k.collected s).count n < (k.collected (s.absorb i)).count n

/-- A set of members shows of a name what an interface declares of it: the first getter, setter or event, or all of
    the methods, some of which may be set aside. -/
def Shows : MemberKind → MemberSet → String → Interface → Prop
  | method, s, n, i =>
    ((s.methods ++ s.rejected).filter (·.name == n)).Perm (i.plainMethods.filter (·.name == n))
  | getter, s, n, i => s.getters.filter (·.name == n) = (i.getters.filter (·.name == n)).take 1
  | setter, s, n, i => s.setters.filter (·.name == n) = (i.setters.filter (·.name == n)).take 1
  | event, s, n, i => s.events.filter (·.name == n) = (i.events.filter (·.name == n)).take 1

variable {k : MemberKind} {n : String} {s : MemberSet} {i : Interface} {is before after : List Interface}

/-! ## One interface -/

/-- A list gets a share of what is declared under a name if it has nothing of the name, and otherwise nothing. -/
theorem added_of_firstOf {α : Type} {name : α → String} {old new own share : List α}
    (h : new.filter (name · == n) = firstOf (old.filter (name · == n)) share)
    (hshare : share = [] ↔ own.filter (name · == n) = []) :
    (n ∈ new.map name ↔ n ∈ old.map name ∨ n ∈ own.map name) ∧
      ((old.map name).count n < (new.map name).count n ↔ n ∉ old.map name ∧ n ∈ own.map name) := by
  have hown : own.filter (name · == n) ≠ [] ↔ share ≠ [] := not_congr hshare.symm
  rw [mem_map_iff_filter, mem_map_iff_filter, mem_map_iff_filter, count_map_eq_length_filter,
    count_map_eq_length_filter, hown, h]
  by_cases hold : old.filter (name · == n) = []
  · rw [hold, firstOf_nil_left]
    simp [List.length_pos_iff]
  · rw [firstOf_of_ne_nil hold]
    simp [hold]

/-- What is collected after an interface, and when the interface adds to it. -/
theorem collected_absorb (k : MemberKind) (n : String) (s : MemberSet) (i : Interface) :
    (n ∈ k.collected (s.absorb i) ↔ n ∈ k.collected s ∨ n ∈ k.declared i) ∧
      (k.Adds n s i ↔ n ∉ k.collected s ∧ n ∈ k.declared i) := by
  have htake : ∀ {α : Type} (xs : List α), xs.take 1 = [] ↔ xs = [] := by
    intro α xs
    simp
  cases k with
  | method => exact added_of_firstOf (MemberSet.filter_methods_absorb s i) Iff.rfl
  | getter =>
    refine added_of_firstOf ?_ (htake _)
    exact s.getters_absorb i ▸ MemberSet.filter_addNew MethodDecl.name s.getters i.getters
  | setter =>
    refine added_of_firstOf ?_ (htake _)
    exact s.setters_absorb i ▸ MemberSet.filter_addNew MethodDecl.name s.setters i.setters
  | event => exact added_of_firstOf (MemberSet.filter_addNew _ s.events i.events) (htake _)

/-! ## All interfaces -/

/-- What was collected are the names that were declared. -/
theorem mem_collected_foldl : n ∈ k.collected (is.foldl MemberSet.absorb {}) ↔ ∃ i ∈ is, n ∈ k.declared i := by
  have hrun : ∀ s : MemberSet, n ∈ k.collected (is.foldl MemberSet.absorb s) ↔
      n ∈ k.collected s ∨ ∃ i ∈ is, n ∈ k.declared i := by
    induction is with
    | nil => simp
    | cons i is ih =>
      intro s
      rw [List.foldl_cons, ih, (collected_absorb k n s i).1, or_assoc, List.exists_mem_cons_iff]
  have hnone : n ∉ k.collected {} := by
    cases k <;> exact List.not_mem_nil
  rw [hrun, or_iff_right hnone]

/-- Where one member is kept of each name, it is the first that the first interface with the name declares. -/
theorem take_of_first {α : Type} {name : α → String} {own : Interface → List α} {kept : List α}
    (h : ∀ n, kept.filter (name · == n) = (firstNamed name own n (before ++ i :: after)).take 1)
    (hbefore : ∀ j ∈ before, n ∉ (own j).map name) (hi : n ∈ (own i).map name) :
    kept.filter (name · == n) = ((own i).filter (name · == n)).take 1 := by
  rw [h, firstNamed_append_cons hbefore hi]

/-- Of a name there is in the end what the first interface that declares it declares. -/
theorem shows_of_first {policy : OutParamPolicy} (h : s.Enumerates (before ++ i :: after) policy)
    (hbefore : ∀ j ∈ before, n ∉ k.declared j) (hi : n ∈ k.declared i) : k.Shows s n i := by
  cases k with
  | method =>
    have hfirst : firstNamed (·.name) Interface.plainMethods n (before ++ i :: after) =
        i.plainMethods.filter (·.name == n) := firstNamed_append_cons hbefore hi after
    show ((s.methods ++ s.rejected).filter (·.name == n)).Perm _
    -- a method is either kept or set aside
    rw [List.filter_append, h.methods, h.rejected, hfirst]
    exact List.perm_append_comm.trans (List.filter_append_perm (MemberSet.rejects policy) _)
  | getter => exact take_of_first h.getters hbefore hi
  | setter => exact take_of_first h.setters hbefore hi
  | event => exact take_of_first h.events hbefore hi

end MemberKind

namespace Catalog

variable {c : Catalog} {wrapped : Interface} {k : MemberKind} {n : String} {t x y : TypeExpr}
  {order visited : List TypeExpr}

/-! ## The interfaces that a wrapped one leads to -/

/-- Inheritance from a wrapped interface on: from each type to its bases that resolve. -/
abbrev Derives (c : Catalog) (wrapped : Interface) : TypeExpr → TypeExpr → Prop :=
  LeadsTo (c.model? wrapped) Interface.bases

/-- The visit from a wrapped interface finds these types in this order. -/
def Visits (c : Catalog) (wrapped : Interface) (order : List TypeExpr) : Prop :=
  ∃ visited, DepthFirst (c.model? wrapped) Interface.bases [wrapped.type] [] order visited

/-- The interface of a type declares a member of a kind under a name. -/
def Declares (c : Catalog) (wrapped : Interface) (k : MemberKind) (n : String) (t : TypeExpr) : Prop :=
  ∃ i ∈ c.model? wrapped t, n ∈ k.declared i

instance : DecidablePred (c.Declares wrapped k n) := fun t =>
  inferInstanceAs (Decidable (∃ i ∈ c.model? wrapped t, n ∈ k.declared i))

/-- The enumeration takes a name from a type: at the visit of its interface a member of the name is added to those
    of the interfaces visited before. -/
def Takes (c : Catalog) (wrapped : Interface) (k : MemberKind) (n : String) (t : TypeExpr) : Prop :=
  ∃ before after, c.Visits wrapped (before ++ t :: after) ∧
    ∃ i ∈ c.model? wrapped t, k.Adds n ((before.filterMap (c.model? wrapped)).foldl MemberSet.absorb {}) i

/-- One type is visited before another. -/
def VisitsBefore (c : Catalog) (wrapped : Interface) (t u : TypeExpr) : Prop :=
  ∃ before between after, c.Visits wrapped (before ++ t :: (between ++ u :: after))

theorem exists_visits (c : Catalog) (wrapped : Interface) : ∃ order, c.Visits wrapped order := by
  obtain ⟨order, visited, hvisit, -⟩ := c.lineage_depthFirst wrapped
  exact ⟨order, visited, hvisit⟩

namespace Visits

theorem unique {order' : List TypeExpr} (h : c.Visits wrapped order) (h' : c.Visits wrapped order') :
    order' = order := by
  obtain ⟨visited, hvisit⟩ := h
  obtain ⟨visited', hvisit'⟩ := h'
  exact (hvisit'.unique hvisit).1

theorem nodup (h : c.Visits wrapped order) : order.Nodup := by
  obtain ⟨visited, hvisit⟩ := h
  exact hvisit.nodup

theorem mem_iff (h : c.Visits wrapped order) : t ∈ order ↔ ReflTransGen (c.Derives wrapped) wrapped.type t := by
  obtain ⟨visited, hvisit⟩ := h
  have hroot : (c.model? wrapped wrapped.type).isSome := by
    rw [model?, if_pos rfl]
    rfl
  exact hvisit.mem_iff hroot

/-- The members are those of the interfaces visited, in this order. -/
theorem lineage_eq (h : c.Visits wrapped order) : c.lineage wrapped = order.filterMap (c.model? wrapped) := by
  obtain ⟨order', visited', hvisit', hlineage⟩ := c.lineage_depthFirst wrapped
  obtain rfl : order = order' := unique ⟨visited', hvisit'⟩ h
  rw [hvisit'.map_look] at hlineage
  exact (List.map_injective_iff.mpr (fun _ _ => Option.some.inj) hlineage).symm

/-- A type is reached past types that are visited before it. -/
theorem path_before {before after : List TypeExpr} (h : c.Visits wrapped (before ++ t :: after)) :
    ReflTransGen (fun u v => c.Derives wrapped u v ∧ u ∈ before) wrapped.type t := by
  obtain ⟨visited, hvisit⟩ := h
  obtain ⟨root, hroot, hpath⟩ := hvisit.path_before rfl
  rwa [List.mem_singleton.mp hroot] at hpath

end Visits

/-! ## Where a name is taken from -/

/-- Of types that were visited, some declares a name if it is among the names collected from their interfaces. -/
theorem mem_collected_iff_declares {types : List TypeExpr} :
    n ∈ k.collected ((types.filterMap (c.model? wrapped)).foldl MemberSet.absorb {}) ↔
      ∃ t ∈ types, c.Declares wrapped k n t := by
  rw [MemberKind.mem_collected_foldl]
  constructor
  · rintro ⟨i, hi, hn⟩
    obtain ⟨t, ht, hmodel⟩ := List.mem_filterMap.mp hi
    exact ⟨t, ht, i, hmodel, hn⟩
  · rintro ⟨t, ht, i, hmodel, hn⟩
    exact ⟨i, List.mem_filterMap.mpr ⟨t, ht, hmodel⟩, hn⟩

/-- A name is taken from a type if it declares the name and none of those visited before does. -/
theorem takes_iff : c.Takes wrapped k n t ↔ ∃ before after, c.Visits wrapped (before ++ t :: after) ∧
    c.Declares wrapped k n t ∧ ∀ u ∈ before, ¬ c.Declares wrapped k n u := by
  refine exists_congr fun before => exists_congr fun after => and_congr_right fun _ => ?_
  have hbefore : n ∉ k.collected ((before.filterMap (c.model? wrapped)).foldl MemberSet.absorb {}) ↔
      ∀ u ∈ before, ¬ c.Declares wrapped k n u := by
    rw [mem_collected_iff_declares]
    simp only [not_exists, not_and]
  constructor
  · rintro ⟨i, hmodel, hadds⟩
    obtain ⟨hnew, hn⟩ := (MemberKind.collected_absorb k n _ i).2.mp hadds
    exact ⟨⟨i, hmodel, hn⟩, hbefore.mp hnew⟩
  · rintro ⟨⟨i, hmodel, hn⟩, hnone⟩
    exact ⟨i, hmodel, (MemberKind.collected_absorb k n _ i).2.mpr ⟨hbefore.mpr hnone, hn⟩⟩

/-- **A name is taken from the first type visited that declares it.** -/
theorem takes_iff_find? (h : c.Visits wrapped order) :
    c.Takes wrapped k n t ↔ order.find? (c.Declares wrapped k n ·) = some t := by
  rw [takes_iff, List.find?_eq_some_iff_append]
  constructor
  · rintro ⟨before, after, hvisits, hdeclares, hbefore⟩
    obtain rfl := h.unique hvisits
    exact ⟨decide_eq_true hdeclares, before, after, rfl, fun u hu => by simpa using hbefore u hu⟩
  · rintro ⟨hdeclares, before, after, rfl, hbefore⟩
    exact ⟨before, after, h, of_decide_eq_true hdeclares, fun u hu => by simpa using hbefore u hu⟩

/-- What is reached and declares a name makes the name be taken from somewhere, and from one type only. -/
theorem existsUnique_takes (hreached : ReflTransGen (c.Derives wrapped) wrapped.type y)
    (hdeclares : c.Declares wrapped k n y) : ∃! t, c.Takes wrapped k n t := by
  obtain ⟨order, hvisits⟩ := c.exists_visits wrapped
  have hsome : (order.find? (c.Declares wrapped k n ·)).isSome :=
    List.find?_isSome.mpr ⟨y, hvisits.mem_iff.mpr hreached, decide_eq_true hdeclares⟩
  obtain ⟨t, ht⟩ := Option.isSome_iff_exists.mp hsome
  refine ⟨t, (takes_iff_find? hvisits).mpr ht, fun u hu => ?_⟩
  have hu' := (takes_iff_find? hvisits).mp hu
  rw [ht] at hu'
  exact (Option.some.inj hu').symm

/-- The members of a name are those of the type that it is taken from. -/
theorem Takes.shows {i : Interface} (h : c.Takes wrapped k n t) (hi : c.model? wrapped t = some i)
    (policy : OutParamPolicy) : k.Shows (c.members policy wrapped) n i := by
  obtain ⟨before, after, hvisits, ⟨j, hj, hn⟩, hbefore⟩ := takes_iff.mp h
  obtain rfl : j = i := Option.some.inj (hj.symm.trans hi)
  have hlineage : c.lineage wrapped =
      before.filterMap (c.model? wrapped) ++ j :: after.filterMap (c.model? wrapped) := by
    rw [hvisits.lineage_eq, List.filterMap_append, List.filterMap_cons_some hi]
  have henum : MemberSet.Enumerates _ policy (c.members policy wrapped) :=
    MemberSet.enumerates_foldl policy (c.lineage wrapped)
  rw [hlineage] at henum
  refine MemberKind.shows_of_first henum (fun m hm hdeclared => ?_) hn
  obtain ⟨u, hu, hmodel⟩ := List.mem_filterMap.mp hm
  exact hbefore u hu ⟨m, hmodel, hdeclared⟩

/-- **Of two types that declare a name** it is not taken from the one visited later. -/
theorem VisitsBefore.not_takes (h : c.VisitsBefore wrapped x y) (hx : c.Declares wrapped k n x) :
    ¬ c.Takes wrapped k n y := by
  obtain ⟨before, between, after, hvisits⟩ := h
  intro htakes
  have hfirst : (x :: (between ++ y :: after)).find? (c.Declares wrapped k n ·) = some x :=
    List.find?_cons_of_pos (decide_eq_true hx)
  rw [takes_iff_find? hvisits, List.find?_append, hfirst] at htakes
  have hnodup := hvisits.nodup
  have hy : y ∈ between ++ y :: after := List.mem_append_right _ List.mem_cons_self
  -- what is found stands no later than the first of the two
  cases hfound : before.find? (c.Declares wrapped k n ·) with
  | none =>
    rw [hfound, Option.none_or, Option.some.injEq] at htakes
    subst htakes
    exact (List.nodup_cons.mp (List.nodup_append.mp hnodup).2.1).1 hy
  | some z =>
    rw [hfound, Option.some_or, Option.some.injEq] at htakes
    subst htakes
    exact (List.nodup_append.mp hnodup).2.2 z (List.mem_of_find?_eq_some hfound) z
      (List.mem_cons_of_mem _ hy) rfl

end Catalog

end BoundaryProxy
