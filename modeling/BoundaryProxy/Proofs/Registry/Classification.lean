import BoundaryProxy.Proofs.Registry.Lookup
import BoundaryProxy.Registry.Classification

/-!
# `Proofs.Registry.Classification` — which descriptors make a set, and what it says of a type

A list of descriptors is a set exactly if no type occurs twice in one role; otherwise it is refused for the first
descriptor that repeats a type of those before it (`firstConflict_eq_some_iff`). In a set a type leads to at most one
descriptor in either role (`find?_key_eq_some_iff`), and the part that the type plays (`Plays`) and the access to its
object (`IsReached`) can be told from the list and the profile without a look-up.

* **`ofList_classifies`**: which lists are sets, what the others are refused for, and what a set says of every type.
-/

namespace BoundaryProxy

/-! ## Repeated types -/

/-- A descriptor repeats a type of the ones before it. A repeated member type counts before a repeated container. -/
inductive Repeats (before : List RegistryDescriptor) (d : RegistryDescriptor) : RegistryConflict → Prop
  | member : d.memberType ∈ before.map (·.memberType) → Repeats before d ⟨d.name, .member, d.memberType⟩
  | container : d.memberType ∉ before.map (·.memberType) → d.registryType ∈ before.map (·.registryType) →
      Repeats before d ⟨d.name, .container, d.registryType⟩

variable {before front rest ds : List RegistryDescriptor} {d : RegistryDescriptor} {conflict : RegistryConflict}

/-- A descriptor that repeats no type joins the ones before it. -/
theorem Distinct.concat (h : Distinct before) (hm : d.memberType ∉ before.map (·.memberType))
    (hr : d.registryType ∉ before.map (·.registryType)) : Distinct (before ++ [d]) := by
  unfold Distinct
  rw [List.map_append, List.map_append, List.map_singleton, List.map_singleton, ← List.concat_eq_append,
    ← List.concat_eq_append]
  exact ⟨h.1.concat hm, h.2.concat hr⟩

theorem Repeats.firstConflict_eq (h : Repeats before d conflict) :
    firstConflict before (d :: rest) = some conflict := by
  rcases h with hm | ⟨hm, hr⟩
  · rw [firstConflict, if_pos hm]
  · rw [firstConflict, if_neg hm, if_pos hr]

theorem exists_repeats (hbefore : Distinct before) (h : firstConflict before ds = some conflict) :
    ∃ front d after, ds = front ++ d :: after ∧ Distinct (before ++ front) ∧ Repeats (before ++ front) d conflict := by
  induction ds generalizing before with
  | nil => cases h
  | cons d rest ih =>
    have here (hrepeats : Repeats before d conflict) : ∃ front e after, d :: rest = front ++ e :: after ∧
        Distinct (before ++ front) ∧ Repeats (before ++ front) e conflict := by
      refine ⟨[], d, rest, rfl, ?_, ?_⟩
      · rwa [List.append_nil]
      · rwa [List.append_nil]
    rw [firstConflict] at h
    by_cases hm : d.memberType ∈ before.map (·.memberType)
    · rw [if_pos hm] at h
      exact here (Option.some.inj h ▸ .member hm)
    · rw [if_neg hm] at h
      by_cases hr : d.registryType ∈ before.map (·.registryType)
      · rw [if_pos hr] at h
        exact here (Option.some.inj h ▸ .container hm hr)
      · rw [if_neg hr] at h
        -- the descriptor repeats nothing and joins the ones before the rest
        obtain ⟨front, e, after, rfl, hfront, hrepeats⟩ := ih (hbefore.concat hm hr) h
        exact ⟨d :: front, e, after, rfl, List.append_cons before d front ▸ hfront,
          List.append_cons before d front ▸ hrepeats⟩

/-- **The conflict that is found** is that of the first descriptor that repeats a type. -/
theorem firstConflict_eq_some_iff :
    firstConflict [] ds = some conflict ↔
      ∃ front d after, ds = front ++ d :: after ∧ Distinct front ∧ Repeats front d conflict := by
  constructor
  · exact exists_repeats ⟨List.nodup_nil, List.nodup_nil⟩
  · rintro ⟨front, d, after, rfl, hfront, hrepeats⟩
    have hpass : firstConflict [] (front ++ d :: after) = firstConflict front (d :: after) :=
      firstConflict_append (show Distinct ([] ++ front) from hfront)
    exact hpass.trans hrepeats.firstConflict_eq

/-! ## What a type leads to -/

variable {r : RegistrySet} {t : TypeExpr} {p : Profile}

theorem find?_key_eq_none_iff {key : RegistryDescriptor → TypeExpr} :
    ds.find? (key · = t) = none ↔ ∀ d ∈ ds, key d ≠ t := by
  simp

/-- The part that a type plays by a list of descriptors. -/
inductive Plays (ds : List RegistryDescriptor) (t : TypeExpr) : Classification → Prop
  | member {d : RegistryDescriptor} : d ∈ ds → d.memberType = t → Plays ds t (.member d)
  | container {d : RegistryDescriptor} : (∀ e ∈ ds, e.memberType ≠ t) → d ∈ ds → d.registryType = t →
      Plays ds t (.container d)
  | passThrough : (∀ e ∈ ds, e.memberType ≠ t) → (∀ e ∈ ds, e.registryType ≠ t) → Plays ds t .passThrough

/-- The first binding of a type's name, whatever arguments the type has. -/
def IsFirstBinding (p : Profile) (t : TypeExpr) (b : SingletonBinding) : Prop :=
  ∃ front back, p.singletons = front ++ b :: back ∧ b.typeName = t.name ∧ ∀ e ∈ front, e.typeName ≠ t.name

/-- How the object of a type is reached by a list of descriptors and a profile. -/
inductive IsReached (ds : List RegistryDescriptor) (p : Profile) (t : TypeExpr) : Access → Prop
  | resolved {d : RegistryDescriptor} : Plays ds t (.member d) → IsReached ds p t (.resolved d)
  | container {d : RegistryDescriptor} : Plays ds t (.container d) → IsReached ds p t (.container d)
  | singleton {b : SingletonBinding} : Plays ds t .passThrough → IsFirstBinding p t b →
      IsReached ds p t (.singleton b.path)
  | injected : Plays ds t .passThrough → (∀ b ∈ p.singletons, b.typeName ≠ t.name) → IsReached ds p t .injected

theorem singleton?_eq_some_iff {b : SingletonBinding} : p.singleton? t.name = some b ↔ IsFirstBinding p t b := by
  unfold Profile.singleton? IsFirstBinding
  rw [List.find?_eq_some_iff_append]
  simp only [decide_eq_true_eq, Bool.not_eq_true', decide_eq_false_iff_not]
  constructor
  · rintro ⟨hb, front, back, hsplit, hfront⟩
    exact ⟨front, back, hsplit, hb, hfront⟩
  · rintro ⟨front, back, hsplit, hb, hfront⟩
    exact ⟨hb, front, back, hsplit, hfront⟩

theorem singleton?_eq_none_iff : p.singleton? t.name = none ↔ ∀ b ∈ p.singletons, b.typeName ≠ t.name := by
  simp [Profile.singleton?]

namespace RegistrySet

theorem byMember?_eq_some_iff : r.byMember? t = some d ↔ d ∈ r.descriptors ∧ d.memberType = t :=
  find?_key_eq_some_iff r.members_nodup

theorem byMember?_eq_none_iff : r.byMember? t = none ↔ ∀ d ∈ r.descriptors, d.memberType ≠ t :=
  find?_key_eq_none_iff

theorem byContainer?_eq_some_iff : r.byContainer? t = some d ↔ d ∈ r.descriptors ∧ d.registryType = t :=
  find?_key_eq_some_iff r.containers_nodup

theorem byContainer?_eq_none_iff : r.byContainer? t = none ↔ ∀ d ∈ r.descriptors, d.registryType ≠ t :=
  find?_key_eq_none_iff

/-- **The part a type plays** is the one that the descriptors say. -/
theorem classify_eq_iff {part : Classification} : r.classify t = part ↔ Plays r.descriptors t part := by
  constructor
  · rintro rfl
    unfold classify
    cases hm : r.byMember? t with
    | some d =>
      obtain ⟨hd, htype⟩ := byMember?_eq_some_iff.mp hm
      exact .member hd htype
    | none =>
      have hmember := byMember?_eq_none_iff.mp hm
      cases hc : r.byContainer? t with
      | some d =>
        obtain ⟨hd, htype⟩ := byContainer?_eq_some_iff.mp hc
        exact .container hmember hd htype
      | none => exact .passThrough hmember (byContainer?_eq_none_iff.mp hc)
  · intro h
    unfold classify
    cases h with
    | member hd htype => rw [byMember?_eq_some_iff.mpr ⟨hd, htype⟩]
    | container hmember hd htype =>
      rw [byMember?_eq_none_iff.mpr hmember, byContainer?_eq_some_iff.mpr ⟨hd, htype⟩]
    | passThrough hmember hcontainer =>
      rw [byMember?_eq_none_iff.mpr hmember, byContainer?_eq_none_iff.mpr hcontainer]

/-- **The access to an object** is the one that the descriptors and the profile say. -/
theorem access_eq_iff {access : Access} : Access.of t r p = access ↔ IsReached r.descriptors p t access := by
  constructor
  · rintro rfl
    unfold Access.of
    cases hpart : r.classify t with
    | member d => exact .resolved (classify_eq_iff.mp hpart)
    | container d => exact .container (classify_eq_iff.mp hpart)
    | passThrough =>
      cases hb : p.singleton? t.name with
      | some b => exact .singleton (classify_eq_iff.mp hpart) (singleton?_eq_some_iff.mp hb)
      | none => exact .injected (classify_eq_iff.mp hpart) (singleton?_eq_none_iff.mp hb)
  · intro h
    unfold Access.of
    cases h with
    | resolved hpart => rw [classify_eq_iff.mpr hpart]
    | container hpart => rw [classify_eq_iff.mpr hpart]
    | singleton hpart hb =>
      rw [classify_eq_iff.mpr hpart]
      simp only [singleton?_eq_some_iff.mpr hb]
    | injected hpart hb =>
      rw [classify_eq_iff.mpr hpart]
      simp only [singleton?_eq_none_iff.mpr hb]

theorem ofList_eq_error_iff : ofList ds = .error conflict ↔ firstConflict [] ds = some conflict := by
  unfold ofList
  split
  · rename_i found hfound
    rw [hfound, Except.error.injEq, Option.some.injEq]
  · rename_i hnone
    refine ⟨fun h => (nomatch h), fun h => ?_⟩
    rw [hnone] at h
    cases h

/-- **Which lists are sets, and what sets say.** A list of descriptors is a set exactly if the member types are pairwise
    distinct and so are the container types. Any other list is refused for the first descriptor that repeats a type of
    those before it, which are distinct. In a set every type leads to the one descriptor that has it as member type, if
    there is one, and to the one that has it as container type, and these say the part that the type plays and how its
    object is reached, also where a type has both roles. -/
theorem ofList_classifies (ds : List RegistryDescriptor) :
    ((∃ r, ofList ds = .ok r) ↔ Distinct ds) ∧
    (∀ conflict, ofList ds = .error conflict ↔
      ∃ front d after, ds = front ++ d :: after ∧ Distinct front ∧ Repeats front d conflict) ∧
    ∀ r, ofList ds = .ok r → ∀ t,
      (∀ d, r.byMember? t = some d ↔ d ∈ ds ∧ d.memberType = t) ∧
      (∀ d, r.byContainer? t = some d ↔ d ∈ ds ∧ d.registryType = t) ∧
      (∀ part, r.classify t = part ↔ Plays ds t part) ∧
      ∀ p access, Access.of t r p = access ↔ IsReached ds p t access := by
  refine ⟨⟨?_, fun h => ⟨⟨ds, h.1, h.2⟩, ofList_eq_ok_iff.mpr rfl⟩⟩, fun conflict => ?_, ?_⟩
  · rintro ⟨r, hr⟩
    obtain rfl := ofList_eq_ok_iff.mp hr
    exact ⟨r.members_nodup, r.containers_nodup⟩
  · exact ofList_eq_error_iff.trans firstConflict_eq_some_iff
  · rintro r hr t
    obtain rfl := ofList_eq_ok_iff.mp hr
    exact ⟨fun d => byMember?_eq_some_iff, fun d => byContainer?_eq_some_iff, fun part => classify_eq_iff,
      fun p access => access_eq_iff⟩

/-- A type that is kept in one container and is the container of another counts as kept. -/
theorem ofList_classifies_both_roles :
    let elements : RegistryDescriptor := ⟨"Elements", .named "Ns.IElements", .named "Ns.IElement", .int⟩
    let groups : RegistryDescriptor := ⟨"Groups", .named "Ns.IGroups", .named "Ns.IElements", .int⟩
    ∃ r, ofList [elements, groups] = .ok r ∧ r.byMember? (.named "Ns.IElements") = some groups ∧
      r.byContainer? (.named "Ns.IElements") = some elements ∧
      r.classify (.named "Ns.IElements") = .member groups ∧
      Access.of (.named "Ns.IGroups") r .default = .container groups := by
  intro elements groups
  obtain ⟨hset, -, hanswers⟩ := ofList_classifies [elements, groups]
  obtain ⟨r, hr⟩ := hset.mpr (by unfold Distinct; decide)
  obtain ⟨hmember, hcontainer, hpart, -⟩ := hanswers r hr (.named "Ns.IElements")
  obtain ⟨-, -, -, haccess⟩ := hanswers r hr (.named "Ns.IGroups")
  refine ⟨r, hr, (hmember groups).mpr ⟨by simp, rfl⟩, (hcontainer elements).mpr ⟨by simp, rfl⟩,
    (hpart _).mpr (.member (by simp) rfl), (haccess _ _).mpr (.container (.container ?_ (by simp) rfl))⟩
  decide

end RegistrySet

end BoundaryProxy
