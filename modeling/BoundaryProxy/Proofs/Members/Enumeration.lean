import BoundaryProxy.Members.Basic
import BoundaryProxy.Proofs.Catalog.DepthFirst
import BoundaryProxy.Proofs.Naming.Accessor
import Mathlib.Data.List.Nodup

/-!
# `Proofs.Members.Enumeration` — which members a proxy converts

Absorbing one interface after another leaves, of every name, what the first interface with that name declares
(`foldl_firstOf`). What an interface declares counts each property as the accessors it expands into (`filter_isGetter`,
`filter_isSetter`). The interfaces are those of a depth-first visit from the wrapped one (`lineage_depthFirst`).
`Enumerates` says what follows for the members of all of them, with the policy for methods that hand values
out taken into account.
-/

namespace BoundaryProxy

/-! ## The first list that is not empty -/

section First

variable {α ι : Type}

/-- The first list, or the second if the first is empty. -/
def firstOf (xs ys : List α) : List α :=
  if xs.isEmpty then ys else xs

/-- Of the lists that items give, the first that is not empty. -/
def firstNonempty (f : ι → List α) : List ι → List α
  | [] => []
  | i :: is => firstOf (f i) (firstNonempty f is)

@[simp] theorem firstOf_nil_left (ys : List α) : firstOf [] ys = ys := rfl

theorem firstOf_of_ne_nil {xs : List α} (h : xs ≠ []) (ys : List α) : firstOf xs ys = xs := by
  rw [firstOf, if_neg (by rwa [List.isEmpty_iff])]

theorem firstOf_nil_right (xs : List α) : firstOf xs [] = xs := by
  cases xs <;> rfl

theorem firstOf_assoc (xs ys zs : List α) : firstOf (firstOf xs ys) zs = firstOf xs (firstOf ys zs) := by
  cases xs <;> rfl

theorem firstOf_eq_nil {xs ys : List α} : firstOf xs ys = [] ↔ xs = [] ∧ ys = [] := by
  cases xs <;> simp [firstOf]

theorem take_firstOf (xs ys : List α) : (firstOf xs ys).take 1 = firstOf (xs.take 1) (ys.take 1) := by
  cases xs <;> rfl

theorem take_firstNonempty (f : ι → List α) (is : List ι) :
    (firstNonempty f is).take 1 = firstNonempty (fun i => (f i).take 1) is := by
  induction is with
  | nil => rfl
  | cons i is ih => rw [firstNonempty, firstNonempty, take_firstOf, ih]

theorem firstNonempty_ne_nil {f : ι → List α} {is : List ι} :
    firstNonempty f is ≠ [] ↔ ∃ i ∈ is, f i ≠ [] := by
  induction is with
  | nil => simp [firstNonempty]
  | cons i is ih =>
    rw [firstNonempty, ne_eq, firstOf_eq_nil, Decidable.not_and_iff_not_or_not, ← ne_eq, ← ne_eq, ih]
    simp

theorem mem_of_mem_firstNonempty {f : ι → List α} {is : List ι} {x : α} (h : x ∈ firstNonempty f is) :
    ∃ i ∈ is, x ∈ f i := by
  induction is with
  | nil => cases h
  | cons i is ih =>
    rw [firstNonempty, firstOf] at h
    split at h
    · obtain ⟨j, hj, hx⟩ := ih h
      exact ⟨j, List.mem_cons_of_mem _ hj, hx⟩
    · exact ⟨i, List.mem_cons_self, h⟩

/-- Items that give nothing are passed. -/
theorem firstNonempty_append_cons {f : ι → List α} {before : List ι} {i : ι} (hbefore : ∀ j ∈ before, f j = [])
    (hi : f i ≠ []) (after : List ι) : firstNonempty f (before ++ i :: after) = f i := by
  induction before with
  | nil => exact firstOf_of_ne_nil hi _
  | cons j before ih =>
    obtain ⟨hj, hbefore⟩ := List.forall_mem_cons.mp hbefore
    rw [List.cons_append, firstNonempty, hj, firstOf_nil_left, ih hbefore]

/-- **A view of a state** that takes from each item only what it has nothing of yet ends with what the first
    item has of it. -/
theorem foldl_firstOf {σ : Type} {step : σ → ι → σ} (view : σ → List α) {f : ι → List α}
    (h : ∀ s i, view (step s i) = firstOf (view s) (f i)) (is : List ι) (s : σ) :
    view (is.foldl step s) = firstOf (view s) (firstNonempty f is) := by
  induction is generalizing s with
  | nil => exact (firstOf_nil_right _).symm
  | cons i is ih => rw [List.foldl_cons, ih, h, firstOf_assoc, firstNonempty]

end First

/-- What the first interface that declares something of a name declares of that name. -/
def firstNamed {α : Type} (name : α → String) (declared : Interface → List α) (n : String) :
    List Interface → List α :=
  firstNonempty fun i => (declared i).filter (name · == n)

theorem firstNamed_ne_nil {α : Type} {name : α → String} {declared : Interface → List α} {n : String}
    {is : List Interface} :
    firstNamed name declared n is ≠ [] ↔ ∃ i ∈ is, ∃ x ∈ declared i, name x = n := by
  simp [firstNamed, firstNonempty_ne_nil, List.filter_eq_nil_iff]

theorem mem_map_iff_filter {α : Type} {name : α → String} {n : String} {xs : List α} :
    n ∈ xs.map name ↔ xs.filter (name · == n) ≠ [] := by
  simp [List.filter_eq_nil_iff]

/-- The first interface that declares something of a name is the one. -/
theorem firstNamed_append_cons {α : Type} {name : α → String} {declared : Interface → List α} {n : String}
    {before : List Interface} {i : Interface} (hbefore : ∀ j ∈ before, n ∉ (declared j).map name)
    (hi : n ∈ (declared i).map name) (after : List Interface) :
    firstNamed name declared n (before ++ i :: after) = (declared i).filter (name · == n) := by
  apply firstNonempty_append_cons
  · intro j hj
    by_contra hne
    exact hbefore j hj (mem_map_iff_filter.mpr hne)
  · exact mem_map_iff_filter.mp hi

theorem count_map_eq_length_filter {α : Type} (name : α → String) (n : String) (xs : List α) :
    (xs.map name).count n = (xs.filter (name · == n)).length := by
  rw [List.count, List.countP_map, List.countP_eq_length_filter]
  rfl

/-! ## What an interface declares -/

namespace MemberSet

theorem isGetter_iff {m : MethodDecl} :
    isGetter m = true ↔ m.special = true ∧ ∃ property, m.name = "get_" ++ property := by
  rw [isGetter, Bool.and_eq_true, Naming.beginsWith_iff]

theorem isSetter_iff {m : MethodDecl} :
    isSetter m = true ↔ m.special = true ∧ ∃ property, m.name = "set_" ++ property := by
  rw [isSetter, Bool.and_eq_true, Naming.beginsWith_iff]

end MemberSet

theorem PropertyDecl.special_of_mem_accessors {p : PropertyDecl} {m : MethodDecl} (h : m ∈ p.accessors) :
    m.special = true := by
  rw [accessors, List.mem_append] at h
  rcases h with h | h <;> split at h
  · exact List.mem_singleton.mp h ▸ rfl
  · cases h
  · exact List.mem_singleton.mp h ▸ rfl
  · cases h

/-- A filter that keeps one accessor of each property of a kind keeps those of the properties of that kind. -/
theorem PropertyDecl.filter_accessors {q : MethodDecl → Bool} {can : PropertyDecl → Bool}
    {accessor : PropertyDecl → MethodDecl} (h : ∀ p, p.accessors.filter q = if can p then [accessor p] else [])
    (ps : List PropertyDecl) : (ps.flatMap accessors).filter q = (ps.filter can).map accessor := by
  induction ps with
  | nil => rfl
  | cons p ps ih =>
    rw [List.flatMap_cons, List.filter_append, h, ih]
    cases hcan : can p with
    | true => rw [List.filter_cons_of_pos hcan, if_pos rfl, List.map_cons, List.singleton_append]
    | false => rw [List.filter_cons_of_neg (by rw [hcan]; decide), if_neg (by decide), List.nil_append]

namespace Interface

/-- The methods that are not accessors. No property has a part in them. -/
def plainMethods (i : Interface) : List MethodDecl :=
  i.methods.filter (!·.special)

/-- The accessors that read: those of the properties that can be read, before those that are listed. -/
def getters (i : Interface) : List MethodDecl :=
  ((i.properties.filter (·.canRead)).map fun p => ⟨"get_" ++ p.name, [], p.type, true⟩) ++
    i.methods.filter MemberSet.isGetter

/-- The accessors that write: those of the properties that can be written, before those that are listed. -/
def setters (i : Interface) : List MethodDecl :=
  ((i.properties.filter (·.canWrite)).map fun p =>
      ⟨"set_" ++ p.name, [⟨"value", p.type, .input⟩], .void, true⟩) ++
    i.methods.filter MemberSet.isSetter

variable (i : Interface)

theorem filter_plainMethods : i.allMethods.filter (!·.special) = i.plainMethods := by
  rw [allMethods, List.filter_append, plainMethods, List.append_left_eq_self, List.filter_eq_nil_iff]
  intro m hm
  obtain ⟨p, -, hp⟩ := List.mem_flatMap.mp hm
  rw [PropertyDecl.special_of_mem_accessors hp]
  decide

theorem filter_isGetter : i.allMethods.filter MemberSet.isGetter = i.getters := by
  have hget : ∀ n t, MemberSet.isGetter (.getter n t) = true := fun n _ => MemberSet.isGetter_iff.mpr ⟨rfl, n, rfl⟩
  have hset : ∀ n t, MemberSet.isGetter (.setter n t) = false := by
    intro n t
    simp [MemberSet.isGetter, MethodDecl.setter, Text.beginsWith, List.isPrefixOf]
  rw [allMethods, List.filter_append, getters, PropertyDecl.filter_accessors]
  intro p
  rw [PropertyDecl.accessors]
  cases p.canRead <;> cases p.canWrite <;> simp [hget, hset] <;> rfl

theorem filter_isSetter : i.allMethods.filter MemberSet.isSetter = i.setters := by
  have hget : ∀ n t, MemberSet.isSetter (.getter n t) = false := by
    intro n t
    simp [MemberSet.isSetter, MethodDecl.getter, Text.beginsWith, List.isPrefixOf]
  have hset : ∀ n t, MemberSet.isSetter (.setter n t) = true := fun n _ => MemberSet.isSetter_iff.mpr ⟨rfl, n, rfl⟩
  rw [allMethods, List.filter_append, setters, PropertyDecl.filter_accessors]
  intro p
  rw [PropertyDecl.accessors]
  cases p.canRead <;> cases p.canWrite <;> simp [hget, hset] <;> rfl

/-- An accessor of a name is declared exactly if a property that has such an accessor gives the name, or a method
    marked as special has it. -/
theorem exists_accessor_iff {verb : String} {can : PropertyDecl → Bool} {accessor : PropertyDecl → MethodDecl}
    {q : MethodDecl → Bool} (hname : ∀ p, (accessor p).name = verb ++ p.name)
    (hq : ∀ m, q m = true ↔ m.special = true ∧ ∃ property, m.name = verb ++ property) (n : String) :
    (∃ m ∈ (i.properties.filter can).map accessor ++ i.methods.filter q, m.name = n) ↔
      ∃ property, n = verb ++ property ∧
        ((∃ p ∈ i.properties, can p = true ∧ p.name = property) ∨
          ∃ m ∈ i.methods, m.special = true ∧ m.name = n) := by
  constructor
  · rintro ⟨m, hm, rfl⟩
    rcases List.mem_append.mp hm with hm | hm
    · obtain ⟨p, hp, rfl⟩ := List.mem_map.mp hm
      obtain ⟨hmem, hcan⟩ := List.mem_filter.mp hp
      exact ⟨p.name, hname p, .inl ⟨p, hmem, hcan, rfl⟩⟩
    · obtain ⟨hmem, haccessor⟩ := List.mem_filter.mp hm
      obtain ⟨hspecial, property, hproperty⟩ := (hq m).mp haccessor
      exact ⟨property, hproperty, .inr ⟨m, hmem, hspecial, rfl⟩⟩
  · rintro ⟨property, rfl, ⟨p, hp, hcan, rfl⟩ | ⟨m, hm, hspecial, hproperty⟩⟩
    · exact ⟨accessor p, List.mem_append_left _ (List.mem_map_of_mem (List.mem_filter.mpr ⟨hp, hcan⟩)), hname p⟩
    · have haccessor : q m = true := (hq m).mpr ⟨hspecial, property, hproperty⟩
      exact ⟨m, List.mem_append_right _ (List.mem_filter.mpr ⟨hm, haccessor⟩), hproperty⟩

theorem exists_getter_iff (n : String) : (∃ m ∈ i.getters, m.name = n) ↔ ∃ property, n = "get_" ++ property ∧
    ((∃ p ∈ i.properties, p.canRead = true ∧ p.name = property) ∨ ∃ m ∈ i.methods, m.special = true ∧ m.name = n) :=
  i.exists_accessor_iff (fun _ => rfl) (fun _ => MemberSet.isGetter_iff) n

theorem exists_setter_iff (n : String) : (∃ m ∈ i.setters, m.name = n) ↔ ∃ property, n = "set_" ++ property ∧
    ((∃ p ∈ i.properties, p.canWrite = true ∧ p.name = property) ∨ ∃ m ∈ i.methods, m.special = true ∧ m.name = n) :=
  i.exists_accessor_iff (fun _ => rfl) (fun _ => MemberSet.isSetter_iff) n

end Interface

namespace MemberSet

variable {n : String}

/-! ## One interface -/

/-- Of a name that is new, the first item is added. -/
theorem filter_addNew {α : Type} (name : α → String) (items new : List α) :
    (addNew name items new).filter (name · == n) =
      firstOf (items.filter (name · == n)) ((new.filter (name · == n)).take 1) := by
  induction new generalizing items with
  | nil => exact (firstOf_nil_right _).symm
  | cons x new ih =>
    show (addNew name (if items.any (name · == name x) then items else items ++ [x]) new).filter _ = _
    rw [ih]
    -- only an item of the name counts, and of these only the first when the name is new
    by_cases hx : name x = n
    · subst hx
      by_cases hany : items.any (name · == name x) = true
      · have hne : items.filter (name · == name x) ≠ [] := by simpa [List.filter_eq_nil_iff] using hany
        rw [if_pos hany, firstOf_of_ne_nil hne, firstOf_of_ne_nil hne]
      · have hnil : items.filter (name · == name x) = [] := by simpa [List.filter_eq_nil_iff] using hany
        rw [if_neg hany, List.filter_append, hnil]
        simp [firstOf]
    · have hsame : (if items.any (name · == name x) then items else items ++ [x]).filter (name · == n) =
          items.filter (name · == n) := by
        split
        · rfl
        · simp [hx]
      rw [hsame, List.filter_cons_of_neg (by simpa using hx)]

theorem filter_methods_absorb (s : MemberSet) (i : Interface) :
    (s.absorb i).methods.filter (·.name == n) =
      firstOf (s.methods.filter (·.name == n)) (i.plainMethods.filter (·.name == n)) := by
  have hsplit : (s.absorb i).methods = s.methods ++
      i.allMethods.filter fun m => !m.special && !(s.methods.any (·.name == m.name)) := rfl
  rw [hsplit, List.filter_append, List.filter_filter, ← Interface.filter_plainMethods, List.filter_filter]
  -- which names are known is asked of the set before the interface, so all overloads of a new name come
  by_cases hknown : s.methods.filter (·.name == n) = []
  · have hany : ∀ m : MethodDecl, m.name = n → s.methods.any (·.name == m.name) = false := by
      rintro m rfl
      simpa [List.filter_eq_nil_iff] using hknown
    rw [hknown, List.nil_append, firstOf_nil_left]
    refine List.filter_congr fun m _ => ?_
    by_cases hm : m.name = n
    · rw [hany m hm, Bool.not_false, Bool.and_true]
    · rw [beq_eq_false_iff_ne.mpr hm, Bool.false_and, Bool.false_and]
  · have hany : ∀ m : MethodDecl, m.name = n → s.methods.any (·.name == m.name) = true := by
      rintro m rfl
      simpa [List.filter_eq_nil_iff] using hknown
    rw [firstOf_of_ne_nil hknown, List.append_right_eq_self, List.filter_eq_nil_iff]
    intro m _
    by_cases hm : m.name = n
    · simp [hany m hm]
    · simp [hm]

theorem getters_absorb (s : MemberSet) (i : Interface) :
    (s.absorb i).getters = addNew MethodDecl.name s.getters i.getters := by
  rw [← i.filter_isGetter]
  rfl

theorem setters_absorb (s : MemberSet) (i : Interface) :
    (s.absorb i).setters = addNew MethodDecl.name s.setters i.setters := by
  rw [← i.filter_isSetter]
  rfl

/-! ## All interfaces -/

section All

variable (is : List Interface)

theorem filter_methods_foldl (n : String) :
    ((is.foldl absorb {}).methods).filter (·.name == n) = firstNamed (·.name) Interface.plainMethods n is :=
  foldl_firstOf (fun s : MemberSet => s.methods.filter (·.name == n)) filter_methods_absorb is {}

/-- A view that only items of new names are added to. -/
theorem filter_foldl_addNew {α : Type} {name : α → String} {view : MemberSet → List α}
    {declared : Interface → List α} (h : ∀ s i, view (absorb s i) = addNew name (view s) (declared i))
    (hnil : view {} = []) (n : String) :
    (view (is.foldl absorb {})).filter (name · == n) = (firstNamed name declared n is).take 1 := by
  have hstep : ∀ s i, (view (absorb s i)).filter (name · == n) =
      firstOf ((view s).filter (name · == n)) (((declared i).filter (name · == n)).take 1) := by
    intro s i
    rw [h, filter_addNew]
  have hrun := foldl_firstOf (fun s => (view s).filter (name · == n)) hstep is {}
  rwa [hnil, List.filter_nil, firstOf_nil_left, ← take_firstNonempty] at hrun

theorem rejected_foldl (s : MemberSet) : (is.foldl absorb s).rejected = s.rejected := by
  induction is generalizing s with
  | nil => rfl
  | cons i is ih => exact ih (s.absorb i)

end All

/-! ## The policy -/

/-- Whether a policy sets a method aside. -/
def rejects : OutParamPolicy → MethodDecl → Bool
  | .discard, _ => false
  | .reject, m => m.hasOutParams

variable (policy : OutParamPolicy) (s : MemberSet)

theorem methods_applyPolicy :
    (s.applyPolicy policy).methods = s.methods.filter fun m => !rejects policy m := by
  cases policy with
  | discard => exact (List.filter_eq_self.mpr fun _ _ => rfl).symm
  | reject => rfl

theorem rejected_applyPolicy (h : s.rejected = []) :
    (s.applyPolicy policy).rejected = s.methods.filter (rejects policy) := by
  cases policy with
  | discard => exact h.trans (List.filter_eq_nil_iff.mpr fun _ _ => by simp [rejects]).symm
  | reject => rfl

theorem others_applyPolicy : (s.applyPolicy policy).getters = s.getters ∧
    (s.applyPolicy policy).setters = s.setters ∧ (s.applyPolicy policy).events = s.events := by
  cases policy <;> exact ⟨rfl, rfl, rfl⟩

/-! ## The members of a list of interfaces -/

/-- **Enumeration.** The names of the members are those the interfaces declare, and what there is of a name is
    what the first interface with that name declares of it: all of the methods, with those set aside apart,
    and the first getter, setter or event. -/
structure Enumerates (is : List Interface) (policy : OutParamPolicy) (s : MemberSet) : Prop where
  methodNames : ∀ n, n ∈ (s.methods ++ s.rejected).map (·.name) ↔
    ∃ i ∈ is, ∃ m ∈ i.methods, m.special = false ∧ m.name = n
  getterNames : ∀ n, n ∈ s.getters.map (·.name) ↔ ∃ i ∈ is, ∃ property, n = "get_" ++ property ∧
    ((∃ p ∈ i.properties, p.canRead = true ∧ p.name = property) ∨ ∃ m ∈ i.methods, m.special = true ∧ m.name = n)
  setterNames : ∀ n, n ∈ s.setters.map (·.name) ↔ ∃ i ∈ is, ∃ property, n = "set_" ++ property ∧
    ((∃ p ∈ i.properties, p.canWrite = true ∧ p.name = property) ∨ ∃ m ∈ i.methods, m.special = true ∧ m.name = n)
  eventNames : ∀ n, n ∈ s.events.map (·.name) ↔ ∃ i ∈ is, ∃ e ∈ i.events, e.name = n
  methods : ∀ n, s.methods.filter (·.name == n) =
    (firstNamed (·.name) Interface.plainMethods n is).filter fun m => !rejects policy m
  rejected : ∀ n, s.rejected.filter (·.name == n) =
    (firstNamed (·.name) Interface.plainMethods n is).filter (rejects policy)
  getters : ∀ n, s.getters.filter (·.name == n) = (firstNamed (·.name) Interface.getters n is).take 1
  setters : ∀ n, s.setters.filter (·.name == n) = (firstNamed (·.name) Interface.setters n is).take 1
  events : ∀ n, s.events.filter (·.name == n) = (firstNamed (·.name) Interface.events n is).take 1

/-- A list that has, of every name, the first item there is has exactly the names there are. -/
theorem mem_names_of_take {α : Type} {name : α → String} {declared : Interface → List α} {xs : List α}
    {is : List Interface}
    (h : ∀ n, xs.filter (name · == n) = (firstNamed name declared n is).take 1) (n : String) :
    n ∈ xs.map name ↔ ∃ i ∈ is, ∃ x ∈ declared i, name x = n := by
  rw [mem_map_iff_filter, h, ← firstNamed_ne_nil]
  cases firstNamed name declared n is <;> simp

/-- A list and what is set aside of it have the names of the list. -/
theorem mem_names_of_split {α : Type} {name : α → String} {n : String} (q : α → Bool) (xs : List α) :
    n ∈ ((xs.filter fun x => !q x) ++ xs.filter q).map name ↔ n ∈ xs.map name := by
  simp only [List.mem_map, List.mem_append, List.mem_filter]
  constructor
  · rintro ⟨x, ⟨hx, _⟩ | ⟨hx, _⟩, hname⟩
    · exact ⟨x, hx, hname⟩
    · exact ⟨x, hx, hname⟩
  · rintro ⟨x, hx, hname⟩
    cases hq : q x with
    | false => exact ⟨x, .inl ⟨hx, by rw [hq]; rfl⟩, hname⟩
    | true => exact ⟨x, .inr ⟨hx, hq⟩, hname⟩

theorem enumerates_foldl (is : List Interface) :
    Enumerates is policy ((is.foldl absorb {}).applyPolicy policy) := by
  let all := is.foldl absorb {}
  obtain ⟨hgetters, hsetters, hevents⟩ := others_applyPolicy policy all
  have hmethods := methods_applyPolicy policy all
  have hrejected := rejected_applyPolicy policy all (rejected_foldl is {})
  have hg : ∀ n, all.getters.filter (·.name == n) = (firstNamed (·.name) Interface.getters n is).take 1 :=
    filter_foldl_addNew is getters_absorb rfl
  have hs : ∀ n, all.setters.filter (·.name == n) = (firstNamed (·.name) Interface.setters n is).take 1 :=
    filter_foldl_addNew is setters_absorb rfl
  have he : ∀ n, all.events.filter (·.name == n) = (firstNamed (·.name) Interface.events n is).take 1 :=
    filter_foldl_addNew is (fun _ _ => rfl) rfl
  constructor
  · intro n
    rw [hmethods, hrejected, mem_names_of_split, mem_map_iff_filter, filter_methods_foldl, firstNamed_ne_nil]
    simp [Interface.plainMethods, and_assoc]
  · intro n
    rw [hgetters, mem_names_of_take hg]
    simp only [Interface.exists_getter_iff]
  · intro n
    rw [hsetters, mem_names_of_take hs]
    simp only [Interface.exists_setter_iff]
  · intro n
    rw [hevents, mem_names_of_take he]
  · intro n
    rw [hmethods, List.filter_comm, filter_methods_foldl]
  · intro n
    rw [hrejected, List.filter_comm, filter_methods_foldl]
  · rwa [hgetters]
  · rwa [hsetters]
  · rwa [hevents]

end MemberSet

namespace Catalog

open MemberSet

/-! ## The interfaces that count -/

/-- The interface a type means from a wrapped one on, which answers for its own type. -/
def model? (c : Catalog) (wrapped : Interface) (t : TypeExpr) : Option Interface :=
  if t = wrapped.type then some wrapped else c.get? t

/-- **The lineage** of an interface is what a depth-first visit from it finds. -/
theorem lineage_depthFirst (c : Catalog) (wrapped : Interface) : ∃ order visited,
    DepthFirst (c.model? wrapped) Interface.bases [wrapped.type] [] order visited ∧
      order.map (c.model? wrapped) = (c.lineage wrapped).map some := by
  have hroot : c.model? wrapped wrapped.type = some wrapped := if_pos rfl
  have hlook : ∀ u ∉ [wrapped.type], c.model? wrapped u = c.get? u := fun u hu =>
    if_neg fun heq => hu (List.mem_singleton.mpr heq)
  obtain ⟨below, visited, hbelow⟩ := c.exists_depthFirst Interface.bases wrapped.bases [wrapped.type] hlook
  have hreach := reach_append hbelow hlook []
  rw [List.append_nil, reach_nil, List.append_nil] at hreach
  refine ⟨wrapped.type :: (below ++ []), visited, .enter List.not_mem_nil hroot hbelow .done, ?_⟩
  rw [List.append_nil, List.map_cons, hroot, hbelow.map_look, lineage, hreach, List.map_cons]

/-- **The members of an interface** are those of the interfaces that the depth-first visit from it finds, the
    first counting first. The visit ends and finds every interface the first one leads to once. To reject
    methods is to split those that discarding would keep. -/
theorem members_follow_visit (c : Catalog) (policy : OutParamPolicy) (wrapped : Interface) :
    (∃ order visited, DepthFirst (c.model? wrapped) Interface.bases [wrapped.type] [] order visited ∧
      (∀ order' visited', DepthFirst (c.model? wrapped) Interface.bases [wrapped.type] [] order' visited' →
        order' = order) ∧
      order.Nodup ∧
      (∀ t, t ∈ order ↔
        Relation.ReflTransGen (LeadsTo (c.model? wrapped) Interface.bases) wrapped.type t) ∧
      order.map (c.model? wrapped) = (c.lineage wrapped).map some) ∧
    Enumerates (c.lineage wrapped) policy (c.members policy wrapped) ∧
    (c.members .reject wrapped).methods = (c.members .discard wrapped).methods.filter (!·.hasOutParams) ∧
    (c.members .reject wrapped).rejected = (c.members .discard wrapped).methods.filter (·.hasOutParams) ∧
    (c.members .reject wrapped).getters = (c.members .discard wrapped).getters ∧
    (c.members .reject wrapped).setters = (c.members .discard wrapped).setters ∧
    (c.members .reject wrapped).events = (c.members .discard wrapped).events := by
  obtain ⟨order, visited, hvisit, horder⟩ := c.lineage_depthFirst wrapped
  have hroot : (c.model? wrapped wrapped.type).isSome := by
    rw [model?, if_pos rfl]
    rfl
  refine ⟨⟨order, visited, hvisit, ?_, hvisit.nodup, fun t => hvisit.mem_iff hroot, horder⟩, ?_, ?_⟩
  · intro order' visited' hvisit'
    exact (hvisit'.unique hvisit).1
  · exact enumerates_foldl policy (c.lineage wrapped)
  · exact ⟨rfl, rfl, rfl, rfl, rfl⟩

/-! ## What is known of single members -/

theorem mem_declared_of_take {α : Type} {name : α → String} {declared : Interface → List α} {xs : List α}
    {is : List Interface} (h : ∀ n, xs.filter (name · == n) = (firstNamed name declared n is).take 1)
    {x : α} (hx : x ∈ xs) : ∃ i ∈ is, x ∈ declared i := by
  have hmem : x ∈ xs.filter (name · == name x) := List.mem_filter.mpr ⟨hx, by simp⟩
  rw [h] at hmem
  obtain ⟨i, hi, hfirst⟩ := mem_of_mem_firstNonempty (List.mem_of_mem_take hmem)
  exact ⟨i, hi, List.mem_of_mem_filter hfirst⟩

/-- A list that has, of every name, the first item there is has no name twice. -/
theorem nodup_names_of_take {α : Type} {name : α → String} {declared : Interface → List α} {xs : List α}
    {is : List Interface} (h : ∀ n, xs.filter (name · == n) = (firstNamed name declared n is).take 1) :
    (xs.map name).Nodup := by
  rw [List.nodup_iff_count_le_one]
  intro n
  rw [count_map_eq_length_filter, h, List.length_take]
  exact Nat.min_le_left 1 _

variable {c : Catalog} {policy : OutParamPolicy} {wrapped : Interface} {m : MethodDecl}

/-- No two events that are converted share a name. -/
theorem nodup_events (c : Catalog) (policy : OutParamPolicy) (wrapped : Interface) :
    ((c.members policy wrapped).events.map (·.name)).Nodup :=
  nodup_names_of_take (enumerates_foldl policy (c.lineage wrapped)).events

/-- What is converted as a getter is the getter of a property. -/
theorem getter_property (h : m ∈ (c.members policy wrapped).getters) :
    ∃ property, m.name = "get_" ++ property := by
  obtain ⟨i, _, hm⟩ := mem_declared_of_take (enumerates_foldl policy (c.lineage wrapped)).getters h
  exact ((i.exists_getter_iff m.name).mp ⟨m, hm, rfl⟩).imp fun _ h => h.1

/-- What is converted as a setter is the setter of a property. -/
theorem setter_property (h : m ∈ (c.members policy wrapped).setters) :
    ∃ property, m.name = "set_" ++ property := by
  obtain ⟨i, _, hm⟩ := mem_declared_of_take (enumerates_foldl policy (c.lineage wrapped)).setters h
  exact ((i.exists_setter_iff m.name).mp ⟨m, hm, rfl⟩).imp fun _ h => h.1

end Catalog

end BoundaryProxy
