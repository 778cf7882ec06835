import BoundaryProxy.Proofs.Members.Enumeration

/-!
# `Proofs.Members.Declared` — what becomes of the members an interface declares itself

The wrapped interface is visited first, so nothing is known when its own members come (`firstNamed_cons`). Of its
methods all overloads are taken. Its accessors are added one by one, and each that is added makes its name known to the
next: of the accessors of a name, those of properties before those that are listed, one is left (`keepsFirst_of_take`).

* **`members_declared`**: all declared methods are kept or set aside, one getter and one setter are kept of each name,
  and so all accessors are kept exactly if none is overloaded.
* `members_declared_grid`: an indexer with two overloads, or beside a property of its name, loses one.
-/

namespace BoundaryProxy

variable {α : Type} {name : α → String} {declared : Interface → List α} {i : Interface}

/-- What the first interface declares of a name is all there is. -/
theorem firstNamed_cons {x : α} (hx : x ∈ declared i) (is : List Interface) :
    firstNamed name declared (name x) (i :: is) = (declared i).filter (name · == name x) :=
  firstNamed_append_cons (fun _ hj => absurd hj List.not_mem_nil) (List.mem_map_of_mem hx) is

namespace MemberSet

variable {kept own : List MethodDecl} {m : MethodDecl}

/-- A list has a method of the name and with the parameter types of the given one. -/
def Keeps (kept : List MethodDecl) (m : MethodDecl) : Prop :=
  ∃ k ∈ kept, k.name = m.name ∧ k.paramTypes = m.paramTypes

instance : Decidable (Keeps kept m) :=
  inferInstanceAs (Decidable (∃ k ∈ kept, k.name = m.name ∧ k.paramTypes = m.paramTypes))

/-- Of each name of its own a list keeps the first, and nothing else. -/
def KeepsFirst (kept own : List MethodDecl) : Prop :=
  ∀ m ∈ own, kept.filter (·.name == m.name) = (own.find? (·.name == m.name)).toList

/-- Of the accessors that the first interface declares, the first of each name is kept. -/
theorem keepsFirst_of_take {accessors : Interface → List MethodDecl} {is : List Interface}
    (h : ∀ n, kept.filter (·.name == n) = (firstNamed (·.name) accessors n (i :: is)).take 1) :
    KeepsFirst kept (accessors i) := by
  intro m hm
  rw [h, firstNamed_cons hm, List.take_one, List.head?_filter]

theorem KeepsFirst.exists_first (h : KeepsFirst kept own) (hm : m ∈ own) :
    ∃ first ∈ own, first.name = m.name ∧ kept.filter (·.name == m.name) = [first] := by
  have hsome : (own.find? (·.name == m.name)).isSome := List.find?_isSome.mpr ⟨m, hm, beq_self_eq_true _⟩
  obtain ⟨first, hfirst⟩ := Option.isSome_iff_exists.mp hsome
  refine ⟨first, List.mem_of_find?_eq_some hfirst, by simpa using List.find?_some hfirst, ?_⟩
  rw [h m hm, hfirst]
  rfl

/-- An accessor is kept if the first of its name has its parameter types. -/
theorem keeps_iff_of_filter {first : MethodDecl} (h : kept.filter (·.name == m.name) = [first]) :
    Keeps kept m ↔ first.paramTypes = m.paramTypes := by
  have hmem : ∀ k, (k ∈ kept ∧ k.name = m.name) ↔ k = first := by
    intro k
    have hfilter : k ∈ kept.filter (·.name == m.name) ↔ k ∈ kept ∧ k.name = m.name := by
      rw [List.mem_filter, beq_iff_eq]
    rw [← hfilter, h, List.mem_singleton]
  constructor
  · rintro ⟨k, hk, hname, htypes⟩
    obtain rfl := (hmem k).mp ⟨hk, hname⟩
    exact htypes
  · intro htypes
    obtain ⟨hk, hname⟩ := (hmem first).mpr rfl
    exact ⟨first, hk, hname, htypes⟩

/-- **Nothing is lost** exactly if a name has one list of parameter types. -/
theorem KeepsFirst.keeps_all_iff (h : KeepsFirst kept own) : (∀ m ∈ own, Keeps kept m) ↔
    ∀ m ∈ own, ∀ m' ∈ own, m.name = m'.name → m.paramTypes = m'.paramTypes := by
  constructor
  · intro hall m hm m' hm' hname
    obtain ⟨first, -, -, hfilter⟩ := h.exists_first hm
    -- one accessor is left of the name, and it stands for both
    have hfilter' : kept.filter (·.name == m'.name) = [first] := hname ▸ hfilter
    have htypes := (keeps_iff_of_filter hfilter).mp (hall m hm)
    have htypes' := (keeps_iff_of_filter hfilter').mp (hall m' hm')
    rw [← htypes, htypes']
  · intro hone m hm
    obtain ⟨first, hfirst, hname, hfilter⟩ := h.exists_first hm
    exact (keeps_iff_of_filter hfilter).mpr (hone first hfirst m hm hname)

end MemberSet

namespace Catalog

open MemberSet

variable {c : Catalog} {policy : OutParamPolicy} {wrapped : Interface} {m : MethodDecl}

/-- A method that the wrapped interface declares is kept or set aside. -/
theorem mem_methods_of_declared (hm : m ∈ wrapped.plainMethods) :
    m ∈ (c.members policy wrapped).methods ++ (c.members policy wrapped).rejected := by
  have henum : Enumerates (c.lineage wrapped) policy (c.members policy wrapped) := enumerates_foldl policy _
  have hdeclared : m ∈ firstNamed (·.name) Interface.plainMethods m.name (c.lineage wrapped) := by
    rw [lineage, firstNamed_cons hm]
    exact List.mem_filter.mpr ⟨hm, beq_self_eq_true _⟩
  rw [List.mem_append]
  cases hrejects : rejects policy m with
  | false =>
    have hmem : m ∈ (c.members policy wrapped).methods.filter (·.name == m.name) := by
      rw [henum.methods, List.mem_filter, hrejects]
      exact ⟨hdeclared, rfl⟩
    exact .inl (List.mem_of_mem_filter hmem)
  | true =>
    have hmem : m ∈ (c.members policy wrapped).rejected.filter (·.name == m.name) := by
      rw [henum.rejected, List.mem_filter, hrejects]
      exact ⟨hdeclared, rfl⟩
    exact .inr (List.mem_of_mem_filter hmem)

/-- **What becomes of the declared members.** Of the methods that the wrapped interface declares all overloads are kept
    or set aside. Of its getters the first of each name is kept and no other, and of its setters likewise. So every
    accessor it declares is still there, by name and parameter types, exactly if no two that share a name differ in
    their parameter types. -/
theorem members_declared (c : Catalog) (policy : OutParamPolicy) (wrapped : Interface) :
    (∀ m ∈ wrapped.plainMethods,
      m ∈ (c.members policy wrapped).methods ++ (c.members policy wrapped).rejected) ∧
    KeepsFirst (c.members policy wrapped).getters wrapped.getters ∧
    KeepsFirst (c.members policy wrapped).setters wrapped.setters ∧
    ((∀ m ∈ wrapped.getters, Keeps (c.members policy wrapped).getters m) ↔
      ∀ m ∈ wrapped.getters, ∀ m' ∈ wrapped.getters, m.name = m'.name → m.paramTypes = m'.paramTypes) ∧
    ((∀ m ∈ wrapped.setters, Keeps (c.members policy wrapped).setters m) ↔
      ∀ m ∈ wrapped.setters, ∀ m' ∈ wrapped.setters, m.name = m'.name → m.paramTypes = m'.paramTypes) := by
  have henum := enumerates_foldl policy (c.lineage wrapped)
  have hgetters : KeepsFirst (c.members policy wrapped).getters wrapped.getters :=
    keepsFirst_of_take henum.getters
  have hsetters : KeepsFirst (c.members policy wrapped).setters wrapped.setters :=
    keepsFirst_of_take henum.setters
  exact ⟨fun m hm => mem_methods_of_declared hm, hgetters, hsetters, hgetters.keeps_all_iff,
    hsetters.keeps_all_iff⟩

/-- An indexer that reads texts by keys of a type. -/
def indexer (name : String) (key : TypeExpr) : MethodDecl :=
  ⟨"get_" ++ name, [⟨"key", key, .input⟩], .named "System.String", true⟩

/-- A grid with a title and some indexers. -/
def grid (indexers : List MethodDecl) : Interface where
  type := .named "Ns.IGrid"
  properties := [⟨"Title", .named "System.String", true, true⟩]
  methods := indexers ++ [⟨"Clear", [], .void, false⟩, ⟨"Clear", [⟨"row", .int, .input⟩], .void, false⟩]

/-- With one indexer beside the title everything is kept, also both ways to clear the grid. -/
theorem members_declared_cells :
    let g := grid [indexer "Item" .int]
    let s := (ofModels [g]).members .reject g
    (∀ m ∈ g.getters, Keeps s.getters m) ∧ (∀ m ∈ g.setters, Keeps s.setters m) ∧
      ∀ m ∈ g.plainMethods, m ∈ s.methods ++ s.rejected := by
  intro g s
  obtain ⟨hmethods, -, -, hgetters, hsetters⟩ := members_declared (ofModels [g]) .reject g
  exact ⟨hgetters.mpr (by decide), hsetters.mpr (by decide), hmethods⟩

/-- **Declared accessors may be lost.** Of an indexer by numbers and by texts the second overload is, and an indexer
    that shares its name with a property is too. -/
theorem members_declared_grid :
    let byText := indexer "Item" (.named "System.String")
    let byTitle := indexer "Title" .int
    let g := grid [indexer "Item" .int, byText, byTitle]
    let s := (ofModels [g]).members .reject g
    byText ∈ g.getters ∧ ¬ Keeps s.getters byText ∧ byTitle ∈ g.getters ∧ ¬ Keeps s.getters byTitle := by
  intro byText byTitle g s
  have hgetters : s.getters = [.getter "Title" (.named "System.String"), indexer "Item" .int] := by
    cbv
  rw [hgetters]
  decide

end Catalog

end BoundaryProxy
