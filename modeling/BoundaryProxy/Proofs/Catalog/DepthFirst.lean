import BoundaryProxy.Catalog.Reach
import Mathlib.Logic.Relation

/-!
# `Proofs.Catalog.DepthFirst` — what a depth-first visit finds

`Catalog.reach` keeps one list of pending types, on whose front it puts the bases of every interface it finds.
`DepthFirst` is the visit as one recurses: below an interface, all of its bases are visited to the end before
the next pending type is looked at. A derivation is such a recursion from its start to its end, so to have one
is to end (`exists_depthFirst`), and `reach` finds what it finds (`reach_append`).

What is found is found once (`DepthFirst.nodup`), and from a root that resolves it is exactly what the root
leads to (`DepthFirst.mem_iff`).
-/

namespace BoundaryProxy

variable {look : TypeExpr → Option Interface} {next : Interface → List TypeExpr}
  {t u root : TypeExpr} {ps visited visited' found : List TypeExpr}

/-! ## The visit -/

/-- Visiting the pending types in order, when some were visited, finds a list of types, and then more are
    visited. A type that was visited is passed over, one that does not resolve is only marked. -/
inductive DepthFirst (look : TypeExpr → Option Interface) (next : Interface → List TypeExpr) :
    (pending visited found visited' : List TypeExpr) → Prop
  | done {visited : List TypeExpr} : DepthFirst look next [] visited [] visited
  | seen {t : TypeExpr} {rest visited found visited' : List TypeExpr} :
      t ∈ visited → DepthFirst look next rest visited found visited' →
      DepthFirst look next (t :: rest) visited found visited'
  | missing {t : TypeExpr} {rest visited found visited' : List TypeExpr} :
      t ∉ visited → look t = none → DepthFirst look next rest (t :: visited) found visited' →
      DepthFirst look next (t :: rest) visited found visited'
  | enter {t : TypeExpr} {model : Interface} {rest visited below visited₁ later visited₂ : List TypeExpr} :
      t ∉ visited → look t = some model →
      DepthFirst look next (next model) (t :: visited) below visited₁ →
      DepthFirst look next rest visited₁ later visited₂ →
      DepthFirst look next (t :: rest) visited (t :: (below ++ later)) visited₂

/-- A type leads to the types its interface names, if they resolve. -/
def LeadsTo (look : TypeExpr → Option Interface) (next : Interface → List TypeExpr) (t u : TypeExpr) : Prop :=
  ∃ model, look t = some model ∧ u ∈ next model ∧ (look u).isSome

/-- Whatever leads to a type that resolves does so itself. -/
theorem isSome_of_reaches (h : Relation.ReflTransGen (LeadsTo look next) t u) (hu : (look u).isSome) :
    (look t).isSome := by
  rcases h.cases_head with rfl | ⟨v, ⟨model, hmodel, _⟩, _⟩
  · exact hu
  · rw [hmodel]
    rfl

namespace DepthFirst

/-- There is one visit only. -/
theorem unique {found' visited'' : List TypeExpr} (h : DepthFirst look next ps visited found visited')
    (h' : DepthFirst look next ps visited found' visited'') : found = found' ∧ visited' = visited'' := by
  induction h generalizing found' visited'' with
  | done =>
    cases h'
    exact ⟨rfl, rfl⟩
  | seen hmem _ ih =>
    cases h' with
    | seen _ hrest => exact ih hrest
    | missing hnew => exact absurd hmem hnew
    | enter hnew => exact absurd hmem hnew
  | missing hnew hnone _ ih =>
    cases h' with
    | seen hmem => exact absurd hmem hnew
    | missing _ _ hrest => exact ih hrest
    | enter _ hsome => rw [hnone] at hsome; cases hsome
  | enter hnew hsome _ _ ihBelow ihLater =>
    cases h' with
    | seen hmem => exact absurd hmem hnew
    | missing _ hnone => rw [hsome] at hnone; cases hnone
    | enter _ hsome' hbelow hlater =>
      obtain rfl := Option.some.inj (hsome.symm.trans hsome')
      obtain ⟨rfl, rfl⟩ := ihBelow hbelow
      obtain ⟨rfl, rfl⟩ := ihLater hlater
      exact ⟨rfl, rfl⟩

/-! ## What is visited -/

theorem visited_subset (h : DepthFirst look next ps visited found visited') : visited ⊆ visited' := by
  induction h with
  | done => exact List.Subset.refl _
  | seen _ _ ih => exact ih
  | missing _ _ _ ih => exact List.Subset.trans (List.subset_cons_self _ _) ih
  | enter _ _ _ _ ihBelow ihLater =>
    exact List.Subset.trans (List.Subset.trans (List.subset_cons_self _ _) ihBelow) ihLater

theorem pending_subset (h : DepthFirst look next ps visited found visited') : ps ⊆ visited' := by
  induction h with
  | done => exact List.nil_subset _
  | seen hmem hrest ih => exact List.cons_subset.mpr ⟨hrest.visited_subset hmem, ih⟩
  | missing _ _ hrest ih => exact List.cons_subset.mpr ⟨hrest.visited_subset List.mem_cons_self, ih⟩
  | enter _ _ hbelow hlater _ ih =>
    exact List.cons_subset.mpr ⟨hlater.visited_subset (hbelow.visited_subset List.mem_cons_self), ih⟩

/-- **What is found** are the types that were not visited before, are now, and resolve. -/
theorem mem_found_iff (h : DepthFirst look next ps visited found visited') :
    t ∈ found ↔ t ∈ visited' ∧ t ∉ visited ∧ (look t).isSome := by
  induction h with
  | done => simp +contextual
  | seen _ _ ih => exact ih
  | missing hnew hnone _ ih =>
    rw [ih, List.mem_cons, not_or]
    refine ⟨fun ⟨h₁, h₂, h₃⟩ => ⟨h₁, h₂.2, h₃⟩, fun ⟨h₁, h₂, h₃⟩ => ⟨h₁, ⟨?_, h₂⟩, h₃⟩⟩
    rintro rfl
    rw [hnone] at h₃
    cases h₃
  | @enter x model _ _ _ visited₁ _ _ hnew hsome hbelow hlater ihBelow ihLater =>
    -- the types found below are those visited between the two visits, the later ones those after both
    have hx := hbelow.visited_subset List.mem_cons_self
    have hsub₁ := hbelow.visited_subset
    have hsub₂ := hlater.visited_subset
    rw [List.mem_cons, List.mem_append, ihBelow, ihLater]
    constructor
    · rintro (rfl | ⟨h₁, h₂, h₃⟩ | ⟨h₁, h₂, h₃⟩)
      · exact ⟨hsub₂ hx, hnew, by rw [hsome]; rfl⟩
      · exact ⟨hsub₂ h₁, fun hmem => h₂ (List.mem_cons_of_mem _ hmem), h₃⟩
      · exact ⟨h₁, fun hmem => h₂ (hsub₁ (List.mem_cons_of_mem _ hmem)), h₃⟩
    · rintro ⟨h₁, h₂, h₃⟩
      by_cases hroot : t = x
      · exact .inl hroot
      · by_cases hmem : t ∈ visited₁
        · exact .inr (.inl ⟨hmem, by simp [hroot, h₂], h₃⟩)
        · exact .inr (.inr ⟨h₁, hmem, h₃⟩)

/-- Each type is found once. -/
theorem nodup (h : DepthFirst look next ps visited found visited') : found.Nodup := by
  induction h with
  | done => exact List.nodup_nil
  | seen _ _ ih => exact ih
  | missing _ _ _ ih => exact ih
  | enter hnew hsome hbelow hlater ihBelow ihLater =>
    refine List.nodup_cons.mpr ⟨fun hmem => ?_, List.nodup_append.mpr ⟨ihBelow, ihLater, ?_⟩⟩
    · rcases List.mem_append.mp hmem with hmem | hmem
      · exact (hbelow.mem_found_iff.mp hmem).2.1 List.mem_cons_self
      · exact (hlater.mem_found_iff.mp hmem).2.1 (hbelow.visited_subset List.mem_cons_self)
    · rintro u hu v hv rfl
      exact (hlater.mem_found_iff.mp hv).2.1 (hbelow.mem_found_iff.mp hu).1

/-! ## What is reached -/

/-- The successors of what is found are visited in the end. -/
theorem next_subset {model : Interface} (h : DepthFirst look next ps visited found visited')
    (ht : t ∈ found) (hmodel : look t = some model) : next model ⊆ visited' := by
  induction h with
  | done => cases ht
  | seen _ _ ih => exact ih ht
  | missing _ _ _ ih => exact ih ht
  | enter _ hsome hbelow hlater ihBelow ihLater =>
    rcases List.mem_cons.mp ht with rfl | ht
    · obtain rfl := Option.some.inj (hsome.symm.trans hmodel)
      exact List.Subset.trans hbelow.pending_subset hlater.visited_subset
    · rcases List.mem_append.mp ht with ht | ht
      · exact List.Subset.trans (ihBelow ht) hlater.visited_subset
      · exact ihLater ht

/-- What is found is reached from a pending type. -/
theorem reached (h : DepthFirst look next ps visited found visited') (ht : t ∈ found) :
    ∃ p ∈ ps, Relation.ReflTransGen (LeadsTo look next) p t := by
  induction h with
  | done => cases ht
  | seen _ _ ih | missing _ _ _ ih =>
    obtain ⟨p, hp, hreach⟩ := ih ht
    exact ⟨p, List.mem_cons_of_mem _ hp, hreach⟩
  | @enter x _ _ _ _ _ _ _ _ hsome hbelow _ ihBelow ihLater =>
    rcases List.mem_cons.mp ht with rfl | ht
    · exact ⟨t, List.mem_cons_self, .refl⟩
    · rcases List.mem_append.mp ht with ht | ht
      · obtain ⟨p, hp, hreach⟩ := ihBelow ht
        have hresolves := isSome_of_reaches hreach (hbelow.mem_found_iff.mp ht).2.2
        exact ⟨x, List.mem_cons_self, .head ⟨_, hsome, hp, hresolves⟩ hreach⟩
      · obtain ⟨p, hp, hreach⟩ := ihLater ht
        exact ⟨p, List.mem_cons_of_mem _ hp, hreach⟩

/-- **From a root that resolves**, exactly what it leads to is found. -/
theorem mem_iff (h : DepthFirst look next [root] [] found visited') (hroot : (look root).isSome) :
    t ∈ found ↔ Relation.ReflTransGen (LeadsTo look next) root t := by
  constructor
  · intro ht
    obtain ⟨p, hp, hreach⟩ := h.reached ht
    obtain rfl := List.mem_singleton.mp hp
    exact hreach
  · intro hreach
    induction hreach with
    | refl => exact h.mem_found_iff.mpr ⟨h.pending_subset List.mem_cons_self, List.not_mem_nil, hroot⟩
    | tail _ hstep ih =>
      obtain ⟨model, hmodel, hnext, hresolves⟩ := hstep
      exact h.mem_found_iff.mpr ⟨h.next_subset ih hmodel hnext, List.not_mem_nil, hresolves⟩

/-- What is found are types that resolve. -/
theorem map_look (h : DepthFirst look next ps visited found visited') :
    found.map look = (found.filterMap look).map some := by
  have hall : ∀ u ∈ found, (look u).isSome := fun u hu => (h.mem_found_iff.mp hu).2.2
  clear h
  induction found with
  | nil => rfl
  | cons u rest ih =>
    obtain ⟨model, hmodel⟩ := Option.isSome_iff_exists.mp (hall u List.mem_cons_self)
    rw [List.map_cons, List.filterMap_cons_some hmodel, List.map_cons, hmodel,
      ih fun v hv => hall v (List.mem_cons_of_mem _ hv)]

end DepthFirst

/-! ## The visit of a catalog -/

namespace Catalog

variable {c : Catalog}

theorem unvisited_anti (h : visited ⊆ visited') : c.unvisited visited' ≤ c.unvisited visited :=
  List.countP_mono_left fun x _ hx => by
    rw [decide_eq_true_eq] at hx ⊢
    exact fun hmem => hx (h hmem)

/-- **Every visit ends**: each interface that is entered takes one type off those of the catalog that were not
    visited. What was visited already need not be looked up in the catalog. -/
theorem exists_depthFirst (c : Catalog) (next : Interface → List TypeExpr) (ps visited : List TypeExpr)
    (hlook : ∀ u ∉ visited, look u = c.get? u) :
    ∃ found visited', DepthFirst look next ps visited found visited' := by
  match ps with
  | [] => exact ⟨[], visited, .done⟩
  | t :: rest =>
    have hmore : ∀ u ∉ t :: visited, look u = c.get? u := fun u hu =>
      hlook u fun hmem => hu (List.mem_cons_of_mem _ hmem)
    by_cases hmem : t ∈ visited
    · obtain ⟨found, visited', hrest⟩ := exists_depthFirst c next rest visited hlook
      exact ⟨found, visited', .seen hmem hrest⟩
    · cases ht : look t with
      | none =>
        obtain ⟨found, visited', hrest⟩ := exists_depthFirst c next rest (t :: visited) hmore
        exact ⟨found, visited', .missing hmem ht hrest⟩
      | some model =>
        -- an interface was entered, so there is less to visit for its bases and for the rest
        obtain ⟨below, visited₁, hbelow⟩ := exists_depthFirst c next (next model) (t :: visited) hmore
        have hsub := hbelow.visited_subset
        obtain ⟨later, visited₂, hlater⟩ := exists_depthFirst c next rest visited₁ fun u hu =>
          hmore u fun hmem => hu (hsub hmem)
        exact ⟨t :: (below ++ later), visited₂, .enter hmem ht hbelow hlater⟩
termination_by (c.unvisited visited, ps.length)
decreasing_by
  · exact Prod.Lex.right _ (by simp)
  · rcases Nat.lt_or_eq_of_le (c.unvisited_cons_le t visited) with hlt | heq
    · exact Prod.Lex.left _ _ hlt
    · rw [heq]
      exact Prod.Lex.right _ (by simp)
  · exact Prod.Lex.left _ _ (unvisited_cons_lt (mem_keys_of_get? (hlook t hmem ▸ ht)) hmem)
  · have hlt := unvisited_cons_lt (mem_keys_of_get? (hlook t hmem ▸ ht)) hmem
    exact Prod.Lex.left _ _ (Nat.lt_of_le_of_lt (unvisited_anti hsub) hlt)

/-- **`reach` is the depth-first visit.** -/
theorem reach_append (h : DepthFirst look next ps visited found visited')
    (hlook : ∀ u ∉ visited, look u = c.get? u) (rest : List TypeExpr) :
    c.reach next (ps ++ rest) visited = found.filterMap look ++ c.reach next rest visited' := by
  induction h generalizing rest with
  | done => rfl
  | seen hmem _ ih =>
    rw [List.cons_append, reach_cons_of_mem hmem, ih hlook]
  | missing hnew hnone _ ih =>
    rw [List.cons_append, reach_cons_of_get?_eq_none hnew (hlook _ hnew ▸ hnone), ih]
    exact fun u hu => hlook u fun hmem => hu (List.mem_cons_of_mem _ hmem)
  | enter hnew hsome hbelow _ ihBelow ihLater =>
    have hsub := hbelow.visited_subset
    -- the bases stand before the rest in one list of pending types: the visit below takes them off first
    rw [List.cons_append, reach_cons_of_get?_eq_some hnew (hlook _ hnew ▸ hsome),
      ihBelow fun u hu => hlook u fun hmem => hu (List.mem_cons_of_mem _ hmem),
      ihLater fun u hu => hlook u fun hmem => hu (hsub (List.mem_cons_of_mem _ hmem)),
      List.filterMap_cons_some hsome, List.filterMap_append, List.cons_append, List.append_assoc]

end Catalog

end BoundaryProxy
