import BoundaryProxy.Catalog.Basic

/-!
# `BoundaryProxy.Catalog.Reach` — the interfaces reached from a list of types

`reach` visits types depth first and returns the interfaces it finds, each type once, in the order of the
visit. Inheritance may be cyclic, a base may be missing from the catalog, and several paths may lead to one
base. The walk ends because every interface it finds takes one type of the catalog off those not yet
visited.
-/

namespace BoundaryProxy.Catalog

/-! ## What is left to visit -/

/-- The number of types in the catalog's index that were not visited. -/
def unvisited (c : Catalog) (visited : List TypeExpr) : Nat :=
  c.index.keys.countP (· ∉ visited)

theorem mem_keys_of_get? {c : Catalog} {t : TypeExpr} {m : Interface} (h : c.get? t = some m) :
    t ∈ c.index.keys := by
  rw [Std.HashMap.mem_keys]
  by_cases ht : t ∈ c.index
  · exact ht
  · simp [get?, position?, Std.HashMap.getElem?_eq_none ht] at h

theorem unvisited_cons_le (c : Catalog) (t : TypeExpr) (visited : List TypeExpr) :
    c.unvisited (t :: visited) ≤ c.unvisited visited :=
  List.countP_mono_left fun x _ hx => by simp_all

/-- Marking a type of the index as visited leaves strictly less to visit. -/
theorem unvisited_cons_lt {c : Catalog} {t : TypeExpr} {visited : List TypeExpr}
    (hkey : t ∈ c.index.keys) (hnew : t ∉ visited) :
    c.unvisited (t :: visited) < c.unvisited visited := by
  obtain ⟨front, back, hkeys⟩ := List.append_of_mem hkey
  have hle : ∀ keys : List TypeExpr,
      keys.countP (· ∉ t :: visited) ≤ keys.countP (· ∉ visited) := fun keys =>
    List.countP_mono_left fun x _ hx => by simp_all
  have hfront := hle front
  have hback := hle back
  unfold unvisited
  rw [hkeys, List.countP_append, List.countP_append, List.countP_cons, List.countP_cons]
  simp only [List.mem_cons, true_or, not_true_eq_false, decide_false, Bool.false_eq_true, if_false,
    hnew, not_false_eq_true, decide_true, if_true] at hfront hback ⊢
  omega

/-! ## The walk -/

/-- The interfaces found by visiting the pending types in order, where an interface's successors are visited
    right after it. A type that was visited is passed over, one that is not in the catalog is only marked. -/
def reach (c : Catalog) (next : Interface → List TypeExpr) (pending visited : List TypeExpr) :
    List Interface :=
  match pending with
  | [] => []
  | t :: rest =>
    if t ∈ visited then reach c next rest visited
    else
      match _found : c.get? t with
      | none => reach c next rest (t :: visited)
      | some model => model :: reach c next (next model ++ rest) (t :: visited)
termination_by (c.unvisited visited, pending.length)
decreasing_by
  · exact Prod.Lex.right _ (by simp)
  · rcases Nat.lt_or_eq_of_le (unvisited_cons_le c t visited) with hlt | heq
    · exact Prod.Lex.left _ _ hlt
    · rw [heq]; exact Prod.Lex.right _ (by simp)
  · exact Prod.Lex.left _ _ (unvisited_cons_lt (mem_keys_of_get? _found) ‹_›)

variable {c : Catalog} {next : Interface → List TypeExpr} {t : TypeExpr} {rest visited : List TypeExpr}

@[simp] theorem reach_nil : c.reach next [] visited = [] := by
  rw [reach]

theorem reach_cons_of_mem (h : t ∈ visited) :
    c.reach next (t :: rest) visited = c.reach next rest visited := by
  rw [reach, if_pos h]

theorem reach_cons_of_get?_eq_none (hnew : t ∉ visited) (h : c.get? t = none) :
    c.reach next (t :: rest) visited = c.reach next rest (t :: visited) := by
  rw [reach, if_neg hnew]
  split <;> simp_all

theorem reach_cons_of_get?_eq_some {model : Interface} (hnew : t ∉ visited)
    (h : c.get? t = some model) :
    c.reach next (t :: rest) visited =
      model :: c.reach next (next model ++ rest) (t :: visited) := by
  rw [reach, if_neg hnew]
  split <;> simp_all

end BoundaryProxy.Catalog
