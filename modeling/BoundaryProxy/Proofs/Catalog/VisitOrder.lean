import BoundaryProxy.Proofs.Catalog.DepthFirst

/-!
# `Proofs.Catalog.VisitOrder` — what a depth-first visit finds first

A type is found by going down from a pending one, past types that were found before it (`DepthFirst.path_before`).
Which types these are depends on the order in which the interfaces list their bases. `steer` moves some of the bases
of every interface to the front: with those in front that lead to a type past nothing of a kind, the visit finds
nothing of the kind before that type, if no type leads to itself (`DepthFirst.found_of_steer`).
-/

namespace BoundaryProxy

open Relation (ReflTransGen TransGen)

variable {look : TypeExpr → Option Interface} {next : Interface → List TypeExpr}
  {y : TypeExpr} {ps visited visited' found before after : List TypeExpr}

/-! ## The way to what is found -/

/-- A way past types of a kind is one past types of any wider kind. -/
theorem path_mono {step : TypeExpr → TypeExpr → Prop} {kind kind' : TypeExpr → Prop} {x : TypeExpr}
    (hkind : ∀ t, kind t → kind' t) (h : ReflTransGen (fun t u => step t u ∧ kind t) x y) :
    ReflTransGen (fun t u => step t u ∧ kind' t) x y := by
  induction h with
  | refl => exact .refl
  | tail _ hstep ih => exact ih.tail ⟨hstep.1, hkind _ hstep.2⟩

/-- What leads past types of a kind to a type that resolves does so itself. -/
theorem isSome_of_path {kind : TypeExpr → Prop} {x : TypeExpr}
    (h : ReflTransGen (fun t u => LeadsTo look next t u ∧ kind t) x y) (hy : (look y).isSome) :
    (look x).isSome := by
  have hpath : ReflTransGen (LeadsTo look next) x y := ReflTransGen.mono (fun _ _ hstep => hstep.1) _ _ h
  exact isSome_of_reaches hpath hy

/-- What stands somewhere in two lists, one behind the other, stands in one of them. -/
theorem split_append {α : Type} {below later before after : List α} {y : α}
    (h : below ++ later = before ++ y :: after) :
    (∃ rest, below = before ++ y :: rest) ∨ ∃ rest, before = below ++ rest ∧ later = rest ++ y :: after := by
  rcases List.append_eq_append_iff.mp h with ⟨rest, hbefore, hlater⟩ | ⟨rest, hbelow, hafter⟩
  · exact .inr ⟨rest, hbefore, hlater⟩
  · cases rest with
    | nil =>
      rw [List.append_nil] at hbelow
      exact .inr ⟨[], by rw [hbelow, List.append_nil], hafter.symm⟩
    | cons z rest =>
      obtain ⟨rfl, -⟩ := List.cons.inj hafter
      exact .inl ⟨rest, hbelow⟩

/-- **What is found is reached past what was found before it**, and past nothing else. -/
theorem DepthFirst.path_before (h : DepthFirst look next ps visited found visited')
    (hsplit : found = before ++ y :: after) :
    ∃ p ∈ ps, ReflTransGen (fun t u => LeadsTo look next t u ∧ t ∈ before) p y := by
  induction h generalizing before after with
  | done => cases before <;> cases hsplit
  | seen _ _ ih | missing _ _ _ ih =>
    obtain ⟨p, hp, hpath⟩ := ih hsplit
    exact ⟨p, List.mem_cons_of_mem _ hp, hpath⟩
  | @enter x model _ _ below _ later _ _ hsome hbelow _ ihBelow ihLater =>
    cases before with
    | nil =>
      obtain ⟨rfl, -⟩ := List.cons.inj hsplit
      exact ⟨x, List.mem_cons_self, .refl⟩
    | cons z before =>
      obtain ⟨rfl, hrest⟩ := List.cons.inj hsplit
      rcases split_append hrest with ⟨rest, hfound⟩ | ⟨rest, hbefore, hlater⟩
      · -- below the first type: from there one base leads on
        obtain ⟨p, hp, hpath⟩ := ihBelow hfound
        have hpath' : ReflTransGen (fun t u => LeadsTo look next t u ∧ t ∈ x :: before) p y :=
          path_mono (fun t ht => List.mem_cons_of_mem x ht) hpath
        have hy : (look y).isSome := by
          have hmem : y ∈ below := hfound ▸ List.mem_append_right before List.mem_cons_self
          exact (hbelow.mem_found_iff.mp hmem).2.2
        have hstep : LeadsTo look next x p := ⟨model, hsome, hp, isSome_of_path hpath hy⟩
        exact ⟨x, List.mem_cons_self, hpath'.head ⟨hstep, List.mem_cons_self⟩⟩
      · -- behind everything below it: from another pending type
        obtain ⟨p, hp, hpath⟩ := ihLater hlater
        refine ⟨p, List.mem_cons_of_mem _ hp, path_mono (fun t ht => ?_) hpath⟩
        rw [hbefore]
        exact List.mem_cons_of_mem _ (List.mem_append_right _ ht)

/-! ## Other orders of the bases -/

/-- An interface with its bases listed in another order. -/
structure Interface.Reordered (i i' : Interface) : Prop where
  others : i' = { i with bases := i'.bases }
  bases : i'.bases.Perm i.bases

theorem Interface.Reordered.type_eq {i i' : Interface} (h : i.Reordered i') : i'.type = i.type := by
  rw [h.others]

/-- A catalog in which interfaces list their bases in another order. -/
structure Catalog.Reordered (c c' : Catalog) : Prop where
  host : c'.host = c.host
  index : c'.index = c.index
  models : ∀ i : Nat, Option.Rel Interface.Reordered c.models[i]? c'.models[i]?

theorem Catalog.Reordered.get? {c c' : Catalog} (h : c.Reordered c') (t : TypeExpr) :
    Option.Rel Interface.Reordered (c.get? t) (c'.get? t) := by
  have hposition : c'.position? t = c.position? t := by
    unfold position?
    rw [h.index]
  unfold Catalog.get?
  rw [hposition]
  cases c.position? t with
  | none => exact .none
  | some i => exact h.models i

/-- The order of the bases does not matter to where a type leads. -/
theorem leadsTo_of_reordered {look look' : TypeExpr → Option Interface}
    (h : ∀ t, Option.Rel Interface.Reordered (look t) (look' t)) :
    LeadsTo look' Interface.bases = LeadsTo look Interface.bases := by
  have hsome : ∀ t, (look' t).isSome = (look t).isSome := by
    intro t
    have ht := h t
    generalize look t = o, look' t = o' at ht
    cases ht <;> rfl
  funext t u
  have ht := h t
  unfold LeadsTo
  rw [hsome]
  generalize look t = o, look' t = o' at ht
  cases ht with
  | none => simp
  | some hi => simp [hi.bases.mem_iff]

/-! ## A visit that is steered -/

/-- The interface with the bases of a kind in front of the others. -/
def Interface.steer (p : TypeExpr → Bool) (i : Interface) : Interface :=
  { i with bases := i.bases.filter p ++ i.bases.filter (!p ·) }

theorem Interface.reordered_steer (p : TypeExpr → Bool) (i : Interface) : i.Reordered (i.steer p) where
  others := rfl
  bases := List.filter_append_perm p i.bases

/-- If there is a base of the kind, one of the kind comes first. -/
theorem Interface.exists_head_steer {p : TypeExpr → Bool} {i : Interface} {u : TypeExpr} (hu : u ∈ i.bases)
    (hpu : p u = true) : ∃ t, (i.steer p).bases.head? = some t ∧ t ∈ i.bases ∧ p t = true := by
  have hmem : u ∈ i.bases.filter p := List.mem_filter.mpr ⟨hu, hpu⟩
  obtain ⟨t, rest, hfilter⟩ := List.exists_cons_of_ne_nil (List.ne_nil_of_mem hmem)
  have hhead : (i.steer p).bases.head? = some t := by
    show (i.bases.filter p ++ _).head? = some t
    rw [hfilter]
    rfl
  have ht : t ∈ i.bases.filter p := hfilter ▸ List.mem_cons_self
  exact ⟨t, hhead, List.mem_filter.mp ht⟩

/-- The catalog with the bases of a kind in front in all interfaces. -/
def Catalog.steer (p : TypeExpr → Bool) (c : Catalog) : Catalog :=
  { c with models := c.models.map (·.steer p) }

theorem Catalog.get?_steer (p : TypeExpr → Bool) (c : Catalog) (t : TypeExpr) :
    (c.steer p).get? t = (c.get? t).map (·.steer p) := by
  show ((c.position? t).bind fun i => (c.models.map (·.steer p))[i]?) = _
  unfold Catalog.get?
  cases c.position? t with
  | none => rfl
  | some i => exact List.getElem?_map

theorem Catalog.reordered_steer (p : TypeExpr → Bool) (c : Catalog) : c.Reordered (c.steer p) where
  host := rfl
  index := rfl
  models := by
    intro i
    show Option.Rel _ c.models[i]? (c.models.map (·.steer p))[i]?
    rw [List.getElem?_map]
    cases c.models[i]? with
    | none => exact .none
    | some model => exact .some (model.reordered_steer p)

/-- **A visit can be steered.** If a type leads to another past nothing of a kind, then with the bases in front that do
    so, nothing of the kind is found before that other type. What was visited already must lead to where the visit
    begins, so that the visit cannot come back to it. -/
theorem DepthFirst.found_of_steer {kind : TypeExpr → Prop} {p : TypeExpr → Bool}
    (h : DepthFirst (fun t => (look t).map (·.steer p)) Interface.bases ps visited found visited')
    (hacyclic : ∀ t, ¬ TransGen (LeadsTo look Interface.bases) t t) (hy : (look y).isSome)
    (hp : ∀ t, p t = true ↔ ReflTransGen (fun t u => LeadsTo look Interface.bases t u ∧ ¬ kind t) t y)
    {t : TypeExpr} (hhead : ps.head? = some t) (ht : p t = true)
    (hvisited : ∀ v ∈ visited, TransGen (LeadsTo look Interface.bases) v t) :
    ∃ before after, found = before ++ y :: after ∧ ∀ z ∈ before, ¬ kind z := by
  have hresolves : ∀ u, p u = true → (look u).isSome := by
    intro u hu
    exact isSome_of_path ((hp u).mp hu) hy
  induction h generalizing t with
  | done => cases hhead
  | seen hmem _ _ =>
    -- what was visited leads here, so this type would lead to itself
    obtain rfl := Option.some.inj hhead
    exact absurd (hvisited _ hmem) (hacyclic _)
  | missing _ hnone _ _ =>
    obtain rfl := Option.some.inj hhead
    have hsome := hresolves _ ht
    rw [Option.map_eq_none_iff.mp hnone] at hsome
    cases hsome
  | @enter x model' _ _ below _ later _ _ hsome _ _ ihBelow _ =>
    obtain rfl : x = t := Option.some.inj hhead
    by_cases hxy : x = y
    · subst hxy
      exact ⟨[], below ++ later, rfl, fun z hz => absurd hz List.not_mem_nil⟩
    · rcases ((hp x).mp ht).cases_head with heq | ⟨u, ⟨⟨model, hmodel, hu, -⟩, hkind⟩, hpath⟩
      · exact absurd heq hxy
      -- some base leads on past nothing of the kind, so one that does stands first
      obtain rfl : model.steer p = model' := by
        rw [hmodel] at hsome
        exact Option.some.inj hsome
      obtain ⟨w, hfirst, hbase, hpw⟩ := Interface.exists_head_steer hu ((hp u).mpr hpath)
      have hstep : LeadsTo look Interface.bases x w := ⟨model, hmodel, hbase, hresolves w hpw⟩
      have hvisited' : ∀ v ∈ x :: _, TransGen (LeadsTo look Interface.bases) v w :=
        List.forall_mem_cons.mpr ⟨.single hstep, fun v hv => (hvisited v hv).tail hstep⟩
      obtain ⟨before, after, hbelow, hbefore⟩ := ihBelow hfirst hpw hvisited'
      refine ⟨x :: before, after ++ later, ?_, List.forall_mem_cons.mpr ⟨hkind, hbefore⟩⟩
      rw [hbelow, List.append_assoc, List.cons_append, List.cons_append]

end BoundaryProxy
