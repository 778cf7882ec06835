import BoundaryProxy.Proofs.Members.Taking

/-!
# `Proofs.Members.Precedence` — what comes before what in the choice of an interface for a name

An interface that inherits from another one is not always visited first: the other one may be a base of an interface
that comes before both. What the bases are decides the matter for all orders in which they may be listed: with every way
to an interface leading past another that declares the name, the name is not taken from there (`Guarded.not_takes`), and
otherwise some order takes it from there (`exists_reordered_takes`).

* **`members_precedence`**: a name is taken from one interface, never from one that is visited after another that
  declares it, and never from it in any order of the bases exactly if every way to it leads past such another one.
* `members_precedence_window`: with a base in front of the interface that inherits from it, the base wins.
-/

namespace BoundaryProxy.Catalog

open Relation (ReflTransGen TransGen)

variable {c c' : Catalog} {wrapped wrapped' : Interface} {k : MemberKind} {n : String} {t x y : TypeExpr}

/-- No type inherits from itself. -/
def Acyclic (c : Catalog) (wrapped : Interface) : Prop :=
  ∀ t, ¬ TransGen (c.Derives wrapped) t t

/-- One type leads to another, and no type on the way there is of a kind. -/
abbrev ClearWay (c : Catalog) (wrapped : Interface) (kind : TypeExpr → Prop) : TypeExpr → TypeExpr → Prop :=
  ReflTransGen fun t u => c.Derives wrapped t u ∧ ¬ kind t

/-- Every way from the wrapped interface to a type leads past a type of a kind that lies before it. -/
def Guarded (c : Catalog) (wrapped : Interface) (kind : TypeExpr → Prop) (t : TypeExpr) : Prop :=
  ¬ c.ClearWay wrapped kind wrapped.type t

/-! ## Whatever the order of the bases -/

theorem Reordered.model? (h : c.Reordered c') (hwrapped : wrapped.Reordered wrapped') (t : TypeExpr) :
    Option.Rel Interface.Reordered (c.model? wrapped t) (c'.model? wrapped' t) := by
  unfold Catalog.model?
  rw [hwrapped.type_eq]
  by_cases ht : t = wrapped.type
  · rw [if_pos ht, if_pos ht]
    exact .some hwrapped
  · rw [if_neg ht, if_neg ht]
    exact h.get? t

theorem Reordered.derives (h : c.Reordered c') (hwrapped : wrapped.Reordered wrapped') :
    c'.Derives wrapped' = c.Derives wrapped :=
  leadsTo_of_reordered (h.model? hwrapped)

theorem Reordered.declares_iff (h : c.Reordered c') (hwrapped : wrapped.Reordered wrapped') :
    c'.Declares wrapped' k n t ↔ c.Declares wrapped k n t := by
  have hsame : ∀ i i' : Interface, i.Reordered i' → k.declared i' = k.declared i := by
    intro i i' hi
    rw [hi.others]
    cases k <;> rfl
  have ht := h.model? hwrapped t
  unfold Declares
  generalize c.model? wrapped t = o, c'.model? wrapped' t = o' at ht
  cases ht with
  | none => exact Iff.rfl
  | some hi => simp [hsame _ _ hi]

/-- What is guarded stays so. -/
theorem Reordered.guarded_iff {kind kind' : TypeExpr → Prop} (h : c.Reordered c')
    (hwrapped : wrapped.Reordered wrapped') (hkind : ∀ t, kind' t ↔ kind t) :
    c'.Guarded wrapped' kind' t ↔ c.Guarded wrapped kind t := by
  unfold Guarded ClearWay
  simp only [h.derives hwrapped, hwrapped.type_eq, hkind]

/-- What lies behind a type of a kind lies behind one of a wider kind. -/
theorem Guarded.mono {kind kind' : TypeExpr → Prop} (h : c.Guarded wrapped kind t) (hkind : ∀ t, kind t → kind' t) :
    c.Guarded wrapped kind' t := by
  intro hway
  exact h (path_mono (fun u hu hu' => hu (hkind u hu')) hway)

/-- **A name is not taken from behind others that declare it.** -/
theorem Guarded.not_takes (h : c.Guarded wrapped (c.Declares wrapped k n) t) : ¬ c.Takes wrapped k n t := by
  intro htakes
  obtain ⟨before, after, hvisits, -, hbefore⟩ := takes_iff.mp htakes
  -- the way by which the visit comes to the type leads past no declaration of the name
  exact h (path_mono hbefore hvisits.path_before)

theorem model?_steer (p : TypeExpr → Bool) (c : Catalog) (wrapped : Interface) :
    (c.steer p).model? (wrapped.steer p) = fun t => (c.model? wrapped t).map (·.steer p) := by
  funext t
  show (if t = wrapped.type then some (wrapped.steer p) else (c.steer p).get? t) = _
  unfold Catalog.model?
  by_cases ht : t = wrapped.type
  · rw [if_pos ht, if_pos ht, Option.map_some]
  · rw [if_neg ht, if_neg ht, get?_steer]

open Classical in
/-- Chooses the types that lead to a type past no other declaration of a name. -/
noncomputable def onClearWay (c : Catalog) (wrapped : Interface) (k : MemberKind) (n : String) (y t : TypeExpr) :
    Bool :=
  decide (c.ClearWay wrapped (c.Declares wrapped k n) t y)

theorem onClearWay_iff : c.onClearWay wrapped k n y t = true ↔ c.ClearWay wrapped (c.Declares wrapped k n) t y := by
  simp [onClearWay]

/-- **Some order takes a name from a type** that is reached past no other declaration: the one in which the bases on
    the way there are listed first. -/
theorem exists_reordered_takes (hacyclic : c.Acyclic wrapped) (hdeclares : c.Declares wrapped k n y)
    (hway : c.ClearWay wrapped (c.Declares wrapped k n) wrapped.type y) :
    ∃ c' wrapped', c.Reordered c' ∧ wrapped.Reordered wrapped' ∧ c'.Takes wrapped' k n y := by
  let c' := c.steer (c.onClearWay wrapped k n y)
  let wrapped' := wrapped.steer (c.onClearWay wrapped k n y)
  have hc : c.Reordered c' := c.reordered_steer _
  have hwrapped : wrapped.Reordered wrapped' := wrapped.reordered_steer _
  have hy : (c.model? wrapped y).isSome := by
    obtain ⟨i, hi, -⟩ := hdeclares
    rw [hi]
    rfl
  obtain ⟨order, visited, hvisit⟩ := c'.exists_visits wrapped'
  have hsteered := hvisit
  rw [model?_steer] at hsteered
  have hnone : ∀ v ∈ ([] : List TypeExpr), TransGen (c.Derives wrapped) v wrapped.type :=
    fun v hv => absurd hv List.not_mem_nil
  obtain ⟨before, after, rfl, hbefore⟩ :=
    hsteered.found_of_steer hacyclic hy (fun t => onClearWay_iff) rfl (onClearWay_iff.mpr hway) hnone
  refine ⟨c', wrapped', hc, hwrapped, takes_iff.mpr ⟨before, after, ⟨visited, hvisit⟩, ?_, ?_⟩⟩
  · exact (hc.declares_iff hwrapped).mpr hdeclares
  · intro u hu
    rw [hc.declares_iff hwrapped]
    exact hbefore u hu

/-- **Where a name is taken from.** Let a type that is reached from the wrapped interface declare a member of a kind
    under a name. The name is taken from one type, and the members of the name are those of its interface. It is never
    taken from a type that is visited after another one that declares it. In whatever order the interfaces list their
    bases, it is not taken from a type if every way there leads past one that declares it; and if no type inherits from
    itself this is the only case, otherwise there is an order in which it is. -/
theorem members_precedence (hreached : ReflTransGen (c.Derives wrapped) wrapped.type y)
    (hdeclares : c.Declares wrapped k n y) :
    (∃! t, c.Takes wrapped k n t) ∧
    (∀ t i policy, c.Takes wrapped k n t → c.model? wrapped t = some i →
      k.Shows (c.members policy wrapped) n i) ∧
    (∀ x, c.Declares wrapped k n x → c.VisitsBefore wrapped x y → ¬ c.Takes wrapped k n y) ∧
    (∀ x, c.Declares wrapped k n x → c.Guarded wrapped (· = x) y →
      ∀ c' wrapped', c.Reordered c' → wrapped.Reordered wrapped' → ¬ c'.Takes wrapped' k n y) ∧
    (c.Acyclic wrapped →
      ((∀ c' wrapped', c.Reordered c' → wrapped.Reordered wrapped' → ¬ c'.Takes wrapped' k n y) ↔
        c.Guarded wrapped (c.Declares wrapped k n) y)) := by
  have hguarded : c.Guarded wrapped (c.Declares wrapped k n) y →
      ∀ c' wrapped', c.Reordered c' → wrapped.Reordered wrapped' → ¬ c'.Takes wrapped' k n y := by
    intro hguarded c' wrapped' hc hwrapped
    apply Guarded.not_takes
    exact (hc.guarded_iff hwrapped fun t => hc.declares_iff hwrapped).mpr hguarded
  refine ⟨existsUnique_takes hreached hdeclares, fun t i policy htakes hi => htakes.shows hi policy,
    fun x hx hbefore => hbefore.not_takes hx, ?_, ?_⟩
  · intro x hx hthrough
    exact hguarded (hthrough.mono fun t ht => ht ▸ hx)
  · intro hacyclic
    refine ⟨fun hnever hway => ?_, hguarded⟩
    obtain ⟨c', wrapped', hc, hwrapped, htakes⟩ := exists_reordered_takes hacyclic hdeclares hway
    exact hnever c' wrapped' hc hwrapped htakes

/-! ## Where windows take their title from -/

/-- A type derives from what its interface lists. -/
theorem Built.exists_of_derives (h : c.Built) (hstep : c.Derives wrapped x y) :
    ∃ i ∈ wrapped :: c.models, i.type = x ∧ y ∈ i.bases := by
  obtain ⟨i, hi, hy, -⟩ := hstep
  unfold Catalog.model? at hi
  by_cases hx : x = wrapped.type
  · rw [if_pos hx] at hi
    obtain rfl := Option.some.inj hi
    exact ⟨wrapped, List.mem_cons_self, hx.symm, hy⟩
  · rw [if_neg hx, h.get?_eq] at hi
    have hmem := List.mem_reverse.mp (List.mem_of_find?_eq_some hi)
    exact ⟨i, List.mem_cons_of_mem _ hmem, by simpa using List.find?_some hi, hy⟩

/-- No type inherits from itself if the bases of every interface rank below it. -/
theorem Built.acyclic_of_rank (h : c.Built) (rank : TypeExpr → Nat)
    (hrank : ∀ i ∈ wrapped :: c.models, ∀ base ∈ i.bases, rank base < rank i.type) : c.Acyclic wrapped := by
  have hstep : ∀ x y, c.Derives wrapped x y → rank y < rank x := by
    intro x y hxy
    obtain ⟨i, hi, rfl, hy⟩ := h.exists_of_derives hxy
    exact hrank i hi y hy
  have hpath : ∀ x y, TransGen (c.Derives wrapped) x y → rank y < rank x := by
    intro x y hxy
    induction hxy with
    | single hlast => exact hstep _ _ hlast
    | tail _ hlast ih => exact Nat.lt_trans (hstep _ _ hlast) ih
  exact fun t ht => Nat.lt_irrefl _ (hpath t t ht)

/-- What lies outside of some types is guarded if one gets out of them only past the kind. -/
theorem Built.guarded_of_closed {kind : TypeExpr → Prop} (h : c.Built) (types : List TypeExpr)
    (hroot : wrapped.type ∈ types) (ht : t ∉ types)
    (hclosed : ∀ i ∈ wrapped :: c.models, i.type ∈ types → ¬ kind i.type → ∀ base ∈ i.bases, base ∈ types) :
    c.Guarded wrapped kind t := by
  intro hway
  have hall : ∀ u, c.ClearWay wrapped kind wrapped.type u → u ∈ types := by
    intro u hu
    induction hu with
    | refl => exact hroot
    | tail _ hlast ih =>
      obtain ⟨i, hi, rfl, hbase⟩ := h.exists_of_derives hlast.1
      exact hclosed i hi ih hlast.2 _ hbase
  exact ht (hall t hway)

/-- An interface with a title. -/
def titled (name : String) (title : TypeExpr) (bases : List TypeExpr) : Interface where
  type := .named name
  properties := [⟨"Title", title, true, false⟩]
  bases

/-- What has a name has a text for its title, an element, which has a name, has an object, and controls are elements. -/
def titles : Catalog :=
  .ofModels [titled "Ns.INamed" (.named "System.String") [], titled "Ns.IElement" .object [.named "Ns.INamed"],
    { type := .named "Ns.IControl", bases := [.named "Ns.IElement"] }]

/-- A window with some bases. -/
def window (bases : List String) : Interface where
  type := .named "Ns.IWindow"
  bases := bases.map .named

/-- How far the interfaces are from what has a name. -/
def height (t : TypeExpr) : Nat :=
  if t.name = "Ns.INamed" then 0 else if t.name = "Ns.IElement" then 1 else if t.name = "Ns.IControl" then 2 else 3

/-- What a window finds. -/
theorem titles_model? (bases : List String) :
    titles.model? (window bases) (.named "Ns.IWindow") = some (window bases) ∧
      titles.model? (window bases) (.named "Ns.INamed") = some (titled "Ns.INamed" (.named "System.String") []) ∧
      titles.model? (window bases) (.named "Ns.IElement") =
        some (titled "Ns.IElement" .object [.named "Ns.INamed"]) :=
  ⟨by cbv, by cbv, by cbv⟩

/-- An element inherits from what has a name, and both declare a title. -/
theorem titles_declares (bases : List String) :
    titles.Derives (window bases) (.named "Ns.IElement") (.named "Ns.INamed") ∧
      titles.Declares (window bases) .getter "get_Title" (.named "Ns.IElement") ∧
      titles.Declares (window bases) .getter "get_Title" (.named "Ns.INamed") := by
  obtain ⟨-, hnamed, helement⟩ := titles_model? bases
  exact ⟨⟨_, helement, by decide, by rw [hnamed]; rfl⟩, ⟨_, helement, by decide⟩, ⟨_, hnamed, by decide⟩⟩

/-- A window that is a control and an element has, in every order, the title of an element. -/
theorem members_precedence_control :
    let w := window ["Ns.IControl", "Ns.IElement"]
    let named := TypeExpr.named "Ns.INamed"
    ReflTransGen (titles.Derives w) w.type named ∧ titles.Declares w .getter "get_Title" named ∧
      titles.Acyclic w ∧ titles.Guarded w (titles.Declares w .getter "get_Title") named ∧
      (∃! t, titles.Takes w .getter "get_Title" t) ∧
      ∀ c' w', titles.Reordered c' → w.Reordered w' → ¬ c'.Takes w' .getter "get_Title" named := by
  intro w named
  let element := TypeExpr.named "Ns.IElement"
  have hbuilt : titles.Built := .ofModels _
  have hacyclic : titles.Acyclic w := hbuilt.acyclic_of_rank height (by decide)
  obtain ⟨hwindow, -, helement⟩ := titles_model? ["Ns.IControl", "Ns.IElement"]
  obtain ⟨hinherits, hdeclares', hdeclares⟩ := titles_declares ["Ns.IControl", "Ns.IElement"]
  have hfirst : titles.Derives w w.type element := ⟨w, hwindow, by decide, by rw [helement]; rfl⟩
  have hreached : ReflTransGen (titles.Derives w) w.type named := .tail (.single hfirst) hinherits
  -- only elements lead on to what has a name
  have hthrough : titles.Guarded w (· = element) named :=
    hbuilt.guarded_of_closed [w.type, .named "Ns.IControl", element] (by decide) (by decide) (by decide)
  have hguarded : titles.Guarded w (titles.Declares w .getter "get_Title") named :=
    hthrough.mono fun t ht => ht ▸ hdeclares'
  obtain ⟨htakes, -, -, -, hnever⟩ := members_precedence hreached hdeclares
  exact ⟨hreached, hdeclares, hacyclic, hguarded, htakes, (hnever hacyclic).mpr hguarded⟩

/-- **A base may win over what inherits from it.** A window lists what has a name before the elements, and takes its
    title from there. -/
theorem members_precedence_window :
    let w := window ["Ns.INamed", "Ns.IElement"]
    let named := TypeExpr.named "Ns.INamed"
    let element := TypeExpr.named "Ns.IElement"
    titles.Acyclic w ∧ ReflTransGen (titles.Derives w) w.type element ∧
      ReflTransGen (titles.Derives w) w.type named ∧ TransGen (titles.Derives w) element named ∧
      titles.Declares w .getter "get_Title" element ∧ titles.Declares w .getter "get_Title" named ∧
      titles.Takes w .getter "get_Title" named ∧
      (titles.members .reject w).getters = [.getter "Title" (.named "System.String")] := by
  intro w named element
  have hbuilt : titles.Built := .ofModels _
  have hacyclic : titles.Acyclic w := hbuilt.acyclic_of_rank height (by decide)
  obtain ⟨(hwindow : titles.model? w w.type = some w), (hnamed : titles.model? w named = _),
    (helement : titles.model? w element = _)⟩ := titles_model? ["Ns.INamed", "Ns.IElement"]
  obtain ⟨hinherits, hdeclares, hdeclares'⟩ := titles_declares ["Ns.INamed", "Ns.IElement"]
  have hfirst : titles.Derives w w.type named := ⟨w, hwindow, by decide, by rw [hnamed]; rfl⟩
  have hsecond : titles.Derives w w.type element := ⟨w, hwindow, by decide, by rw [helement]; rfl⟩
  have hnone : ¬ titles.Declares w .getter "get_Title" w.type := by
    rintro ⟨i, hi, hn⟩
    obtain rfl := Option.some.inj (hwindow.symm.trans hi)
    revert hn
    decide
  -- the element is entered last, and what it inherits from has been seen by then
  have hseen : DepthFirst (titles.model? w) Interface.bases [named] [element, named, w.type] []
      [element, named, w.type] := .seen (by decide) .done
  have hlast : DepthFirst (titles.model? w) Interface.bases [element] [named, w.type] (element :: ([] ++ []))
      [element, named, w.type] := .enter (by decide) helement hseen .done
  have hbelow : DepthFirst (titles.model? w) Interface.bases [named, element] [w.type] (named :: ([] ++ [element]))
      [element, named, w.type] := .enter (by decide) hnamed .done hlast
  have hvisits : titles.Visits w (w.type :: ([named, element] ++ [])) :=
    ⟨[element, named, w.type], .enter List.not_mem_nil hwindow hbelow .done⟩
  have hlineage : titles.lineage w = [w, titled "Ns.INamed" (.named "System.String") [],
      titled "Ns.IElement" .object [named]] := by
    rw [hvisits.lineage_eq, List.filterMap_cons_some hwindow, List.append_nil, List.filterMap_cons_some hnamed,
      List.filterMap_cons_some helement, List.filterMap_nil]
  refine ⟨hacyclic, .single hsecond, .single hfirst, .single hinherits, hdeclares, hdeclares', ?_, ?_⟩
  · exact takes_iff.mpr ⟨[w.type], [element], hvisits, hdeclares', List.forall_mem_singleton.mpr hnone⟩
  · rw [members, hlineage]
    decide

end BoundaryProxy.Catalog
