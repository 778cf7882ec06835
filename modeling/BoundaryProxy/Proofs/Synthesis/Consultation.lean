import BoundaryProxy.Proofs.Registry.Lookup
import BoundaryProxy.Proofs.Synthesis.Accounting

/-!
# `Proofs.Synthesis.Consultation` — what a session asks of the registries

A session asks a registry set about types: once about the wrapped type, in both roles, and then, member by member,
about the types of parameters and of what is returned. Two sets that answer these questions alike are interchangeable:
every conversion rule is the same step for both (one `congr` lemma a rule), so the whole synthesis is the same function
(`synthesize_congr`).

* **`synthesize_orderless`**: neither the order of interfaces or descriptors nor descriptors that nothing asks for make
  a difference.
-/

namespace BoundaryProxy

/-- Two registry sets answer alike what a session asks about a method. -/
structure RegistrySet.Concur (r r' : RegistrySet) (m : MethodDecl) : Prop where
  params : ∀ p ∈ m.params, r'.byMember? p.type = r.byMember? p.type
  returns : r'.byMember? m.returns = r.byMember? m.returns
  element : ∀ t, m.returns.sequenceElement? = some t → r'.byMember? t = r.byMember? t

namespace Synthesis

open Proxy

variable {r r' : RegistrySet} {α β σ : Type}

/-! ## Loops -/

theorem mapM_congr {f g : α → StateM σ β} {xs : List α} (h : ∀ x ∈ xs, f x = g x) : xs.mapM f = xs.mapM g := by
  induction xs with
  | nil => rfl
  | cons x xs ih =>
    rw [List.mapM_cons, List.mapM_cons, h x List.mem_cons_self, ih fun y hy => h y (List.mem_cons_of_mem x hy)]

theorem forM_congr {f g : α → StateM σ Unit} {xs : List α} (h : ∀ x ∈ xs, f x = g x) : xs.forM f = xs.forM g := by
  induction xs with
  | nil => rfl
  | cons x xs ih =>
    have hrest : xs.forM f = xs.forM g := ih fun y hy => h y (List.mem_cons_of_mem x hy)
    show (f x >>= fun _ => xs.forM f) = (g x >>= fun _ => xs.forM g)
    rw [h x List.mem_cons_self, hrest]

/-! ## Writing a method -/

namespace Draft

theorem incoming_congr {p : Parameter} (h : r'.byMember? p.type = r.byMember? p.type) :
    incoming r' p = incoming r p := by
  unfold incoming
  rw [h]

theorem argument_congr {p : Parameter} (h : r'.byMember? p.type = r.byMember? p.type) :
    argument r' p = argument r p := by
  unfold argument
  rw [incoming_congr h]

theorem returnRead_congr {t : TypeExpr} (h : r'.byMember? t = r.byMember? t) (read : Expr) :
    returnRead r' read t = returnRead r read t := by
  unfold returnRead
  rw [h]

theorem returnCall_congr {t : TypeExpr} (h : r'.byMember? t = r.byMember? t) (call : Expr) :
    returnCall r' call t = returnCall r call t := by
  unfold returnCall
  rw [h]

end Draft

namespace Subject

open Draft

/-- The subject with other registries to ask. -/
def asking (s : Subject) (r : RegistrySet) : Subject :=
  { s with registries := r }

variable {s : Subject} {m : MethodDecl}

theorem slot_congr {keys : List Parameter} (h : ∀ p ∈ keys, r.byMember? p.type = s.registries.byMember? p.type)
    (accessor : String) (object : Expr) : (s.asking r).slot accessor keys object = s.slot accessor keys object := by
  have hkeys : keys.mapM (incoming (s.asking r).registries) = keys.mapM (incoming s.registries) :=
    mapM_congr fun p hp => incoming_congr (h p hp)
  unfold slot
  rw [hkeys]

theorem reportLeak_congr {t : TypeExpr}
    (h : ∀ u, t.sequenceElement? = some u → r.byMember? u = s.registries.byMember? u) (member : String) :
    (s.asking r).reportLeak member t = s.reportLeak member t := by
  have hbind : t.sequenceElement?.bind (s.asking r).registries.byMember? =
      t.sequenceElement?.bind s.registries.byMember? := by
    cases helement : t.sequenceElement? with
    | none => rfl
    | some u => exact h u helement
  unfold reportLeak
  rw [hbind]
  rfl

theorem writeGetter_congr (h : s.registries.Concur r m) : (s.asking r).writeGetter m = s.writeGetter m := by
  show (s.target >>= fun object => (s.asking r).slot m.name m.params object >>= fun read =>
      returnRead r read m.returns) =
    (s.target >>= fun object => s.slot m.name m.params object >>= fun read =>
      returnRead s.registries read m.returns)
  refine bind_congr fun object => ?_
  rw [slot_congr h.params]
  exact bind_congr fun read => returnRead_congr h.returns read

theorem writeSetter_congr {keys : List Parameter} {value : Parameter}
    (h : ∀ p ∈ keys ++ [value], r.byMember? p.type = s.registries.byMember? p.type) :
    (s.asking r).writeSetter m keys value = s.writeSetter m keys value := by
  have hkeys : ∀ p ∈ keys, r.byMember? p.type = s.registries.byMember? p.type := fun p hp =>
    h p (List.mem_append_left _ hp)
  have hvalue : incoming r value = incoming s.registries value :=
    incoming_congr (h value (List.mem_append_right _ List.mem_cons_self))
  show (s.target >>= fun object => (s.asking r).slot m.name keys object >>= fun written =>
      incoming r value >>= fun v => addStmt (.assign written v)) =
    (s.target >>= fun object => s.slot m.name keys object >>= fun written =>
      incoming s.registries value >>= fun v => addStmt (.assign written v))
  refine bind_congr fun object => ?_
  rw [slot_congr hkeys, hvalue]

theorem writeCall_congr (h : s.registries.Concur r m) : (s.asking r).writeCall m = s.writeCall m := by
  have hargs : m.params.mapM (argument r) = m.params.mapM (argument s.registries) :=
    mapM_congr fun p hp => argument_congr (h.params p hp)
  show (s.target >>= fun object => m.params.mapM (argument r) >>= fun args =>
      returnCall r (.invoke object m.name args) m.returns) =
    (s.target >>= fun object => m.params.mapM (argument s.registries) >>= fun args =>
      returnCall s.registries (.invoke object m.name args) m.returns)
  rw [hargs]
  exact bind_congr fun object => bind_congr fun args => returnCall_congr h.returns _

/-! ## The rules of a session -/

theorem addGetter_congr (h : s.registries.Concur r m) : (s.asking r).addGetter m = s.addGetter m := by
  simp only [addGetter, reportLeak_congr h.element, writeGetter_congr h]

theorem addSetter_congr (h : s.registries.Concur r m) : (s.asking r).addSetter m = s.addSetter m := by
  unfold addSetter
  cases hlast : m.params.getLast? with
  | none => rfl
  | some value =>
    -- the keys and the value together are the parameters
    have hsplit : m.params.dropLast ++ [value] = m.params := List.dropLast_append_getLast? value hlast
    have hparams : ∀ p ∈ m.params.dropLast ++ [value], r.byMember? p.type = s.registries.byMember? p.type :=
      hsplit.symm ▸ h.params
    simp only [writeSetter_congr hparams]

theorem convertMethod_congr (h : s.registries.Concur r m) : (s.asking r).convertMethod m = s.convertMethod m := by
  simp only [convertMethod, reportLeak_congr h.element, writeCall_congr h]
  rfl

end Subject

/-- What is asked about every member is answered alike. -/
def Concurs (r r' : RegistrySet) (members : MemberSet) : Prop :=
  ∀ m ∈ members.getters ++ members.setters ++ members.methods, r.Concur r' m

/-- **One family** is converted by the same steps. -/
theorem convertFamily_congr {s : Subject} {members : MemberSet} (h : Concurs s.registries r members) (f : Family) :
    ProxySpec.convertFamily (s.asking r) members f = ProxySpec.convertFamily s members f := by
  cases f with
  | getters =>
    exact forM_congr fun m hm => Subject.addGetter_congr (h m (List.mem_append_left _ (List.mem_append_left _ hm)))
  | setters =>
    exact forM_congr fun m hm => Subject.addSetter_congr (h m (List.mem_append_left _ (List.mem_append_right _ hm)))
  | methods =>
    have hmethods : members.methods.forM (s.asking r).convertMethod = members.methods.forM s.convertMethod :=
      forM_congr fun m hm => Subject.convertMethod_congr (h m (List.mem_append_right _ hm))
    show (members.rejected.forM s.reportRejected >>= fun _ => members.methods.forM (s.asking r).convertMethod) =
      (members.rejected.forM s.reportRejected >>= fun _ => members.methods.forM s.convertMethod)
    rw [hmethods]
  | events => rfl

/-- A session starts alike if the wrapped type is answered for alike in both roles. -/
theorem start_congr {t : TypeExpr} (hmember : r'.byMember? t = r.byMember? t)
    (hcontainer : r'.byContainer? t = r.byContainer? t) (p : Profile) :
    Subject.start t r' p = ((Subject.start t r p).1.asking r', (Subject.start t r p).2) := by
  have haccess : Access.of t r' p = Access.of t r p := by
    unfold Access.of RegistrySet.classify
    rw [hmember, hcontainer]
  unfold Subject.start
  rw [haccess]
  rfl

end Synthesis

namespace ProxySpec

open Synthesis

/-- **Registry sets that answer alike** are interchangeable, and so are catalogs that do. -/
theorem synthesize_congr {spec : ProxySpec} {c : Catalog} {r : RegistrySet}
    (hcatalog : c.get? = spec.catalog.get?)
    (hmember : r.byMember? spec.wrapped.type = spec.registries.byMember? spec.wrapped.type)
    (hcontainer : r.byContainer? spec.wrapped.type = spec.registries.byContainer? spec.wrapped.type)
    (hmembers : Concurs spec.registries r spec.members) :
    ({ spec with catalog := c, registries := r } : ProxySpec).synthesize = spec.synthesize := by
  let spec' : ProxySpec := { spec with catalog := c, registries := r }
  let start := Subject.start spec.wrapped.type spec.registries spec.profile
  have hsame : spec'.members = spec.members := Catalog.members_congr hcatalog _ _
  have hstart : Subject.start spec.wrapped.type r spec.profile = (start.1.asking r, start.2) :=
    start_congr hmember hcontainer spec.profile
  have hsteps : convertFamily (start.1.asking r) spec'.members = convertFamily start.1 spec.members := by
    rw [hsame]
    exact funext (convertFamily_congr hmembers)
  have hrun : (spec'.families.toList.forM
      (convertFamily (Subject.start spec.wrapped.type r spec.profile).1 spec'.members)
      (Subject.start spec.wrapped.type r spec.profile).2).2 =
      (spec.families.toList.forM (convertFamily start.1 spec.members) start.2).2 := by
    rw [hstart, hsteps]
  exact congrArg (fun σ : Session => (σ.unit.finish, σ.notices)) hrun

end ProxySpec

/-- No question of a session is about the descriptor: its members are not what is wrapped, not what a converted member
    takes or returns, and not what a returned sequence is of; and what is wrapped is not its container. -/
structure RegistryDescriptor.Unasked (d : RegistryDescriptor) (wrapped : TypeExpr) (members : MemberSet) : Prop where
  member : d.memberType ≠ wrapped
  container : d.registryType ≠ wrapped
  params : ∀ m ∈ members.getters ++ members.setters ++ members.methods, ∀ p ∈ m.params, d.memberType ≠ p.type
  returns : ∀ m ∈ members.getters ++ members.setters ++ members.methods, d.memberType ≠ m.returns
  elements : ∀ m ∈ members.getters ++ members.setters ++ members.methods, m.returns ≠ .sequenceOf d.memberType

/-- A set to which descriptors were added that nothing asks for answers as before. -/
theorem RegistrySet.concurs_of_unasked {r r' : RegistrySet} {extra : List RegistryDescriptor} {wrapped : TypeExpr}
    {members : MemberSet} (h : r'.descriptors.Perm (r.descriptors ++ extra))
    (hextra : ∀ d ∈ extra, d.Unasked wrapped members) : Synthesis.Concurs r r' members := fun m hm => {
  params := fun p hp => byMember?_of_perm_append h fun d hd => (hextra d hd).params m hm p hp
  returns := byMember?_of_perm_append h fun d hd => (hextra d hd).returns m hm
  element := fun t ht => byMember?_of_perm_append h fun d hd heq => by
    have hsequence : m.returns = .sequenceOf d.memberType := heq.symm ▸ TypeExpr.sequenceElement?_eq_some.mp ht
    exact (hextra d hd).elements m hm hsequence }

namespace ProxySpec

/-- **Order makes no difference.** Where no type occurs twice, catalogs of the same interfaces in any order lead to the
    same registries and the same members, with the same reports. Any order of the descriptors of a registry set is a
    registry set, and leads to the same class with the same reports; and so does any larger set, if what it has more are
    descriptors that no question of the session is about. -/
theorem synthesize_orderless {c c' : Catalog} (hc : c.Built) (hc' : c'.Built)
    (htypes : (c.models.map (·.type)).Nodup) (hmodels : c'.models.Perm c.models) {ds ds' : List RegistryDescriptor}
    {r : RegistrySet} (hr : RegistrySet.ofList ds = .ok r) (hds : ds'.Perm ds) :
    (∀ p root, discoverRegistries c' p root = discoverRegistries c p root) ∧
    (∀ policy wrapped, c'.members policy wrapped = c.members policy wrapped) ∧
    (∃ r', RegistrySet.ofList ds' = .ok r' ∧ ∀ wrapped p families,
      (ProxySpec.mk wrapped c' r' p families).synthesize = (ProxySpec.mk wrapped c r p families).synthesize) ∧
    ∀ more extra r', more.Perm (ds ++ extra) → RegistrySet.ofList more = .ok r' → ∀ wrapped p families,
      (∀ d ∈ extra, d.Unasked wrapped.type (c.members p.outParams wrapped)) →
        (ProxySpec.mk wrapped c' r' p families).synthesize = (ProxySpec.mk wrapped c r p families).synthesize := by
  obtain rfl := RegistrySet.ofList_eq_ok_iff.mp hr
  have hget : c'.get? = c.get? := hc.get?_of_perm hc' htypes hmodels
  have hmore : ∀ more extra r', more.Perm (r.descriptors ++ extra) → RegistrySet.ofList more = .ok r' →
      ∀ wrapped p families, (∀ d ∈ extra, d.Unasked wrapped.type (c.members p.outParams wrapped)) →
        (ProxySpec.mk wrapped c' r' p families).synthesize = (ProxySpec.mk wrapped c r p families).synthesize := by
    intro more extra r' hperm hr' wrapped p families hextra
    obtain rfl := RegistrySet.ofList_eq_ok_iff.mp hr'
    let spec : ProxySpec := ⟨wrapped, c, r, p, families⟩
    show ({ spec with catalog := c', registries := r' } : ProxySpec).synthesize = spec.synthesize
    refine synthesize_congr hget ?_ ?_ ?_
    · exact RegistrySet.byMember?_of_perm_append hperm fun d hd => (hextra d hd).member
    · exact RegistrySet.byContainer?_of_perm_append hperm fun d hd => (hextra d hd).container
    · exact RegistrySet.concurs_of_unasked hperm hextra
  refine ⟨Catalog.discoverRegistries_congr hget, Catalog.members_congr hget, ?_, hmore⟩
  -- another order is the case in which nothing is added
  obtain ⟨r', hr'⟩ := RegistrySet.exists_ofList_of_perm hds
  have hnone : ds'.Perm (r.descriptors ++ []) := (List.append_nil r.descriptors).symm ▸ hds
  exact ⟨r', hr', fun wrapped p families =>
    hmore ds' [] r' hnone hr' wrapped p families fun _ hd => absurd hd List.not_mem_nil⟩

/-- The board's class is the same after its catalog was reordered and a registry of other objects was put in front. -/
theorem synthesize_orderless_board :
    let element : Interface := { type := .named "Ns.IElement", bases := [.named "Ns.IBoard"] }
    let others : RegistryDescriptor := ⟨"Others", .named "Ns.IOthers", .named "Ns.IOther", .int⟩
    let c := Catalog.ofModels [board.wrapped, element]
    let c' := Catalog.ofModels [element, board.wrapped]
    let ds := board.registries.descriptors
    c.Built ∧ c'.Built ∧ (c.models.map (·.type)).Nodup ∧ c'.models.Perm c.models ∧
      RegistrySet.ofList ds = .ok board.registries ∧ (others :: ds).Perm (ds ++ [others]) ∧
      others.Unasked board.wrapped.type (c.members board.profile.outParams board.wrapped) ∧
      ∃ r', RegistrySet.ofList (others :: ds) = .ok r' ∧
        (ProxySpec.mk board.wrapped c' r' board.profile .all).synthesize =
          (ProxySpec.mk board.wrapped c board.registries board.profile .all).synthesize := by
  intro element others c c' ds
  have htypes : (c.models.map (·.type)).Nodup := by decide
  have hmodels : c'.models.Perm c.models := List.Perm.swap _ _ _
  have hr : RegistrySet.ofList ds = .ok board.registries := RegistrySet.ofList_eq_ok_iff.mpr rfl
  have hperm : (others :: ds).Perm (ds ++ [others]) := (List.perm_append_singleton others ds).symm
  have hmembers : (c.members board.profile.outParams board.wrapped).getters ++
      (c.members board.profile.outParams board.wrapped).setters ++
      (c.members board.profile.outParams board.wrapped).methods = board.wrapped.methods := by cbv
  have hunasked : others.Unasked board.wrapped.type (c.members board.profile.outParams board.wrapped) := by
    constructor
    · decide
    · decide
    · rw [hmembers]
      decide
    · rw [hmembers]
      decide
    · rw [hmembers]
      decide
  have hr' : RegistrySet.ofList (others :: ds) = .ok ⟨others :: ds, by decide, by decide⟩ :=
    RegistrySet.ofList_eq_ok_iff.mpr rfl
  obtain ⟨-, -, -, hmore⟩ := synthesize_orderless (.ofModels _) (.ofModels _) htypes hmodels hr (.refl ds)
  refine ⟨.ofModels _, .ofModels _, htypes, hmodels, hr, hperm, hunasked, _, hr', ?_⟩
  exact hmore _ [others] _ hperm hr' _ _ _ fun d hd => List.mem_singleton.mp hd ▸ hunasked

end ProxySpec

end BoundaryProxy
