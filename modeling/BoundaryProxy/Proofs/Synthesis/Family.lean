import BoundaryProxy.Proofs.Synthesis.Session

/-!
# `Proofs.Synthesis.Family` — the methods of a generated class

`synthesize_made` splits the methods of a generated class into the runs that the families added, one run a
family, and says what each run stands in for (`Made`). `synthesize_delegates` and `synthesize_accesses` read
this off for methods and for accessors.
-/

namespace BoundaryProxy

namespace Synthesis

open Proxy Check Proxy.Assembler

variable {s : Subject} {members : MemberSet} {r : RegistrySet} {t : TypeExpr}

/-! ## One family -/

/-- The methods that a family adds to the proxy of a type stand in, one by one, for the members of the
    family. Setters without a value are left out, and so are the events of a registry member. -/
inductive Made (r : RegistrySet) (t : TypeExpr) (members : MemberSet) (fields : List Field) :
    Family → List Method → Prop
  | getters {ps : List Method} : List.Forall₂ (ReadsGetter r t fields) members.getters ps →
      Made r t members fields .getters ps
  | setters {ps : List Method} :
      List.Forall₂ (WritesSetter r t fields) (members.setters.filter (!·.params.isEmpty)) ps →
      Made r t members fields .setters ps
  | methods {ps : List Method} : List.Forall₂ (Delegates r fields t) members.methods ps →
      Made r t members fields .methods ps
  | events {ps : List Method} :
      List.Forall₂ RaisesEvent (if (r.byMember? t).isSome then [] else members.events) ps →
      Made r t members fields .events ps

theorem Made.mono {fields fields' : List Field} {f : Family} {ps : List Method} (hf : fields <+: fields')
    (h : Made r t members fields f ps) : Made r t members fields' f ps := by
  cases h with
  | getters hs => exact .getters (hs.imp fun _ _ ⟨property, hp⟩ => ⟨property, hp.mono hf⟩)
  | setters hs => exact .setters (hs.imp fun _ _ ⟨property, hp⟩ => ⟨property, hp.mono hf⟩)
  | methods hs => exact .methods (hs.imp fun _ _ hp => hp.mono hf)
  | events hs => exact .events hs

/-- The accessors among the members are named as accessors. -/
structure Named (members : MemberSet) : Prop where
  getters : ∀ m ∈ members.getters, ∃ property, m.name = "get_" ++ property
  setters : ∀ m ∈ members.setters, ∃ property, m.name = "set_" ++ property

/-- **One family** keeps a session ready and adds its methods. -/
theorem convertFamily_made (hn : Named members) (f : Family) (σ : Session) (h : Ready s σ.unit) :
    let b := (ProxySpec.convertFamily s members f σ).2.unit
    ∃ ps, Ready s b ∧ σ.unit.Grows ps b ∧ Made s.registries s.type members b.fields f ps := by
  intro b
  cases f with
  | getters =>
    obtain ⟨ps, hready, hgrows, hstands⟩ := forM_converts_all
      (fun _ _ _ _ hf ⟨property, hp⟩ => ⟨property, hp.mono hf⟩) members.getters
      (fun g hg _ hσ => addGetter_converts hσ (hn.getters g hg)) σ h
    exact ⟨ps, hready, hgrows, .getters hstands⟩
  | setters =>
    obtain ⟨ps, hready, hgrows, hstands⟩ := forM_converts
      (fun _ _ _ _ hf ⟨property, hp⟩ => ⟨property, hp.mono hf⟩) (!·.params.isEmpty) members.setters
      (fun m hm _ hσ => addSetter_converts hσ (hn.setters m hm)) σ h
    exact ⟨ps, hready, hgrows, .setters hstands⟩
  | methods =>
    -- the methods set aside are reported first, which leaves the class as it is
    let σ' := (members.rejected.forM s.reportRejected σ).2
    have hunit : σ'.unit = σ.unit := forM_unit (fun _ _ => rfl) members.rejected σ
    rw [← hunit] at h ⊢
    obtain ⟨ps, hready, hgrows, hstands⟩ := forM_converts_all
      (fun _ _ _ _ hf hp => hp.mono hf) members.methods
      (fun m _ _ hσ => convertMethod_converts hσ m) σ' h
    exact ⟨ps, hready, hgrows, .methods hstands⟩
  | events =>
    obtain ⟨ps, hready, hgrows, hstands⟩ := addEvents_converts h members.events
    exact ⟨ps, hready, hgrows, .events hstands⟩

/-- Each method of a run stands in for one of the members, and each member has such a method. -/
theorem exists_of_forall₂ {α β : Type} {R : α → β → Prop} {xs : List α} {ys : List β}
    (h : List.Forall₂ R xs ys) {y : β} (hy : y ∈ ys) : ∃ x ∈ xs, R x y := by
  induction h with
  | nil => cases hy
  | cons hx _ ih =>
    rcases List.mem_cons.mp hy with rfl | hy
    · exact ⟨_, List.mem_cons_self, hx⟩
    · obtain ⟨x, hmem, hx⟩ := ih hy
      exact ⟨x, List.mem_cons_of_mem _ hmem, hx⟩

/-! ## All families -/

/-- **The families in order** add one run of methods each. -/
theorem forM_made (hn : Named members) {fs : List Family} (hnodup : fs.Nodup) (σ : Session)
    (h : Ready s σ.unit) :
    let b := (fs.forM (ProxySpec.convertFamily s members) σ).2.unit
    ∃ made : Family → List Method, Ready s b ∧ σ.unit.Grows (fs.flatMap made) b ∧
      ∀ f ∈ fs, Made s.registries s.type members b.fields f (made f) := by
  intro b
  induction fs generalizing σ with
  | nil => exact ⟨fun _ => [], h, .refl _, fun _ hf => absurd hf List.not_mem_nil⟩
  | cons f fs ih =>
    obtain ⟨hnew, hnodup⟩ := List.nodup_cons.mp hnodup
    obtain ⟨ps, hready, hgrows, hps⟩ := convertFamily_made hn f σ h
    obtain ⟨made, hready', hgrows', hmade⟩ := ih hnodup (ProxySpec.convertFamily s members f σ).2 hready
    -- the run of `f` is new, the other families keep theirs
    let made' : Family → List Method := fun g => if g = f then ps else made g
    have hf : made' f = ps := if_pos rfl
    have hothers : ∀ g ∈ fs, made' g = made g := fun g hg => by
      have hne : g ≠ f := by
        rintro rfl
        exact hnew hg
      exact if_neg hne
    have hflat : (f :: fs).flatMap made' = ps ++ fs.flatMap made := by
      rw [List.flatMap_cons, hf, List.flatMap_def, List.flatMap_def, List.map_congr_left hothers]
    refine ⟨made', hready', hflat ▸ hgrows.trans hgrows', ?_⟩
    intro g hg
    rcases List.mem_cons.mp hg with rfl | hg
    · rw [hf]
      exact hps.mono hgrows'.fields
    · rw [hothers g hg]
      exact hmade g hg

end Synthesis

namespace ProxySpec

open Synthesis Proxy Proxy.Assembler

variable (spec : ProxySpec)

theorem members_named : Named spec.members where
  getters := fun _ hm => Catalog.getter_property hm
  setters := fun _ hm => Catalog.setter_property hm

theorem nodup_toList (s : FamilySet) : s.toList.Nodup :=
  List.Nodup.sublist List.filter_sublist (by decide)

theorem mem_toList {s : FamilySet} {f : Family} : f ∈ s.toList ↔ s.has f = true := by
  rw [FamilySet.toList, List.mem_filter, and_iff_right]
  cases f <;> decide

/-- **A generated class** is a sound class, whose methods are those the families made. -/
theorem synthesize_made : ∃ (a : Assembler) (made : Family → List Method),
    spec.synthesize.1 = a.finish ∧ a.Sound ∧
    a.methods = spec.families.toList.flatMap made ∧
    ∀ f ∈ spec.families.toList, Made spec.registries spec.wrapped.type spec.members a.fields f (made f) := by
  obtain ⟨hready, hnone⟩ := start_ready spec.wrapped.type spec.registries spec.profile
  let start := Subject.start spec.wrapped.type spec.registries spec.profile
  obtain ⟨made, hready', hgrows, hmade⟩ :=
    forM_made spec.members_named (nodup_toList spec.families) start.2 hready
  have hmethods := hgrows.methods
  rw [hnone, List.nil_append] at hmethods
  exact ⟨_, made, rfl, hready'.sound, hmethods, hmade⟩

/-- How many methods a family leads to. -/
def methodCount : Family → Nat
  | .getters => spec.members.getters.length
  | .setters => (spec.members.setters.filter (!·.params.isEmpty)).length
  | .methods => spec.members.methods.length
  | .events => if (spec.registries.byMember? spec.wrapped.type).isSome then 0 else spec.members.events.length

theorem length_made {fields : List Field} {f : Family} {ps : List Method}
    (h : Made spec.registries spec.wrapped.type spec.members fields f ps) : ps.length = spec.methodCount f := by
  cases h with
  | getters hs | setters hs | methods hs => exact hs.length_eq.symm
  | events hs =>
    rw [← hs.length_eq, methodCount]
    split <;> rfl

/-- **The methods family delegates.** The methods of a generated class come in one run a family; in the run
    of the methods family, each method delegates to the member it was made for. -/
theorem synthesize_delegates (h : spec.families.methods = true) : ∃ made : Family → List Method,
    spec.synthesize.1.methods = spec.families.toList.flatMap made ∧
    (∀ f ∈ spec.families.toList, (made f).length = spec.methodCount f) ∧
    List.Forall₂ (Delegates spec.registries spec.synthesize.1.fields spec.wrapped.type) spec.members.methods
      (made .methods) := by
  obtain ⟨a, made, hunit, -, hmethods, hmade⟩ := spec.synthesize_made
  rw [hunit, methods_finish, fields_finish]
  refine ⟨made, hmethods, fun f hf => spec.length_made (hmade f hf), ?_⟩
  cases hmade .methods (mem_toList.mpr h) with
  | methods hs => exact hs

/-- A board on which elements are placed. The elements are kept in a registry. -/
def board : ProxySpec where
  wrapped := {
    type := .named "Ns.IBoard"
    methods := [
      ⟨"get_Item", [⟨"key", .named "Ns.IElement", .input⟩], .named "Ns.IElement", true⟩,
      ⟨"set_Item", [⟨"key", .named "Ns.IElement", .input⟩, ⟨"value", .int, .input⟩], .void, true⟩,
      ⟨"Attach", [⟨"element", .named "Ns.IElement", .input⟩, ⟨"found", .int, .output⟩],
        .named "Ns.IElement", false⟩] }
  catalog := .ofModels []
  registries := ⟨[⟨"Elements", .named "Ns.IElements", .named "Ns.IElement", .int⟩], by simp, by simp⟩
  profile := { outParams := .discard }
  families := .all

/-- Attaching an element to the board is delegated. -/
theorem synthesize_delegates_board : board.families.methods = true ∧
    ∃ m ∈ board.members.methods, ∃ p ∈ board.synthesize.1.methods, m.name = "Attach" ∧
      Delegates board.registries board.synthesize.1.fields board.wrapped.type m p := by
  have hall : board.families.methods = true := rfl
  obtain ⟨made, hmethods, -, hs⟩ := synthesize_delegates board hall
  have hnames : board.members.methods.map (·.name) = ["Attach"] := by cbv
  obtain ⟨m, hm, hname⟩ : ∃ m ∈ board.members.methods, m.name = "Attach" := by
    rw [← List.mem_map, hnames]
    exact List.mem_cons_self
  obtain ⟨p, hp, hdelegates⟩ := exists_of_forall₂ hs.flip hm
  refine ⟨hall, m, hm, p, ?_, hname, hdelegates⟩
  rw [hmethods]
  exact List.mem_flatMap.mpr ⟨.methods, mem_toList.mpr hall, hp⟩

end ProxySpec

end BoundaryProxy
