import BoundaryProxy.Proofs.Synthesis.Events
import BoundaryProxy.Proofs.Synthesis.Findings
import BoundaryProxy.Proofs.Synthesis.Lockstep

/-!
# `Proofs.Synthesis.Independence` — families do not depend on each other

A session that converts several families and the session of one of them alone start with the same class. When the
first comes to that family its class has grown, but whatever it has grown to, it still is a twin of the class that
both started with (`twin_of_extends`). From there the two convert the family in lockstep, so what the family adds
here is what it produces alone, under other names (`convertFamily_renames`).

* **`synthesize_independent`**: only the set of families that are asked for counts, and what a session reports and
  generates is, family by family, what sessions of one family report and generate, each under an injective renaming
  of fields, parameters and locals that keeps the field of the wrapped object and takes every other field to the
  field of its type.
-/

namespace BoundaryProxy

open Proxy Proxy.Assembler Pairing

namespace Synthesis

variable {a₀ b c : Assembler} {f₀ : Field} {s : Subject}

/-! ## The common start -/

/-- A class with one field and nothing else. -/
structure Starts (f₀ : Field) (a₀ : Assembler) : Prop where
  fields : a₀.fields = [f₀]
  methods : a₀.methods = []
  attachments : a₀.attachments = []
  issued : a₀.names.Apart [f₀.name]

/-- What a class grows to: its fields are still there, and the names of all fields are distinct. -/
structure Extends (a₀ b : Assembler) : Prop where
  grown : a₀.fields <+: b.fields
  distinct : b.names.Apart (b.fields.map (·.name))

theorem Starts.extends (h : Starts f₀ a₀) : Extends a₀ a₀ := by
  refine ⟨List.prefix_refl _, ?_⟩
  rw [h.fields]
  exact h.issued

/-- A session starts with the field of the wrapped object. -/
theorem starts_start (t : TypeExpr) (r : RegistrySet) (p : Profile) :
    ∃ f₀, f₀.name = (Subject.start t r p).1.field.name ∧ Starts f₀ (Subject.start t r p).2.unit := by
  have hadded : ∀ {u : TypeExpr} {x : String} {a : Assembler}, AddsField u (Subject.shell t p) x a →
      ∃ f₀ : Field, f₀.name = x ∧ Starts f₀ a := by
    intro u x a h
    obtain ⟨init, hfields⟩ := h.fields
    refine ⟨⟨x, u, init⟩, rfl, hfields, h.methods, h.attachments, ⟨List.nodup_singleton x, ?_⟩⟩
    exact List.forall_mem_singleton.mpr h.issued
  have hnone : ∀ u, (Subject.shell t p).fieldOfType? u = none := fun _ => rfl
  show ∃ f₀ : Field, f₀.name = (Subject.wrappedField t p (Access.of t r p) (Subject.shell t p)).1.name ∧
    Starts f₀ (Subject.wrappedField t p (Access.of t r p) (Subject.shell t p)).2
  cases Access.of t r p with
  | injected => exact hadded (addsField_constructorField (hnone _))
  | resolved d => exact hadded (addsField_fixedField (hnone _))
  | container d => exact hadded (addsField_fixedField (hnone _))
  | singleton path => exact hadded (addsField_fixedField (hnone _))

/-- **Whatever the class has grown to**, it is a twin of the class it started from, to which nothing was added. -/
theorem twin_of_extends (h : Starts f₀ a₀) (hb : Extends a₀ b) : b.Twin [(f₀.name, f₀.name)] a₀ b := by
  have hmem : f₀ ∈ b.fields := hb.grown.subset (h.fields ▸ List.mem_cons_self)
  have hfind : ∀ t, a₀.fieldOfType? t = if f₀.type = t then some ⟨f₀.name, f₀.type⟩ else none := by
    intro t
    rw [fieldOfType?_eq, h.fields, List.find?_singleton]
    by_cases ht : f₀.type = t <;> simp [ht]
  refine ⟨h.issued, ⟨List.nodup_singleton _, ?_⟩, ?_, ?_, ?_, hb.distinct, List.prefix_refl _, ?_, ?_⟩
  · exact List.forall_mem_singleton.mpr (hb.distinct.issued _ (List.mem_map_of_mem hmem))
  · intro t f hf
    rw [hfind] at hf
    split at hf
    · rename_i ht
      cases hf
      have hfirst : b.fields.find? (·.type = t) = some f₀ := hb.grown.find?_eq_some (by simp [h.fields, ht])
      exact ⟨⟨f₀.name, f₀.type⟩, by rw [fieldOfType?_eq, hfirst]; rfl, List.mem_cons_self⟩
    · cases hf
  · intro t g hnone hg hname
    rw [hfind] at hnone
    obtain ⟨k, hk, hktype, hkname⟩ := exists_mem_fields hg
    have hsame : k = f₀ :=
      List.inj_on_of_nodup_map hb.distinct.nodup hk hmem (hkname.trans (List.mem_singleton.mp hname))
    rw [if_pos (hsame ▸ hktype)] at hnone
    cases hnone
  · rw [h.fields]
    exact List.nodup_singleton _
  · intro rename _
    rw [h.methods]
    exact List.append_nil _
  · intro rename _
    rw [h.attachments]
    exact List.append_nil _

/-! ## One family -/

/-- The renaming keeps the field of the wrapped object and takes each field of one class to the field of its type in
    another. -/
structure Places (wrapped : String) (rename : String → String) (a c : Assembler) : Prop where
  injective : Function.Injective rename
  wrapped : rename wrapped = wrapped
  fields : ∀ g ∈ a.fields, ∃ k ∈ c.fields, k.type = g.type ∧ k.name = rename g.name

theorem Places.mono {w : String} {rename : String → String} {a : Assembler} (h : Places w rename a b)
    (hfields : b.fields <+: c.fields) : Places w rename a c where
  injective := h.injective
  wrapped := h.wrapped
  fields := fun g hg => by
    obtain ⟨k, hk, htype⟩ := h.fields g hg
    exact ⟨k, hfields.subset hk, htype⟩

/-- **One family** adds to any class what it adds to the class at the start, renamed. -/
theorem convertFamily_renames {α τ : Session} (h : Starts f₀ α.unit) (hfield : f₀.name = s.field.name)
    (hτ : Extends α.unit τ.unit) (members : MemberSet) (f : Family) :
    let alone := (ProxySpec.convertFamily s members f α).2.unit
    let c := (ProxySpec.convertFamily s members f τ).2.unit
    Extends α.unit c ∧ τ.unit.fields <+: c.fields ∧ ∃ rename : String → String,
      Places s.field.name rename alone c ∧
      c.methods = τ.unit.methods ++ alone.methods.map (Method.renamed rename) ∧
      c.attachments = τ.unit.attachments ++ alone.attachments.map (Stmt.renamed rename) := by
  intro alone c
  have hpaired : Draft.PairedFields [(f₀.name, f₀.name)] s.field s.field := hfield ▸ List.mem_cons_self
  obtain ⟨ρ, hgrown, -, htwin⟩ := convertFamily_lockstep hpaired members f _ α τ (List.Subset.refl _)
    (twin_of_extends h hτ)
  obtain ⟨rename, hfollows⟩ := exists_perm_follows htwin.left.nodup htwin.right.nodup
  refine ⟨⟨hτ.grown.trans htwin.grown, htwin.distinct⟩, htwin.grown, rename, ⟨rename.injective, ?_, ?_⟩, ?_, ?_⟩
  · exact hfollows _ (hgrown hpaired)
  · intro g hg
    obtain ⟨k, hk, hpair⟩ := htwin.fields _ _ (fieldOfType?_of_mem htwin.types hg)
    obtain ⟨k', hk', htype, hname⟩ := exists_mem_fields hk
    exact ⟨k', hk', htype, hname.trans (hfollows _ hpair).symm⟩
  · exact (htwin.methods rename hfollows).symm
  · exact (htwin.attachments rename hfollows).symm

/-! ## All families -/

/-- What each item makes of what was chosen for it, where the choice for the first item came last. -/
theorem flatMap_update {α β γ : Type} [DecidableEq α] {x : α} {xs : List α} (hx : x ∉ xs) (chosen : α → β)
    (first : β) (make : α → β → List γ) :
    (x :: xs).flatMap (fun y => make y (Function.update chosen x first y)) =
      make x first ++ xs.flatMap fun y => make y (chosen y) := by
  rw [List.flatMap_cons, Function.update_self]
  refine congrArg (make x first ++ ·) (List.flatMap_congr fun y hy => ?_)
  rw [Function.update_of_ne (ne_of_mem_of_not_mem hy hx)]

/-- **The families in order** each add what they add to the class at the start, renamed. -/
theorem forM_renames {α : Session} (h : Starts f₀ α.unit) (hfield : f₀.name = s.field.name) (members : MemberSet)
    {fs : List Family} (hnodup : fs.Nodup) (τ : Session) (hτ : Extends α.unit τ.unit) :
    let alone := fun f => (ProxySpec.convertFamily s members f α).2.unit
    let c := (fs.forM (ProxySpec.convertFamily s members) τ).2.unit
    τ.unit.fields <+: c.fields ∧ ∃ rename : Family → String → String,
      (∀ f ∈ fs, Places s.field.name (rename f) (alone f) c) ∧
      c.methods = τ.unit.methods ++ fs.flatMap (fun f => (alone f).methods.map (Method.renamed (rename f))) ∧
      c.attachments =
        τ.unit.attachments ++ fs.flatMap (fun f => (alone f).attachments.map (Stmt.renamed (rename f))) := by
  intro alone c
  -- the session alone always starts from `α`; what the families before have added is in `τ`
  induction fs generalizing τ with
  | nil =>
    exact ⟨List.prefix_refl _, fun _ => id, fun _ hf => absurd hf List.not_mem_nil, (List.append_nil _).symm,
      (List.append_nil _).symm⟩
  | cons f fs ih =>
    obtain ⟨hnew, hnodup⟩ := List.nodup_cons.mp hnodup
    obtain ⟨hextends, hgrown, first, hplaces, hmethods, hattachments⟩ :=
      convertFamily_renames h hfield hτ members f
    obtain ⟨hgrown', rename, hplaces', hmethods', hattachments'⟩ :=
      ih hnodup (ProxySpec.convertFamily s members f τ).2 hextends
    refine ⟨hgrown.trans hgrown', Function.update rename f first, List.forall_mem_cons.mpr ⟨?_, ?_⟩, ?_, ?_⟩
    · rw [Function.update_self]
      exact hplaces.mono hgrown'
    · intro g hg
      rw [Function.update_of_ne (ne_of_mem_of_not_mem hg hnew)]
      exact hplaces' g hg
    · refine hmethods'.trans ?_
      rw [flatMap_update hnew rename first fun g r => (alone g).methods.map (Method.renamed r), hmethods,
        List.append_assoc]
    · refine hattachments'.trans ?_
      rw [flatMap_update hnew rename first fun g r => (alone g).attachments.map (Stmt.renamed r), hattachments,
        List.append_assoc]

end Synthesis

/-! ## Asking for families -/

/-- What a session can be asked for: one family, or all of them. -/
inductive Request where
  | family (f : Family)
  | all
deriving Repr, DecidableEq

/-- The families that are asked for. -/
def Request.families : Request → List Family
  | family f => [f]
  | all => Family.all

theorem FamilySet.has_insert (S : FamilySet) (f g : Family) : (S.insert f).has g = (S.has g || g == f) := by
  cases f <;> cases g <;> simp [insert, has]

theorem FamilySet.ext_has {S T : FamilySet} (h : ∀ f, S.has f = T.has f) : S = T := by
  have hgetters := h .getters
  have hsetters := h .setters
  have hmethods := h .methods
  have hevents := h .events
  cases S
  cases T
  simp_all [has]

theorem FamilySet.toList_insert_empty (f : Family) : (FamilySet.insert {} f).toList = [f] := by
  cases f <;> rfl

namespace ProxySpec

open Synthesis

/-- Ask for what is requested. -/
def ask (spec : ProxySpec) : Request → ProxySpec
  | .family f => spec.withFamily f
  | .all => spec.withAll

/-- The specification with other families. -/
def asking (spec : ProxySpec) (S : FamilySet) : ProxySpec :=
  { spec with families := S }

/-- The specification with one family alone. -/
def alone (spec : ProxySpec) (f : Family) : ProxySpec :=
  spec.asking (FamilySet.insert {} f)

variable (spec : ProxySpec)

theorem foldl_withFamily (fs : List Family) :
    fs.foldl withFamily spec = spec.asking (fs.foldl FamilySet.insert spec.families) := by
  induction fs generalizing spec with
  | nil => rfl
  | cons f fs ih => exact ih (spec.withFamily f)

/-- Requests are made one family after another. -/
theorem foldl_ask (qs : List Request) :
    qs.foldl ask spec = spec.asking ((qs.flatMap Request.families).foldl FamilySet.insert spec.families) := by
  rw [← foldl_withFamily]
  induction qs generalizing spec with
  | nil => rfl
  | cons q qs ih =>
    rw [List.foldl_cons, ih, List.flatMap_cons, List.foldl_append]
    cases q <;> rfl

theorem has_foldl_insert (fs : List Family) (S : FamilySet) (f : Family) :
    (fs.foldl FamilySet.insert S).has f = true ↔ S.has f = true ∨ f ∈ fs := by
  induction fs generalizing S with
  | nil => simp
  | cons g fs ih =>
    rw [List.foldl_cons, ih, FamilySet.has_insert, Bool.or_eq_true, beq_iff_eq, List.mem_cons, or_assoc]

/-- Only which families are asked for counts. -/
theorem foldl_ask_congr {qs qs' : List Request}
    (h : ∀ f, f ∈ qs.flatMap Request.families ↔ f ∈ qs'.flatMap Request.families) :
    qs.foldl ask spec = qs'.foldl ask spec := by
  rw [foldl_ask, foldl_ask]
  refine congrArg spec.asking (FamilySet.ext_has fun f => Bool.eq_iff_iff.mpr ?_)
  rw [has_foldl_insert, has_foldl_insert, h]

/-! ## The class of a session -/

/-- The class of a session before its constructor joins the members. -/
def built : Assembler :=
  (spec.families.toList.forM
    (convertFamily (Subject.start spec.wrapped.type spec.registries spec.profile).1 spec.members)
    (Subject.start spec.wrapped.type spec.registries spec.profile).2).2.unit

theorem synthesize_built : spec.synthesize.1 = spec.built.finish :=
  rfl

theorem sound_built : spec.built.Sound := by
  obtain ⟨hready, -⟩ := start_ready spec.wrapped.type spec.registries spec.profile
  obtain ⟨made, hready', -⟩ := forM_made spec.members_named (nodup_toList spec.families) _ hready
  exact hready'.sound

end ProxySpec

/-- The statements of the constructors that attach handlers. -/
def ProxyUnit.attachments (u : ProxyUnit) : List Stmt :=
  u.constructors.flatMap fun c => c.body.filter Stmt.isAttach

theorem Proxy.Assembler.attachments_finish {a : Assembler} (h : a.Sound) :
    a.finish.attachments = a.attachments := by
  rw [ProxyUnit.attachments, constructors_finish h, List.flatMap_singleton]
  rfl

namespace ProxySpec

open Synthesis

variable (spec : ProxySpec)

/-- The field of the wrapped object, or of its registry. -/
def wrappedField : FieldRef :=
  (Subject.start spec.wrapped.type spec.registries spec.profile).1.field

theorem built_alone (f : Family) : (spec.alone f).built =
    (convertFamily (Subject.start spec.wrapped.type spec.registries spec.profile).1 spec.members f
      (Subject.start spec.wrapped.type spec.registries spec.profile).2).2.unit := by
  have hlist : (spec.alone f).families.toList = [f] := FamilySet.toList_insert_empty f
  rw [built, hlist]
  rfl

/-- What is reported is reported family by family. -/
theorem synthesize_reports_alone (S : FamilySet) :
    (spec.asking S).synthesize.2 = S.toList.flatMap fun f => (spec.alone f).synthesize.2 := by
  have hinjective : Function.Injective Notice.labelled := fun _ _ h => congrArg Prod.snd h
  have halone : ∀ f, (spec.alone f).synthesize.2.map Notice.labelled =
      familyReports spec.registries spec.wrapped.type spec.members f := fun f => by
    have hlist : (spec.alone f).families.toList = [f] := FamilySet.toList_insert_empty f
    rw [synthesize_reports, hlist, List.flatMap_singleton]
    rfl
  refine List.map_injective_iff.mpr hinjective ?_
  rw [synthesize_reports, List.map_flatMap]
  exact List.flatMap_congr fun f _ => (halone f).symm

theorem synthesize_events_alone (S : FamilySet) :
    (spec.asking S).synthesize.1.events = S.toList.flatMap fun f => (spec.alone f).synthesize.1.events := by
  rw [synthesize_events]
  refine List.flatMap_congr fun f _ => ?_
  have hlist : (spec.alone f).families.toList = [f] := FamilySet.toList_insert_empty f
  rw [synthesize_events, hlist, List.flatMap_singleton]
  rfl

/-- **Families are independent.** Two sequences of requests that ask for the same families give the same class and
    the same reports. And whatever families are asked for, the reports and events are those of the families alone, one
    after the other, and so are the methods and attached handlers, each family's under an injective renaming of fields,
    parameters and locals. It keeps the field of the wrapped object, and takes every field that the family has alone to
    the field of the same type. -/
theorem synthesize_independent :
    (∀ qs qs' : List Request, (∀ f, f ∈ qs.flatMap Request.families ↔ f ∈ qs'.flatMap Request.families) →
      (qs.foldl ask spec).synthesize = (qs'.foldl ask spec).synthesize) ∧
    ∀ S : FamilySet,
      (spec.asking S).synthesize.2 = S.toList.flatMap (fun f => (spec.alone f).synthesize.2) ∧
      ∃ rename : Family → String → String,
        (∀ f ∈ S.toList, Function.Injective (rename f) ∧
          rename f spec.wrappedField.name = spec.wrappedField.name ∧
          ∀ g ∈ (spec.alone f).synthesize.1.fields, ∃ k ∈ (spec.asking S).synthesize.1.fields,
            k.type = g.type ∧ k.name = rename f g.name) ∧
        (spec.asking S).synthesize.1.methods =
          S.toList.flatMap (fun f => (spec.alone f).synthesize.1.methods.map (Method.renamed (rename f))) ∧
        (spec.asking S).synthesize.1.events =
          S.toList.flatMap (fun f => (spec.alone f).synthesize.1.events) ∧
        (spec.asking S).synthesize.1.attachments =
          S.toList.flatMap (fun f =>
            (spec.alone f).synthesize.1.attachments.map (Stmt.renamed (rename f))) := by
  refine ⟨fun qs qs' h => by rw [foldl_ask_congr spec h], fun S => ⟨spec.synthesize_reports_alone S, ?_⟩⟩
  obtain ⟨f₀, hfield, hstarts⟩ := starts_start spec.wrapped.type spec.registries spec.profile
  obtain ⟨-, rename, hplaces, hmethods, hattachments⟩ :=
    forM_renames hstarts hfield spec.members (nodup_toList S) _ hstarts.extends
  have hbuilt : ∀ f, (spec.alone f).synthesize.1 =
      (convertFamily (Subject.start spec.wrapped.type spec.registries spec.profile).1 spec.members f
        (Subject.start spec.wrapped.type spec.registries spec.profile).2).2.unit.finish := fun f => by
    rw [synthesize_built, built_alone]
  rw [hstarts.methods, List.nil_append] at hmethods
  rw [hstarts.attachments, List.nil_append] at hattachments
  refine ⟨rename, fun f hf => ?_, ?_, spec.synthesize_events_alone S, ?_⟩
  · obtain ⟨hinjective, hwrapped, hfields⟩ := hplaces f hf
    refine ⟨hinjective, hwrapped, ?_⟩
    rw [hbuilt f, fields_finish, synthesize_built, fields_finish]
    exact hfields
  · rw [synthesize_built, methods_finish]
    refine hmethods.trans (List.flatMap_congr fun f _ => ?_)
    rw [hbuilt f, methods_finish]
  · rw [synthesize_built, attachments_finish (spec.asking S).sound_built]
    refine hattachments.trans (List.flatMap_congr fun f _ => ?_)
    rw [synthesize_built, attachments_finish (spec.alone f).sound_built, built_alone]

/-- The board's methods are those of the methods family alone, after the getters and setters took names and the
    registry of the elements. -/
theorem synthesize_independent_board :
    let qs : List Request := [.family .methods, .family .getters]
    let qs' : List Request := [.family .getters, .family .methods, .family .getters]
    (∀ f, f ∈ qs.flatMap Request.families ↔ f ∈ qs'.flatMap Request.families) ∧
      (qs.foldl ask board).synthesize = (qs'.foldl ask board).synthesize ∧
      Family.methods ∈ FamilySet.all.toList ∧
      ∃ rename : Family → String → String, Function.Injective (rename .methods) ∧
        ∃ p ∈ (board.asking .all).synthesize.1.methods, ∃ q ∈ (board.alone .methods).synthesize.1.methods,
          q.name = "Attach" ∧ p = q.renamed (rename .methods) := by
  intro qs qs'
  have hsame : ∀ f, f ∈ qs.flatMap Request.families ↔ f ∈ qs'.flatMap Request.families := by
    intro f
    cases f <;> decide
  have hmem : Family.methods ∈ FamilySet.all.toList := by decide
  obtain ⟨-, rename, hplaces, hmethods, -⟩ := (synthesize_independent board).2 .all
  have hnames : (board.alone .methods).synthesize.1.methods.map (·.name) = ["Attach"] := by cbv
  obtain ⟨q, hq, hname⟩ : ∃ q ∈ (board.alone .methods).synthesize.1.methods, q.name = "Attach" := by
    rw [← List.mem_map, hnames]
    exact List.mem_cons_self
  refine ⟨hsame, (synthesize_independent board).1 qs qs' hsame, hmem, rename, (hplaces _ hmem).1,
    q.renamed (rename .methods), ?_, q, hq, hname, rfl⟩
  rw [hmethods]
  exact List.mem_flatMap.mpr ⟨.methods, hmem, List.mem_map_of_mem hq⟩

end ProxySpec

end BoundaryProxy
