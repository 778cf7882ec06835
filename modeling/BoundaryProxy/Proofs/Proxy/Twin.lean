import BoundaryProxy.Proofs.Proxy.Assembler
import BoundaryProxy.Proofs.Proxy.Renaming
import Mathlib.Data.List.Nodup

/-!
# `Proofs.Proxy.Twin` — two classes built by the same steps

One class is built from scratch, another from one that has members already, and both by the same steps. What the
steps add is the same, but not its names: the second supply has issued more, and a field that the first class must
add the second may have. `Twin b₀ ρ a b` is what remains true all the same. The pairing `ρ` lists which name of `b`
stands for which of `a`; the methods and attached handlers of `b` are those of its beginning `b₀` and behind them
those of `a`, up to every renaming that follows `ρ`; and a field of `a` has the field of its type in `b` beside it.

A new name on both sides is paired (`Twin.fresh`). A field is asked for in three ways: both classes have it, both add
it (`Twin.addBoth`), or only the first does, and then the second's field was not paired yet (`Twin.addFirst`).
-/

namespace BoundaryProxy.Proxy

open Pairing

/-- Whether a statement adds a handler to an event. -/
def Stmt.isAttach : Stmt → Bool
  | .attach .. => true
  | _ => false

namespace Assembler

variable {a b b₀ a' b' : Assembler} {t : TypeExpr} {x y : String} {ρ : Pairing}

/-- The statements of the constructor that attach handlers. -/
def attachments (a : Assembler) : List Stmt :=
  a.constructor.body.filter Stmt.isAttach

/-! ## New fields -/

/-- A field was added under a new name, and neither a method nor a handler. -/
structure AddsField (t : TypeExpr) (a : Assembler) (x : String) (a' : Assembler) : Prop where
  later : a.names.Later a'.names
  new : ¬ a.names.Issued x
  issued : a'.names.Issued x
  fields : ∃ init, a'.fields = a.fields ++ [⟨x, t, init⟩]
  methods : a'.methods = a.methods
  attachments : a'.attachments = a.attachments

theorem addsField_constructorField (h : a.fieldOfType? t = none) :
    AddsField t a (constructorField t a).1.name (constructorField t a).2 := by
  rw [constructorField_of_none h]
  refine ⟨a.names.later_next.trans (NameSupply.later_next _), ?_, NameSupply.issued_next _,
    ⟨.fromParam a.names.next.1, ?_⟩, ?_, ?_⟩
  · intro hissued
    exact NameSupply.not_issued_next _ (hissued.mono a.names.later_next)
  · exact fields_withMember (.field _)
  · exact (methods_withMember (.field _)).trans (List.append_nil _)
  · exact (List.filter_append _ _).trans (List.append_nil _)

theorem addsField_fixedField {path : String} (h : a.fieldOfType? t = none) :
    AddsField t a (fixedField t path a).1.name (fixedField t path a).2 := by
  rw [fixedField_of_none h]
  refine ⟨a.names.later_next, a.names.not_issued_next, a.names.issued_next, ⟨.fixed path, ?_⟩, ?_, rfl⟩
  · exact fields_withMember (.field _)
  · exact (methods_withMember (.field _)).trans (List.append_nil _)

/-- The new field is the one of its type, and no other type is concerned. -/
theorem AddsField.fieldOfType? (h : AddsField t a x a') (hnone : a.fieldOfType? t = none) (u : TypeExpr) :
    a'.fieldOfType? u = if u = t then some ⟨x, t⟩ else a.fieldOfType? u := by
  obtain ⟨init, hfields⟩ := h.fields
  rw [fieldOfType?_eq, fieldOfType?_eq, hfields, List.find?_append]
  by_cases hu : u = t
  · subst hu
    rw [fieldOfType?_eq, Option.map_eq_none_iff] at hnone
    rw [hnone, if_pos rfl]
    simp
  · rw [if_neg hu, List.find?_singleton, if_neg (by simpa using Ne.symm hu), Option.or_none]

/-- Types that were distinct stay so. -/
theorem AddsField.types (h : AddsField t a x a') (hnone : a.fieldOfType? t = none)
    (htypes : (a.fields.map (·.type)).Nodup) : (a'.fields.map (·.type)).Nodup := by
  obtain ⟨init, hfields⟩ := h.fields
  rw [fieldOfType?_eq, Option.map_eq_none_iff, List.find?_eq_none] at hnone
  have hnew : t ∉ a.fields.map (·.type) := by
    intro hmem
    obtain ⟨f, hf, htype⟩ := List.mem_map.mp hmem
    exact hnone f hf (by simpa using htype)
  rw [hfields, List.map_append]
  exact List.nodup_append_comm.mp (List.nodup_cons.mpr ⟨hnew, htypes⟩)

/-- A field found by its type is a field of that type. -/
theorem exists_mem_fields {f : FieldRef} (h : a.fieldOfType? t = some f) :
    ∃ g ∈ a.fields, g.type = t ∧ g.name = f.name := by
  obtain ⟨g, hfind, hname⟩ := findField_of_fieldOfType? h
  exact ⟨g, List.mem_of_find?_eq_some hfind, by simpa using List.find?_some hfind, hname⟩

/-- Where no two fields share a type, each is found by its own. -/
theorem fieldOfType?_of_mem (h : (a.fields.map (·.type)).Nodup) {f : Field} (hf : f ∈ a.fields) :
    a.fieldOfType? f.type = some ⟨f.name, f.type⟩ := by
  have hfind : (a.fields.find? (·.type = f.type)).isSome := List.find?_isSome.mpr ⟨f, hf, by simp⟩
  obtain ⟨g, hg⟩ := Option.isSome_iff_exists.mp hfind
  have htype : g.type = f.type := by simpa using List.find?_some hg
  obtain rfl : g = f := List.inj_on_of_nodup_map h (List.mem_of_find?_eq_some hg) hf htype
  rw [fieldOfType?_eq, hg]
  rfl

/-! ## Twins -/

/-- The class `b`, which began as `b₀`, has been built by the steps that built `a`. -/
structure Twin (b₀ : Assembler) (ρ : Pairing) (a b : Assembler) : Prop where
  left : a.names.Apart ρ.left
  right : b.names.Apart ρ.right
  fields : ∀ t f, a.fieldOfType? t = some f → ∃ g, b.fieldOfType? t = some g ∧ (f.name, g.name) ∈ ρ
  spare : ∀ t g, a.fieldOfType? t = none → b.fieldOfType? t = some g → g.name ∉ ρ.right
  types : (a.fields.map (·.type)).Nodup
  distinct : b.names.Apart (b.fields.map (·.name))
  grown : b₀.fields <+: b.fields
  methods : Agree (behind b₀.methods Method.renamed) ρ a.methods b.methods
  attachments : Agree (behind b₀.attachments Stmt.renamed) ρ a.attachments b.attachments

/-- The names of the second class's fields have been issued. -/
theorem Twin.issued (h : Twin b₀ ρ a b) {g : FieldRef} (hg : b.fieldOfType? t = some g) : b.names.Issued g.name := by
  obtain ⟨k, hk, -, hname⟩ := exists_mem_fields hg
  exact hname ▸ h.distinct.issued _ (List.mem_map_of_mem hk)

/-- The next names are paired. -/
theorem Twin.fresh (h : Twin b₀ ρ a b) :
    Twin b₀ ((a.names.next.1, b.names.next.1) :: ρ) a.afterName b.afterName where
  left := h.left.next
  right := h.right.next
  fields := fun t f hf => by
    obtain ⟨g, hg, hpair⟩ := h.fields t f hf
    exact ⟨g, hg, List.mem_cons_of_mem _ hpair⟩
  spare := fun t g ha hg hmem => by
    rcases List.mem_cons.mp hmem with hnext | hmem
    · exact (h.issued hg).ne_next hnext
    · exact h.spare t g ha hg hmem
  types := h.types
  distinct := h.distinct.mono b.names.later_next
  grown := h.grown
  methods := h.methods.mono (List.subset_cons_self _ _)
  attachments := h.attachments.mono (List.subset_cons_self _ _)

/-- Steps that issue no name and add no field may add what agrees. -/
theorem Twin.step (h : Twin b₀ ρ a b) (ha : a'.names = a.names ∧ a'.fields = a.fields)
    (hb : b'.names = b.names ∧ b'.fields = b.fields)
    (hmethods : Agree (behind b₀.methods Method.renamed) ρ a'.methods b'.methods)
    (hattachments : Agree (behind b₀.attachments Stmt.renamed) ρ a'.attachments b'.attachments) :
    Twin b₀ ρ a' b' := by
  have hfind : ∀ {c c' : Assembler}, c'.fields = c.fields → c'.fieldOfType? = c.fieldOfType? := fun hc =>
    funext fun t => by rw [fieldOfType?_eq, fieldOfType?_eq, hc]
  refine ⟨ha.1 ▸ h.left, hb.1 ▸ h.right, ?_, ?_, ha.2 ▸ h.types, ?_, hb.2 ▸ h.grown, hmethods, hattachments⟩
  · rw [hfind ha.2, hfind hb.2]
    exact h.fields
  · rw [hfind ha.2, hfind hb.2]
    exact h.spare
  · rw [hb.1, hb.2]
    exact h.distinct

theorem fields_withMember_of_none {m : Member} (h : m.field? = none) : (a.withMember m).fields = a.fields := by
  rw [fields_withMember, h]
  exact List.append_nil _

/-- The same method, up to names, is added. -/
theorem Twin.pushMethod (h : Twin b₀ ρ a b) {m n : Method} (hm : Agree Method.renamed ρ m n) :
    Twin b₀ ρ (pushMethod m a).2 (pushMethod n b).2 := by
  refine h.step ⟨rfl, fields_withMember_of_none rfl⟩ ⟨rfl, fields_withMember_of_none rfl⟩ ?_ h.attachments
  have hadded : ∀ (c : Assembler) (p : Method), (Assembler.pushMethod p c).2.methods = c.methods ++ [p] :=
    fun c p => methods_withMember (.method p)
  rw [hadded, hadded]
  exact hm.snoc h.methods

/-- The same event is added. -/
theorem Twin.pushEvent (h : Twin b₀ ρ a b) (e : Event) : Twin b₀ ρ (pushEvent e a).2 (pushEvent e b).2 := by
  refine h.step ⟨rfl, fields_withMember_of_none rfl⟩ ⟨rfl, fields_withMember_of_none rfl⟩ ?_ h.attachments
  have hnone : ∀ c : Assembler, (c.withMember (.event e)).methods = c.methods := fun c =>
    (methods_withMember (.event e)).trans (List.append_nil _)
  show Agree _ ρ (a.withMember (.event e)).methods (b.withMember (.event e)).methods
  rw [hnone, hnone]
  exact h.methods

/-- The same handler, up to names, is attached. -/
theorem Twin.attach (h : Twin b₀ ρ a b) {s s' : Stmt} (hs : Agree Stmt.renamed ρ s s')
    (hattach : s.isAttach = true ∧ s'.isAttach = true) :
    Twin b₀ ρ (addConstructorStatement s a).2 (addConstructorStatement s' b).2 := by
  refine h.step ⟨rfl, rfl⟩ ⟨rfl, rfl⟩ h.methods ?_
  have hadded : ∀ (c : Assembler) (u : Stmt), u.isAttach = true →
      (addConstructorStatement u c).2.attachments = c.attachments ++ [u] := fun c u hu =>
    (List.filter_append _ _).trans (by rw [List.filter_cons_of_pos hu, List.filter_nil]; rfl)
  rw [hadded a s hattach.1, hadded b s' hattach.2]
  exact hs.snoc h.attachments

/-! ## Asking for a field -/

/-- The field that the first class adds is paired with the one of its type in the second, which may be new there or
not, and the fields of other types stay paired. -/
theorem Twin.paired (h : Twin b₀ ρ a b) (ha : a.fieldOfType? t = none) (hx : AddsField t a x a') {g : FieldRef}
    (hg : b'.fieldOfType? t = some g) (hother : ∀ u, u ≠ t → b'.fieldOfType? u = b.fieldOfType? u) (u : TypeExpr)
    (f : FieldRef) (hf : a'.fieldOfType? u = some f) :
    ∃ g', b'.fieldOfType? u = some g' ∧ (f.name, g'.name) ∈ (x, g.name) :: ρ := by
  rw [hx.fieldOfType? ha] at hf
  by_cases hu : u = t
  · rw [if_pos hu] at hf
    cases hf
    exact ⟨g, hu ▸ hg, List.mem_cons_self⟩
  · rw [if_neg hu] at hf
    obtain ⟨g', hg', hpair⟩ := h.fields u f hf
    exact ⟨g', (hother u hu).trans hg', List.mem_cons_of_mem _ hpair⟩

/-- Both classes add the field. -/
theorem Twin.addBoth (h : Twin b₀ ρ a b) (ha : a.fieldOfType? t = none) (hb : b.fieldOfType? t = none)
    (hx : AddsField t a x a') (hy : AddsField t b y b') : Twin b₀ ((x, y) :: ρ) a' b' where
  left := h.left.insert hx.later hx.new hx.issued
  right := h.right.insert hy.later hy.new hy.issued
  fields := by
    have hfound : b'.fieldOfType? t = some ⟨y, t⟩ := by rw [hy.fieldOfType? hb, if_pos rfl]
    exact h.paired ha hx hfound fun u hu => by rw [hy.fieldOfType? hb, if_neg hu]
  spare := by
    intro u g hnone hg hmem
    rw [hx.fieldOfType? ha] at hnone
    rw [hy.fieldOfType? hb] at hg
    by_cases hu : u = t
    · rw [if_pos hu] at hnone
      cases hnone
    · rw [if_neg hu] at hnone hg
      rcases List.mem_cons.mp hmem with hname | hmem
      · have hissued := h.issued hg
        rw [hname] at hissued
        exact hy.new hissued
      · exact h.spare u g hnone hg hmem
  types := hx.types ha h.types
  distinct := by
    obtain ⟨init, hfields⟩ := hy.fields
    have hperm : (b'.fields.map (·.name)).Perm (y :: b.fields.map (·.name)) := by
      rw [hfields, List.map_append]
      exact List.perm_append_singleton _ _
    exact (h.distinct.insert hy.later hy.new hy.issued).perm hperm
  grown := by
    obtain ⟨init, hfields⟩ := hy.fields
    exact h.grown.trans (hfields ▸ List.prefix_append _ _)
  methods := by
    rw [hx.methods, hy.methods]
    exact h.methods.mono (List.subset_cons_self _ _)
  attachments := by
    rw [hx.attachments, hy.attachments]
    exact h.attachments.mono (List.subset_cons_self _ _)

/-- The first class adds the field and the second has it, as yet unpaired. -/
theorem Twin.addFirst (h : Twin b₀ ρ a b) (ha : a.fieldOfType? t = none) {g : FieldRef}
    (hb : b.fieldOfType? t = some g) (hx : AddsField t a x a') : Twin b₀ ((x, g.name) :: ρ) a' b where
  left := h.left.insert hx.later hx.new hx.issued
  right :=
    -- the name is not a new one of the supply, so that it is not paired yet is known from `spare` alone
    ⟨List.nodup_cons.mpr ⟨h.spare t g ha hb, h.right.nodup⟩,
      List.forall_mem_cons.mpr ⟨h.issued hb, h.right.issued⟩⟩
  fields := h.paired ha hx hb fun _ _ => rfl
  spare := by
    intro u g' hnone hg' hmem
    rw [hx.fieldOfType? ha] at hnone
    by_cases hu : u = t
    · rw [if_pos hu] at hnone
      cases hnone
    · rw [if_neg hu] at hnone
      rcases List.mem_cons.mp hmem with hname | hmem
      · -- fields of two types are two fields, and have two names
        obtain ⟨k, hk, hktype, hkname⟩ := exists_mem_fields hb
        obtain ⟨k', hk', hktype', hkname'⟩ := exists_mem_fields hg'
        have hsame : k' = k :=
          List.inj_on_of_nodup_map h.distinct.nodup hk' hk (by rw [hkname', hkname, hname])
        rw [hsame, hktype] at hktype'
        exact hu hktype'.symm
      · exact h.spare u g' hnone hg' hmem
  types := hx.types ha h.types
  distinct := h.distinct
  grown := h.grown
  methods := by
    rw [hx.methods]
    exact h.methods.mono (List.subset_cons_self _ _)
  attachments := by
    rw [hx.attachments]
    exact h.attachments.mono (List.subset_cons_self _ _)

/-- **Asking for a field of a type** keeps two classes twins, and the fields that answer are paired. -/
theorem Twin.constructorField (h : Twin b₀ ρ a b) (t : TypeExpr) : ∃ ρ', ρ ⊆ ρ' ∧
    ((constructorField t a).1.name, (constructorField t b).1.name) ∈ ρ' ∧
      Twin b₀ ρ' (constructorField t a).2 (constructorField t b).2 := by
  cases ha : a.fieldOfType? t with
  | some f =>
    obtain ⟨g, hb, hpair⟩ := h.fields t f ha
    rw [constructorField_of_some ha, constructorField_of_some hb]
    exact ⟨ρ, List.Subset.refl _, hpair, h⟩
  | none =>
    have hx := addsField_constructorField ha
    cases hb : b.fieldOfType? t with
    | some g =>
      rw [constructorField_of_some hb]
      exact ⟨_, List.subset_cons_self _ _, List.mem_cons_self, h.addFirst ha hb hx⟩
    | none =>
      have hy := addsField_constructorField hb
      exact ⟨_, List.subset_cons_self _ _, List.mem_cons_self, h.addBoth ha hb hx hy⟩

end Assembler

end BoundaryProxy.Proxy
