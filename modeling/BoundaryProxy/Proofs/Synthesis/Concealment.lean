import BoundaryProxy.Proofs.Synthesis.Events
import BoundaryProxy.Proofs.Synthesis.Findings

/-!
# `Proofs.Synthesis.Concealment` — registry members stay behind the boundary

If no key is itself a registry member, the type under which a value crosses never is one (`not_isMember_crossing`),
so no signature that is made of such types exposes a live object. That is every signature of a generated class but
those that take a type as it stands, which are two: the payload of a forwarded event, and the type of no value for
a method that returns none.

`synthesize_conceals` says so of a whole class. `synthesize_exposes` shows that both are real.
-/

namespace BoundaryProxy

open Proxy Synthesis

namespace RegistrySet

variable {r : RegistrySet} {t : TypeExpr}

/-- Values of the type are live objects that a registry keeps. -/
def IsMember (r : RegistrySet) (t : TypeExpr) : Prop :=
  ∃ d, r.classify t = .member d

theorem isMember_iff : r.IsMember t ↔ (r.byMember? t).isSome := by
  unfold IsMember classify
  cases r.byMember? t with
  | some d => simp
  | none => cases r.byContainer? t <;> simp

instance (r : RegistrySet) (t : TypeExpr) : Decidable (r.IsMember t) :=
  decidable_of_iff _ isMember_iff.symm

/-- No key is itself a live object. -/
def KeysPass (r : RegistrySet) : Prop :=
  ∀ d ∈ r.descriptors, ¬ r.IsMember d.keyType

instance (r : RegistrySet) : Decidable r.KeysPass :=
  inferInstanceAs (Decidable (∀ d ∈ r.descriptors, ¬ r.IsMember d.keyType))

theorem KeysPass.not_isMember_of_byMember? (h : r.KeysPass) {d : RegistryDescriptor} (hd : r.byMember? t = some d) :
    ¬ r.IsMember d.keyType :=
  h d (List.mem_of_find?_eq_some hd)

/-- **What crosses is no live object.** -/
theorem KeysPass.not_isMember_crossing (h : r.KeysPass) (t : TypeExpr) : ¬ r.IsMember (r.crossingType t) := by
  unfold crossingType
  cases hfind : r.byMember? t with
  | some d => exact h.not_isMember_of_byMember? hfind
  | none =>
    rw [isMember_iff, hfind]
    exact Bool.false_ne_true

theorem KeysPass.not_isMember_lead (h : r.KeysPass) {k : TypeExpr} (hk : k ∈ leadTypes r t) : ¬ r.IsMember k := by
  unfold leadTypes at hk
  cases hfind : r.byMember? t with
  | none => simp [hfind] at hk
  | some d =>
    rw [hfind, Option.toList_some, List.map_singleton, List.mem_singleton] at hk
    exact hk ▸ h.not_isMember_of_byMember? hfind

/-- Parameters that are taken for the wrapped object and for values that come in are no live objects. -/
theorem KeysPass.not_isMember_params (h : r.KeysPass) {ps : List Parameter} {k : TypeExpr}
    (hk : k ∈ leadTypes r t ++ ps.map (r.crossingType ·.type)) : ¬ r.IsMember k := by
  rcases List.mem_append.mp hk with hk | hk
  · exact h.not_isMember_lead hk
  · obtain ⟨p, -, rfl⟩ := List.mem_map.mp hk
    exact h.not_isMember_crossing p.type

end RegistrySet

namespace Synthesis

variable {r : RegistrySet} {fields : List Field} {t : TypeExpr} {p : Method}

/-- No live object comes in through a parameter, and none goes out: a method that promises one by its return type
    promises none and returns no value. -/
structure Conceals (r : RegistrySet) (p : Method) : Prop where
  params : ∀ k ∈ p.paramTypes, ¬ r.IsMember k
  result : r.IsMember p.returns → p.returns = .void ∧ ∀ e, .return (some e) ∉ p.body

theorem ReadsSlot.conceals {property : String} {g : MethodDecl} (hkeys : r.KeysPass)
    (h : ReadsSlot r fields t property g p) : Conceals r p where
  params := by
    rw [h.paramTypes]
    exact fun _ hk => hkeys.not_isMember_params hk
  result := by
    rw [h.returns]
    exact fun hmember => absurd hmember (hkeys.not_isMember_crossing g.returns)

theorem WritesSlot.conceals {property : String} {m : MethodDecl} (hkeys : r.KeysPass)
    (h : WritesSlot r fields t property m p) : Conceals r p where
  params := by
    rw [h.paramTypes]
    exact fun _ hk => hkeys.not_isMember_params hk
  result := fun _ => ⟨h.returns, h.not_returns⟩

theorem Delegates.conceals {m : MethodDecl} (hkeys : r.KeysPass) (h : Delegates r fields t m p) :
    Conceals r p where
  params := by
    rw [h.paramTypes]
    exact fun _ hk => hkeys.not_isMember_params hk
  result := by
    intro hmember
    cases hvoid : m.returns.isVoid with
    | true => exact ⟨h.returns.trans (if_pos hvoid), h.not_returns hvoid⟩
    | false =>
      rw [h.returns, hvoid, if_neg Bool.false_ne_true] at hmember
      exact absurd hmember (hkeys.not_isMember_crossing m.returns)

end Synthesis

namespace ProxySpec

variable {spec : ProxySpec}

/-- An event of the wrapped interface that the proxy forwards. -/
structure Forwards (spec : ProxySpec) (e : EventDecl) : Prop where
  asked : spec.families.events = true
  held : ¬ spec.registries.IsMember spec.wrapped.type
  mem : e ∈ spec.members.events

/-- Which methods of a generated class may take a live object. -/
theorem conceals_of_made {fields : List Field} {family : Family} {ps : List Method} {p : Method}
    (hkeys : spec.registries.KeysPass) (hfamily : family ∈ spec.families.toList)
    (hmade : Made spec.registries spec.wrapped.type spec.members fields family ps) (hp : p ∈ ps) :
    Conceals spec.registries p ∨ ∃ e, spec.Forwards e ∧ RaisesEvent e p := by
  have hhas : spec.families.has family = true := mem_toList.mp hfamily
  cases hmade with
  | getters hs =>
    obtain ⟨g, -, property, hreads⟩ := exists_of_forall₂ hs hp
    exact .inl (hreads.conceals hkeys)
  | setters hs =>
    obtain ⟨m, -, property, hwrites⟩ := exists_of_forall₂ hs hp
    exact .inl (hwrites.conceals hkeys)
  | methods hs =>
    obtain ⟨m, -, hdelegates⟩ := exists_of_forall₂ hs hp
    exact .inl (hdelegates.conceals hkeys)
  | events hs =>
    obtain ⟨e, he, hraises⟩ := exists_of_forall₂ hs hp
    split at he
    · cases he
    · rename_i hheld
      exact .inr ⟨e, ⟨hhas, fun hmember => hheld (RegistrySet.isMember_iff.mp hmember), he⟩, hraises⟩

theorem forwards_of_mem_events {ev : Event} (hev : ev ∈ spec.synthesize.1.events) :
    ∃ e, spec.Forwards e ∧ ev = forwarded e := by
  rw [synthesize_events] at hev
  obtain ⟨family, hfamily, hev⟩ := List.mem_flatMap.mp hev
  cases family with
  | events =>
    rw [familyEvents] at hev
    split at hev
    · cases hev
    · rename_i hheld
      obtain ⟨e, he, rfl⟩ := List.mem_map.mp hev
      exact ⟨e, ⟨mem_toList.mp hfamily, fun hmember => hheld (RegistrySet.isMember_iff.mp hmember), he⟩, rfl⟩
  | _ => cases hev

/-- **A generated class conceals the live objects of the registries**, if no key is one. A parameter whose type is
    a registry member's is the payload of a forwarded event, in the method that raises it; a return type that is a
    registry member's is the type of no value, in a method that returns none; and every event is one that is
    forwarded, with its payload. -/
theorem synthesize_conceals (spec : ProxySpec) (hkeys : spec.registries.KeysPass) :
    (∀ p ∈ spec.synthesize.1.methods,
      (∀ t ∈ p.paramTypes, spec.registries.IsMember t →
        ∃ e, spec.Forwards e ∧ e.payload = some t ∧ RaisesEvent e p) ∧
      (spec.registries.IsMember p.returns → p.returns = .void ∧ ∀ value, .return (some value) ∉ p.body)) ∧
    ∀ ev ∈ spec.synthesize.1.events, ∃ e, spec.Forwards e ∧ ev = forwarded e := by
  obtain ⟨a, made, hunit, -, hmethods, hmade⟩ := spec.synthesize_made
  refine ⟨?_, fun ev hev => forwards_of_mem_events hev⟩
  intro p hp
  rw [hunit, Assembler.methods_finish, hmethods] at hp
  obtain ⟨family, hfamily, hp⟩ := List.mem_flatMap.mp hp
  -- every method is made of types that cross, unless it raises an event
  rcases conceals_of_made hkeys hfamily (hmade family hfamily) hp with hconceals | ⟨e, hforwards, hraises⟩
  · exact ⟨fun t ht hmember => absurd hmember (hconceals.params t ht), hconceals.result⟩
  · refine ⟨fun t ht _ => ⟨e, hforwards, ?_, hraises⟩, fun _ => ⟨hraises.returns, hraises.not_returns⟩⟩
    rw [hraises.paramTypes] at ht
    exact Option.mem_toList.mp ht

theorem keysPass_board : board.registries.KeysPass := by decide

set_option maxRecDepth 1024 in
/-- Nothing leaves the board but keys. -/
theorem synthesize_conceals_board : board.registries.KeysPass ∧
    ∃ p ∈ board.synthesize.1.methods, p.name = "Attach" ∧ ∀ t ∈ p.paramTypes, ¬ board.registries.IsMember t := by
  have hnames : board.synthesize.1.methods.map (·.name) = ["GetItem", "SetItem", "Attach"] := by cbv
  have hevents : board.members.events.isEmpty = true := by cbv
  obtain ⟨p, hp, hname⟩ : ∃ p ∈ board.synthesize.1.methods, p.name = "Attach" := by
    rw [← List.mem_map, hnames]
    simp
  refine ⟨keysPass_board, p, hp, hname, fun t ht hmember => ?_⟩
  obtain ⟨e, hforwards, -⟩ := ((synthesize_conceals board keysPass_board).1 p hp).1 t ht hmember
  have hmem := hforwards.mem
  rw [List.isEmpty_iff.mp hevents] at hmem
  cases hmem

/-! ## What is exposed -/

/-- A picker that announces which element was picked. The elements are kept in a registry. -/
def picker : ProxySpec where
  wrapped := {
    type := .named "Ns.IPicker"
    events := [⟨"Picked", some (.named "Ns.IElement")⟩] }
  catalog := .ofModels []
  registries := board.registries
  profile := {}
  families := .all

/-- A timer, where a registry claims to keep objects of the type of no value. -/
def timer : ProxySpec where
  wrapped := {
    type := .named "Ns.ITimer"
    methods := [⟨"Reset", [], .void, false⟩] }
  catalog := .ofModels []
  registries := ⟨[⟨"Nothings", .named "Ns.INothings", .void, .int⟩], by simp, by simp⟩
  profile := {}
  families := .all

set_option maxRecDepth 1024 in
/-- **Two signatures expose what a registry keeps**, and nothing is reported: the method that raises an event whose
    payload is a live object, with the event itself, and a method without a result if that counts as a live
    object. -/
theorem synthesize_exposes :
    (picker.registries.KeysPass ∧ picker.synthesize.2 = [] ∧
      (∃ p ∈ picker.synthesize.1.methods, ∃ t ∈ p.paramTypes, picker.registries.IsMember t) ∧
      ∃ ev ∈ picker.synthesize.1.events, ∃ t ∈ ev.handlerType.args, picker.registries.IsMember t) ∧
    timer.registries.KeysPass ∧ timer.synthesize.2 = [] ∧
      ∃ p ∈ timer.synthesize.1.methods, timer.registries.IsMember p.returns := by
  have hraise : picker.synthesize.1.methods.map (·.paramTypes) = [[.named "Ns.IElement"]] := by cbv
  have hevent : picker.synthesize.1.events =
      [⟨"Picked", .generic "System.EventHandler" [.named "Ns.IElement"]⟩] := by
    cbv
  have hreset : timer.synthesize.1.methods.map (·.returns) = [.void] := by cbv
  have helement : picker.registries.IsMember (.named "Ns.IElement") := by decide
  have hvoid : timer.registries.IsMember .void := by decide
  refine ⟨⟨keysPass_board, by cbv, ?_, ?_⟩, by decide, by cbv, ?_⟩
  · obtain ⟨p, hp, hparams⟩ : ∃ p ∈ picker.synthesize.1.methods, p.paramTypes = [.named "Ns.IElement"] := by
      rw [← List.mem_map, hraise]
      exact List.mem_cons_self
    exact ⟨p, hp, _, hparams ▸ List.mem_cons_self, helement⟩
  · rw [hevent]
    exact ⟨_, List.mem_cons_self, _, List.mem_cons_self, helement⟩
  · obtain ⟨p, hp, hreturns⟩ : ∃ p ∈ timer.synthesize.1.methods, p.returns = .void := by
      rw [← List.mem_map, hreset]
      exact List.mem_cons_self
    exact ⟨p, hp, hreturns ▸ hvoid⟩

end ProxySpec

end BoundaryProxy
