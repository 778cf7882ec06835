import BoundaryProxy.Proofs.Synthesis.Family
import Mathlib

/-!
# `Proofs.Synthesis.Findings` — what can be wrong with a generated class

A sound class has no finding about a name in a body (`check_finish`). What is left are clashes between members,
which the wrapped interface decides, and values that are returned where none is promised, because the foreign
type or the key type that replaces it is the type of no value (`check_synthesize`).
-/

namespace BoundaryProxy

open Proxy Check Synthesis

namespace Proxy.Assembler

variable {a : Assembler} {f : Finding}

theorem constructors_finish (h : a.Sound) : a.finish.constructors = [a.constructor] := by
  have hsingle : a.members.filterMap Member.constructor? = [] := h.single
  simp [finish, ProxyUnit.constructors, hsingle, Member.constructor?]

/-- All that can be wrong with the body of a member of a sound class is a method's return of a value it does
    not promise. -/
theorem mem_checkMemberBody_finish (h : a.Sound) {m : Member} (hm : m ∈ a.finish.members)
    (hf : f ∈ checkMemberBody (.of a.finish) m) :
    ∃ p ∈ a.methods, f = .voidReturnsValue p.name ∧ p.returns.isVoid = true ∧
      ∃ e, .return (some e) ∈ p.body := by
  rw [classNames_finish] at hf
  cases m with
  | field g => exact absurd hf List.not_mem_nil
  | event e => exact absurd hf List.not_mem_nil
  | constructor c =>
    have hc : c ∈ a.finish.constructors := List.mem_filterMap.mpr ⟨_, hm, rfl⟩
    rw [constructors_finish h, List.mem_singleton] at hc
    rw [hc, checkMemberBody_constructor h.constructor h.noReturn] at hf
    exact absurd hf List.not_mem_nil
  | method p =>
    have hp : p ∈ a.finish.methods := List.mem_filterMap.mpr ⟨_, hm, rfl⟩
    rw [methods_finish] at hp
    obtain ⟨hscoped, hreturns⟩ := h.methods p hp
    exact ⟨p, hp, mem_checkMemberBody_method hscoped hreturns hf⟩

/-- **What can be wrong with a sound class**: names of members clash, or a method returns a value it does not
    promise. -/
theorem check_finish (h : a.Sound) (hf : f ∈ a.finish.check) : f.code ∈ clashCodes ∨
    ∃ p ∈ a.methods, f = .voidReturnsValue p.name ∧ p.returns.isVoid = true ∧
      ∃ e, .return (some e) ∈ p.body := by
  unfold ProxyUnit.check at hf
  rw [List.mem_append, List.mem_append, mem_findIf] at hf
  rcases hf with (⟨-, rfl⟩ | hf) | hf
  · exact .inl (by simp [Finding.code, clashCodes])
  · exact .inl (code_of_mem_checkMembers hf)
  · obtain ⟨m, hm, hf⟩ := List.mem_flatMap.mp hf
    exact .inr (mem_checkMemberBody_finish h hm hf)

end Proxy.Assembler

namespace Synthesis

variable {r : RegistrySet} {fields : List Field} {t : TypeExpr} {p : Method}

/-! ## Returns of values -/

/-- A method whose one statement after inlining returns no value has no return of a value. -/
theorem not_returns_of_inlinedBody {s : Stmt} (hbody : p.inlinedBody = [s])
    (hs : ∀ e, s ≠ .return (some e)) (e : Expr) : .return (some e) ∉ p.body := by
  intro hmem
  have hleft : ∃ value, .return value ∈ p.inlinedBody ∧ value.isSome = (some e).isSome :=
    return_mem_inlineLocals hmem
  obtain ⟨value, hvalue, hsome⟩ := hleft
  obtain ⟨e', rfl⟩ := Option.isSome_iff_exists.mp hsome
  rw [hbody, List.mem_singleton] at hvalue
  exact hs e' hvalue.symm

theorem WritesSlot.not_returns {property : String} {m : MethodDecl} (h : WritesSlot r fields t property m p)
    (e : Expr) : .return (some e) ∉ p.body := by
  obtain ⟨keys, value, lead, params, last, target, slot, written, -, -, -, -, -, hbody⟩ := h.body
  exact not_returns_of_inlinedBody hbody (by simp) e

theorem RaisesEvent.not_returns {ev : EventDecl} (h : RaisesEvent ev p) (e : Expr) :
    .return (some e) ∉ p.body := by
  cases h <;> simp

/-- A method returns a value only if the method it calls has one. -/
theorem Delegates.not_returns {m : MethodDecl} (h : Delegates r fields t m p) (hvoid : m.returns.isVoid = true)
    (e : Expr) : .return (some e) ∉ p.body := by
  obtain ⟨lead, params, target, args, -, -, -, hbody⟩ := h.body
  rw [callStatement, if_pos hvoid] at hbody
  exact not_returns_of_inlinedBody hbody (by simp) e

end Synthesis

namespace ProxySpec

variable {spec : ProxySpec}

/-- **The findings a generated class may have.** Names clash, or a value of the type of no value is read or
    returned by a call: it is the foreign type itself, or the type of the key that replaces it. -/
inductive Expected (spec : ProxySpec) : Finding → Prop
  | clash {f : Finding} : f.code ∈ clashCodes → Expected spec f
  | getter {g : MethodDecl} : spec.families.getters = true → g ∈ spec.members.getters →
      (spec.registries.crossingType g.returns).isVoid = true →
      Expected spec (.voidReturnsValue (Naming.accessorMethodName g.name))
  | method {m : MethodDecl} : spec.families.methods = true → m ∈ spec.members.methods →
      m.returns.isVoid = false → (spec.registries.crossingType m.returns).isVoid = true →
      Expected spec (.voidReturnsValue m.name)

/-- Which methods of a generated class return a value they do not promise. -/
theorem expected_of_made {fields : List Field} {family : Family} {ps : List Method} {p : Method} {e : Expr}
    (hfamily : family ∈ spec.families.toList)
    (hmade : Made spec.registries spec.wrapped.type spec.members fields family ps) (hp : p ∈ ps)
    (hvoid : p.returns.isVoid = true) (hreturn : .return (some e) ∈ p.body) :
    spec.Expected (.voidReturnsValue p.name) := by
  have hhas : spec.families.has family = true := mem_toList.mp hfamily
  cases hmade with
  | getters hs =>
    obtain ⟨g, hg, property, hreads⟩ := exists_of_forall₂ hs hp
    rw [hreads.methodName]
    exact .getter hhas hg (hreads.returns ▸ hvoid)
  | setters hs =>
    obtain ⟨m, -, property, hwrites⟩ := exists_of_forall₂ hs hp
    exact absurd hreturn (hwrites.not_returns e)
  | methods hs =>
    obtain ⟨m, hm, hdelegates⟩ := exists_of_forall₂ hs hp
    rw [hdelegates.name]
    cases hmvoid : m.returns.isVoid with
    | true => exact absurd hreturn (hdelegates.not_returns hmvoid e)
    | false =>
      have hreturns := hdelegates.returns
      rw [hmvoid, if_neg Bool.false_ne_true] at hreturns
      exact .method hhas hm hmvoid (hreturns ▸ hvoid)
  | events hs =>
    obtain ⟨ev, -, hraises⟩ := exists_of_forall₂ hs hp
    exact absurd hreturn (hraises.not_returns e)

/-- **What can be wrong with a generated class.** Every line the checker reports is an expected one, and the
    bodies of all members are well scoped: whatever they mention was declared before, no name is declared
    twice, and a method that promises a value ends with its return. -/
theorem check_synthesize (spec : ProxySpec) :
    (∀ line ∈ spec.synthesize.1.checkLines, ∃ f, spec.Expected f ∧ f ∈ spec.synthesize.1.check ∧
      line = f.line spec.synthesize.1.className) ∧
    (∀ c ∈ spec.synthesize.1.constructors, BodyScoped (.of spec.synthesize.1) c.params c.body) ∧
    ∀ m ∈ spec.synthesize.1.methods, BodyScoped (.of spec.synthesize.1) m.params m.body ∧ ReturnsValue m := by
  obtain ⟨a, made, hunit, hsound, hmethods, hmade⟩ := spec.synthesize_made
  rw [hunit, Assembler.constructors_finish hsound, Assembler.methods_finish, Assembler.classNames_finish]
  refine ⟨?_, ?_, hsound.methods⟩
  · intro line hline
    obtain ⟨f, hf, rfl⟩ := List.mem_map.mp hline
    refine ⟨f, ?_, hf, rfl⟩
    rcases Assembler.check_finish hsound hf with hcode | ⟨p, hp, rfl, hvoid, e, hreturn⟩
    · exact .clash hcode
    · rw [hmethods] at hp
      obtain ⟨family, hfamily, hp⟩ := List.mem_flatMap.mp hp
      exact expected_of_made hfamily (hmade family hfamily) hp hvoid hreturn
  · intro c hc
    rw [List.mem_singleton.mp hc]
    exact hsound.constructor

/-- A generated class has one constructor. -/
theorem constructors_synthesize (spec : ProxySpec) : ∃ c, spec.synthesize.1.constructors = [c] := by
  obtain ⟨a, made, hunit, hsound, -⟩ := spec.synthesize_made
  rw [hunit]
  exact ⟨a.constructor, Assembler.constructors_finish hsound⟩

/-- A clock with a property of the type of no value. -/
def clock : ProxySpec where
  wrapped := {
    type := .named "Ns.IClock"
    properties := [⟨"Nothing", .void, true, false⟩] }
  catalog := .ofModels []
  registries := .empty
  profile := {}
  families := .all

theorem check_clock : (clock.synthesize.1.check, clock.synthesize.1.methods.map (·.name)) =
    ([.voidReturnsValue "GetNothing"], ["GetNothing"]) := by
  cbv

/-- The clock's proxy returns a value of the type of no value, and its bodies are well scoped. -/
theorem check_synthesize_clock : ∃ line ∈ clock.synthesize.1.checkLines, ∃ f, clock.Expected f ∧
    f ∈ clock.synthesize.1.check ∧ line = f.line clock.synthesize.1.className ∧
    (∃ c ∈ clock.synthesize.1.constructors, BodyScoped (.of clock.synthesize.1) c.params c.body) ∧
    ∃ m ∈ clock.synthesize.1.methods, m.name = "GetNothing" ∧
      BodyScoped (.of clock.synthesize.1) m.params m.body ∧ ReturnsValue m := by
  obtain ⟨hlines, hconstructors, hmethods⟩ := check_synthesize clock
  obtain ⟨hcheck, hnames⟩ := Prod.mk.inj check_clock
  have hline : (Finding.voidReturnsValue "GetNothing").line clock.synthesize.1.className ∈
      clock.synthesize.1.checkLines := by
    rw [ProxyUnit.checkLines, hcheck]
    exact List.mem_cons_self
  obtain ⟨c, hc⟩ := constructors_synthesize clock
  have hcmem : c ∈ clock.synthesize.1.constructors := by
    rw [hc]
    exact List.mem_cons_self
  obtain ⟨m, hm, hname⟩ : ∃ m ∈ clock.synthesize.1.methods, m.name = "GetNothing" := by
    rw [← List.mem_map, hnames]
    exact List.mem_cons_self
  obtain ⟨f, hexpected, hf, heq⟩ := hlines _ hline
  exact ⟨_, hline, f, hexpected, hf, heq, ⟨c, hcmem, hconstructors c hcmem⟩, m, hm, hname, hmethods m hm⟩

end ProxySpec

end BoundaryProxy
