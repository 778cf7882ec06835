import BoundaryProxy.Proofs.Check.Exact
import BoundaryProxy.Proofs.Synthesis.Findings

/-!
# `Proofs.Synthesis.Overloads` — which overloads stay apart

A proxy's method keeps the name of the foreign method it was made for, but not its parameter types: a registry
member comes in under its key, and a parameter that only hands a value out does not come in at all. What is left is
the method's signature at the boundary (`RegistrySet.crossingSignature`), and it is all that tells the proxy's
methods apart: their own signatures are these, behind the same leading types (`signatures_of_delegates`).

* **`synthesize_overloads`**: the methods family generates methods with distinct signatures exactly when the
  methods to convert differ at the boundary, and then the check reports no signature as taken.
* Foreign methods with distinct signatures need not differ there (`synthesize_overloads_collapse`).
-/

namespace BoundaryProxy

open Proxy

/-- The name and the parameter types by which a foreign method is told from others. -/
def MethodDecl.signature (m : MethodDecl) : String × List TypeExpr :=
  (m.name, m.paramTypes)

/-- What a foreign method shows of its signature at the boundary: the types under which its arguments cross. -/
def RegistrySet.crossingSignature (r : RegistrySet) (m : MethodDecl) : String × List TypeExpr :=
  (m.name, (m.params.filter (!·.isOut)).map (r.crossingType ·.type))

/-! ## Signatures that are taken -/

namespace Check

variable {className x : String} {taken : Taken} {ms : List Member} {f : Finding}

theorem code_of_checkName {kind : NameKind} (h : f ∈ (checkName className taken x kind).1) : f.code ≠ "CS0111" := by
  simp only [checkName, List.mem_append, mem_findIf] at h
  rcases h with ⟨-, rfl⟩ | ⟨-, rfl⟩
  · simp [Finding.code]
  · simp [Finding.code]

/-- The signatures of methods among members. -/
def signatures (ms : List Member) : List (String × List TypeExpr) :=
  (ms.filterMap Member.method?).map Method.signature

theorem signatures_cons (m : Member) (ms : List Member) :
    signatures (m :: ms) = signatures [m] ++ signatures ms := by
  rw [signatures, signatures, signatures, ← List.map_append, ← List.filterMap_append]
  rfl

/-- A member whose signature is new does not report it as taken. -/
theorem code_of_checkMember {m : Member} (hnew : ∀ s ∈ signatures [m], s ∉ taken.signatures)
    (h : f ∈ (checkMember className taken m).1) : f.code ≠ "CS0111" := by
  cases m with
  | constructor c => exact absurd h List.not_mem_nil
  | field g => exact code_of_checkName h
  | event e => exact code_of_checkName h
  | method p =>
    simp only [checkMember] at h
    split at h
    · -- named like a member of another kind: its signature is not looked at
      exact code_of_checkName h
    · rcases List.mem_append.mp h with h | h
      · exact code_of_checkName h
      · obtain ⟨htaken, -⟩ := mem_findIf.mp h
        rw [signatures_addName, List.contains_eq_mem, decide_eq_true_eq] at htaken
        exact absurd htaken (hnew p.signature List.mem_cons_self)

/-- A member takes no signature but its own. -/
theorem signatures_checkMember (m : Member) :
    (checkMember className taken m).2.signatures ⊆ signatures [m] ++ taken.signatures := by
  cases m with
  | constructor c => exact List.subset_append_right _ _
  | field g =>
    rw [checkMember, signatures_addName]
    exact List.subset_append_right _ _
  | event e =>
    rw [checkMember, signatures_addName]
    exact List.subset_append_right _ _
  | method p =>
    simp only [checkMember]
    split
    · rw [signatures_addName]
      exact List.subset_append_right _ _
    · simp only [signatures_addName]
      exact List.Subset.refl _

/-- **No signature is reported as taken** among members whose methods have distinct new signatures. -/
theorem code_of_checkMembers (hnodup : (signatures ms).Nodup) (hnew : ∀ s ∈ signatures ms, s ∉ taken.signatures)
    (h : f ∈ checkMembers className taken ms) : f.code ≠ "CS0111" := by
  induction ms generalizing taken with
  | nil => exact absurd h List.not_mem_nil
  | cons m ms ih =>
    rw [signatures_cons] at hnodup hnew
    obtain ⟨-, hrest, hapart⟩ := List.nodup_append.mp hnodup
    obtain ⟨hfirst, hothers⟩ := List.forall_mem_append.mp hnew
    rcases List.mem_append.mp h with h | h
    · exact code_of_checkMember hfirst h
    · refine ih hrest (fun s hs htaken => ?_) h
      rcases List.mem_append.mp (signatures_checkMember m htaken) with hm | hm
      · exact hapart s hm s hs rfl
      · exact hothers s hs hm

end Check

open Check Synthesis

/-- A sound class whose methods have distinct signatures has no signature taken twice, not even its
    constructor's. -/
theorem Proxy.Assembler.code_of_check_finish {a : Assembler} {f : Finding} (h : a.Sound)
    (hnodup : (a.methods.map Method.signature).Nodup) (hf : f ∈ a.finish.check) : f.code ≠ "CS0111" := by
  unfold ProxyUnit.check at hf
  rw [List.mem_append, List.mem_append, mem_findIf, constructors_finish h] at hf
  rcases hf with (⟨hmany, -⟩ | hf) | hf
  · simp at hmany
  · have hsignatures : (signatures a.finish.members).Nodup := by
      have hmethods : a.finish.members.filterMap Member.method? = a.methods := methods_finish a
      rwa [signatures, hmethods]
    exact code_of_checkMembers hsignatures (fun _ _ => List.not_mem_nil) hf
  · obtain ⟨m, hm, hf⟩ := List.mem_flatMap.mp hf
    obtain ⟨p, -, rfl, -⟩ := mem_checkMemberBody_finish h hm hf
    simp [Finding.code]

/-! ## Signatures at the boundary -/

namespace Synthesis

variable {r : RegistrySet} {fields : List Field} {t : TypeExpr} {ms : List MethodDecl} {ps : List Method}

/-- The methods that delegate have the signatures at the boundary, behind the types by which the wrapped object is
    reached. -/
theorem signatures_of_delegates (h : List.Forall₂ (Delegates r fields t) ms ps) :
    ps.map Method.signature = (ms.map r.crossingSignature).map fun s => (s.1, leadTypes r t ++ s.2) := by
  induction h with
  | nil => rfl
  | @cons m p ms ps hp _ ih =>
    have hsignature : p.signature = (m.name, leadTypes r t ++ (r.crossingSignature m).2) :=
      Prod.ext hp.name hp.paramTypes
    rw [List.map_cons, List.map_cons, List.map_cons, ih, hsignature]
    rfl

theorem nodup_signatures_iff (h : List.Forall₂ (Delegates r fields t) ms ps) :
    (ps.map Method.signature).Nodup ↔ (ms.map r.crossingSignature).Nodup := by
  rw [signatures_of_delegates h]
  refine List.nodup_map_iff fun s s' heq => ?_
  obtain ⟨hname, htypes⟩ := Prod.mk.inj heq
  exact Prod.ext hname (List.append_cancel_left htypes)

end Synthesis

namespace ProxySpec

/-- **Which overloads stay apart.** In the run of the methods family, no two methods share name and parameter types
    if and only if no two of the methods they were made for share name and boundary types. If so, and no other
    family is asked for, the check reports no member as defined twice. -/
theorem synthesize_overloads (spec : ProxySpec) (h : spec.families.methods = true) :
    ∃ made : Family → List Method,
      spec.synthesize.1.methods = spec.families.toList.flatMap made ∧
      (∀ f ∈ spec.families.toList, (made f).length = spec.methodCount f) ∧
      (((made .methods).map Method.signature).Nodup ↔
        (spec.members.methods.map spec.registries.crossingSignature).Nodup) ∧
      (spec.families.toList = [.methods] → (spec.members.methods.map spec.registries.crossingSignature).Nodup →
        ∀ f ∈ spec.synthesize.1.check, f.code ≠ "CS0111") := by
  obtain ⟨a, made, hunit, hsound, hmethods, hmade⟩ := spec.synthesize_made
  have hrun : List.Forall₂ (Delegates spec.registries a.fields spec.wrapped.type) spec.members.methods
      (made .methods) := by
    cases hmade .methods (mem_toList.mpr h) with
    | methods hs => exact hs
  rw [hunit, Assembler.methods_finish]
  refine ⟨made, hmethods, fun f hf => spec.length_made (hmade f hf), nodup_signatures_iff hrun, ?_⟩
  intro honly hnodup f hf
  rw [honly, List.flatMap_singleton] at hmethods
  have hdistinct := (nodup_signatures_iff hrun).mpr hnodup
  rw [← hmethods] at hdistinct
  exact Assembler.code_of_check_finish hsound hdistinct hf

/-- A finder with some overloads. Elements are kept in a registry, and what is only handed out is thrown away. -/
def finder (overloads : List (List Parameter)) : ProxySpec where
  wrapped := {
    type := .named "Ns.IFinder"
    methods := overloads.map fun params => ⟨"Find", params, .void, false⟩ }
  catalog := .ofModels []
  registries := board.registries
  profile := { outParams := .discard }
  families := { methods := true }

/-- Elements are told from texts, and from pairs of both, at the boundary too. -/
theorem synthesize_overloads_finder :
    let spec := finder [[⟨"element", .named "Ns.IElement", .input⟩], [⟨"title", .named "System.String", .input⟩],
      [⟨"element", .named "Ns.IElement", .input⟩, ⟨"title", .named "System.String", .input⟩]]
    spec.families.methods = true ∧ spec.families.toList = [.methods] ∧
      (spec.members.methods.map spec.registries.crossingSignature).Nodup ∧
      (spec.synthesize.1.methods.map Method.signature).Nodup ∧
      ∀ f ∈ spec.synthesize.1.check, f.code ≠ "CS0111" := by
  intro spec
  have hmethods : spec.families.methods = true := rfl
  have honly : spec.families.toList = [.methods] := rfl
  have hcross : spec.members.methods.map spec.registries.crossingSignature =
      [("Find", [.int]), ("Find", [.named "System.String"]), ("Find", [.int, .named "System.String"])] := by
    cbv
  have hnodup : (spec.members.methods.map spec.registries.crossingSignature).Nodup := by
    rw [hcross]
    decide
  obtain ⟨made, hrun, -, hiff, hcheck⟩ := synthesize_overloads spec hmethods
  rw [honly, List.flatMap_singleton] at hrun
  exact ⟨hmethods, honly, hnodup, hrun ▸ hiff.mpr hnodup, hcheck honly hnodup⟩

set_option maxRecDepth 1024 in
/-- **Distinct overloads may collapse.** Finding an element, finding a number, and finding a number that hands a
    count out have distinct signatures, and all become the finding of a number. -/
theorem synthesize_overloads_collapse :
    let spec := finder [[⟨"element", .named "Ns.IElement", .input⟩], [⟨"number", .int, .input⟩],
      [⟨"number", .int, .input⟩, ⟨"count", .int, .output⟩]]
    (spec.members.methods.map MethodDecl.signature).Nodup ∧
      ¬ (spec.synthesize.1.methods.map Method.signature).Nodup ∧
      ∃ f ∈ spec.synthesize.1.check, f.code = "CS0111" := by
  intro spec
  have hforeign : spec.members.methods.map MethodDecl.signature =
      [("Find", [.named "Ns.IElement"]), ("Find", [.int]), ("Find", [.int, .int])] := by
    cbv
  have hproxy : spec.synthesize.1.methods.map Method.signature =
      [("Find", [.int]), ("Find", [.int]), ("Find", [.int])] := by
    cbv
  have hcheck : spec.synthesize.1.check = [.signatureTaken "Find", .signatureTaken "Find"] := by
    cbv
  rw [hforeign, hproxy, hcheck]
  exact ⟨by decide, by decide, _, List.mem_cons_self, rfl⟩

end ProxySpec

end BoundaryProxy
