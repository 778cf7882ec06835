import BoundaryProxy.Proofs.Synthesis.Family

/-!
# `Proofs.Synthesis.Accounting` — every member is converted or reported

A step of a session only adds to the notices. `Appends view step out` says what a step adds to a list that is read
off the session, whatever the session was; it is closed under sequence and loops, so each conversion rule has one
lemma that says what it reports, and a run reports what its rules report, in order.

`synthesize_accounts` sets this beside the methods that were made: for each family, which members got a method and
which reports were made.
-/

namespace BoundaryProxy

namespace Synthesis

variable {α β : Type}

/-! ## What a step adds -/

/-- Whatever the session, the step adds `out` to the end of what is read off it. -/
def Appends (view : Session → List β) (step : StateM Session Unit) (out : List β) : Prop :=
  ∀ σ, view (step σ).2 = view σ ++ out

namespace Appends

variable {view : Session → List β} {first second : StateM Session Unit} {xs ys : List β}

theorem pure : Appends view (pure ()) [] := fun σ => (List.append_nil (view σ)).symm

theorem seq (h : Appends view first xs) (k : Appends view second ys) :
    Appends view (do first; second) (xs ++ ys) := by
  intro σ
  show view (second (first σ).2).2 = view σ ++ (xs ++ ys)
  rw [k, h, List.append_assoc]

/-- A loop adds what its steps add, in order. -/
theorem forM {step : α → StateM Session Unit} {out : α → List β} (h : ∀ x, Appends view (step x) (out x))
    (items : List α) : Appends view (items.forM step) (items.flatMap out) := by
  induction items with
  | nil => exact pure
  | cons x items ih => exact (h x).seq ih

/-- A loop whose steps add nothing adds nothing. -/
theorem forM_nil {step : α → StateM Session Unit} (h : ∀ x, Appends view (step x) []) (items : List α) :
    Appends view (items.forM step) [] := by
  have hrun := forM h items
  rwa [List.flatMap_eq_nil_iff.mpr fun _ _ => rfl] at hrun

end Appends

/-! ## Reports -/

/-- A notice under the label it is printed with, its severity and its code. -/
def Notice.labelled (n : Notice) : String × Notice :=
  (n.diagnostic.label, n)

/-- What a session has reported. -/
def Session.reports (σ : Session) : List (String × Notice) :=
  σ.notices.map Notice.labelled

theorem report_reports (n : Notice) : Appends Session.reports (Session.report n) [n.labelled] := by
  intro σ
  exact List.map_append

theorem onUnit_reports (step : StateM Proxy.Assembler Unit) :
    Appends Session.reports (Session.onUnit step) [] := fun σ => (List.append_nil σ.reports).symm

theorem addMethod_reports (name : String) (returns : TypeExpr) (write : StateM Draft Unit) :
    Appends Session.reports (Session.addMethod name returns write) [] := fun σ => (List.append_nil σ.reports).symm

end Synthesis

/-- The type is that of a sequence of registry members. -/
def RegistrySet.Leaks (r : RegistrySet) (t : TypeExpr) : Prop :=
  ∃ d ∈ r.descriptors, t = .sequenceOf d.memberType

instance (r : RegistrySet) (t : TypeExpr) : Decidable (r.Leaks t) :=
  inferInstanceAs (Decidable (∃ d ∈ r.descriptors, t = .sequenceOf d.memberType))

theorem TypeExpr.sequenceElement?_eq_some {t element : TypeExpr} :
    t.sequenceElement? = some element ↔ t = .sequenceOf element := by
  obtain ⟨name, args, rank⟩ := t
  unfold sequenceElement? sequenceOf generic
  constructor
  · intro h
    split at h
    · rename_i only hargs
      split at h
      · rename_i hseq
        obtain rfl := Option.some.inj h
        obtain ⟨rfl, rfl⟩ := hseq
        exact congrArg (TypeExpr.mk sequenceName · 0) hargs
      · cases h
    · cases h
  · rintro ⟨rfl, rfl, rfl⟩
    simp

/-- The rule that reports leaks finds all of them. -/
theorem RegistrySet.isSome_bind_byMember?_iff (r : RegistrySet) (t : TypeExpr) :
    (t.sequenceElement?.bind r.byMember?).isSome ↔ r.Leaks t := by
  rw [Option.isSome_iff_exists]
  constructor
  · rintro ⟨d, hd⟩
    obtain ⟨element, helement, hfind⟩ := Option.bind_eq_some_iff.mp hd
    have hmember : d.memberType = element := by simpa using List.find?_some hfind
    exact ⟨d, List.mem_of_find?_eq_some hfind, hmember ▸ TypeExpr.sequenceElement?_eq_some.mp helement⟩
  · rintro ⟨d, hd, ht⟩
    rw [TypeExpr.sequenceElement?_eq_some.mpr ht, Option.bind_some, ← Option.isSome_iff_exists]
    exact List.find?_isSome.mpr ⟨d, hd, by simp⟩

namespace Synthesis

section Reports

variable (r : RegistrySet) (owner : TypeExpr)

/-- A member that returns sequences of registry members is reported. -/
def leakReports (member : String) (returns : TypeExpr) : List (String × Notice) :=
  if r.Leaks returns then [("warning[PG0003]", .sequenceLeak owner member returns)] else []

/-- What is reported of a method that is converted: a leak, then each parameter whose value is thrown away. -/
def methodReports (m : MethodDecl) : List (String × Notice) :=
  leakReports r owner m.name m.returns ++
    (m.params.filter Parameter.isOut).map fun p => ("note[PG0002]", .argumentDiscarded owner m.name p.name)

/-- What is reported of a method that is left out. -/
def rejectedReport (m : MethodDecl) : String × Notice :=
  ("warning[PG0001]", .methodRejected owner m.name ((m.params.filter Parameter.isOut).map (·.name)))

/-- A setter that has no parameter, hence no value, is left out and reported. -/
def setterReports (m : MethodDecl) : List (String × Notice) :=
  if m.params = [] then [("warning", .setterWithoutValue owner m.name)] else []

/-- What is reported of each family of members, in order. -/
def familyReports (members : MemberSet) : Family → List (String × Notice)
  | .getters => members.getters.flatMap fun g => leakReports r owner (Naming.accessorMethodName g.name) g.returns
  | .setters => members.setters.flatMap (setterReports owner)
  | .methods => members.rejected.map (rejectedReport owner) ++ members.methods.flatMap (methodReports r owner)
  | .events =>
    if (r.byMember? owner).isSome ∧ members.events ≠ [] then
      [("warning[PG0004]", .eventsNotForwarded owner members.events.length)]
    else []

end Reports

/-! ## One lemma a rule -/

variable {s : Subject}

theorem reportLeak_reports (s : Subject) (member : String) (t : TypeExpr) :
    Appends Session.reports (s.reportLeak member t) (leakReports s.registries s.type member t) := by
  have hleaks := s.registries.isSome_bind_byMember?_iff t
  unfold Subject.reportLeak leakReports
  cases hfind : t.sequenceElement?.bind s.registries.byMember? with
  | some d =>
    rw [if_pos (hleaks.mp (hfind ▸ rfl))]
    exact report_reports _
  | none =>
    rw [if_neg fun hl => by simpa [hfind] using hleaks.mpr hl]
    exact .pure

theorem addGetter_reports (s : Subject) (g : MethodDecl) : Appends Session.reports (s.addGetter g)
    (leakReports s.registries s.type (Naming.accessorMethodName g.name) g.returns) := by
  have hrun := (reportLeak_reports s (Naming.accessorMethodName g.name) g.returns).seq
    (addMethod_reports (Naming.accessorMethodName g.name) g.returns (s.writeGetter g))
  rwa [List.append_nil] at hrun

theorem addSetter_reports (s : Subject) (m : MethodDecl) :
    Appends Session.reports (s.addSetter m) (setterReports s.type m) := by
  unfold Subject.addSetter setterReports
  cases hlast : m.params.getLast? with
  | none =>
    rw [if_pos (List.getLast?_eq_none_iff.mp hlast)]
    exact report_reports _
  | some value =>
    rw [if_neg fun hnil => by simp [hnil] at hlast]
    exact addMethod_reports _ _ _

theorem convertMethod_reports (s : Subject) (m : MethodDecl) :
    Appends Session.reports (s.convertMethod m) (methodReports s.registries s.type m) := by
  have hdiscarded : Appends Session.reports
      ((m.params.filter Parameter.isOut).forM fun p => Session.report (.argumentDiscarded s.type m.name p.name))
      ((m.params.filter Parameter.isOut).map fun p => ("note[PG0002]", .argumentDiscarded s.type m.name p.name)) := by
    rw [List.map_eq_flatMap]
    exact .forM (fun p => report_reports _) _
  have hrun := (reportLeak_reports s m.name m.returns).seq
    (hdiscarded.seq (addMethod_reports m.name m.returns (s.writeCall m)))
  rwa [List.append_nil] at hrun

theorem forwardEvent_reports (s : Subject) (e : EventDecl) : Appends Session.reports (s.forwardEvent e) [] :=
  (onUnit_reports _).seq ((addMethod_reports _ _ _).seq (onUnit_reports _))

/-- Events are reported together, with their number, if they cannot be forwarded. -/
theorem addEvents_reports (hs : s.access.member? = s.registries.byMember? s.type) (events : List EventDecl) :
    Appends Session.reports (s.addEvents events)
      (if (s.registries.byMember? s.type).isSome ∧ events ≠ [] then
        [("warning[PG0004]", .eventsNotForwarded s.type events.length)] else []) := by
  rw [← hs]
  rcases addEvents_cases s events with ⟨rfl, hrun⟩ | ⟨hne, hmember, hrun⟩ | ⟨-, hheld, hrun⟩
  · rw [hrun, if_neg fun h => h.2 rfl]
    exact .pure
  · rw [hrun, if_pos ⟨hmember, hne⟩]
    exact report_reports _
  · rw [hrun, if_neg fun h => hheld h.1]
    exact .forM_nil (forwardEvent_reports s) events

/-- **One family** reports what it does not convert as it is. -/
theorem convertFamily_reports (hs : s.access.member? = s.registries.byMember? s.type) (members : MemberSet)
    (f : Family) :
    Appends Session.reports (ProxySpec.convertFamily s members f) (familyReports s.registries s.type members f) := by
  cases f with
  | getters => exact .forM (addGetter_reports s) members.getters
  | setters => exact .forM (addSetter_reports s) members.setters
  | methods =>
    have hrejected : Appends Session.reports (members.rejected.forM s.reportRejected)
        (members.rejected.map (rejectedReport s.type)) := by
      rw [List.map_eq_flatMap]
      exact .forM (fun m => report_reports _) _
    exact hrejected.seq (.forM (convertMethod_reports s) members.methods)
  | events => exact addEvents_reports hs members.events

end Synthesis

namespace ProxySpec

open Synthesis

variable (spec : ProxySpec)

/-- **What is reported** of a specification: what its families report, in order, and nothing else. -/
theorem synthesize_reports : spec.synthesize.2.map Notice.labelled =
    spec.families.toList.flatMap (familyReports spec.registries spec.wrapped.type spec.members) := by
  let start := Subject.start spec.wrapped.type spec.registries spec.profile
  have haccess : start.1.access.member? = start.1.registries.byMember? start.1.type :=
    member?_access spec.wrapped.type spec.registries spec.profile
  exact Appends.forM (convertFamily_reports haccess spec.members) spec.families.toList start.2

/-- **Every member is converted or reported.** The methods of a generated class come in one run a family, in
    which each member that is converted has its method, in order; the reports come in one run a family too. -/
theorem synthesize_accounts :
    (∃ made : Family → List Proxy.Method, spec.synthesize.1.methods = spec.families.toList.flatMap made ∧
      ∀ f ∈ spec.families.toList,
        Made spec.registries spec.wrapped.type spec.members spec.synthesize.1.fields f (made f)) ∧
    spec.synthesize.2.map Notice.labelled =
      spec.families.toList.flatMap (familyReports spec.registries spec.wrapped.type spec.members) := by
  obtain ⟨a, made, hunit, -, hmethods, hmade⟩ := spec.synthesize_made
  refine ⟨⟨made, ?_, ?_⟩, spec.synthesize_reports⟩
  · rw [hunit, Proxy.Assembler.methods_finish, hmethods]
  · rw [hunit, Proxy.Assembler.fields_finish]
    exact hmade

end ProxySpec

end BoundaryProxy
