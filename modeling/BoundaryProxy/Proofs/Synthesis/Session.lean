import BoundaryProxy.Proofs.Members.Enumeration
import BoundaryProxy.Proofs.Synthesis.Member

/-!
# `Proofs.Synthesis.Session` — the class a session builds

`Ready` is the invariant of a session: the class is sound, and the subject's field is where the wrapped object
is reached from. `start_ready` establishes it. `Converts` says what a step does beyond keeping it: of the
members given, in order, methods were added that stand in for them. One lemma a kind of member proves it for
one step (`addGetter_converts`, `addSetter_converts`, `convertMethod_converts`, `forwardEvent_converts`), and
`forM_converts` for a list.
-/

namespace BoundaryProxy.Synthesis

open Proxy Check Proxy.Assembler

variable {s : Subject} {a b c : Assembler} {α : Type} {P : List Field → α → Method → Prop}

/-! ## The invariant of a session -/

/-- The class is sound, and the wrapped object is reached through the subject's field. -/
structure Ready (s : Subject) (a : Assembler) : Prop where
  sound : a.Sound
  placed : Placed s a.fields

theorem Ready.grow {ms : List Method} (h : Ready s a) (hb : b.Sound) (hg : a.Grows ms b) : Ready s b :=
  ⟨hb, h.placed.mono hg.fields⟩

/-- The first field of a session is the one through which the wrapped object is reached. -/
theorem wrappedField_spec (t : TypeExpr) (r : RegistrySet) (p : Profile) (ha : a.Sound) :
    GivesField (r.homeType t) a (Subject.wrappedField t p (Access.of t r p) a) := by
  unfold RegistrySet.homeType Access.of RegistrySet.classify
  cases hm : r.byMember? t with
  | some d => exact fixedField_spec ha d.registryType _
  | none =>
    cases hc : r.byContainer? t with
    | some d =>
      -- a container is the field's type itself, which its descriptor repeats
      have htype : d.registryType = t := by simpa using List.find?_some hc
      subst htype
      exact fixedField_spec ha d.registryType _
    | none =>
      cases hs : p.singleton? t.name with
      | some binding => exact fixedField_spec ha t _
      | none => exact constructorField_spec ha t

theorem member?_access (t : TypeExpr) (r : RegistrySet) (p : Profile) :
    (Access.of t r p).member? = r.byMember? t := by
  unfold Access.of RegistrySet.classify
  cases r.byMember? t with
  | some d => rfl
  | none =>
    cases r.byContainer? t with
    | some d => rfl
    | none => cases p.singleton? t.name <;> rfl

/-- **A session starts ready**, with a class that has no method. -/
theorem start_ready (t : TypeExpr) (r : RegistrySet) (p : Profile) :
    let start := Subject.start t r p
    Ready start.1 start.2.unit ∧ start.2.unit.methods = [] := by
  intro start
  have hshell : (Subject.shell t p).Sound := sound_start _ _ _
  obtain ⟨hsound, hgrows, hfound⟩ := wrappedField_spec t r p hshell
  exact ⟨⟨hsound, member?_access t r p, hfound⟩, hgrows.methods⟩

/-! ## Conversion -/

/-- From one class to another, methods were added that stand in for the given members, in order. -/
structure Converts (s : Subject) (P : List Field → α → Method → Prop) (xs : List α) (a b : Assembler)
    (ps : List Method) : Prop where
  ready : Ready s b
  grows : a.Grows ps b
  stands : List.Forall₂ (P b.fields) xs ps

theorem Converts.nothing (h : Ready s a) : Converts s P [] a a [] :=
  ⟨h, .refl a, .nil⟩

/-- More fields do not change which member a method stands in for. -/
def Keeps (P : List Field → α → Method → Prop) : Prop :=
  ∀ fields fields' x p, fields <+: fields' → P fields x p → P fields' x p

theorem Converts.append {xs ys : List α} {ps qs : List Method} (hP : Keeps P) (h : Converts s P xs a b ps)
    (k : Converts s P ys b c qs) : Converts s P (xs ++ ys) a c (ps ++ qs) where
  ready := k.ready
  grows := h.grows.trans k.grows
  stands := List.rel_append (h.stands.imp fun x p hp => hP _ _ x p k.grows.fields hp) k.stands

theorem forM_cons_apply (step : α → StateM Session Unit) (x : α) (xs : List α) (σ : Session) :
    (x :: xs).forM step σ = xs.forM step (step x σ).2 := rfl

/-- **A loop over members** converts those of them that a step converts. -/
theorem forM_converts (hP : Keeps P) (keep : α → Bool) {step : α → StateM Session Unit} (xs : List α)
    (hstep : ∀ x ∈ xs, ∀ σ : Session, Ready s σ.unit →
      ∃ ps, Converts s P ([x].filter keep) σ.unit (step x σ).2.unit ps) (σ : Session) (h : Ready s σ.unit) :
    ∃ ps, Converts s P (xs.filter keep) σ.unit (xs.forM step σ).2.unit ps := by
  induction xs generalizing σ with
  | nil => exact ⟨[], .nothing h⟩
  | cons x xs ih =>
    obtain ⟨ps, hx⟩ := hstep x List.mem_cons_self σ h
    obtain ⟨qs, hxs⟩ := ih (fun y hy => hstep y (List.mem_cons_of_mem _ hy)) (step x σ).2 hx.ready
    -- fields that later members add do not change which member an earlier method stands in for
    have hsplit : (x :: xs).filter keep = [x].filter keep ++ xs.filter keep :=
      List.filter_append [x] xs
    rw [hsplit, forM_cons_apply]
    exact ⟨ps ++ qs, hx.append hP hxs⟩

/-- A loop whose steps convert every member. -/
theorem forM_converts_all (hP : Keeps P) {step : α → StateM Session Unit} (xs : List α)
    (hstep : ∀ x ∈ xs, ∀ σ : Session, Ready s σ.unit → ∃ ps, Converts s P [x] σ.unit (step x σ).2.unit ps)
    (σ : Session) (h : Ready s σ.unit) : ∃ ps, Converts s P xs σ.unit (xs.forM step σ).2.unit ps := by
  have hrun := forM_converts hP (fun _ => true) xs (fun x hx σ hσ => hstep x hx σ hσ) σ h
  rwa [List.filter_true] at hrun

theorem forM_unit {step : α → StateM Session Unit} (hstep : ∀ x σ, (step x σ).2.unit = σ.unit) (xs : List α)
    (σ : Session) : (xs.forM step σ).2.unit = σ.unit := by
  induction xs generalizing σ with
  | nil => rfl
  | cons x xs ih =>
    rw [forM_cons_apply]
    exact (ih (step x σ).2).trans (hstep x σ)

theorem reportLeak_unit (s : Subject) (member : String) (t : TypeExpr) (σ : Session) :
    (s.reportLeak member t σ).2.unit = σ.unit := by
  unfold Subject.reportLeak
  cases t.sequenceElement?.bind s.registries.byMember? <;> rfl

/-! ## One lemma a kind of member -/

theorem fields_pushMethod (m : Method) (a : Assembler) : (pushMethod m a).2.fields = a.fields := by
  rw [show (pushMethod m a).2 = a.withMember (.method m) from rfl, fields_withMember]
  exact List.append_nil _

/-- A method that was written may be added. -/
theorem addMethod_converts (h : Ready s a) {d : Draft} {x : α} (hd : Written a d)
    (hP : P d.unit.fields x d.method) : Converts s P [x] a (pushMethod d.method d.unit).2 [d.method] := by
  obtain ⟨hsound, hgrows⟩ := pushMethod_spec hd.sound hd.wellScoped hd.returns
  have hg : a.Grows [d.method] (pushMethod d.method d.unit).2 := hd.grows.trans hgrows
  refine ⟨h.grow hsound hg, hg, .cons ?_ .nil⟩
  rw [fields_pushMethod]
  exact hP

/-- A method stands in for the getter of some property. -/
abbrev ReadsGetter (r : RegistrySet) (t : TypeExpr) (fields : List Field) (g : MethodDecl)
    (p : Method) : Prop :=
  ∃ property, ReadsSlot r fields t property g p

/-- A method stands in for the setter of some property. -/
abbrev WritesSetter (r : RegistrySet) (t : TypeExpr) (fields : List Field) (m : MethodDecl)
    (p : Method) : Prop :=
  ∃ property, WritesSlot r fields t property m p

theorem addGetter_converts {σ : Session} (h : Ready s σ.unit) {g : MethodDecl}
    (hg : ∃ property, g.name = "get_" ++ property) :
    ∃ ps, Converts s (ReadsGetter s.registries s.type) [g] σ.unit (s.addGetter g σ).2.unit ps := by
  obtain ⟨property, hname⟩ := hg
  let σ' := (s.reportLeak (Naming.accessorMethodName g.name) g.returns σ).2
  have hunit : σ'.unit = σ.unit := reportLeak_unit s _ _ σ
  rw [← hunit] at h ⊢
  obtain ⟨hwritten, hreads⟩ := getter_written h.placed h.sound hname
  exact ⟨_, addMethod_converts h hwritten ⟨property, hreads⟩⟩

/-- A setter without parameters has no value and is left out. -/
theorem addSetter_converts {σ : Session} (h : Ready s σ.unit) {m : MethodDecl}
    (hm : ∃ property, m.name = "set_" ++ property) :
    ∃ ps, Converts s (WritesSetter s.registries s.type) ([m].filter (!·.params.isEmpty)) σ.unit
      (s.addSetter m σ).2.unit ps := by
  obtain ⟨property, hname⟩ := hm
  unfold Subject.addSetter
  cases hlast : m.params.getLast? with
  | none =>
    rw [List.getLast?_eq_none_iff] at hlast
    rw [List.filter_cons_of_neg (by simp [hlast]), List.filter_nil]
    exact ⟨[], .nothing h⟩
  | some value =>
    obtain ⟨keys, hsplit⟩ := List.getLast?_eq_some_iff.mp hlast
    rw [List.filter_cons_of_pos (by simp [hsplit]), List.filter_nil, hsplit, List.dropLast_concat]
    obtain ⟨hwritten, hwrites⟩ := setter_written h.placed h.sound hname hsplit
    exact ⟨_, addMethod_converts h hwritten ⟨property, hwrites⟩⟩

theorem convertMethod_converts {σ : Session} (h : Ready s σ.unit) (m : MethodDecl) :
    ∃ ps, Converts s (fun fields => Delegates s.registries fields s.type) [m] σ.unit
      (s.convertMethod m σ).2.unit ps := by
  let σ₁ := (s.reportLeak m.name m.returns σ).2
  let σ₂ := ((m.params.filter Parameter.isOut).forM
    (fun p => Session.report (.argumentDiscarded s.type m.name p.name)) σ₁).2
  have hunit : σ₂.unit = σ.unit :=
    (forM_unit (fun _ _ => rfl) _ σ₁).trans (reportLeak_unit s m.name m.returns σ)
  rw [← hunit] at h ⊢
  obtain ⟨hwritten, hdelegates⟩ := call_written h.placed h.sound m
  exact ⟨_, addMethod_converts h hwritten hdelegates⟩

/-- **Forwarding an event** declares it, adds the method that raises it and attaches that method. -/
theorem forwardEvent_converts {σ : Session} (h : Ready s σ.unit) (e : EventDecl) :
    ∃ ps, Converts s (fun _ => RaisesEvent) [e] σ.unit (s.forwardEvent e σ).2.unit ps := by
  obtain ⟨hsound, hgrows, hmem⟩ :=
    pushEvent_spec h.sound ⟨e.name, Subject.overPayload "System.EventHandler" e⟩
  let a₁ := (pushEvent ⟨e.name, Subject.overPayload "System.EventHandler" e⟩ σ.unit).2
  have h₁ : Ready s a₁ := h.grow hsound hgrows
  obtain ⟨hwritten, hraises⟩ := raise_written (e := e) hsound (List.mem_map_of_mem hmem)
  obtain ⟨hready, hadded, hstands⟩ := addMethod_converts (P := fun _ => RaisesEvent) h₁ hwritten hraises
  let raise := (Subject.writeRaise e ⟨a₁, { name := Subject.raiseName e, returns := .void }⟩).2
  let a₂ := (pushMethod raise.method raise.unit).2
  let handler : Expr :=
    .new (Subject.overPayload s.profile.eventProxy e) [.methodRef (Subject.raiseName e)]
  let attach : Stmt := .attach s.field.expr e.name handler
  -- the field was there from the start, the method that raises the event was just added
  have hfield : s.field.name ∈ a₂.classNames.fields := by
    obtain ⟨f, hfind, hname⟩ := hready.placed.field
    exact hname ▸ Draft.mem_classNames_of_find hfind
  have hmethod : Subject.raiseName e ∈ a₂.classNames.methods := by
    have hname : raise.method.name = Subject.raiseName e := hraises.name
    show Subject.raiseName e ∈ a₂.methods.map (·.name)
    rw [← hname, hadded.methods]
    exact List.mem_map_of_mem (List.mem_append_right _ List.mem_cons_self)
  have hattach : attach.Resolved a₂.classNames ⟨a₂.constructor.params.map Param.name, []⟩ := by
    rw [stmt_resolved_iff_exprs (by simp [attach])]
    simpa [attach, handler, Stmt.exprs, FieldRef.expr] using ⟨hfield, hmethod⟩
  obtain ⟨hsound', hgrows'⟩ := addConstructorStatement_spec hready.sound hattach rfl (by simp [attach])
  exact ⟨[raise.method], hready.grow hsound' hgrows', (hgrows.trans hadded).trans hgrows', hstands⟩

/-- What becomes of the events: there is none, they are reported, or they are forwarded. -/
theorem addEvents_cases (s : Subject) (events : List EventDecl) :
    (events = [] ∧ s.addEvents events = pure ()) ∨
    (events ≠ [] ∧ s.access.member?.isSome = true ∧
      s.addEvents events = Session.report (.eventsNotForwarded s.type events.length)) ∨
    (events ≠ [] ∧ s.access.member?.isSome ≠ true ∧ s.addEvents events = events.forM s.forwardEvent) := by
  unfold Subject.addEvents
  cases events with
  | nil => exact .inl ⟨rfl, rfl⟩
  | cons e rest =>
    rw [if_neg (show (e :: rest).isEmpty ≠ true from Bool.false_ne_true)]
    by_cases hmember : s.access.member?.isSome = true
    · exact .inr (.inl ⟨List.cons_ne_nil e rest, hmember, if_pos hmember⟩)
    · exact .inr (.inr ⟨List.cons_ne_nil e rest, hmember, if_neg hmember⟩)

theorem addEvents_converts {σ : Session} (h : Ready s σ.unit) (events : List EventDecl) :
    ∃ ps, Converts s (fun _ => RaisesEvent)
      (if (s.registries.byMember? s.type).isSome then [] else events) σ.unit
      (s.addEvents events σ).2.unit ps := by
  rw [← h.placed.member]
  rcases addEvents_cases s events with ⟨rfl, hrun⟩ | ⟨-, hmember, hrun⟩ | ⟨-, hheld, hrun⟩
  · rw [hrun, ite_self]
    exact ⟨[], .nothing h⟩
  · rw [hrun, if_pos hmember]
    exact ⟨[], .nothing h⟩
  · rw [hrun, if_neg hheld]
    exact forM_converts_all (P := fun _ => RaisesEvent) (fun _ _ _ _ _ hp => hp) events
      (fun x _ σ hσ => forwardEvent_converts hσ x) σ h

end BoundaryProxy.Synthesis
