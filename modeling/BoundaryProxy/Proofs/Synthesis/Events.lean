import BoundaryProxy.Proofs.Synthesis.Accounting
import BoundaryProxy.Proofs.Synthesis.Frame

/-!
# `Proofs.Synthesis.Events` — the events of a generated class

Only the forwarding of an event declares an event. What one step of forwarding does to a class is said in full by
`Wires`: an event, the method that raises it and the handler that the constructor attaches are added together, so
after any number of steps the three lists still correspond (`forM_wires`). Every other rule frames the class.

So the events of a generated class are those of the wrapped interface, in order, each under its own name and with its
own payload (`synthesize_events`).
-/

namespace BoundaryProxy

namespace Synthesis

open Proxy Proxy.Assembler

variable {s : Subject}

/-! ## Forwarding -/

/-- The event of a proxy that stands in for an event, with a handler type that takes the payload, if there is one. -/
def forwarded : EventDecl → Event
  | ⟨name, none⟩ => ⟨name, .named "System.EventHandler"⟩
  | ⟨name, some payload⟩ => ⟨name, .generic "System.EventHandler" [payload]⟩

/-- The statement that attaches, to the event of the object in a field, a delegate around the method that raises the
    event. The delegate takes the payload, if there is one. -/
def attachment (eventProxy : String) (field : String) : EventDecl → Stmt
  | ⟨name, none⟩ => .attach (.field field) name (.new (.named eventProxy) [.methodRef ("Raise" ++ name)])
  | ⟨name, some payload⟩ =>
    .attach (.field field) name (.new (.generic eventProxy [payload]) [.methodRef ("Raise" ++ name)])

theorem forwarded_eq (e : EventDecl) : forwarded e = ⟨e.name, Subject.overPayload "System.EventHandler" e⟩ := by
  obtain ⟨name, payload⟩ := e
  cases payload <;> rfl

theorem attachment_eq (eventProxy field : String) (e : EventDecl) : attachment eventProxy field e =
    .attach (.field field) e.name (.new (Subject.overPayload eventProxy e) [.methodRef (Subject.raiseName e)]) := by
  obtain ⟨name, payload⟩ := e
  cases payload <;> rfl

theorem isAttach_attachment (eventProxy field : String) (e : EventDecl) :
    (attachment eventProxy field e).isAttach = true := by
  rw [attachment_eq]
  rfl

/-- From one class to another, events were forwarded. -/
structure Wires (s : Subject) (es : List EventDecl) (a b : Assembler) : Prop where
  className : b.className = a.className
  fields : b.fields = a.fields
  events : b.events = a.events ++ es.map forwarded
  methods : ∃ raises, b.methods = a.methods ++ raises ∧ List.Forall₂ RaisesEvent es raises
  body : b.constructor.body = a.constructor.body ++ es.map (attachment s.profile.eventProxy s.field.name)

theorem Wires.nil (a : Assembler) : Wires s [] a a where
  className := rfl
  fields := rfl
  events := (List.append_nil _).symm
  methods := ⟨[], (List.append_nil _).symm, .nil⟩
  body := (List.append_nil _).symm

theorem Wires.append {es es' : List EventDecl} {a b c : Assembler} (h : Wires s es a b) (k : Wires s es' b c) :
    Wires s (es ++ es') a c where
  className := k.className.trans h.className
  fields := k.fields.trans h.fields
  events := by rw [k.events, h.events, List.map_append, List.append_assoc]
  methods := by
    obtain ⟨raises, hmethods, hraises⟩ := h.methods
    obtain ⟨raises', hmethods', hraises'⟩ := k.methods
    refine ⟨raises ++ raises', ?_, List.rel_append hraises hraises'⟩
    rw [hmethods', hmethods, List.append_assoc]
  body := by rw [k.body, h.body, List.map_append, List.append_assoc]

/-- Writing the method that raises an event issues a name at most. -/
theorem writeRaise_raises (e : EventDecl) (a : Assembler) :
    let d := (Subject.writeRaise e ⟨a, { name := Subject.raiseName e, returns := .void }⟩).2
    RaisesEvent e d.method ∧ ∃ names, d.unit = { a with names } := by
  intro d
  cases hpayload : e.payload with
  | none =>
    have hd : d = ⟨a, ⟨"Raise" ++ e.name, [], .void, [.raise e.name [.null, .null]]⟩⟩ := by
      show (Subject.writeRaise e _).2 = _
      rw [Subject.writeRaise, hpayload]
      rfl
    rw [hd]
    exact ⟨.bare hpayload, a.names, rfl⟩
  | some t =>
    have hd : d = ⟨a.afterName, ⟨"Raise" ++ e.name, [⟨a.names.next.1, t⟩], .void,
        [.raise e.name [.null, .param a.names.next.1]]⟩⟩ := by
      show (Subject.writeRaise e _).2 = _
      rw [Subject.writeRaise, hpayload]
      rfl
    rw [hd]
    exact ⟨.payload _ hpayload, a.names.next.2, rfl⟩

/-- **One event** is forwarded by an event, a method and a handler. -/
theorem forwardEvent_wires (s : Subject) (e : EventDecl) (σ : Session) :
    Wires s [e] σ.unit (s.forwardEvent e σ).2.unit := by
  let a := σ.unit.withMember (.event (forwarded e))
  let d := (Subject.writeRaise e ⟨a, { name := Subject.raiseName e, returns := .void }⟩).2
  obtain ⟨hraises, names, hunit⟩ := writeRaise_raises e a
  have hrun : (s.forwardEvent e σ).2.unit = (d.unit.withMember (.method d.method)).withStatement
      (attachment s.profile.eventProxy s.field.name e) := by
    rw [attachment_eq]
    show ((Subject.writeRaise e ⟨σ.unit.withMember (.event _), _⟩).2.unit.withMember _).withStatement _ = _
    rw [← forwarded_eq]
    rfl
  have hd : d.unit = { a with names } := hunit
  rw [hrun, hd]
  -- of the three additions each is seen by one view
  refine ⟨rfl, ?_, ?_, ⟨[d.method], ?_, .cons hraises .nil⟩, rfl⟩
  · show (({ a with names } : Assembler).withMember (.method d.method)).fields = σ.unit.fields
    rw [fields_withMember_of_none rfl]
    exact fields_withMember_of_none rfl
  · show (({ a with names } : Assembler).withMember (.method d.method)).events = σ.unit.events ++ [forwarded e]
    rw [events_withMember]
    exact (List.append_nil _).trans (events_withMember (.event (forwarded e)))
  · show (({ a with names } : Assembler).withMember (.method d.method)).methods = σ.unit.methods ++ [d.method]
    rw [methods_withMember]
    exact congrArg (· ++ [d.method]) ((methods_withMember (.event (forwarded e))).trans (List.append_nil _))

/-- **Any number of events** is forwarded in order. -/
theorem forM_wires (s : Subject) (es : List EventDecl) (σ : Session) :
    Wires s es σ.unit (es.forM s.forwardEvent σ).2.unit := by
  induction es generalizing σ with
  | nil => exact .nil σ.unit
  | cons e es ih => exact (forwardEvent_wires s e σ).append (ih (s.forwardEvent e σ).2)

/-! ## The events of a session -/

/-- The events of the class under construction. -/
def Session.events (σ : Session) : List Event :=
  σ.unit.events

theorem Session.Frames.events {step : StateM Session Unit} (h : Session.Frames step) :
    Appends Session.events step [] :=
  fun σ => (h σ).events.trans (List.append_nil _).symm

/-- The events that the families add: those of the wrapped type, unless its objects are looked up on every call. -/
def familyEvents (r : RegistrySet) (owner : TypeExpr) (members : MemberSet) : Family → List Event
  | .events => if (r.byMember? owner).isSome then [] else members.events.map forwarded
  | _ => []

theorem addEvents_events (hs : s.access.member? = s.registries.byMember? s.type) (events : List EventDecl) :
    Appends Session.events (s.addEvents events)
      (if (s.registries.byMember? s.type).isSome then [] else events.map forwarded) := by
  rw [← hs]
  rcases addEvents_cases s events with ⟨rfl, hrun⟩ | ⟨-, hmember, hrun⟩ | ⟨-, hheld, hrun⟩
  · rw [hrun, List.map_nil, ite_self]
    exact .pure
  · rw [hrun, if_pos hmember]
    exact (Session.report_frames _).events
  · rw [hrun, if_neg hheld]
    exact fun σ => (forM_wires s events σ).events

theorem convertFamily_events (hs : s.access.member? = s.registries.byMember? s.type) (members : MemberSet)
    (f : Family) :
    Appends Session.events (ProxySpec.convertFamily s members f) (familyEvents s.registries s.type members f) := by
  cases f with
  | getters => exact (convertFamily_frames s members (by decide)).events
  | setters => exact (convertFamily_frames s members (by decide)).events
  | methods => exact (convertFamily_frames s members (by decide)).events
  | events => exact addEvents_events hs members.events

/-- A session starts with a class that has no event. -/
theorem start_events (t : TypeExpr) (r : RegistrySet) (p : Profile) : (Subject.start t r p).2.events = [] :=
  (start_frame t r p).events

/-! ## The name of a class -/

theorem convertFamily_className (s : Subject) (members : MemberSet) (f : Family) (σ : Session) :
    (ProxySpec.convertFamily s members f σ).2.unit.className = σ.unit.className := by
  cases f with
  | getters => exact (convertFamily_frames s members (by decide) σ).className
  | setters => exact (convertFamily_frames s members (by decide) σ).className
  | methods => exact (convertFamily_frames s members (by decide) σ).className
  | events =>
    show (s.addEvents members.events σ).2.unit.className = σ.unit.className
    rcases addEvents_cases s members.events with ⟨-, hrun⟩ | ⟨-, -, hrun⟩ | ⟨-, -, hrun⟩
    · rw [hrun]
      rfl
    · rw [hrun]
      rfl
    · rw [hrun]
      exact (forM_wires s members.events σ).className

theorem forM_className (s : Subject) (members : MemberSet) (fs : List Family) (σ : Session) :
    (fs.forM (ProxySpec.convertFamily s members) σ).2.unit.className = σ.unit.className := by
  induction fs generalizing σ with
  | nil => rfl
  | cons f fs ih => exact (ih (ProxySpec.convertFamily s members f σ).2).trans (convertFamily_className s members f σ)

/-- A session starts with a class named for the letters of the type's simple name. -/
theorem start_className (t : TypeExpr) (r : RegistrySet) (p : Profile) :
    (Subject.start t r p).2.unit.className = Naming.letterName t.simpleName ++ p.classSuffix :=
  (start_frame t r p).className

end Synthesis

namespace ProxySpec

open Synthesis

/-- **The name of a generated class** depends on the wrapped type's simple name and the profile alone. -/
theorem synthesize_className (spec : ProxySpec) :
    spec.synthesize.1.className = Naming.letterName spec.wrapped.type.simpleName ++ spec.profile.classSuffix :=
  (forM_className _ _ _ _).trans (start_className _ _ _)

/-- **The events of a generated class** are those of the wrapped interface, if they are asked for and can be
    forwarded. -/
theorem synthesize_events (spec : ProxySpec) : spec.synthesize.1.events =
    spec.families.toList.flatMap (familyEvents spec.registries spec.wrapped.type spec.members) := by
  let start := Subject.start spec.wrapped.type spec.registries spec.profile
  have haccess : start.1.access.member? = start.1.registries.byMember? start.1.type :=
    member?_access spec.wrapped.type spec.registries spec.profile
  have hrun := Appends.forM (convertFamily_events haccess spec.members) spec.families.toList start.2
  rw [start_events, List.nil_append] at hrun
  exact (Proxy.Assembler.events_finish _).trans hrun

end ProxySpec

end BoundaryProxy
