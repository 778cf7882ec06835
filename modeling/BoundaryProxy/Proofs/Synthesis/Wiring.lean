import BoundaryProxy.Proofs.Synthesis.Concealment
import BoundaryProxy.Proofs.Synthesis.Independence

/-!
# `Proofs.Synthesis.Wiring` — events are wired one to one

A forwarded event is spread over three places of the class: the event itself, the method that raises it, and the
handler that the constructor attaches. The events are converted last, so a session that forwards them first is a
session without them, whose steps all frame the class, and then a run of `forwardEvent`, which adds the three in step
(`Synthesis.forM_wires`). What the class started with is read off its first statement: a wrapped object that is
injected is assigned to its field there, before anything can be attached to it.

* **`synthesize_wires`**: the events, the raising methods and the attached handlers of a class correspond, in order and
  with nothing besides, or there is none of them and the events are reported.
-/

namespace BoundaryProxy

open Proxy Proxy.Assembler

namespace Synthesis

variable {s : Subject} {t : TypeExpr} {r : RegistrySet} {p : Profile}

/-! ## The field of the wrapped object -/

/-- At the start, a field that is injected is assigned already. -/
theorem start_assigns {f : Field} {x : String} (hf : f ∈ (Subject.start t r p).2.unit.fields)
    (hx : f.init = .fromParam x) :
    .assign (.field f.name) (.param x) ∈ (Subject.start t r p).2.unit.constructor.body := by
  have hfixed : ∀ (u : TypeExpr) (path : String), f ∈ (fixedField u path (Subject.shell t p)).2.fields → False := by
    intro u path hmem
    rw [fixedField_of_none rfl, fields_withMember] at hmem
    rw [List.mem_singleton.mp hmem] at hx
    cases hx
  change f ∈ (Subject.wrappedField t p (Access.of t r p) (Subject.shell t p)).2.fields at hf
  show _ ∈ (Subject.wrappedField t p (Access.of t r p) (Subject.shell t p)).2.constructor.body
  cases haccess : Access.of t r p with
  | injected =>
    rw [haccess] at hf
    have hrun : Subject.wrappedField t p .injected = constructorField t := rfl
    rw [hrun, constructorField_of_none rfl] at hf ⊢
    have hmem : f ∈ [_] := hf
    rw [List.mem_singleton.mp hmem] at hx ⊢
    obtain rfl := FieldInit.fromParam.inj hx
    exact List.mem_cons_self
  | resolved d => exact (hfixed _ _ (haccess ▸ hf)).elim
  | container d => exact (hfixed _ _ (haccess ▸ hf)).elim
  | singleton path => exact (hfixed _ _ (haccess ▸ hf)).elim

/-- Where the first statements attach nothing, they all come before what is attached. -/
theorem prefix_before_attach {first body before after : List Stmt} {stmt : Stmt} (hfirst : first <+: body)
    (hnone : first.filter Stmt.isAttach = []) (hbody : body = before ++ stmt :: after)
    (hattach : stmt.isAttach = true) : first <+: before := by
  obtain ⟨rest, rfl⟩ := hfirst
  rcases List.append_eq_append_iff.mp hbody with ⟨between, rfl, -⟩ | ⟨overlap, rfl, hoverlap⟩
  · exact List.prefix_append first between
  · cases overlap with
    | nil => exact (List.append_nil before).symm ▸ List.prefix_refl before
    | cons stmt' overlap =>
      -- the statement would be one of the first, which attach nothing
      obtain rfl := (List.cons.inj hoverlap).1
      rw [List.filter_append, List.filter_cons_of_pos hattach] at hnone
      exact absurd (List.append_eq_nil_iff.mp hnone).2 (List.cons_ne_nil _ _)

/-! ## The methods that raise events -/

theorem RaisesEvent.raisesEvent {e : EventDecl} {m : Method} (h : RaisesEvent e m) : m.raisesEvent = true := by
  cases h <;> rfl

theorem filter_raises {es : List EventDecl} {ms : List Method} (h : List.Forall₂ RaisesEvent es ms) :
    ms.filter Method.raisesEvent = ms := by
  rw [List.filter_eq_self]
  intro m hm
  obtain ⟨e, -, hraises⟩ := exists_of_forall₂ h hm
  exact hraises.raisesEvent

/-- **The wiring of events.** Each of the events is declared by the class of a type, has a method that raises it, and
    has that method attached to it where the wrapped object is: once, in order, and nothing besides. If the wrapped
    object is injected, it is in its field before anything is attached. -/
structure Wired (eventProxy : String) (t : TypeExpr) (es : List EventDecl) (u : ProxyUnit) : Prop where
  names : (es.map (·.name)).Nodup
  events : u.events = es.map forwarded
  raises : List.Forall₂ RaisesEvent es (u.methods.filter Method.raisesEvent)
  attached : ∃ c f, u.constructors = [c] ∧ u.fields.find? (·.type = t) = some f ∧
    c.body.filter Stmt.isAttach = es.map (attachment eventProxy f.name) ∧
    ∀ x, f.init = .fromParam x → ∀ before stmt after, c.body = before ++ stmt :: after → stmt.isAttach = true →
      .assign (.field f.name) (.param x) ∈ before

/-- Events of an object that is held are all forwarded. -/
theorem addEvents_wires (hheld : s.access.member? = none) (es : List EventDecl) (σ : Session) :
    Wires s es σ.unit (s.addEvents es σ).2.unit := by
  rcases addEvents_cases s es with ⟨rfl, hrun⟩ | ⟨-, hmember, -⟩ | ⟨-, -, hrun⟩
  · rw [hrun]
    exact .nil σ.unit
  · rw [hheld] at hmember
    exact absurd hmember Bool.false_ne_true
  · rw [hrun]
    exact forM_wires s es σ

/-- Events of an object that is looked up are only reported. -/
theorem addEvents_reported (hmember : s.access.member?.isSome = true) (es : List EventDecl) (σ : Session) :
    (s.addEvents es σ).2 = ⟨σ.unit, σ.notices ++ if es = [] then [] else [.eventsNotForwarded s.type es.length]⟩ := by
  rcases addEvents_cases s es with ⟨rfl, hrun⟩ | ⟨hne, -, hrun⟩ | ⟨-, hheld, -⟩
  · rw [hrun, if_pos rfl, List.append_nil]
    rfl
  · rw [hrun, if_neg hne]
    rfl
  · exact absurd hmember hheld

end Synthesis

/-- The events come last. -/
theorem FamilySet.toList_of_events {S : FamilySet} (h : S.events = true) :
    S.toList = ({ S with events := false } : FamilySet).toList ++ [.events] := by
  obtain ⟨getters, setters, methods, events⟩ := S
  obtain rfl : events = true := h
  cases getters <;> cases setters <;> cases methods <;> rfl

namespace ProxySpec

open Synthesis

variable (spec : ProxySpec)

/-- The specification without the events. -/
def withoutEvents : ProxySpec :=
  spec.asking { spec.families with events := false }

/-- The session of a specification at its end. -/
def session : Session :=
  (spec.families.toList.forM
    (convertFamily (Subject.start spec.wrapped.type spec.registries spec.profile).1 spec.members)
    (Subject.start spec.wrapped.type spec.registries spec.profile).2).2

theorem synthesize_session : spec.synthesize = (spec.session.unit.finish, spec.session.notices) :=
  rfl

theorem sound_session : spec.session.unit.Sound :=
  spec.sound_built

/-- A session that is asked for the events converts them last. -/
theorem session_of_events (h : spec.families.events = true) :
    spec.session = ((Subject.start spec.wrapped.type spec.registries spec.profile).1.addEvents spec.members.events
      spec.withoutEvents.session).2 := by
  let start := Subject.start spec.wrapped.type spec.registries spec.profile
  let step := convertFamily start.1 spec.members
  have happend : (spec.withoutEvents.families.toList ++ [Family.events]).forM step =
      (do spec.withoutEvents.families.toList.forM step; [Family.events].forM step) := List.forM_append
  show (spec.families.toList.forM step start.2).2 = _
  rw [FamilySet.toList_of_events h]
  exact congrArg (fun run => (run start.2).2) happend

/-- Until the events are converted, the class is framed. -/
theorem frame_withoutEvents :
    (Subject.start spec.wrapped.type spec.registries spec.profile).2.unit.Frame spec.withoutEvents.session.unit := by
  let start := Subject.start spec.wrapped.type spec.registries spec.profile
  have hframes : ∀ fs : List Family, Family.events ∉ fs →
      Session.Frames (fs.forM (convertFamily start.1 spec.members)) := by
    intro fs hfs
    induction fs with
    | nil => exact .pure
    | cons f fs ih =>
      have hne : f ≠ .events := fun heq => hfs (heq ▸ List.mem_cons_self)
      exact (convertFamily_frames start.1 spec.members hne).seq (ih fun hmem => hfs (List.mem_cons_of_mem f hmem))
  refine hframes _ ?_ start.2
  rw [mem_toList]
  exact Bool.false_ne_true

/-- The field of a wrapped object that is held is the first of its type, from the start. -/
theorem exists_heldField (hheld : spec.registries.byMember? spec.wrapped.type = none) :
    ∃ f, f ∈ (Subject.start spec.wrapped.type spec.registries spec.profile).2.unit.fields ∧
      f.name = spec.wrappedField.name ∧
      spec.session.unit.fields.find? (·.type = spec.wrapped.type) = some f := by
  obtain ⟨hready, -⟩ := start_ready spec.wrapped.type spec.registries spec.profile
  obtain ⟨f, hfind, hname⟩ := hready.placed.field
  obtain ⟨made, -, hgrows, -⟩ := forM_made spec.members_named (nodup_toList spec.families) _ hready
  have hhome : spec.registries.homeType spec.wrapped.type = spec.wrapped.type := by
    rw [RegistrySet.homeType, hheld]
  exact ⟨f, List.mem_of_find?_eq_some hfind, hname, hhome ▸ hgrows.findField hfind⟩

/-- Until the events are converted there is none, nor a method that raises one, nor a handler. -/
theorem unwired_withoutEvents :
    spec.withoutEvents.session.unit.events = [] ∧
      spec.withoutEvents.session.unit.methods.filter Method.raisesEvent = [] ∧
      spec.withoutEvents.session.unit.attachments = [] := by
  obtain ⟨f₀, -, hstarts⟩ := starts_start spec.wrapped.type spec.registries spec.profile
  have hframe := spec.frame_withoutEvents
  refine ⟨hframe.events.trans (start_events _ _ _), ?_, hframe.attachments.trans hstarts.attachments⟩
  rw [hframe.raising, hstarts.methods, List.filter_nil]

/-- Where the wrapped object is held, its events are wired after everything else. -/
theorem session_wires (h : spec.families.events = true)
    (hheld : spec.registries.byMember? spec.wrapped.type = none) :
    Wires (Subject.start spec.wrapped.type spec.registries spec.profile).1 spec.members.events
      spec.withoutEvents.session.unit spec.session.unit := by
  have haccess := member?_access spec.wrapped.type spec.registries spec.profile
  rw [spec.session_of_events h]
  exact addEvents_wires (haccess.trans hheld) spec.members.events spec.withoutEvents.session

/-- Where it is looked up, all they change is what is reported. -/
theorem session_reported (h : spec.families.events = true)
    (hmember : (spec.registries.byMember? spec.wrapped.type).isSome) :
    spec.session = ⟨spec.withoutEvents.session.unit, spec.withoutEvents.session.notices ++
      if spec.members.events = [] then [] else
        [.eventsNotForwarded spec.wrapped.type spec.members.events.length]⟩ := by
  have haccess := member?_access spec.wrapped.type spec.registries spec.profile
  rw [spec.session_of_events h]
  exact addEvents_reported (haccess ▸ hmember) spec.members.events spec.withoutEvents.session

/-- A field of the start that is injected is assigned before anything is attached. -/
theorem assign_before_attach {f : Field} {x : String} {before after : List Stmt} {stmt : Stmt}
    (h : spec.families.events = true) (hheld : spec.registries.byMember? spec.wrapped.type = none)
    (hf : f ∈ (Subject.start spec.wrapped.type spec.registries spec.profile).2.unit.fields)
    (hx : f.init = .fromParam x) (hbody : spec.session.unit.constructor.body = before ++ stmt :: after)
    (hattach : stmt.isAttach = true) : .assign (.field f.name) (.param x) ∈ before := by
  obtain ⟨f₀, -, hstarts⟩ := starts_start spec.wrapped.type spec.registries spec.profile
  have hprefix : (Subject.start spec.wrapped.type spec.registries spec.profile).2.unit.constructor.body <+:
      spec.session.unit.constructor.body :=
    spec.frame_withoutEvents.body.trans ((spec.session_wires h hheld).body ▸ List.prefix_append _ _)
  exact (prefix_before_attach hprefix hstarts.attachments hbody hattach).subset (start_assigns hf hx)

/-- Where the wrapped object is held, its events are wired, and the methods that raise them are all that is added. -/
theorem wired_of_held (h : spec.families.events = true)
    (hheld : spec.registries.byMember? spec.wrapped.type = none) :
    Wired spec.profile.eventProxy spec.wrapped.type spec.members.events spec.synthesize.1 ∧
      spec.synthesize.1.methods =
        spec.withoutEvents.synthesize.1.methods ++ spec.synthesize.1.methods.filter Method.raisesEvent := by
  have hwires := spec.session_wires h hheld
  obtain ⟨hevents, hraising, hattached⟩ := spec.unwired_withoutEvents
  obtain ⟨raises, hadded, hraises⟩ := hwires.methods
  have hmethods : spec.synthesize.1.methods = spec.withoutEvents.synthesize.1.methods ++ raises := by
    rw [synthesize_session, synthesize_session, methods_finish, methods_finish, hadded]
  have hfilter : spec.synthesize.1.methods.filter Method.raisesEvent = raises := by
    rw [synthesize_session, methods_finish, hadded, List.filter_append, hraising, List.nil_append,
      filter_raises hraises]
  obtain ⟨f, hf, hname, hfind⟩ := spec.exists_heldField hheld
  have hfind' : spec.synthesize.1.fields.find? (·.type = spec.wrapped.type) = some f := by
    rw [synthesize_session, fields_finish, hfind]
  have hattach : spec.session.unit.constructor.body.filter Stmt.isAttach =
      spec.members.events.map (attachment spec.profile.eventProxy f.name) := by
    have hall : ∀ stmt ∈ spec.members.events.map (attachment spec.profile.eventProxy f.name),
        stmt.isAttach = true := by
      intro stmt hstmt
      obtain ⟨e, -, rfl⟩ := List.mem_map.mp hstmt
      exact isAttach_attachment _ _ e
    have hbody : spec.session.unit.constructor.body = spec.withoutEvents.session.unit.constructor.body ++
        spec.members.events.map (attachment spec.profile.eventProxy f.name) := hname ▸ hwires.body
    have hnone : spec.withoutEvents.session.unit.constructor.body.filter Stmt.isAttach = [] := hattached
    rw [hbody, List.filter_append, hnone, List.nil_append, List.filter_eq_self.mpr hall]
  refine ⟨⟨Catalog.nodup_events _ _ _, ?_, hfilter ▸ hraises, spec.session.unit.constructor, f,
    constructors_finish spec.sound_session, hfind', hattach, fun x hx before stmt after hbody hstmt =>
      spec.assign_before_attach h hheld hf hx hbody hstmt⟩, hfilter ▸ hmethods⟩
  rw [synthesize_session, events_finish, hwires.events, hevents, List.nil_append]

/-- **Events are wired one to one.** Where the wrapped object is held, the events of a class, the methods that raise
    them and the handlers that are attached correspond to the events of the wrapped interface, and besides the methods
    that raise them the class has the methods it has without the events. Where the wrapped object is looked up, there
    is no event, no method that raises one and no handler: the class has the methods it has without the events, and
    how many events there are is reported. -/
theorem synthesize_wires (h : spec.families.events = true) :
    let u := spec.synthesize.1
    let unwired := spec.withoutEvents.synthesize
    (spec.registries.byMember? spec.wrapped.type = none →
      Wired spec.profile.eventProxy spec.wrapped.type spec.members.events u ∧
        u.methods = unwired.1.methods ++ u.methods.filter Method.raisesEvent) ∧
    ((spec.registries.byMember? spec.wrapped.type).isSome →
      u.events = [] ∧ u.methods.filter Method.raisesEvent = [] ∧ u.attachments = [] ∧
        u.methods = unwired.1.methods ∧
        spec.synthesize.2 = unwired.2 ++
          if spec.members.events = [] then [] else
            [.eventsNotForwarded spec.wrapped.type spec.members.events.length]) := by
  intro u unwired
  constructor
  · intro hheld
    exact spec.wired_of_held h hheld
  · intro hmember
    obtain ⟨hevents, hraising, hattached⟩ := spec.unwired_withoutEvents
    have hreported := spec.session_reported h hmember
    have hunit : spec.session.unit = spec.withoutEvents.session.unit := by rw [hreported]
    have hmethods : u.methods = spec.withoutEvents.session.unit.methods := by
      rw [← hunit]
      exact methods_finish spec.session.unit
    refine ⟨?_, ?_, ?_, ?_, congrArg Session.notices hreported⟩
    · show spec.session.unit.finish.events = []
      rw [events_finish, hunit, hevents]
    · rw [hmethods, hraising]
    · exact (attachments_finish spec.sound_session).trans (hunit ▸ hattached)
    · exact hmethods.trans (methods_finish _).symm

/-- A panel that announces which element was picked, and that it was closed. -/
def panel : ProxySpec where
  wrapped := {
    type := .named "Ns.IPanel"
    events := [⟨"Picked", some (.named "Ns.IElement")⟩, ⟨"Closed", none⟩] }
  catalog := .ofModels []
  registries := board.registries
  profile := {}
  families := .all

/-- An element with the same events. The elements are kept in a registry. -/
def panelElement : ProxySpec :=
  { panel with wrapped := { panel.wrapped with type := .named "Ns.IElement" } }

/-- The events of the panel are forwarded, with and without a payload. Those of an element are reported. -/
theorem synthesize_wires_panel :
    (panel.families.events = true ∧ panel.registries.byMember? panel.wrapped.type = none ∧
      panel.synthesize.1.events =
        [⟨"Picked", ⟨"System.EventHandler", [.named "Ns.IElement"], 0⟩⟩, ⟨"Closed", ⟨"System.EventHandler", [], 0⟩⟩] ∧
      (∃ x, panel.synthesize.1.methods.filter Method.raisesEvent =
        [⟨"RaisePicked", [⟨x, .named "Ns.IElement"⟩], .void, [.raise "Picked" [.null, .param x]]⟩,
          ⟨"RaiseClosed", [], .void, [.raise "Closed" [.null, .null]]⟩]) ∧
      ∃ c f, panel.synthesize.1.constructors = [c] ∧
        panel.synthesize.1.fields.find? (·.type = .named "Ns.IPanel") = some f ∧
        c.body.filter Stmt.isAttach =
          [.attach (.field f.name) "Picked" (.new
              ⟨"SuperMemoAssistant.Sys.Remoting.ActionProxy", [.named "Ns.IElement"], 0⟩ [.methodRef "RaisePicked"]),
            .attach (.field f.name) "Closed" (.new
              ⟨"SuperMemoAssistant.Sys.Remoting.ActionProxy", [], 0⟩ [.methodRef "RaiseClosed"])]) ∧
    panelElement.families.events = true ∧
      (panelElement.registries.byMember? panelElement.wrapped.type).isSome ∧
      panelElement.synthesize.1.events = [] ∧
      panelElement.synthesize.2 = panelElement.withoutEvents.synthesize.2 ++
        [.eventsNotForwarded (.named "Ns.IElement") 2] := by
  have hheld : panel.registries.byMember? panel.wrapped.type = none := by decide
  have hmember : (panelElement.registries.byMember? panelElement.wrapped.type).isSome := by decide
  have hevents : panel.members.events = [⟨"Picked", some (.named "Ns.IElement")⟩, ⟨"Closed", none⟩] := by cbv
  have hevents' : panelElement.members.events = [⟨"Picked", some (.named "Ns.IElement")⟩, ⟨"Closed", none⟩] := by cbv
  have hwired := ((synthesize_wires panel rfl).1 hheld).1
  obtain ⟨hnone, -, -, -, hreported⟩ := (synthesize_wires panelElement rfl).2 hmember
  rw [hevents] at hwired
  rw [hevents'] at hreported
  obtain ⟨c, f, hconstructors, hfind, hattached, -⟩ := hwired.attached
  refine ⟨⟨rfl, hheld, hwired.events, ?_, c, f, hconstructors, hfind, hattached⟩, rfl, hmember, hnone, hreported⟩
  obtain ⟨picked, rest, hpicked, hrest, hmethods⟩ := List.forall₂_cons_left_iff.mp hwired.raises
  obtain ⟨closed, rest', hclosed, hrest', hmethods'⟩ := List.forall₂_cons_left_iff.mp hrest
  rw [hmethods, hmethods', List.forall₂_nil_left_iff.mp hrest']
  cases hpicked with
  | bare hpayload => cases hpayload
  | payload x hpayload =>
    cases hpayload
    cases hclosed with
    | bare => exact ⟨x, rfl⟩
    | payload _ hpayload' => cases hpayload'

end ProxySpec

end BoundaryProxy
