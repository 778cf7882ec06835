import BoundaryProxy.Proofs.Naming.Accessor
import BoundaryProxy.Proofs.Synthesis.Draft

/-!
# `Proofs.Synthesis.Member` — the methods written for single members

Each kind of foreign member has one function that writes its proxy method into a draft. From a sound class
the draft ends well scoped (`Written`), and the method it holds stands in for the member by the rules of
`Crossing`: `getter_written`, `setter_written`, `call_written`, `raise_written`.
-/

namespace BoundaryProxy.Synthesis

open Proxy Check Draft

variable {r : RegistrySet} {d d' : Draft} {a : Assembler} {s : Subject}

/-! ## Reaching the wrapped object -/

/-- The subject's field is the one that holds its object, or the registry of its object. -/
structure Placed (s : Subject) (fields : List Field) : Prop where
  member : s.access.member? = s.registries.byMember? s.type
  field : ∃ f, fields.find? (·.type = s.registries.homeType s.type) = some f ∧ f.name = s.field.name

theorem Placed.mono {fields fields' : List Field} (h : Placed s fields) (hf : fields <+: fields') :
    Placed s fields' := by
  obtain ⟨f, hfind, hname⟩ := h.field
  exact ⟨h.member, f, hf.find?_eq_some hfind, hname⟩

/-- **The target** is the wrapped object, held or looked up under the leading parameter. -/
theorem target_spec (hs : Placed s d.unit.fields) (h : d.Open) :
    let out := s.target d
    ∃ lead target, out.2.Open ∧ Grows d lead out.2 ∧
      Reaches s.registries out.2.unit.fields s.type lead target ∧ Means out.2 out.1 target := by
  intro out
  obtain ⟨f, hfind, hname⟩ := hs.field
  unfold RegistrySet.homeType at hfind
  cases hmem : s.registries.byMember? s.type with
  | none =>
    have hrun : out = (.field s.field.name, d) := by
      show s.target d = _
      rw [Subject.target, hs.member, hmem]
      rfl
    rw [hmem] at hfind
    rw [hrun, ← hname]
    refine ⟨[], .field f.name, h, .refl d, .held hmem hfind, ?_, rfl⟩
    exact resolved_field.mpr (mem_classNames_of_find hfind)
  | some descriptor =>
    have hrun : out = resolve descriptor s.field d := by
      show s.target d = _
      rw [Subject.target, hs.member, hmem]
    rw [hmem] at hfind
    have hfield : s.field.name ∈ d.unit.classNames.fields := hname ▸ mem_classNames_of_find hfind
    obtain ⟨hopen, key, hkey, hgrows, hmeans⟩ := resolve_spec h descriptor hfield
    rw [← hname] at hmeans
    rw [hrun]
    exact ⟨[key], _, hopen, hgrows,
      .lookedUp (by rw [hmem]; rfl) (.key hmem hkey (hgrows.unit.findField hfind)), hmeans⟩

/-- **The slot** of an accessor: the property, or the place its keys lead to. -/
theorem slot_spec (h : d.Open) (accessor : String) (keys : List Parameter) {object target : Expr}
    (hobject : Means d object target) :
    let out := s.slot accessor keys object d
    ∃ taken e, out.2.Open ∧ Grows d taken out.2 ∧
      IsSlot s.registries out.2.unit.fields (Naming.propertyName accessor) target keys taken e ∧
      Means out.2 out.1 e := by
  intro out
  cases keys with
  | nil => exact ⟨[], _, h, .refl d, .plain, hobject.property _⟩
  | cons k ks =>
    obtain ⟨taken, es, hopen, hgrows, htakes, hmeans⟩ := keys_took (r := s.registries) h (k :: ks)
    exact ⟨taken, .index target es, hopen, hgrows, .keyed (by simp) htakes,
      (hobject.mono h hopen hgrows).index hmeans⟩

/-! ## Finished drafts -/

/-- A finished draft, from the class it started with: nothing but names and fields was added to the class, and
    the method is well scoped in it. -/
structure Written (a : Assembler) (d : Draft) : Prop where
  sound : d.unit.Sound
  grows : a.Grows [] d.unit
  wellScoped : BodyScoped d.unit.classNames d.method.params d.method.body
  returns : ReturnsValue d.method

/-- An open draft is finished by the return of what an expression means. -/
theorem written_return (ha : a.Grows [] d.unit) (h : d.Open) {e e' : Expr} (hm : Means d e e') (t : TypeExpr) :
    let out := (d.withReturns t).withStmt (.return (some e))
    Written a out ∧ out.method.inlinedBody = [.return (some e')] := by
  intro out
  have hs : (Stmt.return (some e)).Resolved d.unit.classNames d.scope := by
    rw [stmt_resolved_iff_exprs (by simp)]
    simpa [Stmt.exprs] using hm.resolved
  refine ⟨⟨h.sound, ha, h.close hs rfl, ⟨fun _ => endsWithReturn_append _ _, fun _ hmem => ?_⟩⟩, ?_⟩
  · rcases List.mem_append.mp hmem with hmem | hmem
    · exact h.return_not_mem _ hmem
    · simp at hmem
  · show inlineLocals .localVar (d.method.body ++ [.return (some e)]) = _
    rw [h.inlined, inlineLocals, inlineLocals, Stmt.inlined, Option.map_some, hm.reads]
    simp

/-- An open draft of a method without result is finished by any statement that declares nothing. -/
theorem written_void (ha : a.Grows [] d.unit) (h : d.Open) (hvoid : d.method.returns.isVoid = true) {s : Stmt}
    (hs : s.Resolved d.unit.classNames d.scope) (hlocal : s.local? = none) :
    Written a (d.withStmt s) ∧ (d.withStmt s).method.inlinedBody = [s.inlined d.env] := by
  have hreturns : (d.withStmt s).method.returns.isVoid = true := hvoid
  refine ⟨⟨h.sound, ha, h.close hs hlocal, ⟨?_, ?_⟩⟩, ?_⟩
  · intro hfalse
    rw [hreturns] at hfalse
    cases hfalse
  · intro hfalse
    rw [hreturns] at hfalse
    cases hfalse
  · show inlineLocals .localVar (d.method.body ++ [s]) = _
    rw [h.inlined]
    cases s with
    | declare => cases hlocal
    | assign | «return» | expr | attach | raise => rfl

/-- A read is returned as what leaves the boundary for it. -/
theorem returnRead_spec (ha : a.Grows [] d.unit) (h : d.Open) {e e' : Expr} (hm : Means d e e') :
    let out := (returnRead r e d.method.returns d).2
    Written a out ∧ out.unit = d.unit ∧ out.method.name = d.method.name ∧
      out.method.params = d.method.params ∧
      out.method.returns = r.crossingType d.method.returns ∧
      out.method.inlinedBody = [.return (some (delivered r d.method.returns e'))] := by
  intro out
  have hrun : out = (d.withReturns (r.crossingType d.method.returns)).withStmt
      (.return (some (delivered r d.method.returns e))) := by
    show (returnRead r e d.method.returns d).2 = _
    unfold returnRead RegistrySet.crossingType delivered
    cases r.byMember? d.method.returns <;> rfl
  obtain ⟨hwritten, hbody⟩ := written_return ha h (hm.delivered (r := r) d.method.returns)
    (r.crossingType d.method.returns)
  rw [hrun]
  exact ⟨hwritten, rfl, rfl, rfl, rfl, hbody⟩

/-- An open draft is finished by holding what an expression means in a local and returning its property. -/
theorem written_returnHeld (ha : a.Grows [] d.unit) (h : d.Open) {e e' : Expr} (hm : Means d e e')
    (t returns : TypeExpr) (property : String) :
    let x := d.unit.names.next.1
    let out := ((d.afterName.withStmt (.declare t x (some e))).withReturns returns).withStmt
      (.return (some (.property (.localVar x) property)))
    Written a out ∧ out.method.inlinedBody = [.return (some (.property e' property))] := by
  intro x out
  -- a local comes last that is no lookup, so the body is no longer that of an open draft
  let held : Stmt := .declare t x (some e)
  let last : Stmt := .return (some (.property (.localVar x) property))
  have hheld : held.Resolved d.unit.classNames d.scope := by
    rw [stmt_resolved_iff_exprs (by simp [held])]
    simpa [held, Stmt.exprs] using hm.resolved
  have hscoped : BodyScoped d.unit.classNames d.method.params (d.method.body ++ [held]) := by
    refine h.wellScoped.snoc hheld ?_
    intro y hy
    obtain rfl : x = y := Option.some.inj hy
    exact h.next_new
  have hlast : last.Resolved d.unit.classNames
      ⟨d.paramNames, declaredLocals (d.method.body ++ [held])⟩ := by
    rw [stmt_resolved_iff_exprs (by simp [last]), declaredLocals_append]
    simp [last, held, Stmt.exprs, declaredLocals, Stmt.local?]
  have hbody : BodyScoped d.unit.classNames d.method.params (d.method.body ++ [held] ++ [last]) :=
    hscoped.snoc hlast fun y hy => by cases hy
  refine ⟨⟨h.sound.afterName, ha.trans d.unit.grows_afterName, hbody,
    ⟨fun _ => endsWithReturn_append _ _, fun _ hmem => ?_⟩⟩, ?_⟩
  · have hmem' : Stmt.return none ∈ d.method.body ++ [held] ++ [last] := hmem
    simp only [List.mem_append, List.mem_singleton] at hmem'
    rcases hmem' with (hmem' | hmem') | hmem'
    · exact h.return_not_mem _ hmem'
    · exact absurd hmem' (by simp [held])
    · exact absurd hmem' (by simp [last])
  · show inlineLocals .localVar (d.method.body ++ [held] ++ [last]) = _
    rw [List.append_assoc, h.inlined]
    simp [held, last, inlineLocals, Stmt.inlined, Expr.inlined, bindLocal, hm.reads]

/-- A call without result stands alone, any other is returned as what leaves the boundary for it. -/
theorem returnCall_spec (ha : a.Grows [] d.unit) (h : d.Open) {e e' : Expr} (hm : Means d e e') :
    let out := (returnCall r e d.method.returns d).2
    Written a out ∧ d.unit.Grows [] out.unit ∧ out.method.name = d.method.name ∧
      out.method.params = d.method.params ∧
      out.method.returns = (if d.method.returns.isVoid then .void else r.crossingType d.method.returns) ∧
      out.method.inlinedBody = [callStatement r d.method.returns e'] := by
  intro out
  by_cases hvoid : d.method.returns.isVoid = true
  · have hrun : out = d.withStmt (.expr e) := by
      show (returnCall r e d.method.returns d).2 = _
      rw [returnCall, if_pos hvoid]
      rfl
    have hs : (Stmt.expr e).Resolved d.unit.classNames d.scope := by
      rw [stmt_resolved_iff_exprs (by simp)]
      simpa [Stmt.exprs] using hm.resolved
    obtain ⟨hwritten, hbody⟩ := written_void ha h hvoid hs rfl
    rw [hrun, if_pos hvoid, callStatement, if_pos hvoid]
    exact ⟨hwritten, .refl _, rfl, rfl, TypeExpr.isVoid_iff.mp hvoid, by rw [hbody, Stmt.inlined, hm.reads]⟩
  · rw [if_neg hvoid, callStatement, if_neg hvoid]
    cases hmember : r.byMember? d.method.returns with
    | none =>
      have hrun : out = (d.withReturns d.method.returns).withStmt (.return (some e)) := by
        show (returnCall r e d.method.returns d).2 = _
        rw [returnCall, if_neg hvoid, hmember]
        rfl
      obtain ⟨hwritten, hbody⟩ := written_return ha h hm d.method.returns
      rw [hrun, RegistrySet.crossingType, delivered, hmember]
      exact ⟨hwritten, .refl _, rfl, rfl, rfl, hbody⟩
    | some descriptor =>
      let x := d.unit.names.next.1
      have hrun : out = ((d.afterName.withStmt (.declare d.method.returns x (some e))).withReturns
          descriptor.keyType).withStmt (.return (some (.property (.localVar x) idProperty))) := by
        show (returnCall r e d.method.returns d).2 = _
        rw [returnCall, if_neg hvoid, hmember]
        rfl
      obtain ⟨hwritten, hbody⟩ :=
        written_returnHeld ha h hm d.method.returns descriptor.keyType idProperty
      rw [hrun, RegistrySet.crossingType, delivered, hmember]
      exact ⟨hwritten, d.unit.grows_afterName, rfl, rfl, rfl, hbody⟩

/-! ## One lemma a kind of member -/

theorem paramTypes_append {p : Method} {lead params : List Param} {ls ts : List TypeExpr}
    (h : p.params = lead ++ params) (hl : lead.map Param.type = ls) (hp : params.map Param.type = ts) :
    p.paramTypes = ls ++ ts := by
  rw [Method.paramTypes, h, List.map_append, hl, hp]

/-- **A getter's method** reads what the getter names. -/
theorem getter_written (hs : Placed s a.fields) (ha : a.Sound) {g : MethodDecl} {property : String}
    (hname : g.name = "get_" ++ property) :
    let out := (s.writeGetter g ⟨a, { name := Naming.accessorMethodName g.name, returns := g.returns }⟩).2
    Written a out ∧ ReadsSlot s.registries out.unit.fields s.type property g out.method := by
  intro out
  let d₀ : Draft := ⟨a, { name := Naming.accessorMethodName g.name, returns := g.returns }⟩
  have h₀ : d₀.Open := open_start ha _ _
  obtain ⟨lead, target, h₁, hg₁, hreach, hm₁⟩ := target_spec (d := d₀) hs h₀
  obtain ⟨params, slot, h₂, hg₂, hslot, hm₂⟩ := slot_spec (s := s) h₁ g.name g.params hm₁
  let d₂ := (s.slot g.name g.params (s.target d₀).1 (s.target d₀).2).2
  have hg : d₀.Grows (lead ++ params) d₂ := hg₁.trans hg₂
  have hreturns : d₂.method.returns = g.returns := hg.returns
  obtain ⟨hwritten, hunit, hname', hparams, hret, hbody⟩ :=
    returnRead_spec (r := s.registries) hg.unit h₂ hm₂
  rw [hreturns] at hwritten hunit hname' hparams hret hbody
  have hproperty : Naming.propertyName g.name = property := by rw [hname, Naming.propertyName_get]
  have hfields : out.unit.fields = d₂.unit.fields := congrArg Assembler.fields hunit
  rw [hproperty] at hslot
  have hsplit : out.method.params = lead ++ params := hparams.trans hg.params
  refine ⟨hwritten, hname, ?_, ?_, hret, hwritten.wellScoped.params_nodup, ?_⟩
  · rw [← Naming.accessorMethodName_get, ← hname]
    exact hname'.trans hg.name
  · exact paramTypes_append hsplit hreach.types hslot.types
  · rw [hfields]
    exact ⟨lead, params, target, slot, hsplit, hreach.mono hg₂.unit.fields, hslot, hbody⟩

/-- **A setter's method** writes what the setter names. -/
theorem setter_written (hs : Placed s a.fields) (ha : a.Sound) {m : MethodDecl} {property : String}
    {keys : List Parameter} {value : Parameter} (hname : m.name = "set_" ++ property)
    (hsplit : m.params = keys ++ [value]) :
    let out := (s.writeSetter m keys value ⟨a, { name := Naming.accessorMethodName m.name, returns := .void }⟩).2
    Written a out ∧ WritesSlot s.registries out.unit.fields s.type property m out.method := by
  intro out
  let d₀ : Draft := ⟨a, { name := Naming.accessorMethodName m.name, returns := .void }⟩
  have h₀ : d₀.Open := open_start ha _ _
  obtain ⟨lead, target, h₁, hg₁, hreach, hm₁⟩ := target_spec (d := d₀) hs h₀
  obtain ⟨params, slot, h₂, hg₂, hslot, hm₂⟩ := slot_spec (s := s) h₁ m.name keys hm₁
  obtain ⟨_, written, h₃, hg₃, ⟨hcross⟩, hm₃⟩ := incoming_took (r := s.registries) h₂ value
  rename_i last
  -- the value is taken last, and by then the slot still means what it meant
  let slotted := s.slot m.name keys (s.target d₀).1 (s.target d₀).2
  let taken := incoming s.registries value slotted.2
  let stmt : Stmt := .assign slotted.1 taken.1
  have hg : d₀.Grows (lead ++ params ++ [last]) taken.2 := (hg₁.trans hg₂).trans hg₃
  have hm₂' : Means taken.2 slotted.1 slot := hm₂.mono h₂ h₃ hg₃
  have hstmt : stmt.Resolved taken.2.unit.classNames taken.2.scope := by
    rw [stmt_resolved_iff_exprs (by simp [stmt])]
    simpa [stmt, Stmt.exprs] using ⟨hm₂'.resolved, hm₃.resolved⟩
  have hvoid : taken.2.method.returns.isVoid = true := by
    rw [hg.returns]
    rfl
  obtain ⟨hwritten, hbody⟩ := written_void hg.unit h₃ hvoid hstmt rfl
  rw [Stmt.inlined, hm₂'.reads, hm₃.reads] at hbody
  have hproperty : Naming.propertyName m.name = property := by rw [hname, Naming.propertyName_set]
  rw [hproperty] at hslot
  have hparams : out.method.params = lead ++ params ++ [last] := hg.params
  refine ⟨hwritten, hname, ?_, ?_, hg.returns, hwritten.wellScoped.params_nodup, ?_⟩
  · rw [← Naming.accessorMethodName_set, ← hname]
    exact hg.name
  · have htail : (params ++ [last]).map Param.type = m.params.map (s.registries.crossingType ·.type) := by
      rw [hsplit, List.map_append, List.map_append, hslot.types, List.map_singleton, List.map_singleton,
        hcross.type]
    exact paramTypes_append (hparams.trans (List.append_assoc _ _ _)) hreach.types htail
  · exact ⟨keys, value, lead, params, last, target, slot, written, hsplit, hparams,
      hreach.mono (hg₂.trans hg₃).unit.fields, hslot.mono hg₃.unit.fields, hcross, hbody⟩

/-- **A method's method** calls the method. -/
theorem call_written (hs : Placed s a.fields) (ha : a.Sound) (m : MethodDecl) :
    let out := (s.writeCall m ⟨a, { name := m.name, returns := m.returns }⟩).2
    Written a out ∧ Delegates s.registries out.unit.fields s.type m out.method := by
  intro out
  let d₀ : Draft := ⟨a, { name := m.name, returns := m.returns }⟩
  have h₀ : d₀.Open := open_start ha _ _
  obtain ⟨lead, target, h₁, hg₁, hreach, hm₁⟩ := target_spec (d := d₀) hs h₀
  obtain ⟨params, args, h₂, hg₂, hpasses, hm₂⟩ := arguments_took (r := s.registries) h₁ m.params
  let d₂ := (m.params.mapM (argument s.registries) (s.target d₀).2).2
  have hg : d₀.Grows (lead ++ params) d₂ := hg₁.trans hg₂
  have hreturns : d₂.method.returns = m.returns := hg.returns
  -- the target was reached before the arguments were taken and means the same after them
  have hcall := (hm₁.mono h₁ h₂ hg₂).invoke hm₂ m.name
  obtain ⟨hwritten, hunit, hname, hparams, hret, hbody⟩ :=
    returnCall_spec (r := s.registries) hg.unit h₂ hcall
  rw [hreturns] at hwritten hunit hname hparams hret hbody
  have hsplit : out.method.params = lead ++ params := hparams.trans hg.params
  refine ⟨hwritten, hname.trans hg.name, paramTypes_append hsplit hreach.types hpasses.passesTypes, hret,
    hwritten.wellScoped.params_nodup, ?_⟩
  exact ⟨lead, params, target, args, hsplit, hreach.mono (hg₂.unit.trans hunit).fields,
    hpasses.mono fun _ _ _ hx => hx.mono hunit.fields, hbody⟩

/-- **An event's method** raises the event, if the class has it. -/
theorem raise_written (ha : a.Sound) {e : EventDecl} (he : e.name ∈ a.classNames.events) :
    let out := (Subject.writeRaise e ⟨a, { name := Subject.raiseName e, returns := .void }⟩).2
    Written a out ∧ RaisesEvent e out.method := by
  intro out
  let d₀ : Draft := ⟨a, { name := Subject.raiseName e, returns := .void }⟩
  have h₀ : d₀.Open := open_start ha _ _
  obtain ⟨name, payload⟩ := e
  cases payload with
  | none =>
    let stmt : Stmt := .raise name [.null, .null]
    have hstmt : stmt.Resolved d₀.unit.classNames d₀.scope := by
      refine ⟨by simp [stmt, Stmt.exprs], ?_⟩
      intro event args heq
      obtain ⟨rfl, -⟩ := Stmt.raise.inj heq
      exact he
    obtain ⟨hwritten, -⟩ := written_void (.refl a) h₀ rfl hstmt rfl
    exact ⟨hwritten, .bare rfl⟩
  | some payload =>
    obtain ⟨h₁, hg₁, hm₁⟩ := param_spec h₀ payload
    let p : Param := ⟨a.names.next.1, payload⟩
    let stmt : Stmt := .raise name [.null, .param p.name]
    have hstmt : stmt.Resolved (d₀.afterName.withParam p).unit.classNames (d₀.afterName.withParam p).scope := by
      refine ⟨?_, ?_⟩
      · simpa [stmt, Stmt.exprs] using hm₁.resolved
      · intro event args heq
        obtain ⟨rfl, -⟩ := Stmt.raise.inj heq
        exact he
    obtain ⟨hwritten, -⟩ := written_void hg₁.unit h₁ rfl hstmt rfl
    exact ⟨hwritten, .payload p.name rfl⟩

end BoundaryProxy.Synthesis
