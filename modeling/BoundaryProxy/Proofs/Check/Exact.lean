import BoundaryProxy.Proofs.Check.Scope
import Mathlib.Data.List.Nodup

/-!
# `Proofs.Check.Exact` — the classes that pass the check

`WellFormed u` says what a class has to be, with no walk and no table: its members do not clash, its bodies are
well scoped, and they return what their members promise. `check_eq_nil_iff` ties it to the checker.

The pass over the members keeps a table of the names and signatures it met. As long as nothing clashed, the table
holds exactly the members before (`Accounts`), so that a member passes when it clashes with none of them
(`checkMember_eq_nil`), and all members pass when no two of them clash (`checkMembers_eq_nil`). What this means for
fields, events and methods apart is `pairwise_not_clash_iff`.
-/

namespace BoundaryProxy

namespace Proxy

/-! ## Clashes -/

/-- Two members clash: they share a name, and if both are methods their parameter types too. -/
inductive Member.Clash : Member → Member → Prop
  | name {m n : Member} {x : String} : m.name? = some x → n.name? = some x →
      (m.method? = none ∨ n.method? = none) → Clash m n
  | signature {m n : Method} : m.name = n.name → m.paramTypes = n.paramTypes → Clash (.method m) (.method n)

/-- The name and the parameter types by which a method is told from others. -/
def Method.signature (m : Method) : String × List TypeExpr :=
  (m.name, m.paramTypes)

theorem clash_methods_iff {m n : Method} :
    Member.Clash (.method m) (.method n) ↔ m.signature = n.signature := by
  constructor
  · intro h
    cases h with
    | name _ _ hnone => simp [Member.method?] at hnone
    | signature hname htypes => exact Prod.ext hname htypes
  · intro h
    obtain ⟨hname, htypes⟩ := Prod.mk.inj h
    exact .signature hname htypes

/-- Members that are not both methods clash when they share a name. -/
theorem clash_iff_name {m n : Member} (h : m.method? = none ∨ n.method? = none) :
    m.Clash n ↔ ∃ x, m.name? = some x ∧ n.name? = some x := by
  constructor
  · intro hclash
    cases hclash with
    | name hm hn _ => exact ⟨_, hm, hn⟩
    | signature => simp [Member.method?] at h
  · rintro ⟨x, hm, hn⟩
    exact .name hm hn h

end Proxy

namespace Check

open Proxy

variable {className x : String} {taken : Taken} {m n : Member} {before rest : List Member}

/-! ## The table -/

/-- The kind of a member that has a name. -/
def kind? : Member → Option NameKind
  | .field _ => some .field
  | .constructor _ => none
  | .method _ => some .method
  | .event _ => some .event

/-- The table holds the members before: each name with its kind, and each signature. -/
structure Accounts (taken : Taken) (before : List Member) : Prop where
  names : ∀ x kind, taken.names.lookup x = some kind ↔ ∃ m ∈ before, m.name? = some x ∧ kind? m = some kind
  signatures : ∀ s, s ∈ taken.signatures ↔ ∃ m, .method m ∈ before ∧ m.signature = s

theorem accounts_nil : Accounts {} [] where
  names := by simp
  signatures := by simp

theorem kind?_eq_method : kind? m = some .method ↔ m.method? ≠ none := by
  cases m <;> simp [kind?, Member.method?]

theorem exists_kind? (h : m.name? = some x) : ∃ kind, kind? m = some kind := by
  cases m with
  | constructor => cases h
  | field | method | event => exact ⟨_, rfl⟩

theorem lookup_addName (taken : Taken) (x y : String) (kind : NameKind) :
    (taken.addName x kind).names.lookup y =
      if y = x then some ((taken.names.lookup x).getD kind) else taken.names.lookup y := by
  unfold Taken.addName
  by_cases hy : y = x
  · subst hy
    cases h : taken.names.lookup y <;> simp [h]
  · have hne : (y == x) = false := beq_eq_false_iff_ne.mpr hy
    cases h : taken.names.lookup x <;> simp [hy, hne, List.lookup_cons]

theorem signatures_addName (taken : Taken) (x : String) (kind : NameKind) :
    (taken.addName x kind).signatures = taken.signatures := by
  unfold Taken.addName
  split <;> rfl

/-- A name that no member before has, unless that member and this one are methods. -/
def Free (before : List Member) (m : Member) (x : String) : Prop :=
  ∀ n ∈ before, n.name? = some x → n.method? ≠ none ∧ m.method? ≠ none

theorem Accounts.free_iff (h : Accounts taken before) {kind : NameKind} (hkind : kind? m = some kind) :
    (∀ other, taken.names.lookup x = some other → other = .method ∧ kind = .method) ↔ Free before m x := by
  have hmethod : kind = .method ↔ m.method? ≠ none := by
    rw [← kind?_eq_method, hkind, Option.some.injEq]
  constructor
  · intro hfree n hn hname
    obtain ⟨other, hother⟩ := exists_kind? hname
    obtain ⟨rfl, hm⟩ := hfree other ((h.names x other).mpr ⟨n, hn, hname, hother⟩)
    exact ⟨kind?_eq_method.mp hother, hmethod.mp hm⟩
  · intro hfree other hlookup
    obtain ⟨n, hn, hname, hother⟩ := (h.names x other).mp hlookup
    obtain ⟨hnmethod, hmmethod⟩ := hfree n hn hname
    rw [kind?_eq_method.mpr hnmethod] at hother
    exact ⟨(Option.some.inj hother).symm, hmethod.mpr hmmethod⟩

/-- A free name is entered with its kind. -/
theorem Accounts.addName (h : Accounts taken before) {kind : NameKind} (hname : m.name? = some x)
    (hkind : kind? m = some kind) (hfree : Free before m x) (y : String) (k : NameKind) :
    (taken.addName x kind).names.lookup y = some k ↔
      ∃ n ∈ before ++ [m], n.name? = some y ∧ kind? n = some k := by
  have hsplit : (∃ n ∈ before ++ [m], n.name? = some y ∧ kind? n = some k) ↔
      taken.names.lookup y = some k ∨ (x = y ∧ kind = k) := by
    rw [h.names]
    simp [or_and_right, exists_or, hname, hkind]
  rw [hsplit, lookup_addName]
  by_cases hy : y = x
  · subst hy
    -- an entry that is there already has the kind of the new one
    cases hlookup : taken.names.lookup y with
    | none => simp
    | some other =>
      obtain ⟨rfl, rfl⟩ := (h.free_iff hkind).mpr hfree other hlookup
      simp
  · simp [hy, Ne.symm hy]

/-! ## The pass over the members -/

/-- Nothing is wrong with a name that is not the class's, if only methods share it. -/
theorem checkName_eq_nil {kind : NameKind} :
    (checkName className taken x kind).1 = [] ↔
      x ≠ className ∧ ∀ other, taken.names.lookup x = some other → other = .method ∧ kind = .method := by
  rw [checkName, List.append_eq_nil_iff, findIf_eq_nil, findIf_eq_nil, beq_eq_false_iff_ne]
  cases taken.names.lookup x <;> simp

theorem checkName_clash {kind : NameKind} :
    (checkName className taken x kind).2 = false ↔
      ∀ other, taken.names.lookup x = some other → other = .method ∧ kind = .method := by
  rw [checkName]
  cases taken.names.lookup x <;> simp

/-- No member before clashes with one that is no method exactly when its name is free. -/
theorem free_iff_not_clash (hm : m.method? = none) (hname : m.name? = some x) :
    Free before m x ↔ ∀ n ∈ before, ¬ n.Clash m := by
  refine forall₂_congr fun n _ => ?_
  rw [clash_iff_name (.inr hm)]
  simp [hm, hname]

/-- No member before clashes with a method exactly when its name is free and its signature new. -/
theorem free_iff_not_clash_method {p : Method} :
    (Free before (.method p) p.name ∧ ∀ q, .method q ∈ before → q.signature ≠ p.signature) ↔
      ∀ n ∈ before, ¬ n.Clash (.method p) := by
  constructor
  · rintro ⟨hfree, hnew⟩ n hn hclash
    cases hclash with
    | name hnname hpname hnone =>
      obtain ⟨hnmethod, hpmethod⟩ := hfree n hn (hnname.trans hpname.symm)
      exact hnone.elim hnmethod hpmethod
    | signature hname htypes => exact hnew _ hn (Prod.ext hname htypes)
  · intro h
    refine ⟨fun n hn hname => ⟨fun hnone => h n hn (.name hname rfl (.inl hnone)), by simp [Member.method?]⟩, ?_⟩
    intro q hq hsignature
    exact h _ hq (clash_methods_iff.mpr hsignature)

theorem Accounts.checkName_eq_nil (h : Accounts taken before) {kind : NameKind} (hkind : kind? m = some kind) :
    (checkName className taken x kind).1 = [] ↔ x ≠ className ∧ Free before m x := by
  rw [Check.checkName_eq_nil, h.free_iff hkind]

theorem Accounts.checkName_clash (h : Accounts taken before) {kind : NameKind} (hkind : kind? m = some kind) :
    (checkName className taken x kind).2 = false ↔ Free before m x := by
  rw [Check.checkName_clash, h.free_iff hkind]

/-- A method whose name is free is looked up among the signatures too, and entered there. -/
theorem checkMember_method (h : Accounts taken before) {p : Method} (hfree : Free before (.method p) p.name) :
    checkMember className taken (.method p) =
      ((checkName className taken p.name .method).1 ++
          findIf (taken.signatures.contains p.signature) (.signatureTaken p.name),
        { taken.addName p.name .method with signatures := p.signature :: taken.signatures }) := by
  have hclash : (checkName className taken p.name .method).2 = false := (h.checkName_clash rfl).mpr hfree
  simp [checkMember, hclash, signatures_addName, Method.signature]

/-- **A member passes** when it is not named as the class and clashes with no member before. -/
theorem checkMember_eq_nil (h : Accounts taken before) :
    (checkMember className taken m).1 = [] ↔
      m.name? ≠ some className ∧ ∀ n ∈ before, ¬ n.Clash m := by
  cases m with
  | constructor c =>
    have hapart : ∀ n ∈ before, ¬ n.Clash (.constructor c) := by
      intro n _ hclash
      cases hclash with
      | name _ hname => cases hname
    simpa [checkMember, Member.name?] using hapart
  | field f =>
    rw [checkMember, h.checkName_eq_nil (m := .field f) rfl, free_iff_not_clash rfl rfl]
    simp [Member.name?]
  | event e =>
    rw [checkMember, h.checkName_eq_nil (m := .event e) rfl, free_iff_not_clash rfl rfl]
    simp [Member.name?]
  | method p =>
    rw [← free_iff_not_clash_method]
    by_cases hfree : Free before (.method p) p.name
    · have hold : taken.signatures.contains p.signature = false ↔
          ∀ q, .method q ∈ before → q.signature ≠ p.signature := by
        rw [List.contains_eq_mem, decide_eq_false_iff_not, h.signatures]
        simp
      rw [checkMember_method h hfree, List.append_eq_nil_iff, h.checkName_eq_nil (m := .method p) rfl,
        findIf_eq_nil, hold]
      simp [hfree, Member.name?]
    · -- the name is taken, and the signatures are not asked
      have hclash : (checkName className taken p.name .method).2 = true := by
        rw [← Bool.not_eq_false, h.checkName_clash (m := .method p) rfl]
        exact hfree
      have hfindings : (checkMember className taken (.method p)).1 =
          (checkName className taken p.name .method).1 := by
        simp [checkMember, hclash]
      rw [hfindings, h.checkName_eq_nil (m := .method p) rfl]
      simp [hfree]

/-- A member that clashes with none before is entered in the table. -/
theorem accounts_checkMember (h : Accounts taken before) (hm : ∀ n ∈ before, ¬ n.Clash m) :
    Accounts (checkMember className taken m).2 (before ++ [m]) := by
  cases m with
  | constructor c =>
    constructor
    · intro x kind
      rw [checkMember, h.names]
      simp [Member.name?]
    · intro s
      rw [checkMember, h.signatures]
      simp
  | field f =>
    constructor
    · exact h.addName rfl rfl ((free_iff_not_clash rfl rfl).mpr hm)
    · intro s
      rw [checkMember, signatures_addName, h.signatures]
      simp
  | event e =>
    constructor
    · exact h.addName rfl rfl ((free_iff_not_clash rfl rfl).mpr hm)
    · intro s
      rw [checkMember, signatures_addName, h.signatures]
      simp
  | method p =>
    obtain ⟨hfree, -⟩ := free_iff_not_clash_method.mpr hm
    rw [checkMember_method h hfree]
    constructor
    · exact h.addName rfl rfl hfree
    · intro s
      rw [List.mem_cons, h.signatures]
      simp [or_comm, exists_or, or_and_right, eq_comm]

/-- **The members pass** when none is named as the class and no two of them clash. -/
theorem checkMembers_eq_nil (h : Accounts taken before) :
    checkMembers className taken rest = [] ↔
      (∀ m ∈ rest, m.name? ≠ some className) ∧ (∀ n ∈ before, ∀ m ∈ rest, ¬ n.Clash m) ∧
        rest.Pairwise fun m n => ¬ m.Clash n := by
  induction rest generalizing taken before with
  | nil => simp [checkMembers]
  | cons m rest ih =>
    rw [checkMembers, List.append_eq_nil_iff, checkMember_eq_nil h, List.forall_mem_cons, List.pairwise_cons]
    constructor
    · rintro ⟨⟨hname, hm⟩, hrest⟩
      obtain ⟨hnames, hbefore, hpairs⟩ := (ih (accounts_checkMember h hm)).mp hrest
      refine ⟨⟨hname, hnames⟩, fun n hn => List.forall_mem_cons.mpr ⟨hm n hn, ?_⟩, ?_, hpairs⟩
      · exact hbefore n (List.mem_append_left _ hn)
      · exact hbefore m (List.mem_append_right _ List.mem_cons_self)
    · rintro ⟨⟨hname, hnames⟩, hbefore, hm, hpairs⟩
      have hfirst : ∀ n ∈ before, ¬ n.Clash m := fun n hn => hbefore n hn m List.mem_cons_self
      refine ⟨⟨hname, hfirst⟩, (ih (accounts_checkMember h hfirst)).mpr ⟨hnames, ?_, hpairs⟩⟩
      intro n hn p hp
      rcases List.mem_append.mp hn with hn | hn
      · exact hbefore n hn p (List.mem_cons_of_mem _ hp)
      · rw [List.mem_singleton.mp hn]
        exact hm p hp

/-! ## Fields, events and methods apart -/

theorem field?_eq_some {f : Field} : m.field? = some f ↔ m = .field f := by
  cases m <;> simp [Member.field?]

theorem constructor?_eq_some {c : Constructor} : m.constructor? = some c ↔ m = .constructor c := by
  cases m <;> simp [Member.constructor?]

theorem method?_eq_some {p : Method} : m.method? = some p ↔ m = .method p := by
  cases m <;> simp [Member.method?]

theorem event?_eq_some {e : Event} : m.event? = some e ↔ m = .event e := by
  cases m <;> simp [Member.event?]

/-- Fields and events have distinct names that no method has, and methods have distinct signatures. -/
structure NamesApart (fs : List Field) (es : List Event) (ps : List Method) : Prop where
  distinct : (fs.map (·.name) ++ es.map (·.name)).Nodup
  methods : ∀ p ∈ ps, p.name ∉ fs.map (·.name) ++ es.map (·.name)
  signatures : (ps.map Method.signature).Nodup

section Views

variable {fs : List Field} {es : List Event} {ps : List Method} {ms : List Member}

theorem namesApart_cons_field {f : Field} :
    NamesApart (f :: fs) es ps ↔
      (f.name ∉ fs.map (·.name) ++ es.map (·.name) ∧ ∀ p ∈ ps, p.name ≠ f.name) ∧ NamesApart fs es ps := by
  constructor
  · rintro ⟨hdistinct, hmethods, hsignatures⟩
    obtain ⟨hnew, hdistinct⟩ := List.nodup_cons.mp hdistinct
    refine ⟨⟨hnew, fun p hp hname => ?_⟩, hdistinct, fun p hp hmem => ?_, hsignatures⟩
    · exact hmethods p hp (hname ▸ List.mem_cons_self)
    · exact hmethods p hp (List.mem_cons_of_mem _ hmem)
  · rintro ⟨⟨hnew, hothers⟩, hdistinct, hmethods, hsignatures⟩
    refine ⟨List.nodup_cons.mpr ⟨hnew, hdistinct⟩, fun p hp hmem => ?_, hsignatures⟩
    rcases List.mem_cons.mp hmem with hname | hmem
    · exact hothers p hp hname
    · exact hmethods p hp hmem

theorem namesApart_cons_event {e : Event} :
    NamesApart fs (e :: es) ps ↔
      (e.name ∉ fs.map (·.name) ++ es.map (·.name) ∧ ∀ p ∈ ps, p.name ≠ e.name) ∧ NamesApart fs es ps := by
  have hmem : ∀ x, x ∈ fs.map (·.name) ++ (e :: es).map (·.name) ↔
      x = e.name ∨ x ∈ fs.map (·.name) ++ es.map (·.name) := by
    intro x
    rw [List.map_cons, List.mem_append, List.mem_cons, List.mem_append]
    exact or_left_comm
  constructor
  · rintro ⟨hdistinct, hmethods, hsignatures⟩
    obtain ⟨hnew, hdistinct⟩ := List.nodup_middle.mp hdistinct |> List.nodup_cons.mp
    refine ⟨⟨hnew, fun p hp hname => ?_⟩, hdistinct, fun p hp hp' => ?_, hsignatures⟩
    · exact hmethods p hp ((hmem _).mpr (.inl hname))
    · exact hmethods p hp ((hmem _).mpr (.inr hp'))
  · rintro ⟨⟨hnew, hothers⟩, hdistinct, hmethods, hsignatures⟩
    refine ⟨List.nodup_middle.mpr (List.nodup_cons.mpr ⟨hnew, hdistinct⟩), fun p hp hp' => ?_, hsignatures⟩
    rcases (hmem _).mp hp' with hname | hp'
    · exact hothers p hp hname
    · exact hmethods p hp hp'

theorem namesApart_cons_method {p : Method} :
    NamesApart fs es (p :: ps) ↔
      (p.name ∉ fs.map (·.name) ++ es.map (·.name) ∧ p.signature ∉ ps.map Method.signature) ∧
        NamesApart fs es ps := by
  constructor
  · rintro ⟨hdistinct, hmethods, hsignatures⟩
    obtain ⟨hname, hmethods⟩ := List.forall_mem_cons.mp hmethods
    obtain ⟨hnew, hsignatures⟩ := List.nodup_cons.mp hsignatures
    exact ⟨⟨hname, hnew⟩, hdistinct, hmethods, hsignatures⟩
  · rintro ⟨⟨hname, hnew⟩, hdistinct, hmethods, hsignatures⟩
    exact ⟨hdistinct, List.forall_mem_cons.mpr ⟨hname, hmethods⟩, List.nodup_cons.mpr ⟨hnew, hsignatures⟩⟩

/-- A member is a field, a constructor, a method or an event. -/
theorem forall_member_iff {P : Member → Prop} :
    (∀ n ∈ ms, P n) ↔
      (∀ f ∈ ms.filterMap Member.field?, P (.field f)) ∧
      (∀ c ∈ ms.filterMap Member.constructor?, P (.constructor c)) ∧
      (∀ p ∈ ms.filterMap Member.method?, P (.method p)) ∧
      ∀ e ∈ ms.filterMap Member.event?, P (.event e) := by
  simp only [List.mem_filterMap, forall_exists_index, and_imp]
  constructor
  · intro h
    refine ⟨fun f n hn hf => ?_, fun c n hn hc => ?_, fun p n hn hp => ?_, fun e n hn he => ?_⟩
    · exact field?_eq_some.mp hf ▸ h n hn
    · exact constructor?_eq_some.mp hc ▸ h n hn
    · exact method?_eq_some.mp hp ▸ h n hn
    · exact event?_eq_some.mp he ▸ h n hn
  · rintro ⟨hf, hc, hp, he⟩ n hn
    cases n with
    | field f => exact hf f _ hn rfl
    | constructor c => exact hc c _ hn rfl
    | method p => exact hp p _ hn rfl
    | event e => exact he e _ hn rfl

/-- What clashes with a field or an event is a member of its name. -/
theorem not_clash_iff_name (hm : m.method? = none) (hname : m.name? = some x) :
    (∀ n ∈ ms, ¬ m.Clash n) ↔
      x ∉ (ms.filterMap Member.field?).map (·.name) ++ (ms.filterMap Member.event?).map (·.name) ∧
        ∀ p ∈ ms.filterMap Member.method?, p.name ≠ x := by
  have hclash : ∀ n, ¬ m.Clash n ↔ n.name? ≠ some x := by
    intro n
    rw [clash_iff_name (.inl hm)]
    simp [hname]
  simp only [hclash, forall_member_iff, Member.name?, ne_eq, Option.some.injEq, List.mem_append, List.mem_map,
    not_or, not_exists, not_and, reduceCtorEq, not_false_eq_true, implies_true, true_and]
  exact ⟨fun ⟨hf, hp, he⟩ => ⟨⟨hf, he⟩, hp⟩, fun ⟨⟨hf, he⟩, hp⟩ => ⟨hf, hp, he⟩⟩

/-- What clashes with a method is a field or event of its name, or a method of its signature. -/
theorem not_clash_iff_signature {p : Method} :
    (∀ n ∈ ms, ¬ Member.Clash (.method p) n) ↔
      p.name ∉ (ms.filterMap Member.field?).map (·.name) ++ (ms.filterMap Member.event?).map (·.name) ∧
        p.signature ∉ (ms.filterMap Member.method?).map Method.signature := by
  have hclash : ∀ n : Member, n.method? = none → (¬ Member.Clash (.method p) n ↔ n.name? ≠ some p.name) := by
    intro n hn
    rw [clash_iff_name (.inr hn)]
    simp [Member.name?]
  simp only [forall_member_iff, hclash (.field _) rfl, hclash (.constructor _) rfl, hclash (.event _) rfl,
    clash_methods_iff, Member.name?, ne_eq, Option.some.injEq, List.mem_append, List.mem_map, not_or, not_exists,
    not_and, reduceCtorEq, not_false_eq_true, implies_true, true_and]
  exact ⟨fun ⟨hf, hp, he⟩ => ⟨⟨hf, he⟩, fun q hq h => hp q hq h.symm⟩,
    fun ⟨⟨hf, he⟩, hp⟩ => ⟨hf, fun q hq h => hp q hq h.symm, he⟩⟩

/-- **No two members clash** exactly when their names and signatures are apart. -/
theorem pairwise_not_clash_iff :
    (ms.Pairwise fun m n => ¬ m.Clash n) ↔
      NamesApart (ms.filterMap Member.field?) (ms.filterMap Member.event?) (ms.filterMap Member.method?) := by
  induction ms with
  | nil => exact ⟨fun _ => ⟨List.nodup_nil, fun _ hp => absurd hp List.not_mem_nil, List.nodup_nil⟩, fun _ => .nil⟩
  | cons m ms ih =>
    rw [List.pairwise_cons, ih]
    cases m with
    | constructor c =>
      have hapart : ∀ n ∈ ms, ¬ Member.Clash (.constructor c) n := by
        intro n _ hclash
        cases hclash with
        | name hname => cases hname
      exact and_iff_right hapart
    | field f =>
      rw [not_clash_iff_name (m := .field f) rfl rfl]
      exact namesApart_cons_field.symm
    | event e =>
      rw [not_clash_iff_name (m := .event e) rfl rfl]
      exact namesApart_cons_event.symm
    | method p =>
      rw [not_clash_iff_signature]
      exact namesApart_cons_method.symm

end Views

/-! ## Bodies -/

section Bodies

variable {names : ClassNames} {scope : Scope} {body : List Stmt}

/-- Nothing is wrong with a body when nothing is wrong with its returns and with its names. -/
theorem checkBody_eq_nil {onReturn : Option Expr → List Finding} :
    checkBody names onReturn scope body = [] ↔
      (∀ value, .return value ∈ body → onReturn value = []) ∧ checkBody names (fun _ => []) scope body = [] := by
  constructor
  · intro h
    refine ⟨fun value hmem => ?_, ?_⟩
    · refine List.eq_nil_iff_forall_not_mem.mpr fun f hf => ?_
      exact List.eq_nil_iff_forall_not_mem.mp h f (mem_checkBody.mpr (.inl ⟨value, hmem, hf⟩))
    · refine List.eq_nil_iff_forall_not_mem.mpr fun f hf => ?_
      exact List.eq_nil_iff_forall_not_mem.mp h f (mem_checkBody.mpr (.inr hf))
  · rintro ⟨hreturns, hnames⟩
    refine List.eq_nil_iff_forall_not_mem.mpr fun f hf => ?_
    rcases mem_checkBody.mp hf with ⟨value, hmem, hf⟩ | hf
    · rw [hreturns value hmem] at hf
      exact List.not_mem_nil hf
    · rw [hnames] at hf
      exact List.not_mem_nil hf

theorem endsWithReturn_iff : endsWithReturn body = true ↔ ∃ value, body.getLast? = some (.return value) := by
  unfold endsWithReturn
  cases body.getLast? with
  | none => simp
  | some s => cases s <;> simp [Stmt.isReturn]

/-- A method without result returns no value; any other returns nothing but values, and ends with a return. -/
structure ReturnsAsPromised (m : Method) : Prop where
  void : m.returns = .void → ∀ e, .return (some e) ∉ m.body
  value : m.returns ≠ .void → .return none ∉ m.body
  ends : m.returns ≠ .void → ∃ value, m.body.getLast? = some (.return value)

theorem checkMemberBody_constructor_eq_nil {c : Constructor} :
    checkMemberBody names (.constructor c) = [] ↔
      BodyScoped names c.params c.body ∧ ∀ e, .return (some e) ∉ c.body := by
  have hreturns : (∀ value, .return value ∈ c.body → constructorReturn value = []) ↔
      ∀ e, .return (some e) ∉ c.body := by
    simp [Option.forall, constructorReturn]
  rw [checkMemberBody, List.append_eq_nil_iff, checkBody_eq_nil, bodyScoped_iff, hreturns]
  tauto

theorem checkMemberBody_method_eq_nil {m : Method} :
    checkMemberBody names (.method m) = [] ↔
      BodyScoped names m.params m.body ∧ ReturnsAsPromised m := by
  have hreturns : ((∀ value, .return value ∈ m.body → methodReturn m value = []) ∧
      (!m.returns.isVoid && !endsWithReturn m.body) = false) ↔ ReturnsAsPromised m := by
    by_cases hvoid : m.returns = .void
    · have hisVoid := TypeExpr.isVoid_iff.mpr hvoid
      simp only [Option.forall, methodReturn, hisVoid]
      constructor
      · intro h
        refine ⟨fun _ e => ?_, fun hne => absurd hvoid hne, fun hne => absurd hvoid hne⟩
        simpa using h.1.2 e
      · intro h
        simpa using h.void hvoid
    · have hisVoid : m.returns.isVoid = false := by
        rw [← Bool.not_eq_true, TypeExpr.isVoid_iff]
        exact hvoid
      simp only [Option.forall, methodReturn, hisVoid]
      constructor
      · intro h
        refine ⟨fun heq => absurd heq hvoid, fun _ => by simpa using h.1.1, fun _ => ?_⟩
        rw [← endsWithReturn_iff]
        simpa using h.2
      · intro h
        have hends := endsWithReturn_iff.mpr (h.ends hvoid)
        simpa [hends] using h.value hvoid
  rw [checkMemberBody, List.append_eq_nil_iff, List.append_eq_nil_iff, findIf_eq_nil, checkBody_eq_nil,
    bodyScoped_iff, ← hreturns]
  tauto

end Bodies

end Check

/-! ## Classes -/

open Proxy Check

/-- **A well-formed class.** Its members do not clash, whatever its bodies mention is declared where it has to be, and
    its members return what they promise. -/
structure ProxyUnit.WellFormed (u : ProxyUnit) : Prop where
  single : u.constructors.length ≤ 1
  not_class : ∀ m ∈ u.members, m.name? ≠ some u.className
  apart : NamesApart u.fields u.events u.methods
  constructors : ∀ c ∈ u.constructors,
    BodyScoped (.of u) c.params c.body ∧ ∀ e, .return (some e) ∉ c.body
  methods : ∀ m ∈ u.methods, BodyScoped (.of u) m.params m.body ∧ ReturnsAsPromised m

/-- Nothing is wrong with the bodies of members when nothing is wrong with those of constructors and methods. -/
theorem checkBodies_eq_nil {u : ProxyUnit} :
    u.members.flatMap (checkMemberBody (.of u)) = [] ↔
      (∀ c ∈ u.constructors, BodyScoped (.of u) c.params c.body ∧ ∀ e, .return (some e) ∉ c.body) ∧
        ∀ m ∈ u.methods, BodyScoped (.of u) m.params m.body ∧ ReturnsAsPromised m := by
  rw [List.flatMap_eq_nil_iff, forall_member_iff]
  simp only [checkMemberBody_constructor_eq_nil, checkMemberBody_method_eq_nil]
  constructor
  · rintro ⟨-, hconstructors, hmethods, -⟩
    exact ⟨hconstructors, hmethods⟩
  · rintro ⟨hconstructors, hmethods⟩
    exact ⟨fun _ _ => rfl, hconstructors, hmethods, fun _ _ => rfl⟩

/-- **The check is exact.** It reports no line exactly for well-formed classes. -/
theorem ProxyUnit.checkLines_eq_nil_iff (u : ProxyUnit) : u.checkLines = [] ↔ u.WellFormed := by
  rw [checkLines, List.map_eq_nil_iff, check, List.append_eq_nil_iff, List.append_eq_nil_iff, findIf_eq_nil,
    checkMembers_eq_nil accounts_nil, checkBodies_eq_nil, pairwise_not_clash_iff]
  constructor
  · rintro ⟨⟨hsingle, hnames, -, hapart⟩, hconstructors, hmethods⟩
    exact ⟨by simpa using hsingle, hnames, hapart, hconstructors, hmethods⟩
  · intro h
    refine ⟨⟨by simpa using h.single, h.not_class, ?_, h.apart⟩, h.constructors, h.methods⟩
    exact fun _ hn => absurd hn List.not_mem_nil

end BoundaryProxy
