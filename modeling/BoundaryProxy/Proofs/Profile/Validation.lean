import BoundaryProxy.CommandLine.HostModel
import BoundaryProxy.Proofs.Catalog.Lookup
import BoundaryProxy.Proofs.Naming.Supply
import BoundaryProxy.Proofs.Text.Identifier
import Mathlib.Tactic.MkIffOfInductiveProp

/-!
# `Proofs.Profile.Validation` — which profiles are valid, and what is said of the others

The rules for profiles stand in one list (`rules`): five texts, the stem of generated names, and then, binding by
binding, that the binding is complete and that its type was not bound before. Validation goes through them in this
order and says of a profile which rule it breaks first (`settles_flaw?`); a profile that keeps them all is `Valid`,
which is said without any order.

Two things rest on validity. A name that is made from the stem is an identifier, whatever its number; and a type is
bound once, so the order of the bindings matters neither to what a type name leads to nor to the class that is generated
(`ProxySpec.synthesize_of_perm`). A run works with valid profiles only (`valid_of_readProfile`).
-/

namespace BoundaryProxy

open Text

/-! ## Rules -/

/-- A text with more in it than blanks. -/
def Filled (s : String) : Prop :=
  ∃ c ∈ s.toList, isBlank c = false

theorem isBlankText_iff {s : String} : isBlankText s = true ↔ ¬ Filled s := by
  simp [isBlankText, Filled]

/-- A binding that says both what it binds and where that stands. -/
def SingletonBinding.Complete (b : SingletonBinding) : Prop :=
  b.typeName ≠ "" ∧ b.path ≠ ""

/-- What is asked of a profile, and the flaw of one that does not keep it. -/
structure ProfileRule where
  holds : Prop
  flaw : ProfileFlaw

namespace ProfileRule

/-- The flaw of the first rule that is broken. -/
def FirstBroken (rules : List ProfileRule) (flaw : ProfileFlaw) : Prop :=
  ∃ front r back, rules = front ++ r :: back ∧ (∀ e ∈ front, e.holds) ∧ ¬ r.holds ∧ r.flaw = flaw

/-- What going through rules comes to: the flaw of the first that is broken, or nothing. -/
inductive Settles : List ProfileRule → Option ProfileFlaw → Prop
  | done : Settles [] none
  | broken {r : ProfileRule} {rules : List ProfileRule} : ¬ r.holds → Settles (r :: rules) (some r.flaw)
  | kept {r : ProfileRule} {rules : List ProfileRule} {found : Option ProfileFlaw} : r.holds →
      Settles rules found → Settles (r :: rules) found

variable {r : ProfileRule} {rules : List ProfileRule} {found : Option ProfileFlaw} {flaw : ProfileFlaw}

theorem firstBroken_cons_of_holds (h : r.holds) : FirstBroken (r :: rules) flaw ↔ FirstBroken rules flaw := by
  constructor
  · rintro ⟨front, r', back, hsplit, hfront, hbroken, hflaw⟩
    cases front with
    | nil =>
      obtain ⟨rfl, -⟩ := List.cons.inj hsplit
      exact absurd h hbroken
    | cons e front =>
      obtain ⟨-, hrules⟩ := List.cons.inj hsplit
      exact ⟨front, r', back, hrules, (List.forall_mem_cons.mp hfront).2, hbroken, hflaw⟩
  · rintro ⟨front, r', back, rfl, hfront, hbroken, hflaw⟩
    exact ⟨r :: front, r', back, rfl, List.forall_mem_cons.mpr ⟨h, hfront⟩, hbroken, hflaw⟩

theorem firstBroken_cons_of_not (h : ¬ r.holds) : FirstBroken (r :: rules) flaw ↔ r.flaw = flaw := by
  constructor
  · rintro ⟨front, r', back, hsplit, hfront, -, hflaw⟩
    cases front with
    | nil =>
      obtain ⟨rfl, -⟩ := List.cons.inj hsplit
      exact hflaw
    | cons e front =>
      obtain ⟨rfl, -⟩ := List.cons.inj hsplit
      exact absurd (hfront r List.mem_cons_self) h
  · exact fun hflaw => ⟨[], r, rules, rfl, fun _ he => absurd he List.not_mem_nil, h, hflaw⟩

theorem Settles.eq_none_iff (h : Settles rules found) : found = none ↔ ∀ r ∈ rules, r.holds := by
  induction h with
  | done => simp
  | broken hr => exact ⟨nofun, fun hall => absurd (hall _ List.mem_cons_self) hr⟩
  | kept hr _ ih => rw [ih, List.forall_mem_cons, and_iff_right hr]

theorem Settles.eq_some_iff (h : Settles rules found) : found = some flaw ↔ FirstBroken rules flaw := by
  induction h with
  | done =>
    refine ⟨nofun, ?_⟩
    rintro ⟨front, r, back, hsplit, -⟩
    exact absurd hsplit.symm (List.append_ne_nil_of_right_ne_nil front (List.cons_ne_nil r back))
  | broken hr => rw [Option.some.injEq, firstBroken_cons_of_not hr]
  | kept hr _ ih => rw [ih, firstBroken_cons_of_holds hr]

end ProfileRule

open ProfileRule

namespace Profile

variable {p q : Profile} {seen : List String} {before bs : List SingletonBinding} {flaw : ProfileFlaw}

/-- The rule for a text that is known by a key. -/
def filledRule (entry : String × String) : ProfileRule :=
  ⟨Filled entry.2, .emptyKey entry.1⟩

/-- The rules for bindings that follow others: each is complete and binds what none before it binds. -/
def bindingRules (before : List SingletonBinding) : List SingletonBinding → List ProfileRule
  | [] => []
  | b :: rest =>
    ⟨b.Complete, .incompleteSingleton⟩ ::
      ⟨b.typeName ∉ before.map (·.typeName), .repeatedSingleton b.typeName⟩ ::
        bindingRules (before ++ [b]) rest

/-- The rules for a profile in the order in which they count. -/
def rules (p : Profile) : List ProfileRule :=
  [⟨Filled p.serviceRoot, .emptyKey "service_root"⟩, ⟨Filled p.registryPath, .emptyKey "registry_path"⟩,
    ⟨Filled p.registryProperty, .emptyKey "registry_property"⟩,
    ⟨Filled p.registryMarker, .emptyKey "registry_marker"⟩, ⟨Filled p.eventProxy, .emptyKey "event_proxy"⟩] ++
  ⟨IsIdentifier p.namePrefix, .badNamePrefix p.namePrefix⟩ :: bindingRules [] p.singletons

/-- A profile that keeps every rule. -/
@[mk_iff]
structure Valid (p : Profile) : Prop where
  serviceRoot : Filled p.serviceRoot
  registryPath : Filled p.registryPath
  registryProperty : Filled p.registryProperty
  registryMarker : Filled p.registryMarker
  eventProxy : Filled p.eventProxy
  namePrefix : IsIdentifier p.namePrefix
  complete : ∀ b ∈ p.singletons, b.Complete
  distinct : (p.singletons.map (·.typeName)).Nodup

/-- Bindings keep their rules exactly if each is complete and no type is bound twice. -/
theorem forall_bindingRules_iff (hbefore : (before.map (·.typeName)).Nodup) :
    (∀ r ∈ bindingRules before bs, r.holds) ↔
      (∀ b ∈ bs, b.Complete) ∧ ((before ++ bs).map (·.typeName)).Nodup := by
  induction bs generalizing before with
  | nil => simpa [bindingRules] using hbefore
  | cons b rest ih =>
    rw [bindingRules, List.forall_mem_cons, List.forall_mem_cons, List.forall_mem_cons, List.append_cons before b rest]
    show b.Complete ∧ b.typeName ∉ before.map (·.typeName) ∧ _ ↔ _
    have hconcat (hnew : b.typeName ∉ before.map (·.typeName)) : ((before ++ [b]).map (·.typeName)).Nodup := by
      rw [List.map_append, List.map_singleton, ← List.concat_eq_append]
      exact hbefore.concat hnew
    constructor
    · rintro ⟨hb, hnew, hrest⟩
      obtain ⟨hcomplete, hdistinct⟩ := (ih (hconcat hnew)).mp hrest
      exact ⟨⟨hb, hcomplete⟩, hdistinct⟩
    · rintro ⟨⟨hb, hcomplete⟩, hdistinct⟩
      have hnew : b.typeName ∉ before.map (·.typeName) :=
        not_mem_of_nodup_map ((List.append_cons before b rest).symm ▸ hdistinct)
      exact ⟨hb, hnew, (ih (hconcat hnew)).mpr ⟨hcomplete, hdistinct⟩⟩

/-- The rules in order say together what makes a profile valid. -/
theorem forall_rules_iff : (∀ r ∈ p.rules, r.holds) ↔ p.Valid := by
  have hbindings : (∀ r ∈ bindingRules [] p.singletons, r.holds) ↔
      (∀ b ∈ p.singletons, b.Complete) ∧ (p.singletons.map (·.typeName)).Nodup :=
    forall_bindingRules_iff List.nodup_nil
  simp only [rules, List.cons_append, List.nil_append, List.forall_mem_cons, hbindings]
  exact (valid_iff p).symm

/-! ## Validation -/

theorem settles_texts (texts : List (String × String)) {rules : List ProfileRule} {found : Option ProfileFlaw}
    (h : Settles rules found) :
    Settles (texts.map filledRule ++ rules)
      (match texts.find? fun (_, value) => isBlankText value with
        | some (key, _) => some (.emptyKey key)
        | none => found) := by
  induction texts with
  | nil => exact h
  | cons entry texts ih =>
    obtain ⟨key, value⟩ := entry
    rw [List.map_cons, List.cons_append]
    by_cases hblank : isBlankText value = true
    · simp only [List.find?_cons, hblank]
      exact .broken (isBlankText_iff.mp hblank)
    · simp only [List.find?_cons, hblank]
      exact .kept (not_not.mp (mt isBlankText_iff.mpr hblank)) ih

/-- The bindings are gone through with the types of those before at hand. -/
theorem settles_singletonFlaw (hseen : ∀ x, x ∈ seen ↔ x ∈ before.map (·.typeName)) :
    Settles (bindingRules before bs) (singletonFlaw seen bs) := by
  induction bs generalizing seen before with
  | nil => exact .done
  | cons b rest ih =>
    rw [bindingRules, singletonFlaw]
    by_cases hempty : (b.typeName.isEmpty || b.path.isEmpty) = true
    · rw [if_pos hempty]
      refine .broken fun hcomplete : b.Complete => ?_
      rcases Bool.or_eq_true_iff.mp hempty with htype | hpath
      · exact hcomplete.1 (String.isEmpty_iff.mp htype)
      · exact hcomplete.2 (String.isEmpty_iff.mp hpath)
    · have hcomplete : b.Complete := by
        simpa [SingletonBinding.Complete] using hempty
      rw [if_neg hempty]
      refine .kept hcomplete ?_
      by_cases hmem : b.typeName ∈ seen
      · rw [if_pos hmem]
        exact .broken fun hnew => hnew ((hseen _).mp hmem)
      · rw [if_neg hmem]
        refine .kept (mt (hseen _).mpr hmem) (ih fun x => ?_)
        rw [List.mem_cons, hseen, List.map_append, List.map_singleton, List.mem_append, List.mem_singleton, or_comm]

/-- **Validation goes through the rules** in their order. -/
theorem settles_flaw? (p : Profile) : Settles p.rules p.flaw? := by
  have hbindings : Settles (bindingRules [] p.singletons) (singletonFlaw [] p.singletons) :=
    settles_singletonFlaw fun _ => Iff.rfl
  refine settles_texts p.requiredTexts ?_
  by_cases hprefix : isIdentifier p.namePrefix = true
  · rw [if_pos hprefix]
    exact .kept (isIdentifier_iff.mp hprefix) hbindings
  · rw [if_neg hprefix]
    exact .broken (mt isIdentifier_iff.mpr hprefix)

theorem validate_eq_ok_iff : p.validate = .ok q ↔ q = p ∧ p.Valid := by
  rw [← forall_rules_iff, ← (settles_flaw? p).eq_none_iff]
  unfold validate
  cases p.flaw? with
  | none => simp [eq_comm]
  | some flaw => simp

theorem validate_eq_error_iff : p.validate = .error flaw ↔ FirstBroken p.rules flaw := by
  rw [← (settles_flaw? p).eq_some_iff]
  unfold validate
  cases p.flaw? with
  | none => simp
  | some flaw => simp

/-! ## Names and bindings of a valid profile -/

/-- Every name that is made from the stem is an identifier. -/
theorem Valid.isIdentifier_next (h : p.Valid) (n : Nat) :
    IsIdentifier ((NameSupply.mk p.namePrefix 0).after n).next.1 := by
  rw [NameSupply.next_after]
  exact h.namePrefix.append_number _

/-- The profile with other bindings, or the same ones in another order. -/
def withBindings (p : Profile) (bindings : List SingletonBinding) : Profile :=
  { p with singletons := bindings }

/-- The order of the bindings does not matter to what a type name leads to. -/
theorem Valid.singleton?_of_perm (h : p.Valid) (hperm : bs.Perm p.singletons) (typeName : String) :
    (p.withBindings bs).singleton? typeName = p.singleton? typeName :=
  (find?_key_of_perm hperm.symm h.distinct typeName).symm

/-- **Validation decides.** A profile is accepted, and as it is, exactly if it is valid. Any other profile is refused
for the first rule that it breaks: its texts come in their order, then its stem, then binding after binding, each of
which has to be complete and to repeat no type of those before it.

In a profile that is accepted, the stem makes identifiers only, however many names were issued before, and the order
of the bindings does not matter to what a type name leads to. -/
theorem validate_decides (p : Profile) :
    (∀ q, p.validate = .ok q ↔ q = p ∧ p.Valid) ∧
    (∀ flaw, p.validate = .error flaw ↔ FirstBroken p.rules flaw) ∧
    (p.validate = .ok p →
      (∀ n, IsIdentifier ((NameSupply.mk p.namePrefix 0).after n).next.1) ∧
      ∀ bindings, bindings.Perm p.singletons → ∀ typeName,
        (p.withBindings bindings).singleton? typeName = p.singleton? typeName) := by
  refine ⟨fun q => validate_eq_ok_iff, fun flaw => validate_eq_error_iff, fun h => ?_⟩
  have hvalid : p.Valid := (validate_eq_ok_iff.mp h).2
  exact ⟨hvalid.isIdentifier_next, fun bindings hperm => hvalid.singleton?_of_perm hperm⟩

/-- A profile whose stem is no plain letter, with two bindings. -/
def windows : Profile where
  namePrefix := "_é"
  singletons := [⟨"Ns.IWindow", "UI.Window"⟩, ⟨"Ns.IPanel", "UI.Panel"⟩]

/-- The profile `windows` is accepted, its thirteenth name is an identifier, and the second of its bindings may as well
come first. -/
theorem validate_decides_windows :
    windows.validate = .ok windows ∧ IsIdentifier ((NameSupply.mk "_é" 0).after 12).next.1 ∧
      (windows.withBindings windows.singletons.reverse).singleton? "Ns.IPanel" =
        some ⟨"Ns.IPanel", "UI.Panel"⟩ := by
  obtain ⟨-, -, hgives⟩ := validate_decides windows
  have hvalid : windows.validate = .ok windows := by
    rw [validate, show windows.flaw? = none by decide +kernel]
  obtain ⟨hnames, hlookup⟩ := hgives hvalid
  exact ⟨hvalid, hnames 12, (hlookup _ (List.reverse_perm _) _).trans (by decide +kernel)⟩

/-- A binding is looked at as a whole before the next one. -/
example : ({ singletons := [⟨"A", "x"⟩, ⟨"A", "y"⟩, ⟨"", ""⟩] } : Profile).flaw? = some (.repeatedSingleton "A") := by
  decide +kernel

/-! ## Profiles that are loaded -/

theorem valid_of_ofToml {text : String} (h : ofToml text = .ok p) : p.Valid := by
  unfold ofToml at h
  split at h
  · cases h
  · split at h
    · cases h
    · obtain ⟨rfl, hvalid⟩ := validate_eq_ok_iff.mp (Decoder.mapError_eq_ok_iff.mp h)
      exact hvalid

theorem valid_default : Valid .default :=
  forall_rules_iff.mp ((settles_flaw? .default).eq_none_iff.mp (by decide +kernel))

/-- **Every profile that a run works with is valid**, be it read from a file or the default one. -/
theorem valid_of_readProfile {disk : Host.Disk} {here : Host.Place} {named : Option String}
    (h : CommandLine.readProfile disk here named = .ok p) : p.Valid := by
  unfold CommandLine.readProfile at h
  split at h
  · obtain rfl := Except.ok.inj h
    exact valid_default
  · obtain ⟨text, -, hread⟩ := Decoder.bind_eq_ok_iff.mp h
    exact valid_of_ofToml (Decoder.mapError_eq_ok_iff.mp hread)

end Profile

/-! ## What is generated -/

namespace Synthesis.Subject

open Profile

variable {p : Profile} {bs : List SingletonBinding}

/-- The way in which an object is reached does not depend on the order of the bindings. -/
theorem access_of_perm (h : p.Valid) (hperm : bs.Perm p.singletons) (t : TypeExpr) (r : RegistrySet) :
    Access.of t r (p.withBindings bs) = Access.of t r p := by
  unfold Access.of
  rw [h.singleton?_of_perm hperm]

/-- The subject with other bindings. -/
def withBindings (s : Subject) (bindings : List SingletonBinding) : Subject :=
  { s with profile := s.profile.withBindings bindings }

theorem start_of_perm (h : p.Valid) (hperm : bs.Perm p.singletons) (t : TypeExpr) (r : RegistrySet) :
    start t r (p.withBindings bs) = ((start t r p).1.withBindings bs, (start t r p).2) := by
  unfold start
  rw [access_of_perm h hperm]
  cases Access.of t r p <;> rfl

/-- No member asks for a binding when it is converted. -/
theorem convertFamily_withBindings (s : Subject) (members : MemberSet) :
    ProxySpec.convertFamily (s.withBindings bs) members = ProxySpec.convertFamily s members := by
  funext family
  cases family <;> rfl

end Synthesis.Subject

open Synthesis in
/-- The order of the bindings does not matter to what is generated, nor to what is reported on the way. -/
theorem ProxySpec.synthesize_of_perm {spec : ProxySpec} {bs : List SingletonBinding} (h : spec.profile.Valid)
    (hperm : bs.Perm spec.profile.singletons) :
    { spec with profile := spec.profile.withBindings bs }.synthesize = spec.synthesize := by
  unfold synthesize
  rw [Subject.start_of_perm h hperm]
  dsimp only
  rw [Subject.convertFamily_withBindings]
  rfl

end BoundaryProxy
