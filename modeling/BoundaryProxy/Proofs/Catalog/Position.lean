import BoundaryProxy.Proofs.Catalog.Lookup
import Mathlib.Data.Nat.SuccPred
import Mathlib.Order.Bounds.Basic

/-!
# `Proofs.Catalog.Position` — which interface answers for a type

The index stores a position for each type, and is kept up to date from two sides: a list of interfaces is indexed as
a whole, an interface that is added enters its own position. Either way the position stored is the greatest at which
an interface of the type stands (`Pointed`), so

* **`Built.answers_last`**: the interface there is the answer, a type of which there is no interface has none, and an
  addition changes the answer for one type.
-/

namespace BoundaryProxy.Catalog

variable {c : Catalog} {model : Interface} {t : TypeExpr} {i : Nat}

/-! ## Where the interfaces of a type stand -/

/-- The positions at which the interfaces of a type stand. -/
def positionsOf (c : Catalog) (t : TypeExpr) : Set Nat :=
  {i | ∃ model, c.models[i]? = some model ∧ model.type = t}

theorem mem_positionsOf : i ∈ c.positionsOf t ↔ ∃ model, c.models[i]? = some model ∧ model.type = t :=
  Iff.rfl

theorem lt_of_mem_positionsOf (h : i ∈ c.positionsOf t) : i < c.models.length := by
  obtain ⟨model, hmodel, -⟩ := h
  exact (List.getElem?_eq_some_iff.mp hmodel).1

theorem positionsOf_eq_empty_iff : c.positionsOf t = ∅ ↔ ∀ model ∈ c.models, model.type ≠ t := by
  rw [Set.eq_empty_iff_forall_notMem]
  constructor
  · intro h model hmodel htype
    obtain ⟨i, hi⟩ := List.mem_iff_getElem?.mp hmodel
    exact h i ⟨model, hi, htype⟩
  · rintro h i ⟨model, hmodel, htype⟩
    exact h model (List.mem_of_getElem? hmodel) htype

/-- An addition puts one interface behind all others. -/
theorem mem_positionsOf_add : i ∈ (c.add model).positionsOf t ↔
    i ∈ c.positionsOf t ∨ (i = c.models.length ∧ model.type = t) := by
  have hmodels : (c.add model).models = c.models ++ [model] := rfl
  rw [mem_positionsOf, mem_positionsOf, hmodels]
  rcases Nat.lt_trichotomy i c.models.length with hlt | rfl | hgt
  · rw [List.getElem?_append_left hlt]
    have hne : i ≠ c.models.length := Nat.ne_of_lt hlt
    simp [hne]
  · simp
  · have hnone : (c.models ++ [model])[i]? = none := by
      apply List.getElem?_eq_none
      rw [List.length_append, List.length_singleton]
      omega
    have hnone' : c.models[i]? = none := List.getElem?_eq_none (Nat.le_of_lt hgt)
    have hne : i ≠ c.models.length := Nat.ne_of_gt hgt
    simp [hnone, hnone', hne]

/-- What is added stands last of its type. -/
theorem isGreatest_positionsOf_add_self : IsGreatest ((c.add model).positionsOf model.type) c.models.length := by
  constructor
  · exact mem_positionsOf_add.mpr (.inr ⟨rfl, rfl⟩)
  · intro i hi
    rcases mem_positionsOf_add.mp hi with hold | ⟨rfl, -⟩
    · exact Nat.le_of_lt (lt_of_mem_positionsOf hold)
    · exact Nat.le_refl _

/-- For the other types nothing moves. -/
theorem positionsOf_add_of_ne (h : model.type ≠ t) : (c.add model).positionsOf t = c.positionsOf t := by
  ext i
  rw [mem_positionsOf_add]
  simp [h]

/-! ## What the index stores -/

/-- The index stores, for each type, the last position at which an interface of the type stands, and no other. -/
def Pointed (c : Catalog) : Prop :=
  ∀ t i, c.position? t = some i ↔ IsGreatest (c.positionsOf t) i

theorem pointed_empty : (ofModels []).Pointed := by
  intro t i
  have hnone : (ofModels []).position? t = none := Std.HashMap.getElem?_empty
  rw [hnone]
  constructor
  · nofun
  · intro h
    exact absurd (lt_of_mem_positionsOf h.1) (Nat.not_lt_zero i)

theorem Pointed.add (h : c.Pointed) (model : Interface) : (c.add model).Pointed := by
  intro t i
  rw [position?_add]
  by_cases ht : model.type = t
  · subst ht
    rw [if_pos rfl, Option.some.injEq]
    constructor
    · rintro rfl
      exact isGreatest_positionsOf_add_self
    · intro hi
      exact isGreatest_positionsOf_add_self.unique hi
  · rw [if_neg ht, positionsOf_add_of_ne ht]
    exact h t i

theorem Pointed.named (h : c.Pointed) (host : Option TypeExpr) : ({ c with host } : Catalog).Pointed :=
  h

/-- **The index of a catalog**, however the catalog came to be. -/
theorem Built.pointed (h : c.Built) : c.Pointed :=
  h.invariant pointed_empty (fun _ model hc => hc.add model) fun _ host hc => hc.named host

/-! ## What is answered -/

theorem Pointed.position?_eq_none_iff (h : c.Pointed) : c.position? t = none ↔ c.positionsOf t = ∅ := by
  constructor
  · intro hnone
    by_contra hne
    -- positions are bounded, so if there is one there is a last one, and it would be stored
    have hbounded : BddAbove (c.positionsOf t) := ⟨c.models.length, fun i hi => (lt_of_mem_positionsOf hi).le⟩
    obtain ⟨i, hi⟩ := hbounded.exists_isGreatest_of_nonempty (Set.nonempty_iff_ne_empty.mpr hne)
    rw [(h t i).mpr hi] at hnone
    cases hnone
  · intro hempty
    cases hi : c.position? t with
    | none => rfl
    | some i =>
      have hmem := ((h t i).mp hi).1
      rw [hempty] at hmem
      exact absurd hmem (Set.notMem_empty i)

/-- The interface at the last position of its type answers. -/
theorem Pointed.get?_eq_some_iff (h : c.Pointed) :
    c.get? t = some model ↔ ∃ i, IsGreatest (c.positionsOf t) i ∧ c.models[i]? = some model := by
  rw [get?, Option.bind_eq_some_iff]
  exact exists_congr fun i => and_congr_left' (h t i)

theorem Pointed.get?_eq_none_iff (h : c.Pointed) : c.get? t = none ↔ ∀ model ∈ c.models, model.type ≠ t := by
  rw [← positionsOf_eq_empty_iff, ← h.position?_eq_none_iff]
  constructor
  · intro hnone
    cases hi : c.position? t with
    | none => rfl
    | some i =>
      obtain ⟨model, hmodel, -⟩ := ((h t i).mp hi).1
      rw [h.get?_eq_some_iff.mpr ⟨i, (h t i).mp hi, hmodel⟩] at hnone
      cases hnone
  · intro hnone
    rw [get?, hnone]
    rfl

theorem Pointed.get?_add (h : c.Pointed) (model : Interface) (t : TypeExpr) :
    (c.add model).get? t = if model.type = t then some model else c.get? t := by
  by_cases ht : model.type = t
  · subst ht
    rw [if_pos rfl]
    exact (h.add model).get?_eq_some_iff.mpr ⟨_, isGreatest_positionsOf_add_self, List.getElem?_concat_length⟩
  · rw [if_neg ht]
    apply Option.ext
    intro found
    rw [(h.add model).get?_eq_some_iff, h.get?_eq_some_iff, positionsOf_add_of_ne ht]
    -- the position is one of the catalog before, where the list has not changed
    refine exists_congr fun i => and_congr_right fun hi => ?_
    have hlt := lt_of_mem_positionsOf hi.1
    have hsame : (c.add model).models[i]? = c.models[i]? := List.getElem?_append_left hlt
    rw [hsame]

/-- **The last interface of a type answers for it**, in every catalog that is made of a list of interfaces or read from
    a text, also one with types that repeat, and then added to and given a host in any order. The position stored is
    the greatest at which an interface of the type stands, and the answer is the interface there. There is no answer
    exactly if no interface has the type. No position that is stored lies outside the list. An addition changes the
    answer for the type of what is added and for no other. -/
theorem Built.answers_last (h : c.Built) :
    (∀ t i, c.position? t = some i ↔ IsGreatest (c.positionsOf t) i) ∧
    (∀ t model, c.get? t = some model ↔ ∃ i, IsGreatest (c.positionsOf t) i ∧ c.models[i]? = some model) ∧
    (∀ t, c.get? t = none ↔ ∀ model ∈ c.models, model.type ≠ t) ∧
    (∀ entry ∈ c.index.toList, entry.2 < c.models.length) ∧
    (∀ model t, (c.add model).get? t = if model.type = t then some model else c.get? t) := by
  have hpointed := h.pointed
  refine ⟨hpointed, fun _ _ => hpointed.get?_eq_some_iff, fun _ => hpointed.get?_eq_none_iff, ?_,
    hpointed.get?_add⟩
  rintro ⟨t, i⟩ hentry
  have hstored : c.position? t = some i := Std.HashMap.mem_toList_iff_getElem?_eq_some.mp hentry
  exact lt_of_mem_positionsOf ((hpointed t i).mp hstored).1

/-- Notes stand twice in the list and decks once; another deck is added after the host is named. -/
theorem answers_last_decks :
    let note : Interface := { type := .named "Ns.INote" }
    let titled : Interface := note.addProperty ⟨"Title", .named "System.String", true, false⟩
    let deck : Interface := { type := .named "Ns.IDeck" }
    let sorted : Interface := deck.addMethod ⟨"Sort", [], .void, false⟩
    let c := (ofModels [note, deck, titled]).withHost (.named "Ns.IHost")
    (c.add sorted).Built ∧
      IsGreatest ((c.add sorted).positionsOf note.type) 2 ∧ (c.add sorted).get? note.type = some titled ∧
      IsGreatest ((c.add sorted).positionsOf deck.type) 3 ∧ (c.add sorted).get? deck.type = some sorted ∧
      c.get? deck.type = some deck ∧ (c.add sorted).get? (.named "Ns.IHost") = none := by
  intro note titled deck sorted c
  have hbuilt : c.Built := .withHost _ (.ofModels _)
  obtain ⟨hposition, hget, hnone, -, -⟩ := Built.answers_last (hbuilt.add sorted)
  obtain ⟨hposition', hget', -, -, hadd⟩ := Built.answers_last hbuilt
  have hnotes : IsGreatest ((c.add sorted).positionsOf note.type) 2 := (hposition _ _).mp (by cbv)
  have hdecks : IsGreatest ((c.add sorted).positionsOf deck.type) 3 := (hposition _ _).mp (by cbv)
  have hdecks' : IsGreatest (c.positionsOf deck.type) 1 := (hposition' _ _).mp (by cbv)
  have hsame : sorted.type = deck.type := rfl
  refine ⟨hbuilt.add sorted, hnotes, (hget _ _).mpr ⟨2, hnotes, rfl⟩, hdecks, ?_, ?_, ?_⟩
  · rw [hadd, if_pos hsame]
  · exact (hget' _ _).mpr ⟨1, hdecks', rfl⟩
  · apply (hnone _).mpr
    decide

end BoundaryProxy.Catalog
