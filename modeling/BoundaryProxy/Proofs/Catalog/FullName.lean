import BoundaryProxy.Proofs.Catalog.Lookup
import BoundaryProxy.Proofs.TypeExpr.RoundTrip

/-!
# `Proofs.Catalog.FullName` — which interface a full name means

The written form of a type tells it from all others (`text_injective`), but a name given by a user may leave the
arguments away, so the text of a type without arguments and brackets also means every type that is made of its name
(`name_eq_text_iff`). All of these count alike and the first interface in the list answers:

* **`Built.find?_text_eq_get?`**: an interface is found by the text of its type unless one before it has that text for
  its name without arguments, and all are found whatever the order exactly if none is the definition of another.
* `find?_text_shadowed`: so a definition that stands behind a type made of it is not found by its full name.
-/

namespace BoundaryProxy

/-! ## Written forms -/

namespace TypeExpr

variable {t t' : TypeExpr}

theorem text_named (name : String) : (named name).text = name := by
  have hbrackets : brackets (0 : Fin 256).val = "" := rfl
  rw [named, text, argsText, hbrackets, String.append_empty, String.append_empty]

theorem WellNamed.named (h : WellNamed t) : WellNamed (named t.name) := by
  cases h with
  | intro hname _ => exact .intro hname fun _ hmem => absurd hmem List.not_mem_nil

/-- Types with names throughout are told apart by their written forms. -/
theorem text_injective (h : WellNamed t) (h' : WellNamed t') (heq : t.text = t'.text) : t = t' := by
  have hread : parse t.text = .ok t := parse_text h
  rw [heq, parse_text h'] at hread
  exact (Except.ok.inj hread).symm

/-- The name of a definition is the written form of no type but the definition itself. -/
theorem name_eq_text_iff (h : WellNamed t) (h' : WellNamed t') : t'.name = t.text ↔ t = named t'.name := by
  constructor
  · intro heq
    apply text_injective h h'.named
    rw [text_named, heq]
  · intro heq
    rw [heq, text_named]

end TypeExpr

namespace Catalog

variable {c : Catalog} {m : Interface} {front back : List Interface}

/-! ## Full names -/

/-- The text of a type is the full name of the interfaces of the type and of those whose type is made of it. -/
theorem hasFullName_text_iff {model : Interface} (h : m.type.WellNamed) (hmodel : model.type.WellNamed) :
    hasFullName m.type.text model = true ↔ model.type = m.type ∨ m.type = .named model.type.name := by
  rw [hasFullName, Bool.or_eq_true, beq_iff_eq, beq_iff_eq, TypeExpr.name_eq_text_iff h hmodel, or_comm]
  refine or_congr_left ?_
  constructor
  · intro heq
    exact TypeExpr.text_injective hmodel h heq
  · intro heq
    rw [heq]

/-- An interface with a full name is looked for by that alone, not by simple names. -/
theorem find?_text (hm : m ∈ c.models) : c.find? m.type.text = c.models.find? (hasFullName m.type.text) := by
  have hself : hasFullName m.type.text m = true := by simp [hasFullName]
  have hsome : (c.models.find? (hasFullName m.type.text)).isSome := List.find?_isSome.mpr ⟨m, hm, hself⟩
  rw [find?, Option.or_of_isSome hsome]

/-- **An interface is found** by the text of its type exactly if no interface before it goes by that text. -/
theorem find?_text_eq_some_iff (hnodup : (c.models.map (·.type)).Nodup)
    (hnamed : ∀ model ∈ c.models, model.type.WellNamed) (hsplit : c.models = front ++ m :: back) :
    c.find? m.type.text = some m ↔ ∀ earlier ∈ front, m.type ≠ .named earlier.type.name := by
  have hm : m ∈ c.models := hsplit ▸ List.mem_append_right front List.mem_cons_self
  have hself : hasFullName m.type.text m = true := by simp [hasFullName]
  have hfront : ∀ earlier ∈ front, earlier.type ≠ m.type := by
    intro earlier hearlier heq
    rw [hsplit] at hnodup
    exact not_mem_of_nodup_map hnodup (List.mem_map.mpr ⟨earlier, hearlier, heq⟩)
  have hgoes : ∀ earlier ∈ front,
      (hasFullName m.type.text earlier = true ↔ m.type = .named earlier.type.name) := by
    intro earlier hearlier
    have hmem : earlier ∈ c.models := hsplit ▸ List.mem_append_left _ hearlier
    rw [hasFullName_text_iff (hnamed m hm) (hnamed earlier hmem), or_iff_right (hfront earlier hearlier)]
  rw [find?_text hm, hsplit, List.find?_append, List.find?_cons_of_pos hself]
  cases hfound : front.find? (hasFullName m.type.text) with
  | none =>
    refine iff_of_true rfl fun earlier hearlier heq => ?_
    exact List.find?_eq_none.mp hfound earlier hearlier ((hgoes earlier hearlier).mpr heq)
  | some earlier =>
    have hearlier := List.mem_of_find?_eq_some hfound
    refine iff_of_false ?_ fun h => h earlier hearlier ((hgoes earlier hearlier).mp (List.find?_some hfound))
    -- what answers is of another type
    intro heq
    obtain rfl : earlier = m := Option.some.inj heq
    exact hfront earlier hearlier rfl

/-- What stands first is found by its own name without arguments, whatever else has that name. -/
theorem find?_of_head {model : Interface} {rest : List Interface} (hmodels : c.models = model :: rest) :
    c.find? model.type.name = some model := by
  have hself : hasFullName model.type.name model = true := by simp [hasFullName]
  rw [find?, hmodels, List.find?_cons_of_pos hself]
  rfl

/-- What is looked up by its type is the one interface of the type. -/
theorem Built.get?_of_mem (h : c.Built) (hnodup : (c.models.map (·.type)).Nodup) (hm : m ∈ c.models) :
    c.get? m.type = some m := by
  have hnodup' : (c.models.reverse.map (·.type)).Nodup := by
    rw [List.map_reverse]
    exact List.nodup_reverse.mpr hnodup
  rw [h.get?_eq]
  exact (find?_key_eq_some_iff hnodup').mpr ⟨List.mem_reverse.mpr hm, rfl⟩

/-- **Which interface a full name means.** Let the types of a catalog's interfaces be distinct and their names be names.
    Each interface is the one that is looked up by its type, and by the text of its type the same is found unless an
    interface before it has that text for the name of its definition; so a type with arguments or brackets is found
    always. All interfaces are found in every order of the list exactly if none is the definition of another. -/
theorem Built.find?_text_eq_get? (h : c.Built) (hnodup : (c.models.map (·.type)).Nodup)
    (hnamed : ∀ model ∈ c.models, model.type.WellNamed) :
    (∀ front m back, c.models = front ++ m :: back → c.get? m.type = some m ∧
      (c.find? m.type.text = c.get? m.type ↔ ∀ earlier ∈ front, m.type ≠ .named earlier.type.name)) ∧
    ((∀ c' : Catalog, c'.Built → c'.models.Perm c.models → ∀ m ∈ c.models,
        c'.get? m.type = some m ∧ c'.find? m.type.text = some m) ↔
      ∀ m ∈ c.models, ∀ other ∈ c.models, m.type = .named other.type.name → other = m) := by
  constructor
  · intro front m back hsplit
    have hm : m ∈ c.models := hsplit ▸ List.mem_append_right front List.mem_cons_self
    have hget := h.get?_of_mem hnodup hm
    refine ⟨hget, ?_⟩
    rw [hget]
    exact find?_text_eq_some_iff hnodup hnamed hsplit
  constructor
  · intro hall m hm other hother heq
    -- in the order that puts the other one first, the text is taken for its name
    have hperm : (other :: c.models.erase other).Perm c.models := (List.perm_cons_erase hother).symm
    have hfound := (hall (.ofModels _) (.ofModels _) hperm m hm).2
    have htext : other.type.name = m.type.text :=
      (TypeExpr.name_eq_text_iff (hnamed m hm) (hnamed other hother)).mpr heq
    rw [← htext, find?_of_head rfl] at hfound
    exact Option.some.inj hfound
  · intro hone c' h' hperm m hm
    have hnodup' : (c'.models.map (·.type)).Nodup := (hperm.map _).nodup_iff.mpr hnodup
    have hnamed' : ∀ model ∈ c'.models, model.type.WellNamed := fun model hmodel =>
      hnamed model (hperm.mem_iff.mp hmodel)
    have hm' : m ∈ c'.models := hperm.mem_iff.mpr hm
    obtain ⟨front, back, hsplit⟩ := List.append_of_mem hm'
    refine ⟨h'.get?_of_mem hnodup' hm', (find?_text_eq_some_iff hnodup' hnamed' hsplit).mpr ?_⟩
    intro earlier hearlier heq
    have hmem : earlier ∈ c'.models := hsplit ▸ List.mem_append_left _ hearlier
    have hsame : earlier = m := hone m hm earlier (hperm.mem_iff.mp hmem) heq
    rw [hsplit] at hnodup'
    exact not_mem_of_nodup_map hnodup' (List.mem_map.mpr ⟨earlier, hearlier, congrArg _ hsame⟩)

/-- A definition, -/
def box : Interface :=
  { type := .named "Ns.IBox" }

/-- what it is applied to, -/
def boxOfInt : Interface :=
  { type := .generic "Ns.IBox" [.int] }

/-- and its array. -/
def boxRow : Interface :=
  { type := (TypeExpr.named "Ns.IBox").array }

theorem wellNamed_boxes : ∀ model ∈ [box, boxOfInt, boxRow], model.type.WellNamed := by
  have hparse : ∀ model ∈ [box, boxOfInt, boxRow], TypeExpr.parse model.type.text = .ok model.type := by
    decide +kernel
  intro model hmodel
  exact (TypeExpr.compact_of_parse (hparse model hmodel)).1

/-- With the definition in front all three are found. -/
theorem find?_text_boxes :
    let c := ofModels [box, boxOfInt, boxRow]
    c.Built ∧ (c.models.map (·.type)).Nodup ∧ (∀ model ∈ c.models, model.type.WellNamed) ∧
      c.find? box.type.text = some box ∧ c.find? boxOfInt.type.text = some boxOfInt ∧
      c.find? boxRow.type.text = some boxRow := by
  intro c
  have hbuilt : c.Built := .ofModels _
  have hnodup : (c.models.map (·.type)).Nodup := by decide
  obtain ⟨hfound, -⟩ := hbuilt.find?_text_eq_get? hnodup wellNamed_boxes
  obtain ⟨hget, hbox⟩ := hfound [] box [boxOfInt, boxRow] rfl
  obtain ⟨hget', hint⟩ := hfound [box] boxOfInt [boxRow] rfl
  obtain ⟨hget'', hrow⟩ := hfound [box, boxOfInt] boxRow [] rfl
  exact ⟨hbuilt, hnodup, wellNamed_boxes, (hbox.mpr (by decide)).trans hget, (hint.mpr (by decide)).trans hget',
    (hrow.mpr (by decide)).trans hget''⟩

/-- **A full name may mean another interface.** The boxes of numbers stand before the boxes and answer for both. -/
theorem find?_text_shadowed :
    let c := ofModels [boxOfInt, box]
    c.Built ∧ (c.models.map (·.type)).Nodup ∧ (∀ model ∈ c.models, model.type.WellNamed) ∧ box ∈ c.models ∧
      c.get? box.type = some box ∧ c.find? box.type.text = some boxOfInt ∧ boxOfInt ≠ box := by
  intro c
  have hbuilt : c.Built := .ofModels _
  have hnodup : (c.models.map (·.type)).Nodup := by decide
  have hbox : box ∈ c.models := by decide
  have hnamed : ∀ model ∈ c.models, model.type.WellNamed := by
    have hsub : ∀ model ∈ c.models, model ∈ [box, boxOfInt, boxRow] := by decide
    exact fun model hmodel => wellNamed_boxes model (hsub model hmodel)
  have htext : boxOfInt.type.name = box.type.text := (TypeExpr.text_named _).symm
  have hfound : c.find? box.type.text = some boxOfInt := htext ▸ find?_of_head rfl
  exact ⟨hbuilt, hnodup, hnamed, hbox, hbuilt.get?_of_mem hnodup hbox, hfound, by decide⟩

end Catalog

end BoundaryProxy
