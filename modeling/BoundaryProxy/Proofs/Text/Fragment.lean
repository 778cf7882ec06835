import BoundaryProxy.Text.Fragment
import Mathlib.Data.List.Infix

/-!
# `Proofs.Text.Fragment` — parts of a text

What the two tests on texts decide: a text begins with another if something can be put behind the other to make it
(`beginsWith_iff`), and has another as a part if something can be put around the other (`hasFragment_iff`).
-/

namespace BoundaryProxy.Text

variable {fragment s : String}

theorem hasPart_iff {part cs : List Char} : hasPart part cs = true ↔ part <:+: cs := by
  induction cs with
  | nil => rw [hasPart, List.isEmpty_iff, List.infix_nil]
  | cons c rest ih => rw [hasPart, Bool.or_eq_true, List.isPrefixOf_iff_prefix, ih, List.infix_cons_iff]

/-- **A fragment** is a text that stands between two others. -/
theorem hasFragment_iff : hasFragment fragment s = true ↔ ∃ before after, s = before ++ fragment ++ after := by
  unfold hasFragment
  rw [hasPart_iff]
  constructor
  · rintro ⟨before, after, h⟩
    refine ⟨String.ofList before, String.ofList after, String.toList_inj.mp ?_⟩
    rw [String.toList_append, String.toList_append, String.toList_ofList, String.toList_ofList, h]
  · rintro ⟨before, after, rfl⟩
    exact ⟨before.toList, after.toList, by rw [String.toList_append, String.toList_append]⟩

/-- A text begins with another if it is the other with something behind it. -/
theorem beginsWith_iff {start : String} : beginsWith start s = true ↔ ∃ after, s = start ++ after := by
  unfold beginsWith
  rw [List.isPrefixOf_iff_prefix]
  constructor
  · rintro ⟨after, h⟩
    refine ⟨String.ofList after, String.toList_inj.mp ?_⟩
    rw [String.toList_append, String.toList_ofList, h]
  · rintro ⟨after, rfl⟩
    exact ⟨after.toList, String.toList_append.symm⟩

end BoundaryProxy.Text
