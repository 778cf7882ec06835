import BoundaryProxy.Text.Numeral

/-!
# `Proofs.Text.Identifier` — identifiers, and numbers behind them

`IsIdentifier` says of a text what the test of its characters decides (`isIdentifier_iff`). The ten digits stand at the
start of the table of numerals, so a number may be written behind an identifier (`IsIdentifier.append_number`): the
result begins as the identifier does, and only numerals are added.
-/

namespace BoundaryProxy.Text

/-- A text is a letter or an underscore and, behind it, letters, numerals and underscores. -/
def IsIdentifier (s : String) : Prop :=
  ∃ first rest, s.toList = first :: rest ∧ (isLetter first = true ∨ first = '_') ∧
    ∀ c ∈ rest, isLetter c = true ∨ isNumeral c = true ∨ c = '_'

theorem startsIdentifier_iff {c : Char} : startsIdentifier c = true ↔ isLetter c = true ∨ c = '_' := by
  rw [startsIdentifier, Bool.or_eq_true, beq_iff_eq]

theorem continuesIdentifier_iff {c : Char} :
    continuesIdentifier c = true ↔ isLetter c = true ∨ isNumeral c = true ∨ c = '_' := by
  rw [continuesIdentifier, isAlphanumeric, Bool.or_eq_true, Bool.or_eq_true, beq_iff_eq, or_assoc]

/-- **The test for identifiers** accepts exactly the identifiers. -/
theorem isIdentifier_iff {s : String} : isIdentifier s = true ↔ IsIdentifier s := by
  unfold isIdentifier IsIdentifier
  cases s.toList with
  | nil => simp
  | cons first rest =>
    simp only [Bool.and_eq_true, List.all_eq_true, startsIdentifier_iff, continuesIdentifier_iff]
    constructor
    · rintro ⟨hfirst, hrest⟩
      exact ⟨first, rest, rfl, hfirst, hrest⟩
    · rintro ⟨_, _, hlist, hfirst, hrest⟩
      obtain ⟨rfl, rfl⟩ := List.cons.inj hlist
      exact ⟨hfirst, hrest⟩

/-- A digit lies in the first range of the numerals. -/
theorem isNumeral_of_isDigit {c : Char} (h : c.isDigit = true) : isNumeral c = true := by
  obtain ⟨hzero, hnine⟩ : '0'.toNat ≤ c.toNat ∧ c.toNat ≤ '9'.toNat := by
    simpa [Char.isDigit, UInt32.le_iff_toNat_le] using h
  show (if c.toNat < '0'.toNat then false else decide (c.toNat ≤ '9'.toNat) || CharClass.covers _ c.toNat) = true
  rw [if_neg (Nat.not_lt.mpr hzero), decide_eq_true hnine, Bool.true_or]

/-- **A number behind an identifier** makes an identifier. -/
theorem IsIdentifier.append_number {s : String} (h : IsIdentifier s) (n : Nat) : IsIdentifier (s ++ toString n) := by
  obtain ⟨first, rest, hlist, hfirst, hrest⟩ := h
  refine ⟨first, rest ++ Nat.toDigits 10 n, ?_, hfirst, List.forall_mem_append.mpr ⟨hrest, fun c hc => ?_⟩⟩
  · rw [String.toList_append, hlist, Nat.toString_eq_ofList_toDigits, String.toList_ofList, List.cons_append]
  · exact .inr (.inl (isNumeral_of_isDigit (Nat.isDigit_of_mem_toDigits (by decide) (by decide) hc)))

end BoundaryProxy.Text
