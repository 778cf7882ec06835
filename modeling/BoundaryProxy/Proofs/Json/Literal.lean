import BoundaryProxy.Json.Literal

/-!
# `Proofs.Json.Literal` — strings are read back

Between its quotes a string is written character by character, so it is enough that reading takes back one escaped
character at a time (`readString_escape`). A character that must not stand in a string as it is has either an escape
of one letter or, below the blank, one of four digits.
-/

namespace BoundaryProxy.Json

variable {c : Char} {rest : List Char}

theorem settle_none (r : StringRest) : settle none r = r :=
  rfl

/-- Every control character is read back from its digits. -/
theorem hexUnit_control : ∀ n < 0x20, hexUnit '0' '0' (hexDigit (n / 16)) (hexDigit (n % 16)) = some n := by
  decide

/-- A digit escape of a control character is that character. -/
theorem readString_control (hc : c.toNat < 0x20) :
    readString none ('\\' :: 'u' :: '0' :: '0' :: hexDigit (c.toNat / 16) :: hexDigit (c.toNat % 16) :: rest) =
      (readString none rest).map (addChar c) := by
  have hunit := hexUnit_control c.toNat hc
  have hlow : isLowUnit c.toNat = false := by
    simp only [isLowUnit, Bool.and_eq_false_iff, decide_eq_false_iff_not]
    omega
  have hhigh : isHighUnit c.toNat = false := by
    simp only [isHighUnit, Bool.and_eq_false_iff, decide_eq_false_iff_not]
    omega
  rw [readString, hunit]
  simp only [hlow, hhigh, Bool.false_eq_true, if_false, Char.ofNat_toNat, settle_none]

/-- A character that needs no escape stands for itself. -/
theorem readString_plain (hquote : c ≠ '"') (hescape : c ≠ '\\') (hc : ¬ c.toNat < 0x20) :
    readString none (c :: rest) = (readString none rest).map (addChar c) := by
  rw [readString.eq_def]
  -- the reader looks for the end, for escapes of two kinds, and only then for a plain character
  split
  · rename_i heq
    cases heq
  · rename_i heq
    exact absurd (List.cons.inj heq).1 hquote
  · rename_i heq
    exact absurd (List.cons.inj heq).1 hescape
  · rename_i heq
    exact absurd (List.cons.inj heq).1 hescape
  · rename_i heq
    obtain ⟨rfl, rfl⟩ := List.cons.inj heq
    rw [if_neg hc]
    rfl

/-- **One character** is read back from its escape. -/
theorem readString_escape (c : Char) (rest : List Char) :
    readString none (escape c ++ rest) = (readString none rest).map (addChar c) := by
  unfold escape
  split
  -- all cases but the last are escapes of one letter, which are read in one step
  case h_8 hquote hescape _ _ _ _ _ =>
    by_cases hc : c.toNat < 0x20
    · rw [if_pos hc]
      exact readString_control hc
    · rw [if_neg hc]
      exact readString_plain hquote hescape hc
  all_goals rfl

/-- **A string** is read back from what stands behind its opening quote. -/
theorem readString_quoteBody (s rest : List Char) : readString none (quoteBody s ++ rest) = some (some s, rest) := by
  induction s with
  | nil => rfl
  | cons c s ih =>
    have hsplit : quoteBody (c :: s) ++ rest = escape c ++ (quoteBody s ++ rest) := by
      simp only [quoteBody, List.flatMap_cons, List.append_assoc]
    rw [hsplit, readString_escape, ih]
    rfl

end BoundaryProxy.Json
