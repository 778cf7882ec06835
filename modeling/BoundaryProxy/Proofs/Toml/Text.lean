import BoundaryProxy.Toml.Text
import Mathlib.Data.List.Basic

/-!
# `Proofs.Toml.Text` — strings are read back

Whichever of the four ways a text is written in, it is read back from there (`readString_writeIn`). With escapes every
text can be written, on one line or on several; literally only the texts that have no character to be hidden, and no
quote or no long run of quotes.

On several lines the quotes that end a string may come right after quotes of its text. Up to two of those are read
together with the closing ones, so both inductions carry the run of quotes that was written and not yet read.
-/

namespace BoundaryProxy.Toml

variable {c : Char} {s rest : List Char} {severalLines : Bool} {quotes run : Nat}

/-! ## Characters -/

/-- What a character other than the double quote is written as where escapes are read. -/
def shown (severalLines : Bool) (c : Char) : List Char :=
  match c with
  | '\x08' => ['\\', 'b']
  | '\t' => ['\\', 't']
  | '\n' => if severalLines then ['\n'] else ['\\', 'n']
  | '\x0c' => ['\\', 'f']
  | '\r' => ['\\', 'r']
  | '\\' => ['\\', '\\']
  | c => if needsEscape c then numberEscape c else [c]

theorem escapeText_cons (hc : c ≠ '"') :
    escapeText severalLines quotes run (c :: s) = shown severalLines c ++ escapeText severalLines quotes 0 s := by
  rw [escapeText.eq_def]
  split
  · rename_i heq
    cases heq
  · rename_i heq
    exact absurd (List.cons.inj heq).1 hc
  · rename_i heq
    obtain ⟨rfl, rfl⟩ := List.cons.inj heq
    rfl

/-- A character that can stand in a text is plain or a line break. -/
theorem isPlain_of_not_needsEscape (h : needsEscape c = false) : isPlain c = true ∨ c = '\n' := by
  simp only [needsEscape, isPlain, Bool.or_eq_false_iff, Bool.and_eq_false_iff, decide_eq_false_iff_not,
    beq_eq_false_iff_ne, bne_eq_false_iff_eq, Bool.or_eq_true, Bool.and_eq_true, decide_eq_true_eq, bne_iff_ne,
    beq_iff_eq] at h ⊢
  obtain ⟨(hlow | rfl) | rfl, hdelete⟩ := h
  · exact .inl (.inl ⟨by omega, hdelete⟩)
  · exact .inl (.inr rfl)
  · exact .inr rfl

theorem ne_return (h : needsEscape c = false) : c ≠ '\r' := by
  rintro rfl
  exact absurd h (by decide)

/-- A character that is hidden is read back from its number. -/
theorem numberedChar_hidden (h : needsEscape c = true) :
    numberedChar ['0', '0', hexDigit (c.toNat / 16), hexDigit (c.toNat % 16)] = some c := by
  have hall : ∀ n < 0x80, numberedChar ['0', '0', hexDigit (n / 16), hexDigit (n % 16)] = some (Char.ofNat n) := by
    decide +kernel
  have hlow : c.toNat < 0x80 := by
    simp only [needsEscape, Bool.or_eq_true, Bool.and_eq_true, decide_eq_true_eq, beq_iff_eq] at h
    omega
  rw [hall c.toNat hlow, Char.ofNat_toNat]

/-- What a character is written as begins with no quote, and with a line break only if it is one. -/
theorem exists_shown (severalLines : Bool) (hc : c ≠ '"') : ∃ first more,
    shown severalLines c = first :: more ∧ first ≠ '"' ∧ first ≠ '\r' ∧ (c ≠ '\n' → first ≠ '\n') := by
  unfold shown
  split
  case h_3 =>
    cases severalLines with
    | true => exact ⟨_, _, rfl, by decide, by decide, fun h => absurd rfl h⟩
    | false => exact ⟨_, _, rfl, by decide, by decide, fun _ => by decide⟩
  case h_7 hbreak _ hreturn _ =>
    split
    · exact ⟨_, _, rfl, by decide, by decide, fun _ => by decide⟩
    · exact ⟨_, _, rfl, hc, hreturn, fun h => h⟩
  all_goals exact ⟨_, _, rfl, by decide, by decide, fun _ => by decide⟩

/-! ## Escapes -/

/-- A reader of a text with escapes takes a character that needs none for itself, an escape of one letter for what the
    letter stands for, and the number of a character for the character. Line breaks stand for themselves where the
    text is on several lines. -/
structure TakesEscapes (severalLines : Bool) (read : List Char → Option (List Char × List Char)) : Prop where
  plain : ∀ c rest, c ≠ '"' → c ≠ '\\' → c ≠ '\r' → isPlain c = true ∨ severalLines = true ∧ c = '\n' →
    read (c :: rest) = (read rest).map (addChar c)
  letter : ∀ letter c rest, shortEscape letter = some c →
    read ('\\' :: letter :: rest) = (read rest).map (addChar c)
  number : ∀ digit₁ digit₂ digit₃ digit₄ c rest, numberedChar [digit₁, digit₂, digit₃, digit₄] = some c →
    read ('\\' :: 'u' :: digit₁ :: digit₂ :: digit₃ :: digit₄ :: rest) = (read rest).map (addChar c)

/-- **One character** is read back from what it is written as. -/
theorem TakesEscapes.shown {read : List Char → Option (List Char × List Char)} (h : TakesEscapes severalLines read)
    (hc : c ≠ '"') : read (Toml.shown severalLines c ++ rest) = (read rest).map (addChar c) := by
  unfold Toml.shown
  split
  case h_3 =>
    cases severalLines with
    | true => exact h.plain '\n' rest (by decide) (by decide) (by decide) (.inr ⟨rfl, rfl⟩)
    | false => exact h.letter 'n' '\n' rest rfl
  case h_7 hbreak _ hreturn hescape =>
    by_cases hhidden : needsEscape c = true
    · rw [if_pos hhidden]
      exact h.number _ _ _ _ c rest (numberedChar_hidden hhidden)
    · have hplain := isPlain_of_not_needsEscape (Bool.eq_false_iff.mpr hhidden)
      rw [if_neg hhidden]
      exact h.plain c rest hc hescape hreturn (.inl (hplain.resolve_right hbreak))
  all_goals exact h.letter _ _ rest rfl

/-! ## One line -/

theorem takesEscapes_basic : TakesEscapes false readBasic where
  plain := by
    intro c rest hquote hescape _ hc
    have hplain : isPlain c = true := hc.resolve_right fun h => Bool.false_ne_true h.1
    rw [readBasic.eq_def]
    split
    case h_6 heq =>
      obtain ⟨rfl, rfl⟩ := List.cons.inj heq
      rw [if_pos hplain]
    case h_1 heq => cases heq
    case h_2 heq => exact absurd (List.cons.inj heq).1 hquote
    all_goals
      rename_i heq
      exact absurd (List.cons.inj heq).1 hescape
  letter := by
    intro letter c rest h
    rw [readBasic, h]
    · cases readBasic rest <;> rfl
    -- the letter is not one that begins a number
    · rintro _ _ _ _ _ rfl _
      cases h
    · rintro _ _ _ _ _ _ _ _ _ rfl _
      cases h
  number := by
    intro _ _ _ _ c rest h
    rw [readBasic, h]
    cases readBasic rest <;> rfl

/-- **A text with escapes** is read back from its one line. -/
theorem readBasic_escapeText (s rest : List Char) :
    readBasic (escapeText false 0 0 s ++ '"' :: rest) = some (s, rest) := by
  induction s with
  | nil => rfl
  | cons c s ih =>
    by_cases hc : c = '"'
    · subst hc
      show readBasic ('\\' :: '"' :: (escapeText false 0 0 s ++ '"' :: rest)) = _
      rw [takesEscapes_basic.letter '"' '"' _ rfl, ih]
      rfl
    · rw [escapeText_cons hc, List.append_assoc, takesEscapes_basic.shown hc, ih]
      rfl

/-- A literal text without single quotes and line breaks is read back from its one line. -/
theorem readLiteral_append (hplain : ∀ c ∈ s, isPlain c = true) (hquote : '\'' ∉ s) (rest : List Char) :
    readLiteral (s ++ '\'' :: rest) = some (s, rest) := by
  induction s with
  | nil => rfl
  | cons c s ih =>
    obtain ⟨hc, hs⟩ := List.forall_mem_cons.mp hplain
    obtain ⟨hne, hmem⟩ := not_or.mp (List.mem_cons.not.mp hquote)
    rw [List.cons_append, readLiteral, if_pos hc, ih hs hmem]
    · rfl
    · exact fun h => hne h.symm

/-! ## Quotes on several lines -/

/-- A reader of several lines takes a quote for one of the text if less than two follow it, and the quotes of the text
    that stand right before the closing ones together with these. -/
structure TakesQuotes (quote : Char) (read : List Char → Option (List Char × List Char)) : Prop where
  inner : ∀ rest, (∀ after, rest ≠ quote :: quote :: after) → read (quote :: rest) = (read rest).map (addChar quote)
  close : ∀ run rest, run ≤ 2 → (∀ after, rest ≠ quote :: after) →
    read (List.replicate run quote ++ quote :: quote :: quote :: rest) = some (List.replicate run quote, rest)

/-- A short run of quotes that something else follows belongs to the text. -/
theorem TakesQuotes.replicate {quote : Char} {read : List Char → Option (List Char × List Char)}
    (h : TakesQuotes quote read) (hrun : run ≤ 2) (hc : c ≠ quote) :
    read (List.replicate run quote ++ c :: rest) =
      (read (c :: rest)).map fun r => (List.replicate run quote ++ r.1, r.2) := by
  induction run with
  | zero => exact (congrFun Option.map_id _).symm
  | succ run ih =>
    have hfew : ∀ after, List.replicate run quote ++ c :: rest ≠ quote :: quote :: after := by
      obtain rfl | rfl : run = 0 ∨ run = 1 := by omega
      · exact fun after heq => hc (List.cons.inj heq).1
      · exact fun after heq => hc (List.cons.inj (List.cons.inj heq).2).1
    rw [List.replicate_succ, List.cons_append, h.inner _ hfew, ih (by omega), Option.map_map]
    rfl

/-- A run of quotes with one more behind it. -/
theorem replicate_append_cons (run : Nat) (c : Char) (s : List Char) :
    List.replicate run c ++ c :: s = List.replicate (run + 1) c ++ s := by
  rw [List.replicate_succ', List.append_assoc, List.singleton_append]

/-! ## Several lines, with escapes -/

theorem takesEscapes_basicLines : TakesEscapes true (readBasicLines false) where
  plain := by
    intro c rest hquote hescape hreturn hc
    rw [readBasicLines.eq_def]
    split
    case h_10 heq =>
      obtain ⟨rfl, rfl⟩ := List.cons.inj heq
      rw [Bool.false_and, if_neg Bool.false_ne_true, if_pos]
      simpa using hc
    case h_1 heq => cases heq
    case h_9 heq => exact absurd (List.cons.inj heq).1 hreturn
    case h_6 heq => exact absurd (List.cons.inj heq).1 hescape
    case h_7 heq => exact absurd (List.cons.inj heq).1 hescape
    case h_8 heq => exact absurd (List.cons.inj heq).1 hescape
    all_goals
      rename_i heq
      exact absurd (List.cons.inj heq).1 hquote
  letter := by
    intro letter c rest h
    rw [readBasicLines, h]
    · rintro _ _ _ _ _ rfl _
      cases h
    · rintro _ _ _ _ _ _ _ _ _ rfl _
      cases h
  number := by
    intro _ _ _ _ c rest h
    rw [readBasicLines, h]
    cases readBasicLines false rest <;> rfl

theorem takesQuotes_basicLines : TakesQuotes '"' (readBasicLines false) where
  inner := by
    intro rest h
    rw [readBasicLines]
    all_goals exact fun _ => h _
  close := by
    intro run rest hrun hrest
    obtain rfl | rfl | rfl : run = 0 ∨ run = 1 ∨ run = 2 := by omega
    · show readBasicLines false ('"' :: '"' :: '"' :: rest) = _
      rw [readBasicLines]
      · rfl
      all_goals exact fun _ => hrest _
    · show readBasicLines false ('"' :: '"' :: '"' :: '"' :: rest) = _
      rw [readBasicLines]
      · rfl
      · exact fun _ => hrest _
    · rfl

/-- **A text with escapes** is read back from its several lines. -/
theorem readBasicLines_escapeText (hrun : run ≤ 2) (hrest : ∀ after, rest ≠ '"' :: after) (s : List Char) :
    readBasicLines false (List.replicate run '"' ++ (escapeText true 2 run s ++ '"' :: '"' :: '"' :: rest)) =
      some (List.replicate run '"' ++ s, rest) := by
  induction s generalizing run with
  | nil =>
    rw [escapeText, List.nil_append, List.append_nil]
    exact takesQuotes_basicLines.close run rest hrun hrest
  | cons c s ih =>
    -- behind the run the text goes on with no quote, and what comes then follows no run
    have hzero := ih (Nat.zero_le 2)
    rw [List.replicate_zero, List.nil_append, List.nil_append] at hzero
    by_cases hc : c = '"'
    · subst hc
      rw [escapeText]
      by_cases hlong : 2 ≤ run
      · rw [if_pos hlong, List.cons_append, List.cons_append, takesQuotes_basicLines.replicate hrun (by decide),
          takesEscapes_basicLines.letter '"' '"' _ rfl, hzero]
        rfl
      · -- a quote that is written as it is joins the run
        rw [if_neg hlong, List.cons_append, replicate_append_cons, replicate_append_cons]
        exact ih (by omega)
    · obtain ⟨first, more, hshown, hfirst, -⟩ := exists_shown true hc
      rw [escapeText_cons hc, List.append_assoc, hshown, List.cons_append, takesQuotes_basicLines.replicate hrun hfirst,
        ← List.cons_append, ← hshown, takesEscapes_basicLines.shown hc, hzero]
      rfl

/-! ## Several lines, literally -/

theorem readLiteralLines_plain (hquote : c ≠ '\'') (hreturn : c ≠ '\r') (hc : isPlain c = true ∨ c = '\n') :
    readLiteralLines (c :: rest) = (readLiteralLines rest).map (addChar c) := by
  rw [readLiteralLines.eq_def]
  split
  case h_6 heq =>
    obtain ⟨rfl, rfl⟩ := List.cons.inj heq
    rw [if_pos]
    simpa using hc
  case h_1 heq => cases heq
  case h_5 heq => exact absurd (List.cons.inj heq).1 hreturn
  all_goals
    rename_i heq
    exact absurd (List.cons.inj heq).1 hquote

theorem takesQuotes_literalLines : TakesQuotes '\'' readLiteralLines where
  inner := by
    intro rest h
    rw [readLiteralLines]
    · rfl
    · exact fun _ _ heq => h _ heq
    · exact fun _ _ heq => h _ heq
    · exact fun _ _ heq => h _ heq
    · exact fun _ heq => absurd heq (by decide)
  close := by
    intro run rest hrun hrest
    obtain rfl | rfl | rfl : run = 0 ∨ run = 1 ∨ run = 2 := by omega
    · show readLiteralLines ('\'' :: '\'' :: '\'' :: rest) = _
      rw [readLiteralLines]
      · rfl
      all_goals exact fun _ => hrest _
    · show readLiteralLines ('\'' :: '\'' :: '\'' :: '\'' :: rest) = _
      rw [readLiteralLines]
      · rfl
      · exact fun _ => hrest _
    · rfl

theorem le_longestRun (c : Char) (run : Nat) (s : List Char) : run ≤ longestRun c run s := by
  induction s generalizing run with
  | nil => exact Nat.le_refl run
  | cons d s ih =>
    rw [longestRun]
    split
    · exact Nat.le_trans (Nat.le_succ run) (ih (run + 1))
    · exact Nat.le_max_left _ _

/-- **A literal text** without a long run of single quotes is read back from its several lines. -/
theorem readLiteralLines_append (hrun : longestRun '\'' run s ≤ 2) (hshow : ∀ c ∈ s, needsEscape c = false)
    (hrest : ∀ after, rest ≠ '\'' :: after) :
    readLiteralLines (List.replicate run '\'' ++ (s ++ '\'' :: '\'' :: '\'' :: rest)) =
      some (List.replicate run '\'' ++ s, rest) := by
  have hshort : run ≤ 2 := Nat.le_trans (le_longestRun _ _ _) hrun
  induction s generalizing run with
  | nil =>
    rw [List.nil_append, List.append_nil]
    exact takesQuotes_literalLines.close run rest hshort hrest
  | cons c s ih =>
    obtain ⟨hc, hs⟩ := List.forall_mem_cons.mp hshow
    rw [longestRun] at hrun
    by_cases hquote : c = '\''
    · -- the quote makes the run longer by one, and the bound on runs counts it
      rw [if_pos hquote] at hrun
      rw [hquote, List.cons_append, replicate_append_cons, replicate_append_cons]
      exact ih hrun hs (Nat.le_trans (le_longestRun _ _ _) hrun)
    · rw [if_neg hquote] at hrun
      have hzero := ih (Nat.le_trans (Nat.le_max_right _ _) hrun) hs (Nat.zero_le 2)
      rw [List.replicate_zero, List.nil_append, List.nil_append] at hzero
      rw [List.cons_append, takesQuotes_literalLines.replicate hshort hquote,
        readLiteralLines_plain hquote (ne_return hc) (isPlain_of_not_needsEscape hc), hzero]
      rfl

/-! ## Strings -/

theorem lineBreak?_cons (hbreak : c ≠ '\n') (hreturn : c ≠ '\r') : lineBreak? (c :: rest) = none := by
  rw [lineBreak?]
  · exact fun _ h => hbreak (List.cons.inj h).1
  · exact fun _ h => hreturn (List.cons.inj h).1

/-- The line break behind the opening quotes is not one of the text. -/
theorem dropOpeningBreak_append (h : '\n' ∉ s → lineBreak? rest = none) :
    dropOpeningBreak (openingBreak s ++ rest) = rest := by
  unfold dropOpeningBreak openingBreak
  by_cases hmem : '\n' ∈ s
  · rw [if_pos (List.contains_iff_mem.mpr hmem)]
    rfl
  · rw [if_neg (fun hcontains => hmem (List.contains_iff_mem.mp hcontains)), List.nil_append, h hmem]
    rfl

/-- A text that is written literally on one line has plain characters only. -/
theorem of_eq_literal (h : StringStyle.of s = .literal) : (∀ c ∈ s, isPlain c = true) ∧ '\'' ∉ s := by
  have hway : s.any needsEscape = false ∧ s.contains '\'' = false ∧ s.contains '\n' = false := by
    unfold StringStyle.of at h
    dsimp only at h
    split_ifs at h with _ hliteral
    simpa [and_assoc] using hliteral
  obtain ⟨hhidden, hquote, hbreak⟩ := hway
  refine ⟨fun c hc => ?_, fun hmem => Bool.eq_false_iff.mp hquote (List.contains_iff_mem.mpr hmem)⟩
  refine (isPlain_of_not_needsEscape (by simpa using List.any_eq_false.mp hhidden c hc)).resolve_right ?_
  rintro rfl
  exact Bool.eq_false_iff.mp hbreak (List.contains_iff_mem.mpr hc)

theorem of_eq_literalLines (h : StringStyle.of s = .literalLines) :
    (∀ c ∈ s, needsEscape c = false) ∧ longestRun '\'' 0 s ≤ 2 := by
  have hway : s.any needsEscape = false ∧ longestRun '\'' 0 s ≤ 2 := by
    unfold StringStyle.of at h
    dsimp only at h
    split_ifs at h with _ _ _ hliteral
    simpa using hliteral
  exact ⟨fun c hc => by simpa using List.any_eq_false.mp hway.1 c hc, hway.2⟩

theorem readString_basic (hrest : ∀ after, rest ≠ '"' :: after) (s : List Char) :
    readString (writeIn .basic s ++ rest) = some (s, rest) := by
  -- the quotes of an empty text are not the first two of three
  have hopen : ∀ after, escapeText false 0 0 s ++ '"' :: rest ≠ '"' :: '"' :: after := by
    intro after heq
    cases s with
    | nil => exact hrest after (List.cons.inj heq).2
    | cons c s =>
      by_cases hc : c = '"'
      · subst hc
        exact absurd (List.cons.inj heq).1 (by decide)
      · obtain ⟨first, more, hshown, hfirst, -⟩ := exists_shown false hc
        rw [escapeText_cons hc, hshown] at heq
        exact hfirst (List.cons.inj heq).1
  have htext : writeIn .basic s ++ rest = '"' :: (escapeText false 0 0 s ++ '"' :: rest) := by
    simp only [writeIn, List.cons_append, List.nil_append, List.append_assoc]
  rw [htext, readString]
  · exact readBasic_escapeText s rest
  · exact fun after heq => hopen after (List.cons.inj heq).2
  · exact fun after heq => absurd (List.cons.inj heq).1 (by decide)

theorem readString_literal (hplain : ∀ c ∈ s, isPlain c = true) (hquote : '\'' ∉ s)
    (hrest : ∀ after, rest ≠ '\'' :: after) : readString (writeIn .literal s ++ rest) = some (s, rest) := by
  have hopen : ∀ after, s ++ '\'' :: rest ≠ '\'' :: '\'' :: after := by
    intro after heq
    cases s with
    | nil => exact hrest after (List.cons.inj heq).2
    | cons c s =>
      obtain rfl : c = '\'' := (List.cons.inj heq).1
      exact hquote List.mem_cons_self
  have htext : writeIn .literal s ++ rest = '\'' :: (s ++ '\'' :: rest) := by
    simp only [writeIn, List.cons_append, List.nil_append, List.append_assoc]
  rw [htext, readString]
  · exact readLiteral_append hplain hquote rest
  · exact fun after heq => absurd (List.cons.inj heq).1 (by decide)
  · exact fun after heq => hopen after (List.cons.inj heq).2

theorem readString_basicLines (hrest : ∀ after, rest ≠ '"' :: after) (s : List Char) :
    readString (writeIn .basicLines s ++ rest) = some (s, rest) := by
  -- without a line break in the text nothing is put behind the opening quotes, so nothing must be dropped there
  have hbreak (h : '\n' ∉ s) : lineBreak? (escapeText true 2 0 s ++ '"' :: '"' :: '"' :: rest) = none := by
    cases s with
    | nil => exact lineBreak?_cons (by decide) (by decide)
    | cons c s =>
      by_cases hc : c = '"'
      · subst hc
        exact lineBreak?_cons (by decide) (by decide)
      · obtain ⟨first, more, hshown, -, hreturn, hnewline⟩ := exists_shown true hc
        rw [escapeText_cons hc, hshown]
        exact lineBreak?_cons (hnewline (List.ne_of_not_mem_cons h).symm) hreturn
  have htext : writeIn .basicLines s ++ rest =
      '"' :: '"' :: '"' :: (openingBreak s ++ (escapeText true 2 0 s ++ '"' :: '"' :: '"' :: rest)) := by
    simp only [writeIn, List.cons_append, List.nil_append, List.append_assoc]
  rw [htext, readString, dropOpeningBreak_append hbreak]
  exact readBasicLines_escapeText (Nat.zero_le 2) hrest s

theorem readString_literalLines (hrun : longestRun '\'' 0 s ≤ 2) (hshow : ∀ c ∈ s, needsEscape c = false)
    (hrest : ∀ after, rest ≠ '\'' :: after) : readString (writeIn .literalLines s ++ rest) = some (s, rest) := by
  have hbreak (h : '\n' ∉ s) : lineBreak? (s ++ '\'' :: '\'' :: '\'' :: rest) = none := by
    cases s with
    | nil => exact lineBreak?_cons (by decide) (by decide)
    | cons c s => exact lineBreak?_cons (List.ne_of_not_mem_cons h).symm (ne_return (hshow c List.mem_cons_self))
  have htext : writeIn .literalLines s ++ rest =
      '\'' :: '\'' :: '\'' :: (openingBreak s ++ (s ++ '\'' :: '\'' :: '\'' :: rest)) := by
    simp only [writeIn, List.cons_append, List.nil_append, List.append_assoc]
  rw [htext, readString, dropOpeningBreak_append hbreak]
  exact readLiteralLines_append hrun hshow hrest

/-- **Every text** is read back from the way in which it is written, where no quote follows. -/
theorem readString_writeIn (s : List Char) (hdouble : ∀ after, rest ≠ '"' :: after)
    (hsingle : ∀ after, rest ≠ '\'' :: after) : readString (writeIn (.of s) s ++ rest) = some (s, rest) := by
  cases hstyle : StringStyle.of s with
  | basic => exact readString_basic hdouble s
  | basicLines => exact readString_basicLines hdouble s
  | literal =>
    obtain ⟨hplain, hquote⟩ := of_eq_literal hstyle
    exact readString_literal hplain hquote hsingle
  | literalLines =>
    obtain ⟨hshow, hrun⟩ := of_eq_literalLines hstyle
    exact readString_literalLines hrun hshow hsingle

end BoundaryProxy.Toml
