import BoundaryProxy.Proofs.TypeExpr.Reading

/-!
# `Proofs.TypeExpr.Cursor` — what is read, and where reading ends

A reader stands at a cut of the text: an offset in bytes on a boundary between characters, with what is left of the
text behind it (`IsCut`). The cuts are the ends of the text (`isCut_of_suffix`, `IsCut.suffix`), and every reader,
whether it succeeds or fails, goes from an end to an end (`readName_leaves`, `readRank_leaves`, `readType_leaves`,
`readArgs_leaves`).

* **`parse_follows_grammar`**: the texts that are read are those that name a type, every other text is quoted in an
  error whose offset is a cut of it, and no reader ever stands anywhere else than at a cut.
-/

namespace BoundaryProxy

/-! ## Lengths in bytes -/

namespace Text

variable {s rest : List Char}

theorem byteLength_append (s t : List Char) : byteLength (s ++ t) = byteLength s + byteLength t := by
  induction s with
  | nil => exact (Nat.zero_add _).symm
  | cons c s ih =>
    rw [List.cons_append, byteLength, byteLength, ih]
    omega

theorem byteLength_toList (s : String) : byteLength s.toList = s.utf8ByteSize := by
  have hlist : ∀ cs : List Char, byteLength cs = (String.ofList cs).utf8ByteSize := by
    intro cs
    induction cs with
    | nil => rfl
    | cons c cs ih => simp [byteLength, ih]
  rw [hlist, String.ofList_toList]

theorem dropBytes_append (s t : List Char) : dropBytes (byteLength s) (s ++ t) = some t := by
  induction s with
  | nil =>
    rw [byteLength, dropBytes]
    rfl
  | cons c s ih =>
    obtain ⟨n, hn⟩ := Nat.exists_eq_succ_of_ne_zero (Nat.ne_of_gt c.utf8Size_pos)
    have hsum : byteLength (c :: s) = n + byteLength s + 1 := by
      rw [byteLength]
      omega
    have hfits : c.utf8Size ≤ n + byteLength s + 1 := by omega
    have hleft : n + byteLength s + 1 - c.utf8Size = byteLength s := by omega
    rw [hsum, List.cons_append, dropBytes, if_pos hfits, hleft, ih]

theorem suffix_of_dropBytes {n : Nat} (h : dropBytes n s = some rest) : rest <:+ s := by
  induction s generalizing n with
  | nil =>
    cases n with
    | zero => exact Option.some.inj h ▸ List.suffix_refl _
    | succ n => cases h
  | cons c s ih =>
    cases n with
    | zero => exact Option.some.inj h ▸ List.suffix_refl _
    | succ n =>
      rw [dropBytes] at h
      split at h
      · exact (ih h).trans (List.suffix_cons c s)
      · cases h

/-! ## Cuts -/

/-- At an offset in bytes a character of the text begins or the text ends, and this is what is left of it there. -/
structure IsCut (s : String) (offset : Nat) (rest : List Char) : Prop where
  le : offset ≤ s.utf8ByteSize
  boundary : String.Pos.Raw.IsValid s ⟨offset⟩
  left : dropBytes offset s.toList = some rest

theorem IsCut.suffix {s : String} {n : Nat} {rest : List Char} (h : IsCut s n rest) : rest <:+ s.toList :=
  suffix_of_dropBytes h.left

/-- Every end of a text is what is left of it at a cut. -/
theorem isCut_of_suffix {s : String} {rest : List Char} (h : rest <:+ s.toList) :
    IsCut s (byteLength s.toList - byteLength rest) rest := by
  obtain ⟨front, hs⟩ := h
  have hoffset : byteLength s.toList - byteLength rest = byteLength front := by
    rw [← hs, byteLength_append]
    omega
  have hfront : byteLength front = (String.ofList front).utf8ByteSize := by
    rw [← byteLength_toList, String.toList_ofList]
  have hparts : s = String.ofList front ++ String.ofList rest := by
    rw [← String.ofList_append, hs, String.ofList_toList]
  rw [hoffset]
  refine ⟨?_, ?_, ?_⟩
  · rw [← byteLength_toList, ← hs, byteLength_append]
    omega
  · rw [String.Pos.Raw.isValid_iff_exists_append]
    exact ⟨_, _, hparts, String.Pos.Raw.ext hfront⟩
  · rw [← hs]
    exact dropBytes_append front rest

end Text

/-! ## The readers go from end to end -/

namespace TypeExpr

open Text

variable {α β : Type} {s : List Char}

/-- The text left over, by a success or a failure. -/
def leftOver : Except Stop (α × List Char) → List Char
  | .ok (_, rest) => rest
  | .error (_, rest) => rest

/-- Two readers one after the other leave an end of the text, if each of them does. -/
theorem leftOver_bind {x : Except Stop (α × List Char)} {f : α × List Char → Except Stop (β × List Char)}
    (hx : leftOver x <:+ s) (hf : ∀ a rest, leftOver (f (a, rest)) <:+ rest) : leftOver (x >>= f) <:+ s := by
  cases x with
  | error e => exact hx
  | ok a => exact (hf a.1 a.2).trans hx

/-- Behind the first character after the blanks the text has an end. -/
theorem suffix_of_skip {c : Char} {rest : List Char} (h : skipBlanks s = c :: rest) : rest <:+ s := by
  have hskip := skipBlanks_suffix s
  rw [h] at hskip
  exact (List.suffix_cons c rest).trans hskip

theorem readName_leaves (s : List Char) : leftOver (readName s) <:+ s := by
  have hrest : (skipBlanks s).dropWhile isNameChar <:+ s :=
    (List.dropWhile_suffix isNameChar).trans (skipBlanks_suffix s)
  rw [readName]
  split
  · exact hrest
  · exact hrest

theorem readRank_leaves (fuel : Nat) (rank : Fin 256) (s : List Char) : leftOver (readRank fuel rank s) <:+ s := by
  induction fuel generalizing rank s with
  | zero => exact skipBlanks_suffix s
  | succ fuel ih =>
    unfold readRank
    split
    · rename_i s₁ hfuel hopen
      obtain rfl := Nat.succ.inj hfuel
      have hs₁ := suffix_of_skip hopen
      split
      · rename_i s₂ hclose
        have hs₂ := (suffix_of_skip hclose).trans hs₁
        split
        · exact (ih _ s₂).trans hs₂
        · exact hs₂
      · exact (skipBlanks_suffix s₁).trans hs₁
    · exact skipBlanks_suffix s

mutual

theorem readType_leaves : ∀ (fuel : Nat) (s : List Char), leftOver (readType fuel s) <:+ s
  | 0, s => List.suffix_refl s
  | fuel + 1, s => by
    rw [readType_succ]
    refine leftOver_bind (readName_leaves s) fun name s₁ => ?_
    refine leftOver_bind ?_ fun args s₂ => ?_
    · rcases readApplied_cases fuel s₁ with ⟨s', hopen, hrun⟩ | ⟨-, hrun⟩
      · rw [hrun]
        exact (readArgs_leaves fuel s').trans (suffix_of_skip hopen)
      · rw [hrun]
        exact skipBlanks_suffix s₁
    · exact leftOver_bind (readRank_leaves s₂.length 0 s₂) fun rank s₃ => List.suffix_refl s₃

theorem readArgs_leaves : ∀ (fuel : Nat) (s : List Char), leftOver (readArgs fuel s) <:+ s
  | 0, s => List.suffix_refl s
  | fuel + 1, s => by
    rw [readArgs]
    refine leftOver_bind (readType_leaves fuel s) fun arg s₁ => ?_
    dsimp only
    split
    · rename_i s₂ hcomma
      refine leftOver_bind ?_ fun args s₃ => List.suffix_refl s₃
      exact (readArgs_leaves fuel s₂).trans (suffix_of_skip hcomma)
    · rename_i s₂ hclose
      exact suffix_of_skip hclose
    · exact skipBlanks_suffix s₁

end

/-- A text that is no type fails where an end of it begins. -/
theorem readWhole_leaves {flaw : Flaw} {rest : List Char} (h : readWhole s = .error (flaw, rest)) : rest <:+ s := by
  have hread := readType_leaves (2 * s.length + 2) s
  rw [readWhole] at h
  cases hrun : readType (2 * s.length + 2) s with
  | error e =>
    rw [hrun] at h hread
    cases h
    exact hread
  | ok a =>
    rw [hrun] at hread
    simp only [hrun, ok_bind] at h
    split at h
    · cases h
    · cases h
      exact (skipBlanks_suffix a.2).trans hread

/-! ## Texts that are no types -/

/-- An error quotes the text, and its offset is a cut of it. -/
theorem parse_error {s : String} {e : ParseError} (h : parse s = .error e) :
    e.source = s ∧ ∃ rest, IsCut s e.offset rest := by
  rw [parse] at h
  split at h
  · cases h
  · rename_i hrun
    cases h
    exact ⟨rfl, _, isCut_of_suffix (readWhole_leaves hrun)⟩

theorem exists_parse_iff {s : String} : (∃ t, parse s = .ok t) ↔ NamesType s.toList :=
  exists_congr fun _ => parse_eq_ok_iff

/-- A reader that starts at a cut of a text ends at one. -/
theorem exists_cut_of_leaves {s : String} {n : Nat} {u : List Char} {x : Except Stop (α × List Char)}
    (hu : IsCut s n u) (hx : leftOver x <:+ u) : ∃ m, IsCut s m (leftOver x) :=
  ⟨_, isCut_of_suffix (hx.trans hu.suffix)⟩

/-- **The reader of types follows its grammar.** A text is read if and only if it names a type. Any other text is
    quoted in the error, with an offset in bytes at which it may be cut. And a reader that starts at a cut of the text
    ends at one, whatever it reads, so no part of the text is ever taken from within a character. -/
theorem parse_follows_grammar (s : String) :
    ((∃ t, parse s = .ok t) ↔ NamesType s.toList) ∧
    (¬ NamesType s.toList → ∃ e, parse s = .error e ∧ e.source = s ∧
      e.message = s!"Invalid type name '{s}': {e.flaw.text} at offset {e.offset}" ∧
      ∃ rest, IsCut s e.offset rest) ∧
    (∀ (fuel n : Nat) (rank : Fin 256) (u : List Char), IsCut s n u →
      (∃ m, IsCut s m (leftOver (readName u))) ∧ (∃ m, IsCut s m (leftOver (readRank fuel rank u))) ∧
      (∃ m, IsCut s m (leftOver (readType fuel u))) ∧ ∃ m, IsCut s m (leftOver (readArgs fuel u))) := by
  refine ⟨exists_parse_iff, fun hno => ?_, fun fuel n rank u hu => ⟨?_, ?_, ?_, ?_⟩⟩
  · cases h : parse s with
    | ok t => exact absurd (exists_parse_iff.mp ⟨t, h⟩) hno
    | error e =>
      obtain ⟨hsource, hcut⟩ := parse_error h
      have hmessage : e.message = s!"Invalid type name '{s}': {e.flaw.text} at offset {e.offset}" :=
        hsource ▸ rfl
      exact ⟨e, rfl, hsource, hmessage, hcut⟩
  · exact exists_cut_of_leaves hu (readName_leaves u)
  · exact exists_cut_of_leaves hu (readRank_leaves fuel rank u)
  · exact exists_cut_of_leaves hu (readType_leaves fuel u)
  · exact exists_cut_of_leaves hu (readArgs_leaves fuel u)

/-- A bracket left open behind letters of more than one byte. -/
theorem parse_follows_grammar_unclosed :
    ¬ NamesType "Ä< Ö[".toList ∧ IsCut "Ä< Ö[" 3 " Ö[".toList ∧
    (∃ e, parse "Ä< Ö[" = .error e ∧ e.source = "Ä< Ö[" ∧
      e.message = s!"Invalid type name 'Ä< Ö[': {e.flaw.text} at offset {e.offset}" ∧
      ∃ rest, IsCut "Ä< Ö[" e.offset rest) ∧
    ∃ m, IsCut "Ä< Ö[" m (leftOver (readArgs 4 " Ö[".toList)) := by
  have hread : ∀ t, parse "Ä< Ö[" ≠ .ok t := by
    have herror : parse "Ä< Ö[" = .error ⟨"Ä< Ö[", .bracketExpected, 7⟩ := by decide +kernel
    intro t ht
    rw [herror] at ht
    cases ht
  have hno : ¬ NamesType "Ä< Ö[".toList := fun h => by
    obtain ⟨t, ht⟩ := (parse_follows_grammar "Ä< Ö[").1.mpr h
    exact hread t ht
  have hsuffix : " Ö[".toList <:+ "Ä< Ö[".toList := by decide
  have hoffset : byteLength "Ä< Ö[".toList - byteLength " Ö[".toList = 3 := by decide
  have hcut : IsCut "Ä< Ö[" 3 " Ö[".toList := hoffset ▸ isCut_of_suffix hsuffix
  exact ⟨hno, hcut, (parse_follows_grammar "Ä< Ö[").2.1 hno,
    ((parse_follows_grammar "Ä< Ö[").2.2 4 3 0 _ hcut).2.2.2⟩

end TypeExpr

end BoundaryProxy
