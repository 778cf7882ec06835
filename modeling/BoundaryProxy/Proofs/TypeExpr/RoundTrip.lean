import BoundaryProxy.Proofs.TypeExpr.Reading
import BoundaryProxy.TypeExpr.Printer

/-!
# `Proofs.TypeExpr.RoundTrip` — written types are read back

A type has one list of tokens (`tokens`, `Spells.eq_tokens`), and its written form is one layout of it (`spaced_text`):
the only blank there is the space after a comma. So

* **`text_round_trip`**: a type all of whose names are names is read back from its written form, a text that is read
  differs from the written form in its blanks alone, and two texts are read as one type exactly when they differ in
  their blanks alone.
-/

namespace BoundaryProxy.TypeExpr

open Text

/-! ## The tokens of a type -/

mutual

/-- The tokens of a type. -/
def tokens : TypeExpr → List Token
  | ⟨name, args, rank⟩ => .name name :: (argsTokens args ++ pairs rank.val)

/-- The tokens of arguments in angle brackets, none if there are no arguments. -/
def argsTokens : List TypeExpr → List Token
  | [] => []
  | a :: as => .mark '<' :: (tokens a ++ (restTokens as ++ [.mark '>']))

/-- The tokens of the arguments after the first, each behind a comma. -/
def restTokens : List TypeExpr → List Token
  | [] => []
  | a :: as => .mark ',' :: (tokens a ++ restTokens as)

end

mutual

/-- The tokens of a type with names throughout spell it. -/
theorem spells_tokens : ∀ {t : TypeExpr}, WellNamed t → Spells (tokens t) t
  | ⟨_, _, _⟩, .intro hname hargs => by
    rw [tokens]
    exact .intro hname (spellsArgs_argsTokens hargs)

theorem spellsArgs_argsTokens : ∀ {as : List TypeExpr}, (∀ a ∈ as, WellNamed a) → SpellsArgs (argsTokens as) as
  | [], _ => by
    rw [argsTokens]
    exact .none
  | a :: as, h => by
    obtain ⟨ha, has⟩ := List.forall_mem_cons.mp h
    rw [argsTokens]
    exact .some (spells_tokens ha) (spellsRest_restTokens has)

theorem spellsRest_restTokens : ∀ {as : List TypeExpr}, (∀ a ∈ as, WellNamed a) → SpellsRest (restTokens as) as
  | [], _ => by
    rw [restTokens]
    exact .nil
  | a :: as, h => by
    obtain ⟨ha, has⟩ := List.forall_mem_cons.mp h
    rw [restTokens]
    exact .cons (spells_tokens ha) (spellsRest_restTokens has)

end

mutual

/-- No other tokens spell the type. -/
theorem Spells.eq_tokens : ∀ {ts : List Token} {t : TypeExpr}, Spells ts t → ts = tokens t
  | _, _, .intro _ hargs => by rw [tokens, hargs.eq_argsTokens]

theorem SpellsArgs.eq_argsTokens : ∀ {ts : List Token} {as : List TypeExpr}, SpellsArgs ts as → ts = argsTokens as
  | _, _, .none => by rw [argsTokens]
  | _, _, .some ha has => by rw [argsTokens, ha.eq_tokens, has.eq_restTokens]

theorem SpellsRest.eq_restTokens : ∀ {ts : List Token} {as : List TypeExpr}, SpellsRest ts as → ts = restTokens as
  | _, _, .nil => by rw [restTokens]
  | _, _, .cons ha has => by rw [restTokens, ha.eq_tokens, has.eq_restTokens]

end

/-! ## The written form is a layout -/

theorem brackets_succ (n : Nat) : brackets (n + 1) = "[]" ++ brackets n := by
  rw [brackets, List.replicate_succ, String.join_cons]
  rfl

theorem spaced_brackets (n : Nat) (rest : List Char) : Spaced (pairs n) ((brackets n).toList ++ rest) rest := by
  induction n with
  | zero => exact .refl rest
  | succ n ih =>
    rw [brackets_succ, String.toList_append, List.append_assoc]
    exact .glue (.glue ih)

mutual

/-- The written form of a type is a layout of its tokens. -/
theorem spaced_text : ∀ (t : TypeExpr) (rest : List Char), Spaced (tokens t) (t.text.toList ++ rest) rest
  | ⟨name, args, rank⟩, rest => by
    rw [tokens, text, String.toList_append, String.toList_append, List.append_assoc, List.append_assoc]
    exact .glue ((spaced_argsText args _).append (spaced_brackets rank.val rest))

theorem spaced_argsText : ∀ (as : List TypeExpr) (rest : List Char),
    Spaced (argsTokens as) ((argsText as).toList ++ rest) rest
  | [], rest => by
    rw [argsTokens, argsText]
    exact .refl rest
  | a :: as, rest => by
    rw [argsTokens, argsText]
    simp only [String.toList_append, List.append_assoc]
    have hclose : Spaced [.mark '>'] (">".toList ++ rest) rest := .glue (.refl rest)
    exact .glue ((spaced_text a _).append ((spaced_restText as _).append hclose))

theorem spaced_restText : ∀ (as : List TypeExpr) (rest : List Char),
    Spaced (restTokens as) ((restText as).toList ++ rest) rest
  | [], rest => by
    rw [restTokens, restText]
    exact .refl rest
  | a :: as, rest => by
    rw [restTokens, restText]
    simp only [String.toList_append, List.append_assoc]
    have hspace : BlankRun [' '] := List.forall_mem_singleton.mpr (by decide)
    exact .glue (.blanks hspace ((spaced_text a _).append (spaced_restText as rest)))

end

/-! ## The blanks of the written form -/

theorem Token.Proper.filter_space {tok : Token} (h : tok.Proper) : tok.chars.filter (· != ' ') = tok.chars := by
  refine List.filter_eq_self.mpr fun c hc => bne_iff_ne.mpr fun hspace => ?_
  have hblank := h.isBlank c hc
  rw [hspace] at hblank
  exact absurd hblank (by decide)

theorem filter_brackets (n : Nat) : (brackets n).toList.filter (· != ' ') = (pairs n).flatMap Token.chars := by
  induction n with
  | zero => rfl
  | succ n ih =>
    rw [brackets_succ, String.toList_append, List.filter_append, ih]
    rfl

mutual

/-- Without its spaces the written form is the characters of the tokens. -/
theorem filter_text : ∀ {t : TypeExpr}, WellNamed t →
    t.text.toList.filter (· != ' ') = (tokens t).flatMap Token.chars
  | ⟨name, args, rank⟩, .intro hname hargs => by
    have hproper : (Token.name name).Proper := hname
    have hfilter : name.toList.filter (· != ' ') = name.toList := hproper.filter_space
    simp only [text, tokens, String.toList_append, List.filter_append, List.flatMap_cons, List.flatMap_append,
      hfilter, filter_argsText hargs, filter_brackets, Token.chars, List.append_assoc]

theorem filter_argsText : ∀ {as : List TypeExpr}, (∀ a ∈ as, WellNamed a) →
    (argsText as).toList.filter (· != ' ') = (argsTokens as).flatMap Token.chars
  | [], _ => by
    rw [argsText, argsTokens]
    rfl
  | a :: as, h => by
    obtain ⟨ha, has⟩ := List.forall_mem_cons.mp h
    simp only [argsText, argsTokens, String.toList_append, List.filter_append, List.flatMap_cons,
      List.flatMap_append, filter_text ha, filter_restText has, List.append_assoc]
    rfl

theorem filter_restText : ∀ {as : List TypeExpr}, (∀ a ∈ as, WellNamed a) →
    (restText as).toList.filter (· != ' ') = (restTokens as).flatMap Token.chars
  | [], _ => by
    rw [restText, restTokens]
    rfl
  | a :: as, h => by
    obtain ⟨ha, has⟩ := List.forall_mem_cons.mp h
    simp only [restText, restTokens, String.toList_append, List.filter_append, List.flatMap_cons,
      List.flatMap_append, filter_text ha, filter_restText has, List.append_assoc]
    rfl

end

/-! ## Reading back -/

variable {s s' : String} {t t' : TypeExpr}

theorem parse_text (h : WellNamed t) : parse t.text = .ok t := by
  have hspaced := spaced_text t []
  rw [List.append_nil] at hspaced
  exact parse_eq_ok_iff.mpr ⟨tokens t, spells_tokens h, hspaced⟩

/-- The text of a type has no characters but those of its tokens and blanks. -/
theorem compact_of_parse (h : parse s = .ok t) :
    WellNamed t ∧ s.toList.filter (!isBlank ·) = (tokens t).flatMap Token.chars := by
  obtain ⟨ts, hts, hs⟩ := parse_eq_ok_iff.mp h
  have hcompact := hs.compact hts.proper
  rw [hts.eq_tokens, List.filter_nil, List.append_nil] at hcompact
  exact ⟨hts.wellNamed, hcompact⟩

/-- The tokens written without a blank are read as the type. -/
theorem parse_glued (h : WellNamed t) : parse (String.ofList ((tokens t).flatMap Token.chars)) = .ok t := by
  refine parse_eq_ok_iff.mpr ⟨tokens t, spells_tokens h, ?_⟩
  rw [String.toList_ofList]
  exact spaced_glued (tokens t)

/-- Texts of one type, and of no other, differ in their blanks alone. -/
theorem eq_iff_compact_eq (h : parse s = .ok t) (h' : parse s' = .ok t') :
    t = t' ↔ s.toList.filter (!isBlank ·) = s'.toList.filter (!isBlank ·) := by
  obtain ⟨hnamed, hcompact⟩ := compact_of_parse h
  obtain ⟨hnamed', hcompact'⟩ := compact_of_parse h'
  constructor
  · rintro rfl
    rw [hcompact, hcompact']
  · intro heq
    have hchars : (tokens t).flatMap Token.chars = (tokens t').flatMap Token.chars := by
      rw [← hcompact, heq, hcompact']
    have hread : parse (String.ofList ((tokens t').flatMap Token.chars)) = .ok t := hchars ▸ parse_glued hnamed
    rw [parse_glued hnamed'] at hread
    exact (Except.ok.inj hread).symm

/-- **Types are read back from their written form.** A type with names throughout, however its arguments are nested
    and whatever its rank, is what its written form is read as. A text that is read gives such a type, and has the
    characters of its written form, blanks apart. So two texts that are read give the same type exactly when they differ
    in their blanks alone. -/
theorem text_round_trip :
    (∀ t : TypeExpr, WellNamed t → parse t.text = .ok t) ∧
    (∀ (s : String) (t : TypeExpr), parse s = .ok t → WellNamed t ∧ parse t.text = .ok t ∧
      s.toList.filter (!isBlank ·) = t.text.toList.filter (· != ' ')) ∧
    (∀ (s s' : String) (t t' : TypeExpr), parse s = .ok t → parse s' = .ok t' →
      (t = t' ↔ s.toList.filter (!isBlank ·) = s'.toList.filter (!isBlank ·))) := by
  refine ⟨fun t h => parse_text h, fun s t h => ?_, fun s s' t t' h h' => eq_iff_compact_eq h h'⟩
  obtain ⟨hnamed, hcompact⟩ := compact_of_parse h
  exact ⟨hnamed, parse_text hnamed, hcompact.trans (filter_text hnamed).symm⟩

/-- Arguments nested twice, arrays inside and outside, and blanks of several kinds. -/
theorem text_round_trip_nested :
    let t : TypeExpr := ⟨"Ns.Map\x602", [⟨"Ä_1", [], 1⟩, ⟨"Ns.B", [⟨"C", [], 0⟩], 0⟩], 2⟩
    let s := " Ns.Map\x602 <Ä_1 [ ],\tNs.B<C> > []\n[ ]"
    let s' := "Ns.Map\x602<Ä_1[],Ns.B<C>>[][]"
    parse s = .ok t ∧ parse s' = .ok t ∧ WellNamed t ∧ parse t.text = .ok t ∧
      s.toList.filter (!isBlank ·) = t.text.toList.filter (· != ' ') ∧
      s.toList.filter (!isBlank ·) = s'.toList.filter (!isBlank ·) := by
  intro t s s'
  have hread : parse s = .ok t := by decide +kernel
  have hread' : parse s' = .ok t := by decide +kernel
  obtain ⟨hnamed, -, hchars⟩ := text_round_trip.2.1 s t hread
  have hback := text_round_trip.1 t hnamed
  exact ⟨hread, hread', hnamed, hback, hchars, (text_round_trip.2.2 s s' t t hread hread').mp rfl⟩

end BoundaryProxy.TypeExpr
