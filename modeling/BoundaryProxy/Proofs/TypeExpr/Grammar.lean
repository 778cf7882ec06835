import BoundaryProxy.Proofs.Text.Blank
import BoundaryProxy.TypeExpr.Parser

/-!
# `Proofs.TypeExpr.Grammar` — which texts name a type

The grammar of type names with no reader in it, in two layers:

* **Tokens.** `Spells ts t`: the tokens `ts` are the name of the type `t`, by

      type ::= name [ '<' type (',' type)* '>' ] ('[' ']')*

  with at most 255 pairs of brackets behind each name.
* **Layout.** `Spaced ts s rest`: from `s` to `rest` the text is these tokens, with blanks wherever one likes
  between them.

A text names a type when its tokens do and nothing is left (`NamesType`). What blanks it has does not matter: without
them a text is the characters of its tokens (`Spaced.compact`), and these are a layout again (`spaced_glued`).
-/

namespace BoundaryProxy.TypeExpr

open Text

/-! ## Names -/

/-- A name is a run of letters, numerals, `_`, `.` and the backquote that neither starts nor ends with a dot. -/
structure IsTypeName (name : String) : Prop where
  nonempty : name.toList ≠ []
  chars : ∀ c ∈ name.toList, isAlphanumeric c = true ∨ c = '_' ∨ c = '.' ∨ c = '\x60'
  first : name.toList.head? ≠ some '.'
  last : name.toList.getLast? ≠ some '.'

/-- Every name in the type is one: that of its definition and those in its arguments. -/
inductive WellNamed : TypeExpr → Prop
  | intro {name : String} {args : List TypeExpr} {rank : Fin 256} : IsTypeName name →
      (∀ a ∈ args, WellNamed a) → WellNamed ⟨name, args, rank⟩

theorem isNameChar_iff {c : Char} :
    isNameChar c = true ↔ isAlphanumeric c = true ∨ c = '_' ∨ c = '.' ∨ c = '\x60' := by
  simp [isNameChar, or_assoc]

theorem isTypeName_iff {name : String} :
    IsTypeName name ↔ isName name.toList = true ∧ ∀ c ∈ name.toList, isNameChar c = true := by
  have hname : isName name.toList = true ↔
      name.toList ≠ [] ∧ name.toList.head? ≠ some '.' ∧ name.toList.getLast? ≠ some '.' := by
    simp [isName, and_assoc]
  simp only [hname, isNameChar_iff]
  exact ⟨fun h => ⟨⟨h.nonempty, h.first, h.last⟩, h.chars⟩, fun h => ⟨h.1.1, h.2, h.1.2.1, h.1.2.2⟩⟩

/-- No blank stands in a name. -/
theorem isBlank_of_isNameChar {c : Char} (h : isNameChar c = true) : isBlank c = false := by
  rcases isNameChar_iff.mp h with halpha | rfl | rfl | rfl
  · by_contra hblank
    rw [Bool.not_eq_false] at hblank
    rw [isAlphanumeric_of_isBlank hblank] at halpha
    cases halpha
  all_goals decide

/-! ## Tokens -/

/-- A piece of a type's name that blanks do not split. -/
inductive Token where
  | name (text : String)
  | mark (c : Char)
deriving DecidableEq

/-- The characters of a token. -/
def Token.chars : Token → List Char
  | name text => text.toList
  | mark c => [c]

/-- The marks: what separates names. -/
def marks : List Char :=
  ['<', ',', '>', '[', ']']

theorem isBlank_of_mem_marks : ∀ c ∈ marks, isBlank c = false := by
  have hall : marks.all (!isBlank ·) = true := by decide
  intro c hc
  simpa using List.all_eq_true.mp hall c hc

theorem isNameChar_of_mem_marks : ∀ c ∈ marks, isNameChar c = false := by
  have hall : marks.all (!isNameChar ·) = true := by decide
  intro c hc
  simpa using List.all_eq_true.mp hall c hc

/-- Pairs of brackets. -/
def pairs : Nat → List Token
  | 0 => []
  | n + 1 => .mark '[' :: .mark ']' :: pairs n

theorem length_pairs (n : Nat) : (pairs n).length = 2 * n := by
  induction n with
  | zero => rfl
  | succ n ih =>
    simp only [pairs, List.length_cons, ih]
    omega

mutual

/-- The tokens of a type: a name, its arguments, and as many pairs of brackets as its rank, at most 255. -/
inductive Spells : List Token → TypeExpr → Prop
  | intro {name : String} {args : List TypeExpr} {ts : List Token} {rank : Fin 256} : IsTypeName name →
      SpellsArgs ts args → Spells (.name name :: (ts ++ pairs rank.val)) ⟨name, args, rank⟩

/-- The tokens of the arguments: nothing, or types with commas between them in angle brackets. -/
inductive SpellsArgs : List Token → List TypeExpr → Prop
  | none : SpellsArgs [] []
  | some {a : TypeExpr} {as : List TypeExpr} {ts us : List Token} : Spells ts a → SpellsRest us as →
      SpellsArgs (.mark '<' :: (ts ++ (us ++ [.mark '>']))) (a :: as)

/-- The tokens of the arguments after the first, each behind a comma. -/
inductive SpellsRest : List Token → List TypeExpr → Prop
  | nil : SpellsRest [] []
  | cons {a : TypeExpr} {as : List TypeExpr} {ts us : List Token} : Spells ts a → SpellsRest us as →
      SpellsRest (.mark ',' :: (ts ++ us)) (a :: as)

end

/-! ## What tokens are made of -/

/-- A token that may stand in a type's name. -/
def Token.Proper : Token → Prop
  | name text => IsTypeName text
  | mark c => c ∈ marks

theorem proper_pairs (n : Nat) : ∀ tok ∈ pairs n, tok.Proper := by
  induction n with
  | zero => exact fun _ h => absurd h List.not_mem_nil
  | succ n ih =>
    have hopen : (Token.mark '[').Proper := by simp [Token.Proper, marks]
    have hclose : (Token.mark ']').Proper := by simp [Token.Proper, marks]
    exact List.forall_mem_cons.mpr ⟨hopen, List.forall_mem_cons.mpr ⟨hclose, ih⟩⟩

mutual

theorem Spells.proper : ∀ {ts : List Token} {t : TypeExpr}, Spells ts t → ∀ tok ∈ ts, tok.Proper
  | _, _, .intro hname hargs =>
    List.forall_mem_cons.mpr ⟨hname, List.forall_mem_append.mpr ⟨hargs.proper, proper_pairs _⟩⟩

theorem SpellsArgs.proper : ∀ {ts : List Token} {as : List TypeExpr}, SpellsArgs ts as → ∀ tok ∈ ts, tok.Proper
  | _, _, .none => fun _ h => absurd h List.not_mem_nil
  | _, _, .some ha has => by
    have hopen : (Token.mark '<').Proper := by simp [Token.Proper, marks]
    have hclose : (Token.mark '>').Proper := by simp [Token.Proper, marks]
    refine List.forall_mem_cons.mpr ⟨hopen, List.forall_mem_append.mpr ⟨ha.proper, ?_⟩⟩
    exact List.forall_mem_append.mpr ⟨has.proper, List.forall_mem_singleton.mpr hclose⟩

theorem SpellsRest.proper : ∀ {ts : List Token} {as : List TypeExpr}, SpellsRest ts as → ∀ tok ∈ ts, tok.Proper
  | _, _, .nil => fun _ h => absurd h List.not_mem_nil
  | _, _, .cons ha has => by
    have hcomma : (Token.mark ',').Proper := by simp [Token.Proper, marks]
    exact List.forall_mem_cons.mpr ⟨hcomma, List.forall_mem_append.mpr ⟨ha.proper, has.proper⟩⟩

end

/-- No blank stands in a token. -/
theorem Token.Proper.isBlank {tok : Token} (h : tok.Proper) : ∀ c ∈ tok.chars, isBlank c = false := by
  cases tok with
  | name text => exact fun c hc => isBlank_of_isNameChar ((isTypeName_iff.mp h).2 c hc)
  | mark c => exact List.forall_mem_singleton.mpr (isBlank_of_mem_marks c h)

theorem Token.Proper.length_pos {tok : Token} (h : tok.Proper) : 0 < tok.chars.length := by
  cases tok with
  | name text => exact List.length_pos_iff.mpr h.nonempty
  | mark c => exact Nat.succ_pos _

/-- A token begins with no blank. -/
theorem Token.Proper.skipBlanks {tok : Token} (h : tok.Proper) (s : List Char) :
    skipBlanks (tok.chars ++ s) = tok.chars ++ s := by
  obtain ⟨c, cs, hchars⟩ := List.exists_cons_of_length_pos h.length_pos
  rw [hchars]
  exact skipBlanks_cons (h.isBlank c (hchars ▸ List.mem_cons_self)) (cs ++ s)

theorem Spells.length_pos {ts : List Token} {t : TypeExpr} (h : Spells ts t) : 0 < ts.length := by
  cases h with
  | intro => exact Nat.succ_pos _

/-- After a name comes a mark or nothing. -/
theorem SpellsArgs.head_mark {ts : List Token} {as : List TypeExpr} (h : SpellsArgs ts as) (n : Nat) :
    ∀ tok ∈ (ts ++ pairs n).head?, ∃ c ∈ marks, tok = .mark c := by
  cases h with
  | none =>
    cases n with
    | zero => exact fun _ h => by cases h
    | succ n => exact fun _ h => ⟨'[', by simp [marks], (Option.some.inj h).symm⟩
  | some => exact fun _ h => ⟨'<', by simp [marks], (Option.some.inj h).symm⟩

mutual

/-- What is spelled has names throughout. -/
theorem Spells.wellNamed : ∀ {ts : List Token} {t : TypeExpr}, Spells ts t → WellNamed t
  | _, _, .intro hname hargs => .intro hname hargs.wellNamed

theorem SpellsArgs.wellNamed : ∀ {ts : List Token} {as : List TypeExpr},
    SpellsArgs ts as → ∀ a ∈ as, WellNamed a
  | _, _, .none => fun _ h => absurd h List.not_mem_nil
  | _, _, .some ha has => List.forall_mem_cons.mpr ⟨ha.wellNamed, has.wellNamed⟩

theorem SpellsRest.wellNamed : ∀ {ts : List Token} {as : List TypeExpr},
    SpellsRest ts as → ∀ a ∈ as, WellNamed a
  | _, _, .nil => fun _ h => absurd h List.not_mem_nil
  | _, _, .cons ha has => List.forall_mem_cons.mpr ⟨ha.wellNamed, has.wellNamed⟩

end

/-! ## Layout -/

/-- From a text to what is left of it stand the tokens, with blanks before, between and after them. -/
inductive Spaced : List Token → List Char → List Char → Prop
  | nil {ws rest : List Char} : BlankRun ws → Spaced [] (ws ++ rest) rest
  | cons {ws : List Char} {tok : Token} {ts : List Token} {s rest : List Char} : BlankRun ws →
      Spaced ts s rest → Spaced (tok :: ts) (ws ++ (tok.chars ++ s)) rest

/-- The text names a type: it is the tokens of one and nothing else. -/
def NamesType (s : List Char) : Prop :=
  ∃ t ts, Spells ts t ∧ Spaced ts s []

namespace Spaced

variable {ts us : List Token} {tok : Token} {c : Char} {ws s mid rest : List Char}

theorem refl (s : List Char) : Spaced [] s s :=
  .nil blankRun_nil

/-- A token may stand right in front. -/
theorem glue (h : Spaced ts s rest) : Spaced (tok :: ts) (tok.chars ++ s) rest :=
  .cons blankRun_nil h

/-- More blanks may stand in front. -/
theorem blanks (hw : BlankRun ws) (h : Spaced ts s rest) : Spaced ts (ws ++ s) rest := by
  cases h with
  | nil hv =>
    rw [← List.append_assoc]
    exact .nil (hw.append hv)
  | cons hv hs =>
    rw [← List.append_assoc]
    exact .cons (hw.append hv) hs

theorem append (h : Spaced ts s mid) (k : Spaced us mid rest) : Spaced (ts ++ us) s rest := by
  induction h with
  | nil hw => exact k.blanks hw
  | cons hw _ ih => exact .cons hw (ih k)

theorem of_skip {s' : List Char} (hskip : skipBlanks s = tok.chars ++ s') (h : Spaced ts s' rest) :
    Spaced (tok :: ts) s rest := by
  obtain ⟨ws, hw, hs⟩ := exists_blank_run s
  rw [hs, hskip]
  exact .cons hw h

theorem mark_of_skip {s' : List Char} (hskip : skipBlanks s = c :: s') (h : Spaced ts s' rest) :
    Spaced (.mark c :: ts) s rest :=
  .of_skip hskip h

theorem of_skip_nil : Spaced [] s (skipBlanks s) := by
  obtain ⟨ws, hw, hs⟩ := exists_blank_run s
  have h : Spaced [] (ws ++ skipBlanks s) (skipBlanks s) := .nil hw
  rwa [← hs] at h

/-- Blanks in front may be skipped, if what is left of the text has none. -/
theorem skip (hproper : ∀ tok ∈ ts, tok.Proper) (hrest : skipBlanks rest = rest) (h : Spaced ts s rest) :
    Spaced ts (skipBlanks s) rest := by
  cases h with
  | nil hw =>
    rw [skipBlanks_append hw, hrest]
    exact .refl rest
  | cons hw hs =>
    rw [skipBlanks_append hw, (hproper _ List.mem_cons_self).skipBlanks]
    exact hs.glue

/-- A layout may be cut between any two tokens, behind the blanks there. -/
theorem split (hproper : ∀ tok ∈ us, tok.Proper) (hrest : skipBlanks rest = rest)
    (h : Spaced (ts ++ us) s rest) : ∃ mid, skipBlanks mid = mid ∧ Spaced ts s mid ∧ Spaced us mid rest := by
  induction ts generalizing s with
  | nil => exact ⟨skipBlanks s, skipBlanks_skipBlanks s, of_skip_nil, h.skip hproper hrest⟩
  | cons tok ts ih =>
    cases h with
    | cons hw hs =>
      obtain ⟨mid, hmid, hts, hus⟩ := ih hs
      exact ⟨mid, hmid, .cons hw hts, hus⟩

/-- A mark stands right after the blanks. -/
theorem skip_mark (hc : c ∈ marks) (h : Spaced (.mark c :: ts) s rest) :
    ∃ s', skipBlanks s = c :: s' ∧ Spaced ts s' rest := by
  cases h with
  | @cons ws _ _ s' _ hw hs =>
    refine ⟨s', ?_, hs⟩
    rw [skipBlanks_append hw]
    exact skipBlanks_cons (isBlank_of_mem_marks c hc) s'

/-- A layout may be cut at a mark. -/
theorem split_mark (hc : c ∈ marks) (hproper : ∀ tok ∈ us, tok.Proper) (hrest : skipBlanks rest = rest)
    (h : Spaced (ts ++ .mark c :: us) s rest) : ∃ s', Spaced ts s (c :: s') ∧ Spaced us s' rest := by
  have hmark : ∀ tok ∈ Token.mark c :: us, tok.Proper := List.forall_mem_cons.mpr ⟨hc, hproper⟩
  obtain ⟨mid, hmid, hts, hus⟩ := h.split hmark hrest
  obtain ⟨s', hs', hus⟩ := hus.skip_mark hc
  rw [hmid] at hs'
  exact ⟨s', hs' ▸ hts, hus⟩

/-- What is left is the end of the text. -/
theorem suffix (h : Spaced ts s rest) : rest <:+ s := by
  induction h with
  | nil => exact List.suffix_append _ _
  | cons _ _ ih => exact ih.trans ((List.suffix_append _ _).trans (List.suffix_append _ _))

/-- A layout is at least as long as its tokens are many. -/
theorem length_le (hproper : ∀ tok ∈ ts, tok.Proper) (h : Spaced ts s rest) : ts.length ≤ s.length := by
  induction h with
  | nil => exact Nat.zero_le _
  | @cons ws tok ts s rest _ _ ih =>
    obtain ⟨htok, hproper⟩ := List.forall_mem_cons.mp hproper
    have hpos := htok.length_pos
    have hle := ih hproper
    simp only [List.length_cons, List.length_append]
    omega

/-- Without its blanks a layout is the characters of its tokens. -/
theorem compact (hproper : ∀ tok ∈ ts, tok.Proper) (h : Spaced ts s rest) :
    s.filter (!isBlank ·) = ts.flatMap Token.chars ++ rest.filter (!isBlank ·) := by
  induction h with
  | nil hw =>
    rw [List.filter_append, hw.filter_eq_nil]
    rfl
  | @cons ws tok ts s rest hw _ ih =>
    obtain ⟨htok, hproper⟩ := List.forall_mem_cons.mp hproper
    have hchars : tok.chars.filter (!isBlank ·) = tok.chars :=
      List.filter_eq_self.mpr fun c hc => by simp [htok.isBlank c hc]
    rw [List.filter_append, List.filter_append, hw.filter_eq_nil, hchars, ih hproper, List.nil_append,
      List.flatMap_cons, List.append_assoc]

end Spaced

/-- The characters of tokens, with no blank between them, are a layout of them. -/
theorem spaced_glued (ts : List Token) : Spaced ts (ts.flatMap Token.chars) [] := by
  induction ts with
  | nil => exact .nil blankRun_nil
  | cons tok ts ih => exact ih.glue

end BoundaryProxy.TypeExpr
