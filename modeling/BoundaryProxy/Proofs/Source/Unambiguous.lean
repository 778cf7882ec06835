import BoundaryProxy.Proofs.Source.Reading

/-!
# `Proofs.Source.Unambiguous` — printed statements can be told apart

A reader for the text of plain statements. A return is known by its first word. A declaration is known by what stands
before the first `=` or `;`: a type, a blank and a name, while an expression has no blank before its last word. All
other statements begin with an expression, and what follows it says which they are.

* **`stmtText_eq_iff`**: plain statements are printed alike exactly if they agree in their canonical forms. So the
  nesting of an expression is not lost in its text, though no brackets are put around any of its parts.
-/

namespace BoundaryProxy.Source

open Text Proxy

/-! ## The reader -/

/-- Read an expression, whatever follows it. -/
def readValue (s : List Char) : Option Expr :=
  (readExpr (2 * s.length) s).map Prod.fst

/-- Whether a character stands neither for a value to follow nor for the end of a statement. -/
def isFront (c : Char) : Bool :=
  c != '=' && c != ';'

/-- The type and the name of a declaration, from its front without the blanks at its end, backwards. -/
def readDeclared (front : List Char) : Option (TypeExpr × String) :=
  if (front.dropWhile continuesIdentifier).head? = some ' ' then
    (TypeExpr.parse (String.ofList ((front.dropWhile continuesIdentifier).drop 1).reverse)).toOption.map fun t =>
      (t, String.ofList (front.takeWhile continuesIdentifier).reverse)
  else
    none

/-- Read the rest of a return. -/
def readReturned (s : List Char) : Option Stmt :=
  if s.head? = some ';' then
    some (.return none)
  else
    (readValue (s.drop 1)).map fun e => .return (some e)

/-- Read the rest of a declaration. -/
def readInit (t : TypeExpr) (name : String) (s : List Char) : Option Stmt :=
  if s.head? = some ';' then
    some (.declare t name none)
  else
    (readValue (s.drop 2)).map fun e => .declare t name (some e)

/-- Read the rest of a statement that begins with an expression. -/
def readRest (e : Expr) (s : List Char) : Option Stmt :=
  if s.head? = some ';' then
    some (.expr e)
  else if s.head? = some '?' then
    match e with
    | .field event => (readArgs (2 * s.length) (s.drop 9)).map fun found => .raise event (valuesOf found.1)
    | _ => none
  else if (s.drop 1).head? = some '+' then
    match e with
    | .property target event => (readValue (s.drop 4)).map fun handler => .attach target event handler
    | _ => none
  else
    (readValue (s.drop 3)).map fun value => .assign e value

/-- Read a statement. -/
def readStmt (s : List Char) : Option Stmt :=
  if String.ofList (s.takeWhile TypeExpr.isNameChar) = "return" then
    readReturned (s.dropWhile TypeExpr.isNameChar)
  else
    match readDeclared ((s.takeWhile isFront).reverse.dropWhile (· == ' ')) with
    | some (t, name) => readInit t name (s.dropWhile isFront)
    | none => (readExpr (2 * s.length) s).bind fun found => readRest found.1 found.2

/-! ## Values -/

variable {e : Expr} {text name : String} {rest : List Char}

theorem stops_cons {c : Char} {s : List Char} (h : continuesIdentifier c = false ∧ c ∉ ['(', '.', '[']) :
    Stops (c :: s) := by
  intro d hd
  cases hd
  exact h

/-- An expression is read to what is no part of it. -/
theorem ReadsAs.readExpr_eq (h : ReadsAs e text) (hrest : Stops rest) :
    readExpr (2 * (text.toList ++ rest).length) (text.toList ++ rest) = some (e, rest) := by
  obtain ⟨m, hm, hread⟩ := h rest hrest.follows _ le_rfl
  rw [hread, hrest.readSteps_eq (Nat.zero_lt_of_lt hm)]

theorem ReadsAs.readValue_eq (h : ReadsAs e text) : readValue (text.toList ++ [';']) = some e := by
  unfold readValue
  rw [h.readExpr_eq (stops_cons (by decide)), Option.map_some]

/-! ## Returns -/

/-- The name that a text begins with is read to its end. -/
theorem readStmt_return {c : Char} (hc : TypeExpr.isNameChar c = false) (rest : List Char) :
    readStmt ("return".toList ++ c :: rest) = readReturned (c :: rest) := by
  have hchars : ∀ d ∈ "return".toList, TypeExpr.isNameChar d = true := List.all_eq_true.mp (by decide)
  have hstops : ∀ d ∈ (c :: rest).head?, TypeExpr.isNameChar d = false := by
    intro d hd
    cases hd
    exact hc
  unfold readStmt
  rw [takeWhile_append_of_head hchars hstops, dropWhile_append_of_head hchars hstops, String.ofList_toList, if_pos rfl]

/-- A text that begins with `return` as a name begins with it as a word. -/
theorem wordOf_eq_of_run {s : List Char} (h : String.ofList (s.takeWhile TypeExpr.isNameChar) = "return") :
    wordOf s = "return" := by
  have hrun : s.takeWhile TypeExpr.isNameChar = "return".toList := by
    rw [← h, String.toList_ofList]
  have happart : Apart (s.dropWhile TypeExpr.isNameChar) := by
    intro c hc
    have hstop : TypeExpr.isNameChar c = false := by
      have hall := List.head?_dropWhile_not TypeExpr.isNameChar s
      rw [Option.mem_def.mp hc] at hall
      simpa using hall
    by_contra hword
    rw [Bool.not_eq_false] at hword
    rw [isNameChar_of_continuesIdentifier hword] at hstop
    cases hstop
  rw [← List.takeWhile_append_dropWhile (p := TypeExpr.isNameChar) (l := s), hrun]
  exact wordOf_append (List.all_eq_true.mp (by decide)) happart

/-! ## Fronts -/

/-- What stands at the end of the front of a statement, read backwards: a word that is not cut off by a blank. -/
def Closed (front : List Char) : Prop :=
  ∃ before run, front = before ++ run ∧ (∀ c ∈ run, continuesIdentifier c = true) ∧
    ∀ c ∈ before.getLast?, continuesIdentifier c = false ∧ c ≠ ' '

/-- Blanks go, up to a word or what is no blank. -/
theorem dropWhile_blank {blank run rest : List Char} (hblank : ∀ c ∈ blank, c = ' ')
    (hrun : ∀ c ∈ run, continuesIdentifier c = true) (hrest : run = [] → ∀ c ∈ rest.head?, c ≠ ' ') :
    (blank ++ (run ++ rest)).dropWhile (· == ' ') = run ++ rest := by
  refine dropWhile_append_of_head (fun c hc => beq_iff_eq.mpr (hblank c hc)) fun c hc => beq_eq_false_iff_ne.mpr ?_
  cases run with
  | nil => exact hrest rfl c hc
  | cons d ds =>
    cases hc
    rintro rfl
    exact absurd (hrun ' ' List.mem_cons_self) (by decide)

/-- The front of a statement that is no declaration. -/
theorem readDeclared_closed {front blank : List Char} (h : Closed front) (hblank : ∀ c ∈ blank, c = ' ') :
    readDeclared ((front ++ blank).reverse.dropWhile (· == ' ')) = none := by
  obtain ⟨before, run, rfl, hrun, hbefore⟩ := h
  have hrun' : ∀ c ∈ run.reverse, continuesIdentifier c = true := fun c hc => hrun c (List.mem_reverse.mp hc)
  have hlast : ∀ c ∈ before.reverse.head?, continuesIdentifier c = false ∧ c ≠ ' ' := by
    rwa [List.head?_reverse]
  rw [List.reverse_append, List.reverse_append,
    dropWhile_blank (fun c hc => hblank c (List.mem_reverse.mp hc)) hrun' fun _ c hc => (hlast c hc).2, readDeclared,
    dropWhile_append_of_head hrun' fun c hc => (hlast c hc).1]
  exact if_neg fun hspace => (hlast ' ' hspace).2 rfl

/-- The front of a declaration is a type, a blank and a name. -/
theorem readDeclared_declaration {t : TypeExpr} (h : t.WellNamed) (hname : IsWord name) {blank : List Char}
    (hblank : ∀ c ∈ blank, c = ' ') :
    readDeclared ((t.spelling.toList ++ ' ' :: name.toList ++ blank).reverse.dropWhile (· == ' ')) =
      some (t.keyworded, name) := by
  have hchars : ∀ c ∈ name.toList.reverse, continuesIdentifier c = true := fun c hc =>
    hname.chars c (List.mem_reverse.mp hc)
  have hspace : ∀ c ∈ (' ' :: t.spelling.toList.reverse).head?, continuesIdentifier c = false :=
    apart_cons (by decide)
  have hne : name.toList.reverse ≠ [] := fun hnil =>
    hname.nonempty (String.toList_inj.mp (List.reverse_eq_nil_iff.mp hnil))
  have hfront : (t.spelling.toList ++ ' ' :: name.toList ++ blank).reverse =
      blank.reverse ++ (name.toList.reverse ++ ' ' :: t.spelling.toList.reverse) := by
    simp
  rw [hfront, dropWhile_blank (fun c hc => hblank c (List.mem_reverse.mp hc)) hchars fun hnil => absurd hnil hne,
    readDeclared, dropWhile_append_of_head hchars hspace, takeWhile_append_of_head hchars hspace, List.head?_cons,
    if_pos rfl, List.drop_one, List.tail_cons, List.reverse_reverse, List.reverse_reverse, String.ofList_toList,
    String.ofList_toList, TypeExpr.parse_spelling_eq h]
  rfl

theorem closed_mark {c : Char} (hc : continuesIdentifier c = false ∧ c ≠ ' ') (before : List Char) :
    Closed (before ++ [c]) := by
  refine ⟨before ++ [c], [], (List.append_nil _).symm, List.forall_mem_nil _, fun d hd => ?_⟩
  rw [List.getLast?_concat] at hd
  cases hd
  exact hc

/-- A front that a mark ends is closed. -/
theorem readDeclared_mark {c : Char} (hc : continuesIdentifier c = false ∧ c ≠ ' ') (before mid : List Char) :
    readDeclared ((before ++ (mid ++ [c])).reverse.dropWhile (· == ' ')) = none := by
  have hnone := readDeclared_closed (closed_mark hc (before ++ mid)) (List.forall_mem_nil _)
  rwa [List.append_nil, List.append_assoc] at hnone

theorem closed_word {c : Char} (hc : continuesIdentifier c = false ∧ c ≠ ' ') (before : List Char)
    (hname : IsWord name) : Closed (before ++ c :: name.toList) := by
  refine ⟨before ++ [c], name.toList, by simp, hname.chars, fun d hd => ?_⟩
  rw [List.getLast?_concat] at hd
  cases hd
  exact hc

theorem closed_name (hname : IsWord name) : Closed name.toList :=
  ⟨[], name.toList, rfl, hname.chars, fun _ hc => by cases hc⟩

/-- **No blank stands before the last word of an expression.** -/
theorem closed_exprText {e : Expr} (h : AllPlain e.atoms) : Closed (exprText e).toList := by
  cases e with
  | null => exact ⟨[], "null".toList, by simp [exprText], List.all_eq_true.mp (by decide), fun _ hc => by cases hc⟩
  | field name | methodRef name =>
    simp only [Expr.atoms, allPlain_name] at h
    have hclosed := closed_word (c := '.') (by decide) "this".toList h.1
    simpa [exprText] using hclosed
  | param name | localVar name =>
    simp only [Expr.atoms, allPlain_name] at h
    rw [exprText]
    exact closed_name h.1
  | property target name =>
    simp only [Expr.atoms, allPlain_append, allPlain_name] at h
    have hclosed := closed_word (c := '.') (by decide) (exprText target).toList h.2.1
    simpa [exprText] using hclosed
  | index target keys =>
    rw [exprText, String.toList_append]
    exact closed_mark (by decide) _
  | invoke target method args =>
    rw [exprText, String.toList_append]
    exact closed_mark (by decide) _
  | new type args =>
    rw [exprText, String.toList_append]
    exact closed_mark (by decide) _
  | path text =>
    rw [Expr.atoms] at h
    exact absurd h allPlain_path

theorem isFront_of_isNameChar {c : Char} (h : TypeExpr.isNameChar c = true) : isFront c = true := by
  simp only [isFront, Bool.and_eq_true, bne_iff_ne]
  constructor <;> rintro rfl <;> exact absurd h (by decide)

theorem fixedWithin_isFront : FixedWithin fixedChars (isFront · = true) := by
  decide

theorem front_exprText (h : AllPlain e.atoms) : ∀ c ∈ (exprText e).toList, isFront c = true :=
  within_exprText fixedWithin_isFront (h.atomsWithin fun _ => isFront_of_isNameChar)

/-! ## Statements -/

/-- The front of a statement decides whether it declares. -/
theorem readStmt_front {front tail : List Char} (hfront : ∀ c ∈ front, isFront c = true)
    (htail : ∀ c ∈ tail.head?, isFront c = false)
    (hrun : String.ofList ((front ++ tail).takeWhile TypeExpr.isNameChar) ≠ "return") :
    readStmt (front ++ tail) =
      match readDeclared (front.reverse.dropWhile (· == ' ')) with
      | some (t, name) => readInit t name tail
      | none => (readExpr (2 * (front ++ tail).length) (front ++ tail)).bind fun found => readRest found.1 found.2 := by
  unfold readStmt
  rw [if_neg hrun, takeWhile_append_of_head hfront htail, dropWhile_append_of_head hfront htail]

/-- A statement that begins with an expression is told by what follows. -/
theorem readStmt_rest (h : AllPlain e.atoms) {mid tail : List Char} (hmid : ∀ c ∈ mid, isFront c = true)
    (htail : ∀ c ∈ tail.head?, isFront c = false) (hstops : Stops (mid ++ tail))
    (hnone : readDeclared (((exprText e).toList ++ mid).reverse.dropWhile (· == ' ')) = none) :
    readStmt ((exprText e).toList ++ (mid ++ tail)) = readRest e.canonical (mid ++ tail) := by
  obtain ⟨word, hword, -, hne⟩ := begins_exprText h
  have hrun : String.ofList (((exprText e).toList ++ mid ++ tail).takeWhile TypeExpr.isNameChar) ≠ "return" := by
    intro hreturn
    have hfirst := wordOf_eq_of_run hreturn
    rw [List.append_assoc, hword.wordOf_eq hstops.follows.1] at hfirst
    exact hne hfirst
  have hfront : ∀ c ∈ (exprText e).toList ++ mid, isFront c = true :=
    List.forall_mem_append.mpr ⟨front_exprText h, hmid⟩
  rw [← List.append_assoc, readStmt_front hfront htail hrun, hnone, List.append_assoc,
    (readsAs_exprText h).readExpr_eq hstops]
  rfl

/-- The name of a type with its keyword, and what its spelling says after it. -/
theorem spelling_begins (t : TypeExpr) :
    ∃ tail, t.spelling.toList = t.keyworded.name.toList ++ tail ∧
      ∀ c ∈ tail.head?, TypeExpr.isNameChar c = false := by
  obtain ⟨name, args, rank⟩ := t
  cases args with
  | nil =>
    refine ⟨(TypeExpr.brackets rank.val).toList, by simp [TypeExpr.spelling, TypeExpr.keyworded, TypeExpr.keywordOr_eq], ?_⟩
    cases rank.val with
    | zero => exact fun c hc => by cases hc
    | succ n =>
      rw [TypeExpr.brackets_succ, String.toList_append]
      intro c hc
      cases hc
      decide
  | cons a as =>
    refine ⟨'<' :: (a.spelling ++ TypeExpr.restSpelling as ++ ">" ++ TypeExpr.brackets rank.val).toList, ?_, ?_⟩
    · simp [TypeExpr.spelling, TypeExpr.keyworded]
    · intro c hc
      cases hc
      decide

/-- A type that is not named `return` is not spelled with that name either. -/
theorem name_keyworded_ne {t : TypeExpr} (h : t.name ≠ "return") : t.keyworded.name ≠ "return" := by
  obtain ⟨name, args, rank⟩ := t
  cases args with
  | cons a as => exact h
  | nil =>
    have hnone : ∀ row ∈ TypeExpr.keywords, row.2 ≠ "return" := by decide
    rw [TypeExpr.keyworded]
    rcases TypeExpr.keywordFor_cases name with hmem | hname
    · exact hnone _ hmem
    · rwa [hname]

/-- A declaration is told by its front. -/
theorem readStmt_declaration {t : TypeExpr} (h : t.WellNamed ∧ t.name ≠ "return") (hname : IsWord name)
    {blank tail : List Char} (hblank : ∀ c ∈ blank, c = ' ') (htail : ∀ c ∈ tail.head?, isFront c = false) :
    readStmt (t.spelling.toList ++ ' ' :: name.toList ++ blank ++ tail) = readInit t.keyworded name tail := by
  have hfront : ∀ c ∈ t.spelling.toList ++ ' ' :: name.toList ++ blank, isFront c = true := by
    have hspelling : Within (isFront · = true) t.spelling :=
      within_spelling_of_wellNamed (fun _ => isFront_of_isNameChar) fixedWithin_isFront.spelling h.1
    simp only [List.forall_mem_append, List.forall_mem_cons]
    refine ⟨⟨hspelling, by decide, fun c hc => ?_⟩, fun c hc => by rw [hblank c hc]; decide⟩
    exact isFront_of_isNameChar (isNameChar_of_continuesIdentifier (hname.chars c hc))
  have hrun : String.ofList ((t.spelling.toList ++ ' ' :: name.toList ++ blank ++ tail).takeWhile
      TypeExpr.isNameChar) ≠ "return" := by
    obtain ⟨behind, hbegins, hbehind⟩ := spelling_begins t
    have htypeName : TypeExpr.IsTypeName t.keyworded.name :=
      h.1.keyworded.isTypeName_of_mem _ t.keyworded.name_mem_names
    have hchars : ∀ c ∈ t.keyworded.name.toList, TypeExpr.isNameChar c = true :=
      (TypeExpr.isTypeName_iff.mp htypeName).2
    have hstops : ∀ c ∈ (behind ++ ' ' :: (name.toList ++ (blank ++ tail))).head?, TypeExpr.isNameChar c = false := by
      cases behind with
      | nil =>
        intro c hc
        cases hc
        decide
      | cons d ds => exact hbehind
    have htext : t.spelling.toList ++ ' ' :: name.toList ++ blank ++ tail =
        t.keyworded.name.toList ++ (behind ++ ' ' :: (name.toList ++ (blank ++ tail))) := by
      rw [hbegins]
      simp
    rw [htext, takeWhile_append_of_head hchars hstops, String.ofList_toList]
    exact name_keyworded_ne h.2
  rw [readStmt_front hfront htail hrun, readDeclared_declaration h.1 hname hblank]

theorem front_commaSeparated {es : List Expr} (h : AllPlain (exprsAtoms es)) :
    ∀ c ∈ (commaSeparated (exprTexts es)).toList, isFront c = true :=
  within_commaSeparated fixedWithin_isFront.spelling
    (within_exprTexts fixedWithin_isFront (h.atomsWithin fun _ => isFront_of_isNameChar))

/-- What follows an event that is raised. -/
theorem readRest_raise {es : List Expr} (h : AllPlain (exprsAtoms es)) (event : String) :
    readRest (.field event) ("?.Invoke(".toList ++ (commaSeparated (exprTexts es)).toList ++ [')'] ++ [';']) =
      some (.raise event (canonicalExprs es)) := by
  have htext : "?.Invoke(".toList ++ (commaSeparated (exprTexts es)).toList ++ [')'] ++ [';'] =
      "?.Invoke(".toList ++ ((commaSeparated (exprTexts es)).toList ++ ')' :: [';']) := by
    simp
  have hhead : ∀ s : List Char, ("?.Invoke(".toList ++ s).head? = some '?' := by
    simp
  have hdrop : ∀ s : List Char, ("?.Invoke(".toList ++ s).drop 9 = s := by
    simp
  have hfound : ∀ {n : Nat}, 2 * ((commaSeparated (exprTexts es)).toList ++ ')' :: [';']).length < n →
      readArgs n ((commaSeparated (exprTexts es)).toList ++ ')' :: [';']) =
        some ((canonicalExprs es).map .value, [';']) :=
    readArgs_text (readsAs_exprTexts h) (by decide) _
  rw [htext, readRest, hhead, if_neg (by decide), if_pos rfl]
  simp only [hdrop]
  rw [hfound (by simp), Option.map_some, valuesOf_map]

/-- **A plain statement is read back** in its canonical form. -/
theorem readStmt_stmtText {s : Stmt} (h : AllPlain s.atoms) : readStmt (stmtText s).toList = some s.canonical := by
  have hsemicolon : ∀ c ∈ [';'].head?, isFront c = false := fun c hc => by cases hc; decide
  -- a declaration is told by the name behind its type, the rest by the mark after the expression in front
  cases s with
  | declare type name init =>
    cases init with
    | none =>
      simp only [Stmt.atoms, allPlain_type, allPlain_name] at h
      have htext : (stmtText (.declare type name none)).toList =
          type.spelling.toList ++ ' ' :: name.toList ++ [] ++ [';'] := by
        simp [stmtText]
      rw [htext, readStmt_declaration h.1 h.2.1 (List.forall_mem_nil _) hsemicolon]
      rfl
    | some e =>
      simp only [Stmt.atoms, Option.toList_some, List.flatMap_singleton, allPlain_type, allPlain_name] at h
      have htext : (stmtText (.declare type name (some e))).toList =
          type.spelling.toList ++ ' ' :: name.toList ++ [' '] ++ '=' :: ' ' :: ((exprText e).toList ++ [';']) := by
        simp [stmtText]
      rw [htext, readStmt_declaration h.1 h.2.1 (List.forall_mem_singleton.mpr rfl) (fun c hc => by cases hc; decide),
        readInit, List.head?_cons, if_neg (by decide)]
      simp only [List.drop_succ_cons, List.drop_zero, (readsAs_exprText h.2.2).readValue_eq]
      rfl
  | assign target value =>
    rw [Stmt.atoms, allPlain_append] at h
    have htext : (stmtText (.assign target value)).toList =
        (exprText target).toList ++ ([' '] ++ '=' :: ' ' :: ((exprText value).toList ++ [';'])) := by
      simp [stmtText]
    rw [htext, readStmt_rest h.1 (List.forall_mem_singleton.mpr (by decide)) (fun c hc => by cases hc; decide)
      (stops_cons (by decide)) (readDeclared_closed (closed_exprText h.1) (List.forall_mem_singleton.mpr rfl))]
    simp [readRest, (readsAs_exprText h.2).readValue_eq, Stmt.canonical]
  | «return» value =>
    cases value with
    | none =>
      have htext : (stmtText (.return none)).toList = "return".toList ++ ';' :: [] := by
        simp [stmtText]
      rw [htext, readStmt_return (by decide)]
      rfl
    | some e =>
      simp only [Stmt.atoms, Option.toList_some, List.flatMap_singleton] at h
      have htext : (stmtText (.return (some e))).toList = "return".toList ++ ' ' :: ((exprText e).toList ++ [';']) := by
        simp [stmtText]
      rw [htext, readStmt_return (by decide), readReturned, List.head?_cons, if_neg (by decide), List.drop_one,
        List.tail_cons, (readsAs_exprText h).readValue_eq]
      rfl
  | expr e =>
    rw [Stmt.atoms] at h
    have htext : (stmtText (.expr e)).toList = (exprText e).toList ++ ([] ++ [';']) := by
      simp [stmtText]
    rw [htext, readStmt_rest h (List.forall_mem_nil _) hsemicolon (stops_cons (by decide))
      (readDeclared_closed (closed_exprText h) (List.forall_mem_nil _))]
    rfl
  | attach target event handler =>
    simp only [Stmt.atoms, allPlain_append, allPlain_name] at h
    have htarget : AllPlain (Expr.property target event).atoms := by
      simp only [Expr.atoms, allPlain_append, allPlain_name]
      exact ⟨h.1, h.2.1, allPlain_nil⟩
    have htext : (stmtText (.attach target event handler)).toList =
        (exprText (.property target event)).toList ++
          ([' '] ++ ['+'] ++ '=' :: ' ' :: ((exprText handler).toList ++ [';'])) := by
      simp [stmtText, exprText]
    rw [htext, readStmt_rest htarget (List.all_eq_true.mp (by decide)) (fun c hc => by cases hc; decide)
      (stops_cons (by decide)) (readDeclared_mark (by decide) _ _)]
    simp [readRest, Expr.canonical, (readsAs_exprText h.2.2).readValue_eq, Stmt.canonical]
  | raise event args =>
    simp only [Stmt.atoms, allPlain_name] at h
    have htarget : AllPlain (Expr.field event).atoms := by
      simp only [Expr.atoms, allPlain_name]
      exact ⟨h.1, allPlain_nil⟩
    have htext : (stmtText (.raise event args)).toList = (exprText (.field event)).toList ++
        ("?.Invoke(".toList ++ (commaSeparated (exprTexts args)).toList ++ [')'] ++ [';']) := by
      simp [stmtText, exprText]
    have hmid : ∀ c ∈ "?.Invoke(".toList ++ (commaSeparated (exprTexts args)).toList ++ [')'], isFront c = true := by
      simp only [List.forall_mem_append]
      exact ⟨⟨List.all_eq_true.mp (by decide), front_commaSeparated h.2⟩, List.all_eq_true.mp (by decide)⟩
    rw [htext, readStmt_rest htarget hmid hsemicolon (stops_cons (by decide)) (readDeclared_mark (by decide) _ _)]
    simp only [Expr.canonical, readRest_raise h.2, Stmt.canonical]

/-- **The text of a plain statement is unambiguous.** Plain statements are printed alike exactly if they are the same up
to fields for methods of the proxy, parameters for locals and types that are spelled alike. -/
theorem stmtText_eq_iff {s s' : Stmt} (h : AllPlain s.atoms) (h' : AllPlain s'.atoms) :
    stmtText s = stmtText s' ↔ s.canonical = s'.canonical := by
  constructor
  · intro heq
    have hread := readStmt_stmtText h
    rw [heq, readStmt_stmtText h'] at hread
    exact (Option.some.inj hread).symm
  · intro heq
    rw [← stmtText_canonical s, ← stmtText_canonical s', heq]

/-- Two statements that differ in all that their text does not tell, and one that has the same words. -/
theorem stmtText_eq_iff_box :
    let s : Stmt := .assign (.index (.field "_box") [.param "key"]) (.new (.named "System.Object") [.methodRef "Wrap"])
    let s' : Stmt := .assign (.index (.methodRef "_box") [.localVar "key"]) (.new (.named "object") [.field "Wrap"])
    let other : Stmt := .assign (.field "_box") (.index (.param "key") [.new (.named "object") [.field "Wrap"]])
    AllPlain s.atoms ∧ AllPlain s'.atoms ∧ AllPlain other.atoms ∧
      stmtText s = "this._box[key] = new object(this.Wrap);" ∧ s.canonical = s'.canonical ∧
      s.canonical ≠ other.canonical := by
  intro s s' other
  have hread : ∀ t ∈ [TypeExpr.named "System.Object", .named "object"], TypeExpr.parse t.text = .ok t := by
    decide +kernel
  have htypes : ∀ t ∈ [TypeExpr.named "System.Object", .named "object"], t.WellNamed ∧ t.name ≠ "return" :=
    fun t ht => ⟨(TypeExpr.compact_of_parse (hread t ht)).1, by revert t; decide⟩
  have hwords : ∀ name ∈ ["_box", "key", "Wrap"], IsWord name := by decide +kernel
  have hplain : ∀ a ∈ ["_box", "key", "Wrap"].map Atom.name ++
      [TypeExpr.named "System.Object", .named "object"].map Atom.type, a.Plain :=
    List.forall_mem_append.mpr ⟨List.forall_mem_map.mpr hwords, List.forall_mem_map.mpr htypes⟩
  have hatoms : ∀ a ∈ s.atoms ++ s'.atoms ++ other.atoms, a ∈ ["_box", "key", "Wrap"].map Atom.name ++
      [TypeExpr.named "System.Object", .named "object"].map Atom.type := by decide
  have hall := fun a ha => hplain a (hatoms a ha)
  rw [List.forall_mem_append, List.forall_mem_append] at hall
  obtain ⟨⟨h, h'⟩, hother⟩ := hall
  have htext : stmtText s = stmtText s' := by decide +kernel
  have hne : stmtText s ≠ stmtText other := by decide +kernel
  exact ⟨h, h', hother, by decide +kernel, (stmtText_eq_iff h h').mp htext, mt (stmtText_eq_iff h hother).mpr hne⟩

end BoundaryProxy.Source
