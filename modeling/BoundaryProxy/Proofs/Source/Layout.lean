import BoundaryProxy.Proofs.Source.Atom
import BoundaryProxy.Proofs.Source.Wording
import BoundaryProxy.Text.Blank
import Mathlib.Data.List.Forall2

/-!
# `Proofs.Source.Layout` — how the text of a unit is laid out

A unit says which texts stand on the lines of its file, member by member in the words of `Proofs.Source.Wording`
(`memberTexts`), and in which groups (`sectionTexts`); the braces among them say how deep each line is indented
(`Indents`). A `Layout` puts the two together. It is what the lines of the printed file are, if no name, path or type of
the unit breaks a line.

* **`linesOf_render`**: a printed unit is laid out, and each member and each statement stands in it once.
-/

namespace BoundaryProxy.Source

open Proxy Text

/-! ## Lines and braces -/

/-- The lines of a text, and what follows the last line break. -/
def linesOf (s : String) : List String :=
  (s.toList.splitOn '\n').map String.ofList

/-- A text behind four spaces for every brace that is open. -/
def indent (depth : Nat) (text : String) : String :=
  String.ofList (List.replicate (4 * depth) ' ') ++ text

/-- The lines that texts make one after the other, from so many open braces to so many. A brace that closes one is no
longer within it; none is closed where none is open. -/
inductive Indents : Nat → List String → List String → Nat → Prop where
  | done {depth : Nat} : Indents depth [] [] depth
  | opens {depth last : Nat} {texts lines : List String} :
      Indents (depth + 1) texts lines last → Indents depth ("\x7b" :: texts) (indent depth "\x7b" :: lines) last
  | closes {depth last : Nat} {texts lines : List String} :
      Indents depth texts lines last → Indents (depth + 1) ("\x7d" :: texts) (indent depth "\x7d" :: lines) last
  | keeps {depth last : Nat} {text : String} {texts lines : List String} :
      text ≠ "\x7b" → text ≠ "\x7d" → Indents depth texts lines last →
        Indents depth (text :: texts) (indent depth text :: lines) last

theorem Indents.append {a b c : Nat} {texts texts' lines lines' : List String} (h : Indents a texts lines b)
    (h' : Indents b texts' lines' c) : Indents a (texts ++ texts') (lines ++ lines') c := by
  induction h with
  | done => exact h'
  | opens _ ih => exact .opens (ih h')
  | closes _ ih => exact .closes (ih h')
  | keeps hopen hclose _ ih => exact .keeps hopen hclose (ih h')

/-- What indenting does not take from a text holds of the lines, if it holds of the texts on them. -/
theorem Indents.forall_line {p : String → Prop}
    (hindent : ∀ {depth : Nat} {text : String}, p text → p (indent depth text)) {a b : Nat}
    {texts lines : List String} (h : Indents a texts lines b) (htexts : ∀ text ∈ texts, p text) :
    ∀ line ∈ lines, p line := by
  induction h with
  | done => exact List.forall_mem_nil _
  | opens _ ih | closes _ ih | keeps _ _ _ ih =>
    obtain ⟨htext, hrest⟩ := List.forall_mem_cons.mp htexts
    exact List.forall_mem_cons.mpr ⟨hindent htext, ih hrest⟩

/-- The same over blocks of lines. -/
theorem Indents.forall_block {p : String → Prop}
    (hindent : ∀ {depth : Nat} {text : String}, p text → p (indent depth text)) {depth : Nat}
    {sections blocks : List (List String)}
    (h : List.Forall₂ (fun texts block => Indents depth texts block depth) sections blocks)
    (htexts : ∀ text ∈ sections.flatten, p text) : ∀ line ∈ blocks.flatten, p line := by
  induction h with
  | nil => exact List.forall_mem_nil _
  | cons hblock _ ih =>
    rw [List.flatten_cons, List.forall_mem_append] at htexts
    rw [List.flatten_cons, List.forall_mem_append]
    exact ⟨hblock.forall_line hindent htexts.1, ih htexts.2⟩

/-- Blocks one after the other, each from as many open braces as it leaves. -/
theorem Indents.flatten {depth : Nat} {sections blocks : List (List String)}
    (h : List.Forall₂ (fun texts block => Indents depth texts block depth) sections blocks) :
    Indents depth sections.flatten blocks.flatten depth := by
  induction h with
  | nil => exact .done
  | cons hblock _ ih => exact hblock.append ih

/-! ## What a unit says of its lines -/

/-- A signature and the statements of its body within their own braces. -/
def bracedTexts (signature : String) (body : List Stmt) : List String :=
  signature :: "\x7b" :: body.map stmtWords ++ ["\x7d"]

/-- The texts on the lines of a member. -/
def memberTexts (className : String) : Member → List String
  | .field f => [fieldWords f]
  | .constructor c => bracedTexts (constructorWords className c) c.body
  | .method m => bracedTexts (methodWords m) m.body
  | .event e => [eventWords e]

/-- The kinds of members. -/
inductive Kind where
  | field
  | constructor
  | event
  | method
deriving DecidableEq

/-- The kind of a member. -/
def kindOf : Member → Kind
  | .field _ => .field
  | .constructor _ => .constructor
  | .event _ => .event
  | .method _ => .method

/-- The texts of the members of a kind, member by member in their order. -/
def textsOf (u : ProxyUnit) (kind : Kind) : List (List String) :=
  (u.members.filter (kindOf · = kind)).map (memberTexts u.className)

/-- The texts of a group as one section; a group of none has no section. -/
def groupTexts (texts : List String) : List (List String) :=
  if texts = [] then [] else [texts]

/-- The sections of a unit: its fields, each constructor, its events, each method. -/
def sectionTexts (u : ProxyUnit) : List (List String) :=
  groupTexts (textsOf u .field).flatten ++ textsOf u .constructor ++ groupTexts (textsOf u .event).flatten ++
    textsOf u .method

/-- The texts before the sections. -/
def openingTexts (u : ProxyUnit) : List String :=
  ["namespace " ++ u.namespaceName, "\x7b", "public class " ++ u.className, "\x7b"]

/-- The texts after the sections. -/
def closingTexts : List String :=
  ["\x7d", "\x7d"]

/-- The lines of a unit: those before its sections, the block of lines of each section, and those after them. -/
structure Layout (u : ProxyUnit) where
  opening : List String
  blocks : List (List String)
  closing : List String
  opens : Indents 0 (openingTexts u) opening 2
  keeps : List.Forall₂ (fun texts block => Indents 2 texts block 2) (sectionTexts u) blocks
  closes : Indents 2 closingTexts closing 0
  block_ne_nil : ∀ block ∈ blocks, block ≠ []
  not_blank : ∀ line ∈ opening ++ blocks.flatten ++ closing, isBlankText line = false

/-- The lines after the header. The only blank ones are those that are added here. -/
def Layout.lines {u : ProxyUnit} (l : Layout u) : List String :=
  [""] ++ l.opening ++ [""].intercalate l.blocks ++ l.closing

/-! ## Blank lines -/

/-- A line between the blocks or in one of them. -/
theorem mem_intercalate {line : String} {blocks : List (List String)} (h : line ∈ [""].intercalate blocks) :
    line = "" ∨ line ∈ blocks.flatten := by
  induction blocks with
  | nil => exact absurd h List.not_mem_nil
  | cons block blocks ih =>
    rw [List.flatten_cons, List.mem_append]
    cases blocks with
    | nil =>
      rw [List.intercalate_singleton] at h
      exact .inr (.inl h)
    | cons next rest =>
      rw [List.intercalate_cons_cons, List.mem_append, List.mem_append, List.mem_singleton] at h
      rcases h with (hblock | hblank) | hrest
      · exact .inr (.inl hblock)
      · exact .inl hblank
      · exact (ih hrest).imp_right .inr

/-- The lines between the blocks are blank, and go with the blank ones. -/
theorem filter_intercalate (blocks : List (List String)) :
    ([""].intercalate blocks).filter (!isBlankText ·) = blocks.flatten.filter (!isBlankText ·) := by
  induction blocks with
  | nil => rfl
  | cons block blocks ih =>
    cases blocks with
    | nil => rw [List.intercalate_singleton, List.flatten_singleton]
    | cons next rest =>
      have hblank : [""].filter (!isBlankText ·) = [] := by decide
      have hflatten : (block :: next :: rest).flatten = block ++ (next :: rest).flatten := List.flatten_cons
      rw [List.intercalate_cons_cons, List.filter_append, List.filter_append, hblank, ih, hflatten,
        List.filter_append, List.append_nil]

/-- What is not blank in a layout. -/
theorem Layout.filter_lines {u : ProxyUnit} (l : Layout u) :
    l.lines.filter (!isBlankText ·) = l.opening ++ l.blocks.flatten ++ l.closing := by
  have hblank : [""].filter (!isBlankText ·) = [] := by decide
  unfold Layout.lines
  rw [List.filter_append, List.filter_append, List.filter_append, hblank, filter_intercalate, List.nil_append,
    ← List.filter_append, ← List.filter_append]
  exact List.filter_eq_self.mpr fun line hline => by rw [l.not_blank line hline, Bool.not_false]

/-- The texts of a unit stand one after the other on the lines that are not blank. -/
theorem Layout.indents {u : ProxyUnit} (l : Layout u) :
    Indents 0 (openingTexts u ++ (sectionTexts u).flatten ++ closingTexts) (l.lines.filter (!isBlankText ·)) 0 := by
  rw [l.filter_lines]
  exact (l.opens.append (.flatten l.keeps)).append l.closes

/-! ## Every member once -/

theorem flatten_groupTexts (texts : List String) : (groupTexts texts).flatten = texts := by
  unfold groupTexts
  split
  · next h => rw [h, List.flatten_nil]
  · exact List.flatten_singleton

/-- Whatever the order of its members, the sections of a unit hold each of them once. -/
theorem sectionTexts_perm (u : ProxyUnit) :
    (sectionTexts u).flatten.Perm (u.members.flatMap (memberTexts u.className)) := by
  unfold sectionTexts textsOf
  simp only [List.flatten_append, flatten_groupTexts, ← List.flatMap_def]
  rw [List.perm_iff_count]
  intro text
  induction u.members with
  | nil => rfl
  | cons m ms ih =>
    -- the first member counts with those of its kind, and with no other
    have hcons (kind : Kind) : (((m :: ms).filter (kindOf · = kind)).flatMap (memberTexts u.className)).count text =
        (if kindOf m = kind then (memberTexts u.className m).count text else 0) +
          ((ms.filter (kindOf · = kind)).flatMap (memberTexts u.className)).count text := by
      by_cases hkind : kindOf m = kind <;> simp [hkind]
    simp only [List.count_append, hcons, List.flatMap_cons] at ih ⊢
    cases kindOf m <;> simp only [reduceCtorEq, if_true, if_false] <;> omega

/-! ## Printed lines -/

/-- A line without the line break that ends it. -/
def Line.printed (l : Line) : String :=
  indent l.depth l.text

/-- The text of lines, each with a line break at its end. -/
def joinLines (lines : List String) : String :=
  String.join (lines.map (· ++ "\n"))

@[simp] theorem joinLines_cons (line : String) (lines : List String) :
    joinLines (line :: lines) = line ++ "\n" ++ joinLines lines := by
  unfold joinLines
  rw [List.map_cons, String.join_cons]

theorem joinLines_append (lines lines' : List String) :
    joinLines (lines ++ lines') = joinLines lines ++ joinLines lines' := by
  induction lines with
  | nil =>
    have hnil : joinLines [] = "" := rfl
    rw [hnil, List.nil_append, String.empty_append]
  | cons line lines ih =>
    rw [List.cons_append, joinLines_cons, joinLines_cons, ih]
    exact (String.append_assoc ..).symm

/-- Sections with an empty line between them. -/
theorem joinLines_intercalate (blocks : List (List String)) :
    joinLines ([""].intercalate blocks) = String.intercalate "\n" (blocks.map joinLines) := by
  induction blocks with
  | nil => rfl
  | cons block blocks ih =>
    cases blocks with
    | nil => rw [List.intercalate_singleton, List.map_singleton, String.intercalate_singleton]
    | cons next rest =>
      have hblank : joinLines [""] = "\n" := by decide
      rw [List.intercalate_cons_cons, joinLines_append, joinLines_append, hblank, ih]
      simp only [List.map_cons, String.intercalate_cons_cons]

/-- Lines that no line break is in are the lines of their text. -/
theorem linesOf_joinLines {lines : List String} (h : ∀ line ∈ lines, Within (· ≠ '\n') line) :
    linesOf (joinLines lines) = lines ++ [""] := by
  unfold linesOf
  induction lines with
  | nil => rfl
  | cons line lines ih =>
    obtain ⟨hline, hlines⟩ := List.forall_mem_cons.mp h
    have hnone : '\n' ∉ line.toList := fun hmem => hline _ hmem rfl
    have hsplit : (joinLines (line :: lines)).toList = line.toList ++ '\n' :: (joinLines lines).toList := by
      rw [joinLines_cons, String.toList_append, String.toList_append]
      simp
    rw [hsplit, List.splitOn_append_cons_self_of_not_mem hnone, List.map_cons, ih hlines, String.ofList_toList]
    rfl

theorem indent_zero (text : String) : indent 0 text = text :=
  String.empty_append

theorem Line.render_eq (l : Line) : l.render = l.printed ++ "\n" := by
  unfold Line.render Line.printed indent
  congr 2
  induction l.depth with
  | zero => rfl
  | succ depth ih =>
    rw [List.replicate_succ, String.join_cons, ih, show 4 * (depth + 1) = 4 + 4 * depth by omega,
      List.replicate_add, String.ofList_append]
    rfl

theorem renderSection_eq (lines : List Line) : renderSection lines = joinLines (lines.map Line.printed) := by
  unfold renderSection joinLines
  rw [List.map_map]
  exact congrArg String.join (List.map_congr_left fun l _ => l.render_eq)

/-! ## Texts with something on them -/

/-- There is more on a line than blanks and braces. -/
def Solid (text : String) : Prop :=
  ∃ c ∈ text.toList, c ≠ '\x7b' ∧ c ≠ '\x7d' ∧ isBlank c = false

instance (text : String) : Decidable (Solid text) :=
  List.decidableBEx (fun c => c ≠ '\x7b' ∧ c ≠ '\x7d' ∧ isBlank c = false) text.toList

theorem Solid.append_left {a : String} (h : Solid a) (b : String) : Solid (a ++ b) := by
  obtain ⟨c, hc, hsolid⟩ := h
  exact ⟨c, by rw [String.toList_append]; exact List.mem_append_left _ hc, hsolid⟩

theorem Solid.append_right {b : String} (a : String) (h : Solid b) : Solid (a ++ b) := by
  obtain ⟨c, hc, hsolid⟩ := h
  exact ⟨c, by rw [String.toList_append]; exact List.mem_append_right _ hc, hsolid⟩

theorem Solid.isBlankText_eq {text : String} (h : Solid text) : isBlankText text = false := by
  obtain ⟨c, hc, -, -, hblank⟩ := h
  exact List.all_eq_false.mpr ⟨c, hc, by simp [hblank]⟩

theorem Indents.keep {depth last : Nat} {text : String} {texts lines : List String} (h : Solid text)
    (hrest : Indents depth texts lines last) : Indents depth (text :: texts) (indent depth text :: lines) last := by
  obtain ⟨c, hc, hopen, hclose, -⟩ := h
  refine .keeps ?_ ?_ hrest <;> rintro rfl
  · exact hopen (List.mem_singleton.mp hc)
  · exact hclose (List.mem_singleton.mp hc)

theorem isBlankText_indent {depth : Nat} {text : String} (h : isBlankText text = false) :
    isBlankText (indent depth text) = false := by
  unfold isBlankText at h ⊢
  rw [indent, String.toList_append, List.all_append, h, Bool.and_false]

theorem within_indent {depth : Nat} {text : String} (h : Within (· ≠ '\n') text) :
    Within (· ≠ '\n') (indent depth text) := by
  have hspaces : Within (· ≠ '\n') (String.ofList (List.replicate (4 * depth) ' ')) := by
    intro c hc
    rw [String.toList_ofList] at hc
    rw [List.eq_of_mem_replicate hc]
    decide
  exact within_append.mpr ⟨hspaces, h⟩

theorem solid_semicolon : Solid ";" := by
  decide

theorem solid_stmtText (s : Stmt) : Solid (stmtText s) := by
  cases s with
  | declare type name init => cases init <;> exact solid_semicolon.append_right _
  | «return» value =>
    cases value with
    | none => exact (by decide : Solid "return;")
    | some e => exact solid_semicolon.append_right _
  | raise event args => exact (by decide : Solid ");").append_right _
  | assign | expr | attach => exact solid_semicolon.append_right _

theorem solid_fieldText (f : Field) : Solid (fieldText f) := by
  unfold fieldText
  split <;> exact solid_semicolon.append_right _

theorem solid_eventText (e : Event) : Solid (eventText e) :=
  solid_semicolon.append_right _

theorem solid_constructorText (className : String) (c : Constructor) : Solid (constructorText className c) :=
  (by decide : Solid ")").append_right _

theorem solid_methodText (m : Method) : Solid (methodText m) :=
  (by decide : Solid ")").append_right _

/-! ## The indentation of a unit -/

theorem bracedTexts_eq (signature : String) (body : List Stmt) :
    bracedTexts signature body = signature :: "\x7b" :: body.map stmtText ++ ["\x7d"] := by
  rw [bracedTexts, funext stmtText_eq]

/-- The lines of a member are those it is printed on. -/
theorem memberTexts_eq (className : String) (m : Member) : memberTexts className m =
    match m with
    | .field f => [fieldText f]
    | .constructor c => bracedTexts (constructorText className c) c.body
    | .method m => bracedTexts (methodText m) m.body
    | .event e => [eventText e] := by
  cases m with
  | field f => rw [memberTexts, ← fieldText_eq]
  | constructor c => rw [memberTexts, ← constructorText_eq]
  | method m => rw [memberTexts, ← methodText_eq]
  | event e => rw [memberTexts, ← eventText_eq]

/-- A view that picks out the members of a kind leads to their texts. -/
theorem textsOf_eq {u : ProxyUnit} {kind : Kind} {α : Type} {pick : Member → Option α} {texts : α → List String}
    (hnone : ∀ m, pick m = none → kindOf m ≠ kind)
    (hsome : ∀ m x, pick m = some x → kindOf m = kind ∧ memberTexts u.className m = texts x) :
    textsOf u kind = (u.members.filterMap pick).map texts := by
  unfold textsOf
  induction u.members with
  | nil => rfl
  | cons m ms ih =>
    cases hpick : pick m with
    | none =>
      rw [List.filterMap_cons_none hpick, List.filter_cons_of_neg (by simpa using hnone m hpick), ih]
    | some x =>
      obtain ⟨hkind, htexts⟩ := hsome m x hpick
      rw [List.filterMap_cons_some hpick, List.filter_cons_of_pos (by simpa using hkind), List.map_cons, List.map_cons,
        htexts, ih]

/-- The printer's sections are those of the unit. -/
theorem sectionTexts_eq (u : ProxyUnit) : sectionTexts u =
    groupTexts (u.fields.map fieldText) ++
      u.constructors.map (fun c => bracedTexts (constructorText u.className c) c.body) ++
      groupTexts (u.events.map eventText) ++ u.methods.map fun m => bracedTexts (methodText m) m.body := by
  have hfields : textsOf u .field = u.fields.map fun f => [fieldText f] :=
    textsOf_eq (by rintro (_ | _) <;> simp [Member.field?, kindOf])
      (by rintro (f | _ | _ | _) x h <;> cases h; exact ⟨rfl, memberTexts_eq _ (.field f)⟩)
  have hconstructors : textsOf u .constructor =
      u.constructors.map fun c => bracedTexts (constructorText u.className c) c.body :=
    textsOf_eq (by rintro (_ | _) <;> simp [Member.constructor?, kindOf])
      (by rintro (_ | c | _ | _) x h <;> cases h; exact ⟨rfl, memberTexts_eq _ (.constructor c)⟩)
  have hevents : textsOf u .event = u.events.map fun e => [eventText e] :=
    textsOf_eq (by rintro (_ | _) <;> simp [Member.event?, kindOf])
      (by rintro (_ | _ | _ | e) x h <;> cases h; exact ⟨rfl, memberTexts_eq _ (.event e)⟩)
  have hmethods : textsOf u .method = u.methods.map fun m => bracedTexts (methodText m) m.body :=
    textsOf_eq (by rintro (_ | _) <;> simp [Member.method?, kindOf])
      (by rintro (_ | _ | m | _) x h <;> cases h; exact ⟨rfl, memberTexts_eq _ (.method m)⟩)
  have hflatten {α : Type} (text : α → String) (xs : List α) : (xs.map fun x => [text x]).flatten = xs.map text := by
    rw [← List.flatMap_def, List.map_eq_flatMap]
  rw [sectionTexts, hfields, hconstructors, hevents, hmethods, hflatten, hflatten]

/-- Lines at one depth. -/
theorem indents_level {α : Type} {depth : Nat} {text : α → String} (h : ∀ x, Solid (text x)) (xs : List α) :
    Indents depth (xs.map text) (xs.map fun x => (Line.mk depth (text x)).printed) depth := by
  induction xs with
  | nil => exact .done
  | cons x xs ih => exact .keep (h x) ih

/-- A body stands one brace deeper than its signature. -/
theorem indents_block {depth : Nat} {signature : String} (h : Solid signature) (body : List Stmt) :
    Indents depth (bracedTexts signature body) ((block depth signature body).map Line.printed) depth := by
  have hbody : Indents (depth + 1) (body.map stmtText ++ ["\x7d"]) _ depth :=
    (indents_level solid_stmtText body).append (.closes .done)
  have hlines : (block depth signature body).map Line.printed = indent depth signature :: indent depth "\x7b" ::
      (body.map (fun s => (Line.mk (depth + 1) (stmtText s)).printed) ++ [indent depth "\x7d"]) := by
    simp [block, Line.printed]
  rw [hlines, bracedTexts_eq]
  exact .keep h (.opens hbody)

/-- A group of lines at one depth, or no section. -/
theorem indents_group {α : Type} {depth : Nat} {text : α → String} (h : ∀ x, Solid (text x)) (xs : List α) :
    List.Forall₂ (fun texts lines => Indents depth texts (lines.map Line.printed) depth) (groupTexts (xs.map text))
      ([xs.map fun x => Line.mk depth (text x)].filter (!·.isEmpty)) := by
  have hlevel : Indents depth (xs.map text) _ depth := indents_level h xs
  cases xs with
  | nil => exact .nil
  | cons x xs =>
    refine .cons ?_ .nil
    rwa [List.map_map]

/-- The braced sections are all there, none being empty. -/
theorem indents_blocks {α : Type} {depth : Nat} {signature : α → String} {body : α → List Stmt}
    (h : ∀ x, Solid (signature x)) (xs : List α) :
    List.Forall₂ (fun texts lines => Indents depth texts (lines.map Line.printed) depth)
      (xs.map fun x => bracedTexts (signature x) (body x))
      ((xs.map fun x => block depth (signature x) (body x)).filter (!·.isEmpty)) := by
  induction xs with
  | nil => exact .nil
  | cons x xs ih => exact .cons (indents_block (h x) (body x)) ih

/-- Every section is indented from two open braces on, and leaves two. -/
theorem indents_sections (u : ProxyUnit) :
    List.Forall₂ (fun texts lines => Indents 2 texts (lines.map Line.printed) 2) (sectionTexts u) (sections u) := by
  rw [sectionTexts_eq, sections]
  simp only [List.filter_append]
  exact List.rel_append (List.rel_append (List.rel_append (indents_group solid_fieldText u.fields)
    (indents_blocks (solid_constructorText u.className) u.constructors)) (indents_group solid_eventText u.events))
    (indents_blocks solid_methodText u.methods)

/-! ## No line is broken -/

/-- The fixed characters of code break no line. -/
theorem fixedWithin_unbroken : FixedWithin fixedChars (· ≠ '\n') := by
  decide +kernel

theorem unbroken_spelling {t : TypeExpr} (h : ∀ name ∈ t.names, Within (· ≠ '\n') name) :
    Within (· ≠ '\n') t.spelling :=
  within_spelling fixedWithin_unbroken.spelling h

theorem unbroken_exprText {e : Expr} (h : AtomsWithin (· ≠ '\n') e.atoms) : Within (· ≠ '\n') (exprText e) :=
  within_exprText fixedWithin_unbroken h

theorem unbroken_stmtText {s : Stmt} (h : AtomsWithin (· ≠ '\n') s.atoms) : Within (· ≠ '\n') (stmtText s) := by
  cases s with
  | declare type name init =>
    cases init with
    | none =>
      simp only [Stmt.atoms, atomsWithin_type, atomsWithin_name] at h
      simp +decide only [stmtText, within_append, unbroken_spelling h.1, h.2.1]
    | some e =>
      simp only [Stmt.atoms, Option.toList_some, List.flatMap_singleton, atomsWithin_type, atomsWithin_name] at h
      simp +decide only [stmtText, within_append, unbroken_spelling h.1, h.2.1, unbroken_exprText h.2.2]
  | assign target value =>
    rw [Stmt.atoms, atomsWithin_append] at h
    simp +decide only [stmtText, within_append, unbroken_exprText h.1, unbroken_exprText h.2]
  | «return» value =>
    cases value with
    | none => exact (by decide : Within (· ≠ '\n') "return;")
    | some e =>
      simp only [Stmt.atoms, Option.toList_some, List.flatMap_singleton] at h
      simp +decide only [stmtText, within_append, unbroken_exprText h]
  | expr e =>
    rw [Stmt.atoms] at h
    simp +decide only [stmtText, within_append, unbroken_exprText h]
  | attach target event handler =>
    simp only [Stmt.atoms, atomsWithin_append, atomsWithin_name] at h
    simp +decide only [stmtText, within_append, unbroken_exprText h.1, h.2.1, unbroken_exprText h.2.2]
  | raise event args =>
    simp only [Stmt.atoms, atomsWithin_name] at h
    have hargs := within_commaSeparated fixedWithin_unbroken.spelling (within_exprTexts fixedWithin_unbroken h.2)
    simp +decide only [stmtText, within_append, h.1, hargs]

theorem unbroken_paramsText {params : List Param} (h : AtomsWithin (· ≠ '\n') (params.flatMap Param.atoms)) :
    Within (· ≠ '\n') (paramsText params) := by
  rw [atomsWithin_flatMap] at h
  refine within_commaSeparated fixedWithin_unbroken.spelling fun item hitem => ?_
  obtain ⟨p, hp, rfl⟩ := List.mem_map.mp hitem
  have hp := h p hp
  simp only [Param.atoms, atomsWithin_type, atomsWithin_name] at hp
  simp +decide only [within_append, unbroken_spelling hp.1, hp.2.1]

theorem unbroken_fieldText {f : Field} (h : AtomsWithin (· ≠ '\n') f.atoms) : Within (· ≠ '\n') (fieldText f) := by
  unfold fieldText
  cases hinit : f.init with
  | fixed path =>
    simp only [Field.atoms, hinit, atomsWithin_type, atomsWithin_name, atomsWithin_path] at h
    simp +decide only [within_append, unbroken_spelling h.1, h.2.1, h.2.2.1]
  | fromParam name =>
    simp only [Field.atoms, hinit, atomsWithin_type, atomsWithin_name] at h
    simp +decide only [within_append, unbroken_spelling h.1, h.2.1]

theorem unbroken_bracedTexts {signature : String} (h : Within (· ≠ '\n') signature) {body : List Stmt}
    (hbody : AtomsWithin (· ≠ '\n') (body.flatMap Stmt.atoms)) :
    ∀ text ∈ bracedTexts signature body, Within (· ≠ '\n') text := by
  rw [atomsWithin_flatMap] at hbody
  simp only [bracedTexts_eq, List.cons_append, List.forall_mem_cons, List.forall_mem_append, List.forall_mem_map]
  exact ⟨h, by decide, fun s hs => unbroken_stmtText (hbody s hs), by decide⟩

/-- No text of a member breaks a line. -/
theorem unbroken_memberTexts {className : String} (hname : Within (· ≠ '\n') className) {m : Member}
    (h : AtomsWithin (· ≠ '\n') m.atoms) : ∀ text ∈ memberTexts className m, Within (· ≠ '\n') text := by
  rw [memberTexts_eq]
  cases m with
  | field f => exact List.forall_mem_singleton.mpr (unbroken_fieldText h)
  | event e =>
    simp only [Member.atoms, atomsWithin_type, atomsWithin_name] at h
    refine List.forall_mem_singleton.mpr ?_
    unfold eventText
    simp only [within_append]
    exact ⟨⟨⟨⟨by decide, unbroken_spelling h.1⟩, by decide⟩, h.2.1⟩, by decide⟩
  | constructor c =>
    simp only [Member.atoms, atomsWithin_append] at h
    refine unbroken_bracedTexts ?_ h.2
    unfold constructorText
    simp only [within_append]
    exact ⟨⟨⟨⟨by decide, hname⟩, by decide⟩, unbroken_paramsText h.1⟩, by decide⟩
  | method m =>
    simp only [Member.atoms, List.cons_append, atomsWithin_type, atomsWithin_name, atomsWithin_append] at h
    refine unbroken_bracedTexts ?_ h.2.2.2
    unfold methodText
    simp only [within_append]
    have hparams := unbroken_paramsText h.2.2.1
    exact ⟨⟨⟨⟨⟨⟨by decide, unbroken_spelling h.1⟩, by decide⟩, h.2.1⟩, by decide⟩, hparams⟩, by decide⟩

/-- No text of a unit breaks a line. -/
theorem unbroken_sectionTexts {u : ProxyUnit} (h : AtomsWithin (· ≠ '\n') u.atoms) :
    ∀ text ∈ (sectionTexts u).flatten, Within (· ≠ '\n') text := by
  simp only [ProxyUnit.atoms, atomsWithin_name, atomsWithin_flatMap] at h
  intro text htext
  obtain ⟨m, hm, hmem⟩ := List.mem_flatMap.mp ((sectionTexts_perm u).mem_iff.mp htext)
  exact unbroken_memberTexts h.2.1 (h.2.2 m hm) text hmem

/-! ## The layout of a unit -/

/-- The lines before the sections. -/
def openingLines (u : ProxyUnit) : List Line :=
  [⟨0, "namespace " ++ u.namespaceName⟩, ⟨0, "\x7b"⟩, ⟨1, "public class " ++ u.className⟩, ⟨1, "\x7b"⟩]

theorem solid_namespaceText (u : ProxyUnit) : Solid ("namespace " ++ u.namespaceName) :=
  (by decide : Solid "namespace ").append_left _

theorem solid_classText (u : ProxyUnit) : Solid ("public class " ++ u.className) :=
  (by decide : Solid "public class ").append_left _

theorem indents_opening (u : ProxyUnit) : Indents 0 (openingTexts u) ((openingLines u).map Line.printed) 2 :=
  .keep (solid_namespaceText u) (.opens (.keep (solid_classText u) (.opens .done)))

/-- The lines after the sections. -/
def closingLines : List Line :=
  [⟨1, "\x7d"⟩, ⟨0, "\x7d"⟩]

theorem indents_closing : Indents 2 closingTexts (closingLines.map Line.printed) 0 :=
  .closes (.closes .done)

theorem indents_blocks_printed (u : ProxyUnit) :
    List.Forall₂ (fun texts lines => Indents 2 texts lines 2) (sectionTexts u)
      ((sections u).map (List.map Line.printed)) :=
  List.forall₂_map_right_iff.mpr (indents_sections u)

/-- What indenting does not take from a text holds of all lines of a unit, if it holds of its texts. -/
theorem forall_printed {p : String → Prop}
    (hindent : ∀ {depth : Nat} {text : String}, p text → p (indent depth text)) {u : ProxyUnit}
    (hopening : ∀ text ∈ openingTexts u, p text) (hsections : ∀ text ∈ (sectionTexts u).flatten, p text)
    (hclosing : ∀ text ∈ closingTexts, p text) :
    ∀ line ∈ (openingLines u).map Line.printed ++ ((sections u).map (List.map Line.printed)).flatten ++
      closingLines.map Line.printed, p line := by
  simp only [List.forall_mem_append]
  have hblocks := Indents.forall_block hindent (indents_blocks_printed u) hsections
  exact ⟨⟨(indents_opening u).forall_line hindent hopening, hblocks⟩, indents_closing.forall_line hindent hclosing⟩

/-- No text of a member is blank. -/
theorem inked_memberTexts (className : String) (m : Member) :
    ∀ text ∈ memberTexts className m, isBlankText text = false := by
  have hbody : ∀ {signature : String}, Solid signature → ∀ body : List Stmt,
      ∀ text ∈ bracedTexts signature body, isBlankText text = false := by
    intro signature h body
    simp only [bracedTexts_eq, List.cons_append, List.forall_mem_cons, List.forall_mem_append, List.forall_mem_map]
    exact ⟨h.isBlankText_eq, by decide, fun s _ => (solid_stmtText s).isBlankText_eq, by decide⟩
  rw [memberTexts_eq]
  cases m with
  | field f => exact List.forall_mem_singleton.mpr (solid_fieldText f).isBlankText_eq
  | constructor c => exact hbody (solid_constructorText className c) c.body
  | method m => exact hbody (solid_methodText m) m.body
  | event e => exact List.forall_mem_singleton.mpr (solid_eventText e).isBlankText_eq

/-- The lines that a unit is printed with, as a layout. -/
def layoutOf (u : ProxyUnit) : Layout u where
  opening := (openingLines u).map Line.printed
  blocks := (sections u).map (List.map Line.printed)
  closing := closingLines.map Line.printed
  opens := indents_opening u
  keeps := indents_blocks_printed u
  closes := indents_closing
  block_ne_nil := by
    intro block hblock
    obtain ⟨lines, hlines, rfl⟩ := List.mem_map.mp hblock
    have hne : lines.isEmpty = false := by simpa using List.of_mem_filter hlines
    simpa using hne
  not_blank := by
    refine forall_printed (p := fun line => isBlankText line = false) isBlankText_indent ?_ ?_ (by decide)
    · simp only [openingTexts, List.forall_mem_cons]
      exact ⟨(solid_namespaceText u).isBlankText_eq, by decide, (solid_classText u).isBlankText_eq, by decide⟩
    · intro text htext
      obtain ⟨m, -, hmem⟩ := List.mem_flatMap.mp ((sectionTexts_perm u).mem_iff.mp htext)
      exact inked_memberTexts u.className m text hmem

/-- The text of a unit is that of the header and its layout. -/
theorem render_eq_joinLines (u : ProxyUnit) :
    render u = joinLines (header.map Line.text ++ (layoutOf u).lines) := by
  have hheader : header.map Line.printed = header.map Line.text := by
    unfold header
    rw [List.map_map, List.map_map]
    exact List.map_congr_left fun text _ => indent_zero text
  have hblank : joinLines [""] = "\n" := by decide
  have hsections : (sections u).map renderSection = ((sections u).map (List.map Line.printed)).map joinLines := by
    rw [List.map_map]
    exact List.map_congr_left fun lines _ => renderSection_eq lines
  unfold Layout.lines
  simp only [joinLines_append, joinLines_intercalate, hblank, ← hheader]
  unfold render
  rw [renderSection_eq, renderSection_eq, renderSection_eq, hsections]
  simp only [String.append_assoc]
  rfl

/-- No line of a unit is broken. -/
theorem unbroken_lines {u : ProxyUnit} (h : AtomsWithin (· ≠ '\n') u.atoms) :
    ∀ line ∈ header.map Line.text ++ (layoutOf u).lines, Within (· ≠ '\n') line := by
  have hheader : ∀ line ∈ header.map Line.text, Within (· ≠ '\n') line := by decide +kernel
  have hblank : Within (· ≠ '\n') "" := by decide
  have hopening : ∀ text ∈ openingTexts u, Within (· ≠ '\n') text := by
    simp only [ProxyUnit.atoms, atomsWithin_name] at h
    simp +decide only [openingTexts, List.forall_mem_cons, within_append, h.1, h.2.1]
  have hprinted := forall_printed (p := Within (· ≠ '\n')) within_indent hopening (unbroken_sectionTexts h) (by decide)
  unfold Layout.lines
  simp only [List.forall_mem_append, List.forall_mem_singleton] at hprinted ⊢
  refine ⟨hheader, ⟨⟨hblank, hprinted.1.1⟩, fun line hline => ?_⟩, hprinted.2⟩
  rcases mem_intercalate hline with rfl | hmem
  · exact hblank
  · exact hprinted.1.2 line hmem

/-- **A printed unit is laid out.** If none of its names, paths and types breaks a line, then the lines of its text are
the header's and those of a layout, each with a line break at its end. After the header, the texts of the openings, the
sections and the closing braces stand one after the other on the lines that are not blank, indented as the braces say
from none open to none open; one blank line stands before them and between two sections, and no other. In the sections
each member and each statement of the unit stands once. -/
theorem linesOf_render (u : ProxyUnit) (h : AtomsWithin (· ≠ '\n') u.atoms) :
    ∃ layout : Layout u, linesOf (render u) = header.map Line.text ++ layout.lines ++ [""] ∧
      Indents 0 (openingTexts u ++ (sectionTexts u).flatten ++ closingTexts) (layout.lines.filter (!isBlankText ·)) 0 ∧
      (sectionTexts u).flatten.Perm (u.members.flatMap (memberTexts u.className)) := by
  refine ⟨layoutOf u, ?_, (layoutOf u).indents, sectionTexts_perm u⟩
  rw [render_eq_joinLines]
  exact linesOf_joinLines (unbroken_lines h)

/-- A unit with every kind of member, none of them in the order of the sections: a method, a field, a constructor and an
event. -/
def mixedUnit : ProxyUnit where
  namespaceName := "App"
  className := "Doc"
  members :=
    [.method { name := "Save", returns := .named "System.Void",
               body := [.raise "Saved" [.field "_host"], .return none] },
      .field { name := "_host", type := .named "Ext.Host", init := .fixed "Ext.Host.Current" },
      .constructor { params := [⟨"host", .named "Ext.Host"⟩], body := [.assign (.field "_host") (.param "host")] },
      .event { name := "Saved", handlerType := .named "Ext.Handler" }]

/-- Its lines after the header. -/
def mixedLines : List String :=
  ["",
    "namespace App",
    "\x7b",
    "    public class Doc",
    "    \x7b",
    "        private Ext.Host _host = Ext.Host.Current;",
    "",
    "        public Doc(Ext.Host host)",
    "        \x7b",
    "            this._host = host;",
    "        \x7d",
    "",
    "        public event Ext.Handler Saved;",
    "",
    "        public void Save()",
    "        \x7b",
    "            this.Saved?.Invoke(this._host);",
    "            return;",
    "        \x7d",
    "    \x7d",
    "\x7d"]

/-- No part of it breaks a line, so it is laid out, on these lines. -/
theorem linesOf_render_mixedUnit : AtomsWithin (· ≠ '\n') mixedUnit.atoms ∧
    linesOf (render mixedUnit) = header.map Line.text ++ mixedLines ++ [""] ∧
    ∃ layout : Layout mixedUnit, layout.lines = mixedLines ∧
      Indents 0 (openingTexts mixedUnit ++ (sectionTexts mixedUnit).flatten ++ closingTexts)
        (mixedLines.filter (!isBlankText ·)) 0 := by
  have h : AtomsWithin (· ≠ '\n') mixedUnit.atoms := by decide
  have hprinted : linesOf (render mixedUnit) = header.map Line.text ++ mixedLines ++ [""] := by
    have hlines : (layoutOf mixedUnit).lines = mixedLines := by decide +kernel
    rw [render_eq_joinLines, linesOf_joinLines (unbroken_lines h), hlines]
  obtain ⟨layout, hlines, hindents, -⟩ := linesOf_render mixedUnit h
  have hsame : layout.lines = mixedLines := by
    rw [hprinted, List.append_left_inj, List.append_right_inj] at hlines
    exact hlines.symm
  exact ⟨h, hprinted, layout, hsame, hsame ▸ hindents⟩

end BoundaryProxy.Source
