import BoundaryProxy.Proofs.Toml.Statement

/-!
# `Proofs.Toml.RoundTrip` — documents are read back from TOML

A record is written as its values and then its arrays of tables (`Layout`), so a document and its text meet in a list of
statements: the text is theirs (`Plain.toList_pretty`), and what they put together is the record
(`Plain.addSections_statements`, `tableDocument_table`).

The root table grows at its end only. A pair has a new key, and an element either begins an array, whose key is new, or
goes to the array that was begun last. So each step of a section is an equation about a table with one more entry, and
the induction over the elements of an array carries the entry of this array.

* **`Plain.read_pretty`**: a record is read back from its text.
* **`Plain.read_kept`**: a record has its fields' texts one after another as its text, and when some are taken out, what
  is left is read as the record without these fields.
-/

namespace BoundaryProxy.Toml

open Document

variable {key : String} {d : Document} {t root : Table} {tables : List Table} {node old : Node}
  {fs : List (String × Document)} {pairs : List (List String × Document)} {more : List Statement}

/-! ## Tables -/

theorem lookup_of_not_mem (h : key ∉ t.map (·.1)) : t.lookup key = none :=
  List.lookup_eq_none_iff.mpr fun _ hmem => bne_iff_ne.mpr fun heq => h (heq ▸ List.mem_map_of_mem hmem)

/-- A new key is the last one. -/
theorem setKey_of_not_mem (h : key ∉ t.map (·.1)) : setKey key node t = t ++ [(key, node)] := by
  induction t with
  | nil => rfl
  | cons entry t ih =>
    rw [List.map_cons, List.mem_cons, not_or] at h
    rw [setKey, if_neg (Ne.symm h.1), ih h.2, List.cons_append]

/-- A key that was the last one stays the last one. -/
theorem setKey_concat (h : key ∉ t.map (·.1)) : setKey key node (t ++ [(key, old)]) = t ++ [(key, node)] := by
  induction t with
  | nil => exact if_pos rfl
  | cons entry t ih =>
    rw [List.map_cons, List.mem_cons, not_or] at h
    rw [List.cons_append, setKey, if_neg (Ne.symm h.1), ih h.2, List.cons_append]

theorem lookup_concat (h : key ∉ t.map (·.1)) : (t ++ [(key, node)]).lookup key = some node := by
  rw [List.lookup_append, lookup_of_not_mem h, Option.none_or, List.lookup_cons_self]

theorem addPair_of_not_mem (h : key ∉ t.map (·.1)) : addPair [key] d t = some (t ++ [(key, .value d)]) := by
  show (if _ || (t.lookup key).isSome then none else some (setKey key (.value d) t)) = _
  rw [lookup_of_not_mem h, setKey_of_not_mem h]
  rfl

/-- The table of some fields. -/
def valueTable (fs : List (String × Document)) : Table :=
  fs.map fun f => (f.1, .value f.2)

/-- The pairs of some fields. -/
def keyPairs (fs : List (String × Document)) : List (List String × Document) :=
  fs.map fun f => ([f.1], f.2)

theorem addPairs_keyPairs (h : (t.map (·.1) ++ fs.map (·.1)).Nodup) :
    addPairs (keyPairs fs) t = some (t ++ valueTable fs) := by
  induction fs generalizing t with
  | nil => exact congrArg some (List.append_nil t).symm
  | cons f fs ih =>
    have hnew : f.1 ∉ t.map (·.1) := fun hmem =>
      (List.nodup_append.mp h).2.2 _ hmem _ (List.mem_map_of_mem List.mem_cons_self) rfl
    have hmore : ((t ++ [(f.1, Node.value f.2)]).map (·.1) ++ fs.map (·.1)).Nodup := by
      simpa using h
    show (addPair [f.1] f.2 t).bind (addPairs (keyPairs fs)) = _
    rw [addPair_of_not_mem hnew, Option.bind_some, ih hmore, List.append_assoc]
    rfl

/-- The first element of an array is put behind what was there. -/
theorem addElement_first (h : key ∉ root.map (·.1)) (hpairs : addPairs pairs [] = some t) :
    addElement [key] pairs root = some (root ++ [(key, .elements [t])]) := by
  simp only [addElement, List.getLast?_singleton, List.dropLast_singleton, updateAt, lookup_of_not_mem h, hpairs]
  exact congrArg some (setKey_of_not_mem h)

/-- One more element goes to those that are there. -/
theorem addElement_next (h : key ∉ root.map (·.1)) (hpairs : addPairs pairs [] = some t) :
    addElement [key] pairs (root ++ [(key, .elements tables)]) = some (root ++ [(key, .elements (t :: tables))]) := by
  simp only [addElement, List.getLast?_singleton, List.dropLast_singleton, updateAt, lookup_concat h, hpairs]
  exact congrArg some (setKey_concat h)

/-! ## Sections -/

/-- The statements of some fields. -/
def pairStatements (fs : List (String × Document)) : List Statement :=
  fs.map fun f => .pair [f.1] f.2

/-- The statements of an array of tables: each element begins with a header. -/
def elementStatements (key : String) (records : List (List (String × Document))) : List Statement :=
  records.flatMap fun r => .element [key] :: pairStatements r

theorem leadingPairs_append : leadingPairs (pairStatements fs ++ more) = keyPairs fs ++ leadingPairs more := by
  induction fs with
  | nil => rfl
  | cons f fs ih => exact congrArg (([f.1], f.2) :: ·) ih

theorem addSections_append : addSections root (pairStatements fs ++ more) = addSections root more := by
  induction fs with
  | nil => rfl
  | cons f fs ih => exact ih

theorem leadingPairs_elementStatements {records : List (List (String × Document))} (h : leadingPairs more = []) :
    leadingPairs (elementStatements key records ++ more) = [] := by
  cases records with
  | nil => exact h
  | cons r records => rfl

/-- One element of an array is added with the pairs of its own section. -/
theorem addSections_element {r : List (String × Document)} {records : List (List (String × Document))} {root' : Table}
    (hmore : leadingPairs more = []) (hadd : addElement [key] (keyPairs r) root = some root') :
    addSections root (elementStatements key (r :: records) ++ more) =
      addSections root' (elementStatements key records ++ more) := by
  have hsplit : elementStatements key (r :: records) ++ more =
      .element [key] :: (pairStatements r ++ (elementStatements key records ++ more)) := by
    simp [elementStatements]
  have hpairs : leadingPairs (pairStatements r ++ (elementStatements key records ++ more)) = keyPairs r := by
    rw [leadingPairs_append, leadingPairs_elementStatements hmore, List.append_nil]
  rw [hsplit, addSections, hpairs, hadd]
  exact addSections_append

/-- The elements of an array that is the last in its table are added to it. -/
theorem addSections_next {records : List (List (String × Document))} (hkey : key ∉ root.map (·.1))
    (hrecords : ∀ r ∈ records, (r.map (·.1)).Nodup) (hmore : leadingPairs more = []) :
    addSections (root ++ [(key, .elements tables)]) (elementStatements key records ++ more) =
      addSections (root ++ [(key, .elements ((records.map valueTable).reverse ++ tables))]) more := by
  induction records generalizing tables with
  | nil => rfl
  | cons r records ih =>
    obtain ⟨hr, hrecords⟩ := List.forall_mem_cons.mp hrecords
    -- elements are kept with the newest one first
    rw [addSections_element hmore (addElement_next hkey (addPairs_keyPairs hr)), ih hrecords, List.map_cons,
      List.reverse_cons, List.append_assoc, List.singleton_append, List.nil_append]

/-- The node of an array of tables. -/
def elementsNode (records : List (List (String × Document))) : Node :=
  .elements (records.map valueTable).reverse

/-- **An array of tables** is put together from the sections of its elements. -/
theorem addSections_elements {records : List (List (String × Document))} (hne : records ≠ [])
    (hkey : key ∉ root.map (·.1)) (hrecords : ∀ r ∈ records, (r.map (·.1)).Nodup) (hmore : leadingPairs more = []) :
    addSections root (elementStatements key records ++ more) =
      addSections (root ++ [(key, elementsNode records)]) more := by
  cases records with
  | nil => exact absurd rfl hne
  | cons r records =>
    obtain ⟨hr, hrecords⟩ := List.forall_mem_cons.mp hrecords
    rw [addSections_element hmore (addElement_first hkey (addPairs_keyPairs hr)), addSections_next hkey hrecords hmore,
      List.nil_append, ← List.reverse_cons, ← List.map_cons]
    rfl

theorem leadingPairs_arrays (arrays : List (String × List (List (String × Document)))) :
    leadingPairs (arrays.flatMap fun a => elementStatements a.1 a.2) = [] := by
  induction arrays with
  | nil => rfl
  | cons a arrays ih =>
    rw [List.flatMap_cons]
    exact leadingPairs_elementStatements ih

/-- **Arrays of tables** are put together one after another. -/
theorem addSections_arrays {arrays : List (String × List (List (String × Document)))}
    (hkeys : (root.map (·.1) ++ arrays.map (·.1)).Nodup) (hne : ∀ a ∈ arrays, a.2 ≠ [])
    (hrecords : ∀ a ∈ arrays, ∀ r ∈ a.2, (r.map (·.1)).Nodup) :
    addSections root (arrays.flatMap fun a => elementStatements a.1 a.2) =
      some (root ++ arrays.map fun a => (a.1, elementsNode a.2)) := by
  induction arrays generalizing root with
  | nil => exact congrArg some (List.append_nil root).symm
  | cons a arrays ih =>
    obtain ⟨ha, hne⟩ := List.forall_mem_cons.mp hne
    obtain ⟨har, hrecords⟩ := List.forall_mem_cons.mp hrecords
    have hnew : a.1 ∉ root.map (·.1) := fun hmem =>
      (List.nodup_append.mp hkeys).2.2 _ hmem _ List.mem_cons_self rfl
    have hmore : ((root ++ [(a.1, elementsNode a.2)]).map (·.1) ++ arrays.map (·.1)).Nodup := by
      simpa using hkeys
    rw [List.flatMap_cons, addSections_elements ha hnew har (leadingPairs_arrays arrays), ih hmore hne hrecords,
      List.append_assoc, List.map_cons, List.singleton_append]

/-! ## Documents -/

/-- Keys that a record can be written with: they are bare and distinct. -/
structure PlainKeys (fs : List (String × Document)) : Prop where
  bare : ∀ f ∈ fs, BareKey f.1
  distinct : (fs.map (·.1)).Nodup

/-- A record in the order in which it is written: its values, then its arrays of tables. -/
structure Layout where
  values : List (String × Document)
  arrays : List (String × List (List (String × Document)))

/-- The text of one field: its line, or the elements of its array. -/
def fieldText (f : String × Document) : String :=
  if isElements f.2 then elementsText f.1 f.2 else pairLine f.1 f.2

theorem Value.isElements_eq_false (h : Value d) : isElements d = false := by
  cases h with
  | text s => rfl
  | texts ss => cases ss <;> rfl

theorem entriesDocument_eq_map (t : Table) : entriesDocument t = t.map fun e => (some e.1, e.2.document) := by
  induction t with
  | nil => rw [entriesDocument, List.map_nil]
  | cons e t ih => rw [entriesDocument, ih, List.map_cons]

theorem elementsDocument_eq_map (tables : List Table) :
    elementsDocument tables = tables.map fun t => .record (entriesDocument t) := by
  induction tables with
  | nil => rw [elementsDocument, List.map_nil]
  | cons t tables ih => rw [elementsDocument, ih, List.map_cons]

theorem entriesDocument_valueTable (fs : List (String × Document)) :
    entriesDocument (valueTable fs) = fs.map fun f => (some f.1, f.2) := by
  rw [entriesDocument_eq_map, valueTable, List.map_map]
  refine List.map_congr_left fun f _ => ?_
  rw [Function.comp_apply, Node.document]

theorem document_elementsNode (records : List (List (String × Document))) :
    (elementsNode records).document = .list (records.map ofFields) := by
  rw [elementsNode, Node.document, elementsDocument_eq_map, List.map_reverse, List.reverse_reverse, List.map_map]
  refine congrArg Document.list (List.map_congr_left fun r _ => ?_)
  rw [Function.comp_apply, entriesDocument_valueTable]
  rfl

/-! ## Texts -/

theorem toList_pairLines (fs : List (String × Document)) :
    (pairLines (fs.map fun f => (some f.1, f.2))).toList = statementsText (pairStatements fs) := by
  rw [pairLines, String.toList_join, List.map_map, List.flatMap_map, statementsText, pairStatements, List.flatMap_map]
  rfl

theorem toList_elementText (key : String) (r : List (String × Document)) :
    (elementText key (ofFields r)).toList = statementsText (.element [key] :: pairStatements r) := by
  show ("\n[[" ++ key ++ "]]\n" ++ pairLines (r.map fun f => (some f.1, f.2))).toList = _
  rw [String.toList_append, toList_pairLines]
  rfl

theorem toList_elementsText (key : String) (records : List (List (String × Document))) :
    (elementsText key (.list (records.map ofFields))).toList = statementsText (elementStatements key records) := by
  rw [elementsText, String.toList_join, List.map_map, List.flatMap_map, statementsText, elementStatements,
    List.flatMap_assoc]
  exact List.flatMap_congr fun r _ => toList_elementText key r

theorem Statement.Plain.toList_text_ne_nil {st : Statement} (h : st.Plain) : ∃ first more,
    st.text.toList = first :: more ∧ first ≠ '\uFEFF' := by
  cases h with
  | @pair key d hkey _ =>
    obtain ⟨first, more, hfirst, -, -, -, -, hmark⟩ := hkey.exists_cons
    refine ⟨first, more ++ (" = " ++ valueText d ++ "\n").toList, ?_, hmark⟩
    simp [Statement.text, pairLine, hfirst]
  | @element key hkey => exact ⟨'\n', _, by simp [Statement.text]; rfl, by decide⟩

/-- There is a character for each statement. -/
theorem length_le_statementsText {sts : List Statement} (h : ∀ st ∈ sts, st.Plain) :
    sts.length ≤ (statementsText sts).length := by
  induction sts with
  | nil => exact Nat.le_refl 0
  | cons st sts ih =>
    obtain ⟨hst, hsts⟩ := List.forall_mem_cons.mp h
    obtain ⟨first, more, htext, -⟩ := hst.toList_text_ne_nil
    have hlength := ih hsts
    rw [statementsText, List.flatMap_cons, htext, List.length_append, List.length_cons, List.length_cons]
    rw [statementsText] at hlength
    omega

/-- No mark of byte order stands before statements. -/
theorem dropByteOrderMark_statementsText {sts : List Statement} (h : ∀ st ∈ sts, st.Plain) :
    dropByteOrderMark (statementsText sts) = statementsText sts := by
  cases sts with
  | nil => rfl
  | cons st sts =>
    obtain ⟨first, more, htext, hmark⟩ := (h st List.mem_cons_self).toList_text_ne_nil
    rw [statementsText, List.flatMap_cons, htext, List.cons_append, dropByteOrderMark]
    exact fun _ heq => hmark (List.cons.inj heq).1

/-- **What a text says** is put together from its statements. -/
theorem read_of_statements {text : String} {sts : List Statement} (htext : text.toList = statementsText sts)
    (h : ∀ st ∈ sts, st.Plain) (hpairs : addPairs (leadingPairs sts) [] = some root)
    (hsections : addSections root sts = some t) : read text = some (tableDocument t) := by
  have hsts : readStatements ((statementsText sts).length + 1) (statementsText sts) = some sts :=
    readStatements_statementsText h (Nat.lt_succ_of_le (length_le_statementsText h))
  unfold read
  simp only [htext, dropByteOrderMark_statementsText h, hsts, hpairs, hsections, bind, Option.bind, pure]

namespace Layout

variable {l : Layout}

/-- The fields of the record. -/
def fields (l : Layout) : List (String × Document) :=
  l.values ++ l.arrays.map fun a => (a.1, .list (a.2.map ofFields))

/-- The statements that write the record. -/
def statements (l : Layout) : List Statement :=
  pairStatements l.values ++ l.arrays.flatMap fun a => elementStatements a.1 a.2

/-- The table that the statements make. -/
def table (l : Layout) : Table :=
  valueTable l.values ++ l.arrays.map fun a => (a.1, elementsNode a.2)

/-- The record can be written: keys are bare and distinct, and no array is empty. -/
structure Plain (l : Layout) : Prop where
  keys : PlainKeys l.fields
  values : ∀ f ∈ l.values, Value f.2
  nonempty : ∀ a ∈ l.arrays, a.2 ≠ []
  records : ∀ a ∈ l.arrays, ∀ r ∈ a.2, PlainKeys r ∧ ∀ f ∈ r, Value f.2

theorem Plain.isElements_array (h : l.Plain) {f : String × Document}
    (hf : f ∈ l.arrays.map fun a => (a.1, Document.list (a.2.map ofFields))) : isElements f.2 = true := by
  obtain ⟨a, ha, rfl⟩ := List.mem_map.mp hf
  cases hrecords : a.2 with
  | nil => exact absurd hrecords (h.nonempty a ha)
  | cons r records => rfl

/-- **A record is written** field by field. -/
theorem Plain.pretty_eq (h : l.Plain) : pretty (ofFields l.fields) = String.join (l.fields.map fieldText) := by
  have hvalue : ∀ f ∈ l.values, isElements f.2 = false := fun f hf => (h.values f hf).isElements_eq_false
  have hvalues : l.fields.filter (fun f => !isElements f.2) = l.values := by
    rw [fields, List.filter_append, List.filter_eq_self.mpr fun f hf => by rw [hvalue f hf]; rfl,
      List.filter_eq_nil_iff.mpr fun f hf => by rw [h.isElements_array hf]; decide, List.append_nil]
  have harrays : l.fields.filter (fun f => isElements f.2) =
      l.arrays.map fun a => (a.1, Document.list (a.2.map ofFields)) := by
    rw [fields, List.filter_append, List.filter_eq_nil_iff.mpr fun f hf => by rw [hvalue f hf]; decide,
      List.filter_eq_self.mpr fun f hf => h.isElements_array hf, List.nil_append]
  have hlines : pairLines (l.values.map fun f => (some f.1, f.2)) = String.join (l.values.map fieldText) := by
    rw [pairLines, List.map_map]
    refine congrArg String.join (List.map_congr_left fun f hf => ?_)
    rw [fieldText, hvalue f hf]
    rfl
  have helements : ∀ fs : List (String × Document), (∀ f ∈ fs, isElements f.2 = true) →
      String.join ((fs.map fun f => (some f.1, f.2)).map fun f => elementsText (f.1.getD "") f.2) =
        String.join (fs.map fieldText) := by
    intro fs hfs
    rw [List.map_map]
    refine congrArg String.join (List.map_congr_left fun f hf => ?_)
    rw [fieldText, hfs f hf]
    rfl
  -- the printer sorts the fields into values and arrays, and a layout has them in this order already
  show pairLines ((l.fields.map fun f => (some f.1, f.2)).filter _) ++
    String.join (((l.fields.map fun f => (some f.1, f.2)).filter _).map _) = _
  rw [List.filter_map, List.filter_map]
  show pairLines ((l.fields.filter fun f => !isElements f.2).map fun f => (some f.1, f.2)) ++
    String.join (((l.fields.filter fun f => isElements f.2).map fun f => (some f.1, f.2)).map _) = _
  rw [hvalues, harrays, hlines, helements _ fun f hf => h.isElements_array hf, ← String.join_append, ← List.map_append]
  rfl

theorem pairStatements_plain {fs : List (String × Document)} (hkeys : ∀ f ∈ fs, BareKey f.1)
    (hvalues : ∀ f ∈ fs, Value f.2) : ∀ st ∈ pairStatements fs, st.Plain := by
  intro st hst
  obtain ⟨f, hf, rfl⟩ := List.mem_map.mp hst
  exact .pair (hkeys f hf) (hvalues f hf)

theorem Plain.statements_plain (h : l.Plain) : ∀ st ∈ l.statements, st.Plain := by
  intro st hst
  rcases List.mem_append.mp hst with hst | hst
  · exact pairStatements_plain (fun f hf => h.keys.bare f (List.mem_append_left _ hf)) h.values st hst
  · obtain ⟨a, ha, hst⟩ := List.mem_flatMap.mp hst
    obtain ⟨r, hr, hst⟩ := List.mem_flatMap.mp hst
    rcases List.mem_cons.mp hst with rfl | hst
    · exact .element (h.keys.bare _ (List.mem_append_right _ (List.mem_map_of_mem ha)))
    · exact pairStatements_plain (h.records a ha r hr).1.bare (h.records a ha r hr).2 st hst

theorem Plain.addSections_statements (h : l.Plain) :
    addSections (valueTable l.values) l.statements = some l.table := by
  have hkeys : ((valueTable l.values).map (·.1) ++ l.arrays.map (·.1)).Nodup := by
    simpa [fields, valueTable, Function.comp_def] using h.keys.distinct
  unfold statements
  rw [addSections_append, addSections_arrays hkeys h.nonempty fun a ha r hr => (h.records a ha r hr).1.distinct]
  rfl

/-- The table as a document is the record. -/
theorem tableDocument_table (l : Layout) : tableDocument l.table = ofFields l.fields := by
  have harrays : entriesDocument (l.arrays.map fun a => (a.1, elementsNode a.2)) =
      (l.arrays.map fun a => (a.1, Document.list (a.2.map ofFields))).map fun f => (some f.1, f.2) := by
    rw [entriesDocument_eq_map, List.map_map, List.map_map]
    exact List.map_congr_left fun a _ => congrArg (some a.1, ·) (document_elementsNode a.2)
  unfold tableDocument table fields ofFields
  rw [entriesDocument_eq_map, List.map_append, ← entriesDocument_eq_map, ← entriesDocument_eq_map,
    entriesDocument_valueTable, harrays, List.map_append]
  rfl

/-- The text of the record is the text of its statements. -/
theorem Plain.toList_pretty (h : l.Plain) : (pretty (ofFields l.fields)).toList = statementsText l.statements := by
  have hvalues : l.values.flatMap (fun f => (fieldText f).toList) = statementsText (pairStatements l.values) := by
    rw [statementsText, pairStatements, List.flatMap_map]
    refine List.flatMap_congr fun f hf => ?_
    rw [fieldText, (h.values f hf).isElements_eq_false]
    rfl
  have harrays : (l.arrays.map fun a => (a.1, Document.list (a.2.map ofFields))).flatMap
      (fun f => (fieldText f).toList) = statementsText (l.arrays.flatMap fun a => elementStatements a.1 a.2) := by
    rw [statementsText, List.flatMap_assoc, List.flatMap_map]
    refine List.flatMap_congr fun a ha => ?_
    rw [fieldText, h.isElements_array (List.mem_map_of_mem ha)]
    exact toList_elementsText a.1 a.2
  rw [h.pretty_eq, String.toList_join, List.flatMap_map, fields, List.flatMap_append, hvalues, harrays, statementsText,
    statementsText, ← List.flatMap_append]
  rfl

/-- **A record** is read back from its text. -/
theorem Plain.read_pretty (h : l.Plain) : read (pretty (ofFields l.fields)) = some (ofFields l.fields) := by
  have hpairs : addPairs (leadingPairs l.statements) [] = some (valueTable l.values) := by
    have hdistinct : (l.values.map (·.1)).Nodup := by
      have hkeys := h.keys.distinct
      rw [fields, List.map_append] at hkeys
      exact (List.nodup_append.mp hkeys).1
    rw [statements, leadingPairs_append, leadingPairs_arrays, List.append_nil]
    exact addPairs_keyPairs hdistinct
  exact (read_of_statements h.toList_pretty h.statements_plain hpairs h.addSections_statements).trans
    (congrArg some (tableDocument_table l))

/-! ## Fields left out -/

/-- The record without some of its fields. -/
def keep (l : Layout) (kept : String → Bool) : Layout :=
  ⟨l.values.filter fun f => kept f.1, l.arrays.filter fun a => kept a.1⟩

theorem fields_keep (l : Layout) (kept : String → Bool) : (l.keep kept).fields = l.fields.filter fun f => kept f.1 := by
  rw [fields, fields, List.filter_append, List.filter_map]
  rfl

theorem Plain.keep (h : l.Plain) (kept : String → Bool) : (l.keep kept).Plain where
  keys := by
    rw [fields_keep]
    exact {
      bare := fun f hf => h.keys.bare f (List.mem_of_mem_filter hf)
      distinct := h.keys.distinct.sublist (List.filter_sublist.map _) }
  values := fun f hf => h.values f (List.mem_of_mem_filter hf)
  nonempty := fun a ha => h.nonempty a (List.mem_of_mem_filter ha)
  records := fun a ha => h.records a (List.mem_of_mem_filter ha)

/-- **The texts of the fields that are kept** are read as the record without the others. -/
theorem Plain.read_kept (h : l.Plain) (kept : String → Bool) :
    read (String.join ((l.fields.filter fun f => kept f.1).map fieldText)) =
      some (ofFields (l.fields.filter fun f => kept f.1)) := by
  have hkept := h.keep kept
  rw [← fields_keep, ← hkept.pretty_eq]
  exact hkept.read_pretty

end Layout

end BoundaryProxy.Toml
