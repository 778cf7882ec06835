import BoundaryProxy.Document.Basic
import BoundaryProxy.TypeExpr.Parser
import BoundaryProxy.TypeExpr.Printer

/-!
# `BoundaryProxy.Document.Decoder` — values from documents

A decoder takes a document to a value or to the first fault of the document. The only fault that is told
apart from the rest is a string that should name a type and does not.

Records follow one set of rules. A field may be missing if it has a default; a field that no rule knows is
passed over; a known field that occurs twice is a fault; and a record may also be written as a list of its
values in the order of its fields. A `Reading` of a record is put together from readings of single fields
with `<*>`; every fault in it has the position of the field at which it is met, and the earliest counts.

The places where formats differ are collected in a `Convention`.
-/

namespace BoundaryProxy

/-- Why a document does not describe a value. -/
inductive Fault where
  | malformed
  | badType (e : TypeExpr.ParseError)
deriving Repr, DecidableEq

/-- The points on which formats differ. -/
structure Convention where
  /-- Whether a record written as a list may have more values than the record has fields. -/
  allowsSurplus : Bool
  /-- What may stand behind a variant that is written as the one field of a record. -/
  isEmptyContent : Document → Bool

/-- The fault of a document, or the value it describes. -/
abbrev Decoder (α : Type) := Document → Except Fault α

namespace Decoder

/-! ## Single values -/

/-- A string. -/
def text : Decoder String
  | .text (some s) => .ok s
  | _ => .error .malformed

/-- A truth value. -/
def flag : Decoder Bool
  | .flag b => .ok b
  | _ => .error .malformed

/-- A string that names a type. -/
def type : Decoder TypeExpr
  | .text (some s) =>
    match TypeExpr.parse s with
    | .ok t => .ok t
    | .error e => .error (.badType e)
  | _ => .error .malformed

/-- A value, or nothing where `null` is written. -/
def nullable {α : Type} (value : Decoder α) : Decoder (Option α)
  | .null => .ok none
  | d => (value d).map some

/-- A list of values. -/
def list {α : Type} (value : Decoder α) : Decoder (List α)
  | .list items => items.mapM value
  | _ => .error .malformed

/-- One of several names, alone or as the name of the one field of a record. -/
def variant {α : Type} (conv : Convention) (names : List (String × α)) : Decoder α
  | .text (some s) =>
    match names.lookup s with
    | some a => .ok a
    | none => .error .malformed
  | .record [(some s, content)] =>
    match names.lookup s with
    | some a => if conv.isEmptyContent content then .ok a else .error .malformed
    | none => .error .malformed
  | _ => .error .malformed

end Decoder

/-! ## Records -/

/-- The fields of a record as they were written. -/
abbrev Entries := List (Option String × Document)

/-- What is read from the fields of a record: a value, or a fault and the position at which it is met. -/
structure Reading (α : Type) where
  run : Entries → Except (Nat × Fault) α

namespace Reading

/-- A value that no field has a part in. -/
protected def pure {α : Type} (a : α) : Reading α :=
  ⟨fun _ => .ok a⟩

/-- Two readings of the same fields; of two faults the earlier counts. -/
protected def seq {α β : Type} (f : Reading (α → β)) (x : Unit → Reading α) : Reading β :=
  ⟨fun es =>
    match f.run es, (x ()).run es with
    | .ok g, .ok a => .ok (g a)
    | .error e, .ok _ => .error e
    | .ok _, .error e => .error e
    | .error e, .error e' => .error (if e'.1 < e.1 then e' else e)⟩

instance : Applicative Reading where
  pure := Reading.pure
  seq := Reading.seq

/-- The occurrences of a field, each with its position. -/
def occurrences (name : String) (es : Entries) : List (Document × Nat) :=
  es.zipIdx.filterMap fun ((key, value), i) => if key = some name then some (value, i) else none

/-- The value of a field, or what stands in for it when the field is missing. -/
def field {α : Type} (name : String) (value : Decoder α) (missing : Except Fault α) : Reading α :=
  ⟨fun es =>
    match occurrences name es with
    | [] => missing.mapError fun fault => (es.length, fault)
    | (d, i) :: others =>
      match value d, others with
      | .error fault, _ => .error (i, fault)
      | .ok a, [] => .ok a
      | .ok _, (_, j) :: _ => .error (j, .malformed)⟩

/-- A field that must be there. -/
def required {α : Type} (name : String) (value : Decoder α) : Reading α :=
  field name value (.error .malformed)

/-- A field with a default. -/
def optional {α : Type} (name : String) (value : Decoder α) (default : α) : Reading α :=
  field name value (.ok default)

/-- Whether a field can be passed over: its name is a name but none of the known ones, and its text was read
    to its end. -/
def isStrange (names : List String) : Option String × Document → Bool
  | (none, _) => true
  | (some name, d) => !names.contains name && !d.isWhole

/-- The fault of the first field that neither is known nor can be passed over. -/
def passOver (names : List String) : Reading Unit :=
  ⟨fun es =>
    match es.findIdx? (isStrange names) with
    | some i => .error (i, .malformed)
    | none => .ok ()⟩

/-- The fields of a document that is a record, or a list of the values of named fields. A value too many
    counts as a field without a name. -/
def entries? (conv : Convention) (names : List String) : Document → Option Entries
  | .record fields => some fields
  | .list items =>
    let named := (names.map some).zip items
    some (if names.length < items.length && !conv.allowsSurplus then named ++ [(none, .torn)] else named)
  | _ => none

/-- Decode a record with the given fields. -/
def decode {α : Type} (conv : Convention) (names : List String) (reading : Reading α) : Decoder α := fun d =>
  match entries? conv names d with
  | none => .error .malformed
  | some es => (((fun a () => a) <$> reading <*> passOver names).run es).mapError (·.2)

end Reading

end BoundaryProxy
