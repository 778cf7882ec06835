/-!
# `BoundaryProxy.Text.Utf8` — lengths in bytes, and reading bytes as text

Offsets in messages count the bytes of a text's UTF-8 form, so a prefix has a length (`byteLength`) and a
cut at a byte offset (`dropBytes`) exists only on a boundary between characters.

`ofUtf8Lossy` reads any bytes as text. Bytes that are no UTF-8 become replacement characters, one for each
longest run that begins a well-formed sequence and then breaks off.
-/

namespace BoundaryProxy.Text

/-! ## Lengths and cuts in bytes -/

/-- The number of bytes of a text's UTF-8 form. -/
def byteLength : List Char → Nat
  | [] => 0
  | c :: rest => c.utf8Size + byteLength rest

/-- The text after its first `n` bytes, if a character begins or the text ends there. -/
def dropBytes : Nat → List Char → Option (List Char)
  | 0, s => some s
  | _ + 1, [] => none
  | n + 1, c :: rest => if c.utf8Size ≤ n + 1 then dropBytes (n + 1 - c.utf8Size) rest else none

/-! ## Reading bytes as text -/

/-- A range of bytes, both ends included. -/
structure ByteRange where
  low : UInt8
  high : UInt8
deriving DecidableEq

/-- Whether a byte lies in the range. -/
def ByteRange.has (r : ByteRange) (b : UInt8) : Bool :=
  r.low ≤ b && b ≤ r.high

/-- The bytes that may continue a sequence. -/
def continuation : ByteRange :=
  ⟨0x80, 0xBF⟩

/-- What the first byte of a sequence says: the bits it contributes, and the ranges that the bytes after it
    must lie in. The narrower ranges keep out overlong forms, surrogates and points beyond the last one. -/
def leadByte (b : UInt8) : Option (Nat × List ByteRange) :=
  if b < 0x80 then some (b.toNat, [])
  else if b < 0xC2 then none
  else if b < 0xE0 then some (b.toNat - 0xC0, [continuation])
  else if b == 0xE0 then some (0, [⟨0xA0, 0xBF⟩, continuation])
  else if b == 0xED then some (0xD, [⟨0x80, 0x9F⟩, continuation])
  else if b < 0xF0 then some (b.toNat - 0xE0, [continuation, continuation])
  else if b == 0xF0 then some (0, [⟨0x90, 0xBF⟩, continuation, continuation])
  else if b < 0xF4 then some (b.toNat - 0xF0, [continuation, continuation, continuation])
  else if b == 0xF4 then some (4, [⟨0x80, 0x8F⟩, continuation, continuation])
  else none

/-- Read the rest of a sequence: its code point unless a byte is missing or out of range, and the bytes
    not read. -/
def continueSequence : Nat → List ByteRange → List UInt8 → Option Nat × List UInt8
  | point, [], bytes => (some point, bytes)
  | _, _ :: _, [] => (none, [])
  | point, range :: ranges, b :: bytes =>
    if range.has b then continueSequence (point * 64 + (b.toNat - 0x80)) ranges bytes
    else (none, b :: bytes)

theorem length_continueSequence_le (point : Nat) (ranges : List ByteRange) (bytes : List UInt8) :
    (continueSequence point ranges bytes).2.length ≤ bytes.length := by
  fun_induction continueSequence point ranges bytes with
  | case1 => simp
  | case2 => simp
  | case3 point range ranges b bytes hb ih => simp only [List.length_cons]; omega
  | case4 => simp

/-- The character that stands for bytes that are no text. -/
def replacement : Char :=
  '\uFFFD'

/-- The text of any bytes; a broken sequence becomes one replacement character. -/
def ofUtf8Lossy : List UInt8 → List Char
  | [] => []
  | b :: bytes =>
    match leadByte b with
    | none => replacement :: ofUtf8Lossy bytes
    | some lead =>
      let sequence := continueSequence lead.1 lead.2 bytes
      (sequence.1.map Char.ofNat).getD replacement :: ofUtf8Lossy sequence.2
termination_by bytes => bytes.length
decreasing_by
  · simp
  · have := length_continueSequence_le lead.1 lead.2 bytes
    simp only [List.length_cons]
    omega

/-- The text of bytes that are well-formed UTF-8 throughout. -/
def ofUtf8? (bytes : List UInt8) : Option String :=
  String.fromUTF8? ⟨bytes.toArray⟩

/-- The bytes of a text. -/
def toUtf8 (s : String) : List UInt8 :=
  s.toUTF8.toList

end BoundaryProxy.Text
