import BoundaryProxy.Text.Utf8

/-!
# `BoundaryProxy.Shell.ByteText` — bytes as text

A shell works on bytes, not on characters: a value may hold any of them, and the length of a value is the
number of its bytes. Inside the shell a text therefore has one character below 256 for each byte.
-/

namespace BoundaryProxy.Shell

/-- The byte text of bytes. -/
def ofBytes (bytes : List UInt8) : List Char :=
  bytes.map fun b => Char.ofNat b.toNat

/-- The bytes of a byte text. -/
def toBytes (s : List Char) : List UInt8 :=
  s.map fun c => UInt8.ofNat c.toNat

/-- The byte text of a string. -/
def encode (s : String) : String :=
  String.ofList (ofBytes (Text.toUtf8 s))

/-- The string of a byte text. -/
def decode (s : String) : String :=
  String.ofList (Text.ofUtf8Lossy (toBytes s.toList))

/-- The bytes of a byte text given as a string. -/
def bytesOf (s : String) : List UInt8 :=
  toBytes s.toList

end BoundaryProxy.Shell
