/-
Module: Plotline.Text.Utf8
Layer: Text
Purpose: Reading bytes as UTF-8. The decoder runs one byte at a time and yields, for each character, the
  character, and for each maximal invalid part, one gap. A script is read leniently, with a replacement
  character for each gap; a line of standard input is read strictly, so that one gap refuses it.
Main exports: Utf8.decode, Utf8.decodeLenient, Utf8.decodeStrict
-/

namespace Plotline

namespace Utf8

/-- A character whose first bytes have been read: the value so far, the number of continuation bytes it
    still lacks, and the range in which the next of them has to lie. -/
structure Pending where
  value : Nat
  missing : Nat
  low : UInt8
  high : UInt8

/-- What one byte begins. -/
inductive Lead where
  /-- A whole character. -/
  | whole (c : Char)
  /-- The first byte of a longer character. -/
  | longer (p : Pending)
  /-- No character begins with this byte. -/
  | invalid

/-- Reads a byte as the first byte of a character. The ranges of the second byte leave out overlong forms,
    surrogates and values above 0x10FFFF. -/
def lead (b : UInt8) : Lead :=
  if b < 0x80 then .whole (Char.ofNat b.toNat)
  else if b < 0xC2 then .invalid
  else if b < 0xE0 then .longer ⟨b.toNat - 0xC0, 1, 0x80, 0xBF⟩
  else if b == 0xE0 then .longer ⟨0, 2, 0xA0, 0xBF⟩
  else if b == 0xED then .longer ⟨0xD, 2, 0x80, 0x9F⟩
  else if b < 0xF0 then .longer ⟨b.toNat - 0xE0, 2, 0x80, 0xBF⟩
  else if b == 0xF0 then .longer ⟨0, 3, 0x90, 0xBF⟩
  else if b < 0xF4 then .longer ⟨b.toNat - 0xF0, 3, 0x80, 0xBF⟩
  else if b == 0xF4 then .longer ⟨4, 3, 0x80, 0x8F⟩
  else .invalid

/-- Reads one byte between two characters: what it yields, and the character it leaves unfinished. -/
def start (b : UInt8) : List (Option Char) × Option Pending :=
  match lead b with
  | .whole c => ([some c], none)
  | .longer p => ([], some p)
  | .invalid => ([none], none)

/-- Reads one byte. A byte that cannot continue the unfinished character closes it as a gap and is then
    read as the first byte of the next. -/
def step : Option Pending → UInt8 → List (Option Char) × Option Pending
  | none, b => start b
  | some p, b =>
      if p.low ≤ b && b ≤ p.high then
        let value := p.value * 64 + (b.toNat - 0x80)
        if p.missing ≤ 1 then ([some (Char.ofNat value)], none)
        else ([], some ⟨value, p.missing - 1, 0x80, 0xBF⟩)
      else
        let (more, next) := start b
        (none :: more, next)

/-- Decodes the bytes that follow an unfinished character. -/
def decodeFrom : Option Pending → List UInt8 → List (Option Char)
  | none, [] => []
  | some _, [] => [none]
  | state, b :: rest =>
      let (found, next) := step state b
      found ++ decodeFrom next rest

/-- The characters of a byte sequence, with `none` for each maximal invalid part. -/
def decode (bytes : List UInt8) : List (Option Char) :=
  decodeFrom none bytes

/-- Reads any bytes; each maximal invalid part becomes one replacement character. -/
def decodeLenient (bytes : List UInt8) : String :=
  String.ofList ((decode bytes).map fun found => found.getD '\uFFFD')

/-- Reads valid UTF-8 and refuses everything else. -/
def decodeStrict (bytes : List UInt8) : Option String :=
  ((decode bytes).mapM id).map String.ofList

end Utf8

end Plotline
