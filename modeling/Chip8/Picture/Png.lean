/-
Pictures as PNG files: true colour with eight bits a channel, no filter, and
the pixel data in blocks that are stored without compression.
-/
import Chip8.Picture

namespace Chip8.Picture.Png

/-! ## Checksums -/

/-- One bit of the cyclic redundancy check. -/
def crcBit (c : UInt32) : UInt32 := if c &&& 1 = 1 then (c >>> 1) ^^^ 0xEDB88320 else c >>> 1

/-- One byte of the cyclic redundancy check. -/
def crcByte (c : UInt32) (b : UInt8) : UInt32 := Nat.repeat crcBit 8 (c ^^^ b.toUInt32)

/-- The cyclic redundancy check of some bytes. -/
def crc (data : ByteArray) : UInt32 := data.foldl crcByte 0xFFFFFFFF ^^^ 0xFFFFFFFF

/-- Two running sums modulo 65521 after one more byte: of the bytes, and of the
first sum. -/
def sumsAfter (s : UInt32 × UInt32) (b : UInt8) : UInt32 × UInt32 :=
  let low := (s.1 + b.toUInt32) % 65521
  (low, (s.2 + low) % 65521)

/-- The checksum of some bytes that both running sums make up. -/
def sums (data : ByteArray) : UInt32 :=
  let (low, high) := data.foldl sumsAfter (1, 0)
  (high <<< 16) ||| low

/-! ## Parts of a file -/

/-- Four bytes, the highest first. -/
def word32 (n : UInt32) : ByteArray :=
  ⟨#[(n >>> 24).toUInt8, (n >>> 16).toUInt8, (n >>> 8).toUInt8, n.toUInt8]⟩

/-- A chunk: length, type, data, check. -/
def chunk (type : String) (data : ByteArray) : ByteArray :=
  let body := type.toUTF8 ++ data
  word32 data.size.toUInt32 ++ body ++ word32 (crc body)

/-- The bytes of a colour. -/
def colourBytes (c : Colour) : ByteArray :=
  ⟨#[c.red.toNat.toUInt8, c.green.toNat.toUInt8, c.blue.toNat.toUInt8]⟩

/-- A row of dots, behind the mark for no filter. -/
def scanline (row : Runs Colour) : ByteArray :=
  row.foldl (fun line (n, c) => Nat.repeat (· ++ colourBytes c) n line) ⟨#[0]⟩

/-- All rows. -/
def scanlines (p : Picture) : ByteArray :=
  p.rows.foldl (fun data (n, row) => Nat.repeat (· ++ scanline row) n data) .empty

/-- The most bytes in a stored block. -/
def blockLimit : Nat := 65535

/-- A stored block, which may be the last one. -/
def block (last : Bool) (data : ByteArray) : ByteArray :=
  let n := data.size.toUInt16
  let low (k : UInt16) : UInt8 := k.toUInt8
  let high (k : UInt16) : UInt8 := (k >>> 8).toUInt8
  ⟨#[if last then 1 else 0, low n, high n, low (~~~n), high (~~~n)]⟩ ++ data

/-- Data in stored blocks between a header and a checksum. -/
def stored (data : ByteArray) : ByteArray :=
  let count := (data.size + blockLimit - 1) / blockLimit
  let blocks := (List.range count).foldl (fun out k =>
    out ++ block (k + 1 = count) (data.extract (k * blockLimit) ((k + 1) * blockLimit)))
    ⟨#[0x78, 0x01]⟩
  blocks ++ word32 (sums data)

/-- The bytes every such file starts with. -/
def signature : ByteArray := ⟨#[0x89, 0x50, 0x4E, 0x47, 0x0D, 0x0A, 0x1A, 0x0A]⟩

/-- Width, height, and how the dots are coded. -/
def header (p : Picture) : ByteArray :=
  word32 p.width.toUInt32 ++ word32 p.height.toUInt32 ++ ⟨#[8, 2, 0, 0, 0]⟩

/-- The file of a picture. -/
def encode (p : Picture) : ByteArray :=
  signature ++ chunk "IHDR" (header p) ++ chunk "IDAT" (stored (scanlines p)) ++
    chunk "IEND" .empty

end Chip8.Picture.Png
