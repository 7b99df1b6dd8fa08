import Handheld.Image.Raster

/-!
# PNG files

A PNG file is a signature followed by chunks.  The pixels are in a stream in
the ZLIB format; its blocks are stored as they are, without compression.
-/

namespace Handheld.Png

/-- A number in four bytes, the most significant first. -/
def bytes32 (n : UInt32) : Array UInt8 :=
  #[(n >>> 24).toUInt8, (n >>> 16).toUInt8, (n >>> 8).toUInt8, n.toUInt8]

/-! ## Checksums -/

/-- The remainder after `n` more bits. -/
def crcBits : (n : Nat) → UInt32 → UInt32
  | 0, crc => crc
  | n + 1, crc => crcBits n (if crc &&& 1 = 1 then (crc >>> 1) ^^^ 0xEDB88320 else crc >>> 1)

/-- The cyclic redundancy check of 32 bits. -/
def crc (bytes : Array UInt8) : UInt32 :=
  bytes.foldl (fun crc b => crcBits 8 (crc ^^^ b.toUInt32)) 0xFFFFFFFF ^^^ 0xFFFFFFFF

/-- The modulus of the Adler checksum. -/
def adlerModulus : UInt32 := 65521

/-- The Adler checksum: the sum of the bytes, and the sum of these sums. -/
def adler (bytes : Array UInt8) : UInt32 :=
  let (low, high) := bytes.foldl
    (fun ((low, high) : UInt32 × UInt32) b =>
      let low := (low + b.toUInt32) % adlerModulus
      (low, (high + low) % adlerModulus))
    (1, 0)
  high <<< 16 ||| low

/-! ## The stream -/

/-- The most bytes in a stored block. -/
def blockSize : Nat := 0xFFFF

/-- A stored block: whether it is the last one, its length, the complement of
its length, and its bytes. -/
def storedBlock (last : Bool) (bytes : Array UInt8) : Array UInt8 :=
  let size := bytes.size.toUInt16
  #[if last then 1 else 0, size.toUInt8, (size >>> 8).toUInt8, (~~~size).toUInt8,
    ((~~~size) >>> 8).toUInt8] ++ bytes

/-- The blocks that store the bytes from a place on.  `fuel` bounds their
number. -/
def storedBlocks : (fuel : Nat) → (start : Nat) → Array UInt8 → Array UInt8
  | 0, _, _ => #[]
  | fuel + 1, start, bytes =>
    let stop := start + blockSize
    storedBlock (bytes.size ≤ stop) (bytes.extract start stop) ++
      if bytes.size ≤ stop then #[] else storedBlocks fuel stop bytes

/-- The bytes as a stream. -/
def stream (bytes : Array UInt8) : Array UInt8 :=
  #[0x78, 0x01] ++ storedBlocks (bytes.size / blockSize + 1) 0 bytes ++ bytes32 (adler bytes)

/-! ## Chunks -/

/-- A chunk: its length, its type, its bytes, and their checksum. -/
def chunk (type : String) (bytes : Array UInt8) : Array UInt8 :=
  let body := type.toUTF8.data ++ bytes
  bytes32 bytes.size.toUInt32 ++ body ++ bytes32 (crc body)

/-- The bytes that begin every file. -/
def signature : Array UInt8 :=
  #[0x89, 0x50, 0x4E, 0x47, 0x0D, 0x0A, 0x1A, 0x0A]

/-- The header: width, height, eight bits for each of red, green and blue, and
the only methods there are; the rows are not interlaced. -/
def header (r : Raster) : Array UInt8 :=
  bytes32 r.width.toUInt32 ++ bytes32 r.height.toUInt32 ++ #[8, 2, 0, 0, 0]

/-- The rows, each behind the number of its filter; none is filtered. -/
def rows (r : Raster) : Array UInt8 :=
  (List.range r.height).foldl
    (fun rows y => rows.push 0 ++ r.bytes.extract (3 * r.width * y) (3 * r.width * (y + 1))) #[]

/-- The raster as a file. -/
def encode (r : Raster) : Array UInt8 :=
  signature ++ chunk "IHDR" (header r) ++ chunk "IDAT" (stream (rows r)) ++ chunk "IEND" #[]

end Handheld.Png
