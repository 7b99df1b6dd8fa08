/-!
# UTF-8

Reading bytes as UTF-8.  A character takes one to four bytes: a leading byte,
which says how many continuation bytes follow, and those bytes.  Where the
bytes are not well formed, the longest start of a character that was read
counts as one malformed part, and reading goes on behind it.
-/

namespace Handheld.Text.Utf8

/-- A character whose leading byte has been read. -/
structure Pending where
  /-- The bits read so far. -/
  value : Nat
  /-- Continuation bytes that are missing before the last one. -/
  missing : Nat
  /-- The least byte that may come next. -/
  least : UInt8 := 0x80
  /-- The greatest byte that may come next. -/
  greatest : UInt8 := 0xBF
  deriving Repr

/-- What a leading byte begins: a whole character, a character that goes on,
or nothing. -/
inductive Start where
  | whole (c : Char)
  | begun (p : Pending)
  | malformed
  deriving Repr

/-- What a byte begins.  The bounds on the second byte exclude overlong forms,
surrogates, and numbers above the last code point. -/
def start (b : UInt8) : Start :=
  if b < 0x80 then .whole (Char.ofNat b.toNat)
  else if b < 0xC2 then .malformed
  else if b < 0xE0 then .begun ⟨b.toNat - 0xC0, 0, 0x80, 0xBF⟩
  else if b = 0xE0 then .begun ⟨0, 1, 0xA0, 0xBF⟩
  else if b = 0xED then .begun ⟨0xD, 1, 0x80, 0x9F⟩
  else if b < 0xF0 then .begun ⟨b.toNat - 0xE0, 1, 0x80, 0xBF⟩
  else if b = 0xF0 then .begun ⟨0, 2, 0x90, 0xBF⟩
  else if b < 0xF4 then .begun ⟨b.toNat - 0xF0, 2, 0x80, 0xBF⟩
  else if b = 0xF4 then .begun ⟨4, 2, 0x80, 0x8F⟩
  else .malformed

/-- Whether the byte continues the character. -/
def Pending.accepts (p : Pending) (b : UInt8) : Bool :=
  p.least ≤ b && b ≤ p.greatest

/-- The value of the character with the byte's six bits behind it. -/
def Pending.extend (p : Pending) (b : UInt8) : Nat :=
  p.value * 64 + b.toNat % 64

/-- The characters of the bytes, with `none` for each malformed part. -/
def decodeFrom : Option Pending → List UInt8 → List (Option Char)
  | none, [] => []
  | some _, [] => [none]
  | pending, b :: rest =>
    match pending with
    | some p =>
      if p.accepts b then
        match p.missing with
        | 0 => some (Char.ofNat (p.extend b)) :: decodeFrom none rest
        | missing + 1 => decodeFrom (some ⟨p.extend b, missing, 0x80, 0xBF⟩) rest
      else
        match start b with
        | .whole c => none :: some c :: decodeFrom none rest
        | .begun q => none :: decodeFrom (some q) rest
        | .malformed => none :: none :: decodeFrom none rest
    | none =>
      match start b with
      | .whole c => some c :: decodeFrom none rest
      | .begun q => decodeFrom (some q) rest
      | .malformed => none :: decodeFrom none rest

/-- The characters of the bytes, with `none` for each malformed part. -/
def decode (bytes : List UInt8) : List (Option Char) :=
  decodeFrom none bytes

/-- The replacement character, which stands for a malformed part. -/
def replacement : Char := '\uFFFD'

/-- The text of the bytes, with the replacement character for each malformed
part. -/
def decodeLossy (bytes : List UInt8) : List Char :=
  (decode bytes).map (·.getD replacement)

/-- The text of the bytes, if they are well formed. -/
def decode? (bytes : List UInt8) : Option (List Char) :=
  (decode bytes).mapM id

end Handheld.Text.Utf8
