/-!
# The flag register

The CPU keeps four flags in bits 7 to 4 of the register F.  Bits 3 to 0 do
not exist and read back as zero, so the flag register is four booleans and
its byte is computed.
-/

namespace Handheld

/-- The four CPU flags. -/
structure Flags where
  zero : Bool := false
  subtract : Bool := false
  half : Bool := false
  carry : Bool := false
  deriving DecidableEq, Repr, Inhabited

namespace Flags

/-- The byte that F reads as: zero, subtract, half carry and carry in bits
7, 6, 5 and 4. -/
def toByte (f : Flags) : UInt8 :=
  (if f.zero then 0x80 else 0) ||| (if f.subtract then 0x40 else 0) |||
    (if f.half then 0x20 else 0) ||| (if f.carry then 0x10 else 0)

/-- The flags that a byte written to F leaves set. -/
def ofByte (b : UInt8) : Flags where
  zero := b &&& 0x80 != 0
  subtract := b &&& 0x40 != 0
  half := b &&& 0x20 != 0
  carry := b &&& 0x10 != 0

/-- Whether F and `mask` share a set bit. -/
def test (f : Flags) (mask : UInt8) : Bool :=
  f.toByte &&& mask != 0

@[simp] theorem ofByte_toByte (f : Flags) : ofByte f.toByte = f := by
  obtain ⟨z, n, h, c⟩ := f
  cases z <;> cases n <;> cases h <;> cases c <;> rfl

end Flags
end Handheld
