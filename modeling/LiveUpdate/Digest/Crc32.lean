/-!
# The cyclic checksum of a payload

The 32-bit checksum with the reflected polynomial `0xedb88320`, all ones before the
first byte and complemented at the end.  A unit's header carries it so that damage to
the payload is noticed before anything is read.
-/

set_option autoImplicit false

namespace LiveUpdate.Crc32

/-- One bit of the division: shift out the lowest bit and, if it was set, subtract the
polynomial. -/
def stepBit (r : UInt32) : UInt32 :=
  if r &&& 1 = 1 then (r >>> 1) ^^^ 0xedb88320 else r >>> 1

/-- Take one byte into the remainder, lowest bit first. -/
def stepByte (r : UInt32) (b : UInt8) : UInt32 :=
  let r := r ^^^ b.toUInt32
  stepBit (stepBit (stepBit (stepBit (stepBit (stepBit (stepBit (stepBit r)))))))

/-- The remainder after a byte string, from a given start. -/
def run (r : UInt32) (bytes : List UInt8) : UInt32 :=
  bytes.foldl stepByte r

/-- The checksum of a byte string. -/
def checksum (bytes : List UInt8) : UInt32 :=
  run 0xffffffff bytes ^^^ 0xffffffff

end LiveUpdate.Crc32
