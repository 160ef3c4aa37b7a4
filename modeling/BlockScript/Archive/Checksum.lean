/-!
# Checksums

The 32-bit cyclic redundancy check that archives keep of their files, least significant bit first.
-/

namespace BlockScript.Checksum

/-- Divides one bit out. -/
def shift (state : UInt32) : UInt32 :=
  if state &&& 1 = 1 then (state >>> 1) ^^^ 0xEDB88320 else state >>> 1

/-- Takes one byte in. -/
def byte (state : UInt32) (b : UInt8) : UInt32 :=
  shift (shift (shift (shift (shift (shift (shift (shift (state ^^^ b.toUInt32))))))))

/-- The checksum of a row of bytes. -/
def ofBytes (bytes : List UInt8) : UInt32 :=
  bytes.foldl byte 0xFFFFFFFF ^^^ 0xFFFFFFFF

end BlockScript.Checksum
