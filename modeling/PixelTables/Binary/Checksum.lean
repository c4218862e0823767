namespace PixelTables.Binary

/-- One division step by the polynomial of the 32-bit cyclic redundancy check. -/
def crcStep (c : UInt32) : UInt32 :=
  if c &&& 1 = 1 then (c >>> 1) ^^^ 0xEDB88320 else c >>> 1

def crcByte (c : UInt32) (byte : UInt8) : UInt32 :=
  Nat.repeat crcStep 8 (c ^^^ byte.toUInt32)

def crc32 (bytes : ByteArray) : UInt32 :=
  bytes.data.foldl crcByte 0xFFFFFFFF ^^^ 0xFFFFFFFF

end PixelTables.Binary
