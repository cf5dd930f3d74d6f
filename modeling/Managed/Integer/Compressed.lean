import Managed.Cursor

namespace Managed.Integer.Compressed

/-- Numbers below `2 ^ 29` take one, two or four bytes, the most significant first; the leading
    bits `0`, `10` and `110` tell which. -/
def encode (number : Nat) : Bytes :=
  if number < 0x80 then [UInt8.ofNat number]
  else if number < 0x4000 then [UInt8.ofNat (0x80 + number / 0x100), UInt8.ofNat number]
  else
    [UInt8.ofNat (0xC0 + number / 0x1000000), UInt8.ofNat (number / 0x10000),
      UInt8.ofNat (number / 0x100), UInt8.ofNat number]

/-- Bytes are taken one at a time, so that a truncated number uses up the data. -/
def read : Reader Nat := do
  let lead ← Reader.byte
  if lead < 0x80 then
    return lead
  else if lead < 0xC0 then
    let low ← Reader.byte
    return (lead - 0x80) * 0x100 + low
  else if lead < 0xE0 then
    let upper ← Reader.byte
    let middle ← Reader.byte
    let low ← Reader.byte
    return (lead - 0xC0) * 0x1000000 + upper * 0x10000 + middle * 0x100 + low
  else
    Reader.malformed (.compressedLead lead)

end Managed.Integer.Compressed
