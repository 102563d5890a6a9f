import DvbHost.Descriptor.Loop
import DvbHost.Text.DvbText

/-!
# Writing descriptors

What would not fit into a length of one octet is refused, never cut.
-/

namespace DvbHost.Descriptor

set_option autoImplicit false

/-- A descriptor written behind a buffer: its tag, the length of its body, its body. A body longer
than 255 octets is refused and the buffer stays as it was. -/
def writeBehind (buffer : Bytes) (tag : UInt8) (body : Bytes) : Except SiError Unit × Bytes :=
  if body.length < 256 then
    (.ok (), buffer ++ tag :: UInt8.ofNat body.length :: body)
  else (.error (.invalidValue "descriptor_length"), buffer)

/-- A text after its length, cut to what the length can say. A cut text makes the body too long
for any descriptor, so none is written with one. -/
def textField (t : DvbText) : Bytes :=
  let octets := t.bytes.take 0xFF
  UInt8.ofNat octets.length :: octets

end DvbHost.Descriptor
