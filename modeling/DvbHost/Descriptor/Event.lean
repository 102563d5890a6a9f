import DvbHost.Calendar.DateTime
import DvbHost.Descriptor.Writing
import DvbHost.Text.Language

/-!
# Events

Titles and texts, genres, ratings, and the offsets of local time.
-/

namespace DvbHost

set_option autoImplicit false

/-- An arithmetic result that the word it belongs in cannot hold. -/
inductive Overflow where
  | addition
  deriving DecidableEq

namespace Descriptor

open Octet (field flag)

structure ShortEvent where
  language : Language
  name : DvbText
  text : DvbText
  deriving DecidableEq

namespace ShortEvent

def format : DescriptorFormat ShortEvent := ⟨0x4D, Cursor.exactly do
  let language ← Language.read
  let name ← DvbText.counted
  return ⟨language, name, ← DvbText.counted⟩⟩

def body (d : ShortEvent) : Bytes := d.language.toBytes ++ (textField d.name ++ textField d.text)

def write (d : ShortEvent) (buffer : Bytes) : Except SiError Unit × Bytes :=
  writeBehind buffer format.tag d.body

end ShortEvent

structure EventItem where
  description : DvbText
  item : DvbText
  deriving DecidableEq

structure ExtendedEvent where
  number : UInt8
  lastNumber : UInt8
  language : Language
  items : List EventItem
  text : DvbText
  deriving DecidableEq

def EventItem.read : Cursor EventItem := do
  let description ← DvbText.counted
  return ⟨description, ← DvbText.counted⟩

def ExtendedEvent.format : DescriptorFormat ExtendedEvent := ⟨0x4E, Cursor.exactly do
  let numbers ← Cursor.u8
  let language ← Language.read
  let length ← Cursor.u8
  let items ← Cursor.within length.toNat (Cursor.untilEnd EventItem.read)
  return ⟨field 4 4 numbers, field 0 4 numbers, language, items, ← DvbText.counted⟩⟩

structure Genre where
  level1 : UInt8
  level2 : UInt8
  user : UInt8
  deriving DecidableEq

structure Content where
  genres : List Genre
  deriving DecidableEq

def Genre.read : Cursor Genre := do
  let levels ← Cursor.u8
  return ⟨field 4 4 levels, field 0 4 levels, ← Cursor.u8⟩

def Content.format : DescriptorFormat Content := ⟨0x54, do return ⟨← Cursor.entries 2 Genre.read⟩⟩

structure Rating where
  country : Language
  rating : UInt8
  deriving DecidableEq

namespace Rating

def read : Cursor Rating := do
  let country ← Language.read
  return ⟨country, ← Cursor.u8⟩

/-- The least age of a viewer, three above the ratings 1 to 15; other ratings state none. The sum
is formed in one octet before the range is looked at, so it can leave the octet. -/
def minimumAge (r : Rating) : Except Overflow (Option UInt8) :=
  if r.rating.toNat + 3 < 256 then
    .ok (if 1 ≤ r.rating.toNat ∧ r.rating.toNat ≤ 0x0F then some (r.rating + 3) else none)
  else .error .addition

end Rating

structure ParentalRating where
  ratings : List Rating
  deriving DecidableEq

def ParentalRating.format : DescriptorFormat ParentalRating :=
  ⟨0x55, do return ⟨← Cursor.entries 4 Rating.read⟩⟩

structure TimeOffset where
  country : Language
  region : UInt8
  /-- Set where local time is behind universal time. -/
  behind : Bool
  /-- In minutes, as is `nextOffset`. -/
  offset : Nat
  timeOfChange : DateTime
  nextOffset : Nat
  deriving DecidableEq

namespace TimeOffset

def readMinutes : Cursor Nat := do
  let h ← Cursor.u8
  return Bcd.minutes h (← Cursor.u8)

def read : Cursor TimeOffset := do
  let country ← Language.read
  let b ← Cursor.u8
  let offset ← readMinutes
  let timeOfChange ← DateTime.read
  return ⟨country, field 2 6 b, flag 0 b, offset, timeOfChange, ← readMinutes⟩

/-- Minutes that local time is ahead of universal time. -/
def minutesAhead (t : TimeOffset) : Int := if t.behind then -t.offset else t.offset

end TimeOffset

structure LocalTimeOffset where
  offsets : List TimeOffset
  deriving DecidableEq

def LocalTimeOffset.format : DescriptorFormat LocalTimeOffset :=
  ⟨0x58, do return ⟨← Cursor.entries 13 TimeOffset.read⟩⟩

end Descriptor

end DvbHost
