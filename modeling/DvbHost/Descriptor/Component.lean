import DvbHost.Descriptor.Loop
import DvbHost.Text.DvbText
import DvbHost.Text.Language

/-!
# Components of a service

What an elementary stream carries: sound, teletext, subtitles, data.
-/

namespace DvbHost.Descriptor

set_option autoImplicit false

open Octet (field flag)

structure Component where
  streamContentExt : UInt8
  streamContent : UInt8
  componentType : UInt8
  componentTag : UInt8
  language : Language
  text : DvbText
  deriving DecidableEq

def Component.format : DescriptorFormat Component := ⟨0x50, do
  let content ← Cursor.u8
  let componentType ← Cursor.u8
  let componentTag ← Cursor.u8
  let language ← Language.read
  return ⟨field 4 4 content, field 0 4 content, componentType, componentTag, language,
    ⟨← Cursor.rest⟩⟩⟩

structure StreamIdentifier where
  componentTag : UInt8
  deriving DecidableEq

def StreamIdentifier.format : DescriptorFormat StreamIdentifier := ⟨0x52, Cursor.sized 1 do
  return ⟨← Cursor.u8⟩⟩

structure TeletextPage where
  language : Language
  teletextType : UInt8
  magazine : UInt8
  page : UInt8
  deriving DecidableEq

structure Teletext where
  pages : List TeletextPage
  deriving DecidableEq

def TeletextPage.read : Cursor TeletextPage := do
  let language ← Language.read
  let b ← Cursor.u8
  return ⟨language, field 3 5 b, field 0 3 b, ← Cursor.u8⟩

def Teletext.format : DescriptorFormat Teletext :=
  ⟨0x56, do return ⟨← Cursor.entries 5 TeletextPage.read⟩⟩

structure Subtitle where
  language : Language
  subtitlingType : UInt8
  compositionPage : UInt16
  ancillaryPage : UInt16
  deriving DecidableEq

structure Subtitling where
  subtitles : List Subtitle
  deriving DecidableEq

def Subtitle.read : Cursor Subtitle := do
  let language ← Language.read
  let subtitlingType ← Cursor.u8
  let compositionPage ← Cursor.u16
  return ⟨language, subtitlingType, compositionPage, ← Cursor.u16⟩

def Subtitling.format : DescriptorFormat Subtitling :=
  ⟨0x59, do return ⟨← Cursor.entries 8 Subtitle.read⟩⟩

structure DataBroadcastId where
  id : UInt16
  selector : Bytes
  deriving DecidableEq

def DataBroadcastId.format : DescriptorFormat DataBroadcastId := ⟨0x66, do
  let id ← Cursor.u16
  return ⟨id, ← Cursor.rest⟩⟩

structure Ac3 where
  componentType : Option UInt8
  bsid : Option UInt8
  mainId : Option UInt8
  associatedService : Option UInt8
  additionalInfo : Bytes
  deriving DecidableEq

namespace Ac3

/-- An octet that is there when its flag is set. -/
def optional (present : Bool) : Cursor (Option UInt8) :=
  if present then do return some (← Cursor.u8) else pure none

def format : DescriptorFormat Ac3 := ⟨0x6A, do
  let flags ← Cursor.u8
  let componentType ← optional (flag 7 flags)
  let bsid ← optional (flag 6 flags)
  let mainId ← optional (flag 5 flags)
  let associatedService ← optional (flag 4 flags)
  return ⟨componentType, bsid, mainId, associatedService, ← Cursor.rest⟩⟩

end Ac3

end DvbHost.Descriptor
