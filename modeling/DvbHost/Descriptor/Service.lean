import DvbHost.Descriptor.Writing

/-!
# Names, services and links between them
-/

namespace DvbHost

set_option autoImplicit false

structure ServiceType where
  code : UInt8
  deriving DecidableEq

namespace ServiceType

def isTelevision (t : ServiceType) : Bool := t.code ∈ [0x01, 0x11, 0x16, 0x19, 0x1F]

def read : Cursor ServiceType := do return ⟨← Cursor.u8⟩

end ServiceType

namespace Descriptor

structure NetworkName where
  name : DvbText
  deriving DecidableEq

def NetworkName.format : DescriptorFormat NetworkName := ⟨0x40, do return ⟨⟨← Cursor.rest⟩⟩⟩

structure BouquetName where
  name : DvbText
  deriving DecidableEq

def BouquetName.format : DescriptorFormat BouquetName := ⟨0x47, do return ⟨⟨← Cursor.rest⟩⟩⟩

structure ServiceEntry where
  serviceId : UInt16
  serviceType : ServiceType
  deriving DecidableEq

structure ServiceList where
  services : List ServiceEntry
  deriving DecidableEq

def ServiceEntry.read : Cursor ServiceEntry := do
  let serviceId ← Cursor.u16
  return ⟨serviceId, ← ServiceType.read⟩

def ServiceList.format : DescriptorFormat ServiceList :=
  ⟨0x41, do return ⟨← Cursor.entries 3 ServiceEntry.read⟩⟩

structure Service where
  serviceType : ServiceType
  provider : DvbText
  name : DvbText
  deriving DecidableEq

namespace Service

def format : DescriptorFormat Service := ⟨0x48, Cursor.exactly do
  let serviceType ← ServiceType.read
  let provider ← DvbText.counted
  return ⟨serviceType, provider, ← DvbText.counted⟩⟩

def body (d : Service) : Bytes := d.serviceType.code :: (textField d.provider ++ textField d.name)

def write (d : Service) (buffer : Bytes) : Except SiError Unit × Bytes :=
  writeBehind buffer format.tag d.body

end Service

structure Linkage where
  transportStreamId : UInt16
  originalNetworkId : UInt16
  serviceId : UInt16
  linkageType : UInt8
  privateData : Bytes
  deriving DecidableEq

def Linkage.format : DescriptorFormat Linkage := ⟨0x4A, do
  let transportStreamId ← Cursor.u16
  let originalNetworkId ← Cursor.u16
  let serviceId ← Cursor.u16
  let linkageType ← Cursor.u8
  return ⟨transportStreamId, originalNetworkId, serviceId, linkageType, ← Cursor.rest⟩⟩

structure CaIdentifier where
  systemIds : List UInt16
  deriving DecidableEq

def CaIdentifier.format : DescriptorFormat CaIdentifier :=
  ⟨0x53, do return ⟨← Cursor.entries 2 Cursor.u16⟩⟩

structure PrivateDataSpecifier where
  specifier : UInt32
  deriving DecidableEq

def PrivateDataSpecifier.format : DescriptorFormat PrivateDataSpecifier :=
  ⟨0x5F, Cursor.sized 4 do return ⟨← Cursor.u32⟩⟩

end Descriptor

end DvbHost
