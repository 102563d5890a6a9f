import DvbHost.Ci.Apdu
import DvbHost.Text.DvbText

/-! # What a module says of its application, and the wish to enter its menu -/

namespace DvbHost.Ci

set_option autoImplicit false

structure ApplicationInfo where
  /-- 1 is conditional access. -/
  type : UInt8
  manufacturer : UInt16
  manufacturerCode : UInt16
  menu : String
  deriving DecidableEq

namespace ApplicationInfo

/-- What follows the menu text is ignored. -/
def read : Bytes → Except CiError ApplicationInfo
  | type :: m1 :: m2 :: c1 :: c2 :: len :: tail =>
    match Bytes.split? len.toNat tail with
    | none => .error .truncatedData
    | some (menu, _) =>
      .ok ⟨type, UInt16.ofNat (Bytes.number [m1, m2]), UInt16.ofNat (Bytes.number [c1, c2]),
        (⟨menu⟩ : DvbText).text⟩
  | _ => .error .truncatedData

/-- The unit that asks a module to show its menu. -/
def enterMenu : Except CiError Bytes := Apdu.encode 0x9F8022 []

end ApplicationInfo

end DvbHost.Ci
