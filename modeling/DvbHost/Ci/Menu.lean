import DvbHost.Ci.Apdu
import DvbHost.Text.DvbText

/-!
# Menus, lists and enquiries

A menu is a count of choices and a sequence of texts: title, subtitle, bottom line and then the
items. A text may be cut into fragments, of which the last has a tag of its own. The count is not
relied on.
-/

namespace DvbHost.Ci

set_option autoImplicit false

structure Menu where
  title : String
  subtitle : String
  bottom : String
  items : List String
  deriving DecidableEq

namespace Menu

def tagTextLast : Nat := 0x9F8803
def tagTextMore : Nat := 0x9F8804

/-- The texts of a sequence of units; `chain` holds the fragments of a text whose last fragment has
not come yet. -/
def textsAfter (chain : Bytes) : List (Except CiError Apdu) → Except CiError (List String)
  | [] => if chain.isEmpty then .ok [] else .error .truncatedData
  | .error e :: _ => .error e
  | .ok apdu :: units =>
    if apdu.tag = tagTextMore then textsAfter (chain ++ apdu.data) units
    else if apdu.tag = tagTextLast then
      (textsAfter [] units).map ((⟨chain ++ apdu.data⟩ : DvbText).text :: ·)
    else .error (.protocolViolation .textObject)

def texts (data : Bytes) : Except CiError (List String) := textsAfter [] (Apdu.items data)

def read : Bytes → Except CiError Menu
  | [] => .error .truncatedData
  | _ :: tail =>
    match texts tail with
    | .error e => .error e
    | .ok (title :: subtitle :: bottom :: items) => .ok ⟨title, subtitle, bottom, items⟩
    | .ok _ => .error .truncatedData

/-- The unit that names the user's choice, from 1; 0 cancels. -/
def choice (n : UInt8) : Except CiError Bytes := Apdu.encode 0x9F880B [n]

/-- The unit that answers an enquiry with a text, or cancels it. -/
def answer : Option String → Except CiError Bytes
  | some text => Apdu.encode 0x9F8808 (0x01 :: text.toUTF8.data.toList)
  | none => Apdu.encode 0x9F8808 [0x00]

/-- The unit that ends the dialogue at once. -/
def close : Except CiError Bytes := Apdu.encode 0x9F8800 [0x00]

end Menu

/-- What a module asks the host to show. -/
inductive MmiEvent where
  /-- To end the dialogue, after some seconds if it says so. -/
  | close (delay : Option UInt8)
  | menu (menu : Menu)
  | list (list : Menu)
  /-- To ask the user for a text; a blind one is not shown as it is typed. -/
  | enquiry (blind : Bool) (answerLength : UInt8) (text : String)
  deriving DecidableEq

end DvbHost.Ci
