import DvbHost.Ci.Error
import DvbHost.Ci.ResourceId
import DvbHost.KeyedList

/-!
# Registered resources

The resources of a host in order of first registration, at most 25. A module's request is served
by the first one that can.
-/

namespace DvbHost.Ci

set_option autoImplicit false

abbrev Registry (ρ : Type) := KeyedList ResourceId ρ

namespace Registry

variable {ρ : Type}

def capacity : Nat := 25

/-- Registers a resource, in the place of one with the same identifier if there is one. -/
def register (reg : Registry ρ) (id : ResourceId) (resource : ρ) : Except CiError (Registry ρ) :=
  if (reg.get? id).isNone && reg.length ≥ capacity then .error .tooManyResources
  else .ok (reg.put id resource)

/-- The first of the identifiers that can serve the request; if none can, the last reason other
than that it is not the same resource. -/
def lookupFrom (requested : ResourceId) : (reason : SessionStatus) → List ResourceId →
    Except SessionStatus ResourceId
  | reason, [] => .error reason
  | reason, id :: ids =>
    match id.refusal? requested with
    | none => .ok id
    | some .lowVersion => lookupFrom requested .lowVersion ids
    | some _ => lookupFrom requested reason ids

/-- The registered resource that serves a request. -/
def lookup (reg : Registry ρ) (requested : ResourceId) : Except SessionStatus ResourceId :=
  lookupFrom requested .noResource reg.keys

/-- The identifiers on one line. -/
def text (reg : Registry ρ) : String :=
  "[" ++ ", ".intercalate (reg.keys.map ResourceId.text) ++ "]"

end Registry

end DvbHost.Ci
