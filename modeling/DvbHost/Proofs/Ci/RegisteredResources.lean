import DvbHost.Ci.Registry
import DvbHost.Proofs.Bytes

/-!
# Registered resources

A registry is followed through calls that register resources. Its identifiers are those of the calls
that were not refused, each once and in order of the first (`keys_after`), and a request goes to the
first of them that serves it (`lookupFrom_eq`). `Ledger` is a registry that writes its identifiers
down a second time, in a list that only new ones lengthen. That list never differs from the keys.
-/

namespace DvbHost

set_option autoImplicit false

/-- A key that is there stays in its place, and a new one comes last. -/
theorem KeyedList.keys_put {κ ν : Type} [DecidableEq κ] (l : KeyedList κ ν) (k : κ) (v : ν) :
    keys (put l k v) = if k ∈ keys l then keys l else keys l ++ [k] := by
  induction l with
  | nil => rfl
  | cons p l ih =>
    obtain ⟨k', v'⟩ := p
    unfold put
    by_cases h : k = k'
    · simp [h, keys]
    · have hkeys : keys ((k', v') :: put l k v) = k' :: keys (put l k v) := rfl
      rw [if_neg h, hkeys, ih]
      by_cases hmem : k ∈ keys l <;> simp_all [keys]

namespace Ci

/-! ## Which resource serves a request -/

namespace ResourceId

/-- Both top bits are set. -/
def Private (r : ResourceId) : Prop := 3 * 2 ^ 30 ≤ r.value.toNat

/-- The 26 bits above the version. -/
def stem (r : ResourceId) : Nat := r.value.toNat / 2 ^ 6

instance (r : ResourceId) : Decidable r.Private :=
  inferInstanceAs (Decidable (3 * 2 ^ 30 ≤ r.value.toNat))

/-- A host resource can take a request: it is the very one if either is private, and otherwise it is
the same in no lower version. -/
def Serves (host requested : ResourceId) : Prop :=
  if host.Private ∨ requested.Private then host = requested
  else host.stem = requested.stem ∧ requested.version ≤ host.version

/-- Both are public and the same but for the version. -/
def SamePublic (host requested : ResourceId) : Prop :=
  ¬host.Private ∧ ¬requested.Private ∧ host.stem = requested.stem

instance (host requested : ResourceId) : Decidable (host.Serves requested) :=
  inferInstanceAs (Decidable (if host.Private ∨ requested.Private then host = requested
    else host.stem = requested.stem ∧ requested.version ≤ host.version))

instance (host requested : ResourceId) : Decidable (host.SamePublic requested) :=
  inferInstanceAs (Decidable (¬host.Private ∧ ¬requested.Private ∧ host.stem = requested.stem))

variable (r s host requested : ResourceId)

theorem isPrivate_iff : r.isPrivate = true ↔ r.Private := by
  have hlt := r.value.toNat_lt
  rw [isPrivate, beq_iff_eq, bits_eq, Private]
  omega

theorem sameResource_iff :
    r.sameResource s = true ↔ if r.Private ∨ s.Private then r = s else r.stem = s.stem := by
  have hr := r.value.toNat_lt
  have hs := s.value.toNat_lt
  simp only [sameResource, Bool.or_eq_true, isPrivate_iff]
  split
  · rw [beq_iff_eq]
  · rw [beq_iff_eq, bits_eq, bits_eq, stem, stem]
    omega

theorem serves_iff :
    host.Serves requested ↔
      host.sameResource requested = true ∧
        (host.isPrivate = true ∨ requested.version ≤ host.version) := by
  rw [sameResource_iff, isPrivate_iff, Serves]
  by_cases hany : host.Private ∨ requested.Private
  · simp only [if_pos hany]
    refine ⟨fun heq => ⟨heq, .inl ?_⟩, And.left⟩
    subst heq
    exact or_self_iff.mp hany
  · simp only [if_neg hany]
    have hhost : ¬host.Private := fun h => hany (.inl h)
    simp [hhost]

theorem samePublic_iff :
    host.SamePublic requested ↔
      host.sameResource requested = true ∧ ¬host.isPrivate = true := by
  rw [sameResource_iff, isPrivate_iff, SamePublic]
  by_cases hany : host.Private ∨ requested.Private
  · simp only [if_pos hany]
    refine iff_of_false (fun h => hany.elim h.1 h.2.1) ?_
    rintro ⟨rfl, hhost⟩
    exact hhost (or_self_iff.mp hany)
  · obtain ⟨hhost, hrequested⟩ := not_or.mp hany
    simp [hhost, hrequested]

theorem refusal?_eq :
    host.refusal? requested =
      if host.Serves requested then none
      else if host.SamePublic requested then some .lowVersion
      else some .noResource := by
  simp only [serves_iff, samePublic_iff]
  unfold refusal?
  cases host.sameResource requested with
  | false => simp
  | true =>
    cases host.isPrivate with
    | true => simp
    | false => by_cases hversion : requested.version ≤ host.version <;> simp [hversion]

end ResourceId

namespace Registry

variable {ρ : Type}

/-- The first that serves the request; if none does, one that is too low is the reason, wherever it
stands among the others. -/
theorem lookupFrom_eq (requested : ResourceId) (reason : SessionStatus) (ids : List ResourceId) :
    lookupFrom requested reason ids =
      match ids.find? fun host => host.Serves requested with
      | some host => .ok host
      | none =>
        .error (if ∃ host ∈ ids, host.SamePublic requested then .lowVersion else reason) := by
  induction ids generalizing reason with
  | nil => simp [lookupFrom]
  | cons host ids ih =>
    rw [lookupFrom, ResourceId.refusal?_eq, List.find?_cons]
    by_cases hserves : host.Serves requested
    · simp [hserves]
    · by_cases hsame : host.SamePublic requested <;> simp [hserves, hsame, ih]

/-! ## Calls in turn -/

/-- The registry after one call; one that is refused leaves it as it is. -/
def step (reg : Registry ρ) (call : ResourceId × ρ) : Registry ρ :=
  match reg.register call.1 call.2 with
  | .ok reg => reg
  | .error _ => reg

/-- The registry after calls in turn. -/
def after (calls : List (ResourceId × ρ)) : Registry ρ := calls.foldl step []

/-- The identifiers of the calls that a registry does not refuse, in turn. -/
def acceptedFrom : Registry ρ → List (ResourceId × ρ) → List ResourceId
  | _, [] => []
  | reg, call :: calls =>
    match reg.register call.1 call.2 with
    | .ok _ => call.1 :: acceptedFrom (reg.step call) calls
    | .error _ => acceptedFrom (reg.step call) calls

/-- The identifiers of the calls that were not refused, in turn. -/
def accepted (calls : List (ResourceId × ρ)) : List ResourceId := acceptedFrom [] calls

variable {reg : Registry ρ} {id : ResourceId} {resource : ρ} {calls : List (ResourceId × ρ)}

theorem length_keys (reg : Registry ρ) : reg.keys.length = reg.length := List.length_map ..

theorem register_eq (reg : Registry ρ) (id : ResourceId) (resource : ρ) :
    reg.register id resource =
      if id ∉ reg.keys ∧ capacity ≤ reg.keys.length then .error .tooManyResources
      else .ok (reg.put id resource) := by
  have hfree : (reg.get? id).isNone = true ↔ id ∉ reg.keys := by
    rw [KeyedList.mem_keys_iff, Option.isNone_iff_eq_none, Option.not_isSome_iff_eq_none]
  rw [register, length_keys]
  simp only [Bool.and_eq_true, hfree, decide_eq_true_eq, ge_iff_le]

theorem after_concat (calls : List (ResourceId × ρ)) (call : ResourceId × ρ) :
    after (calls ++ [call]) = (after calls).step call :=
  List.foldl_concat ..

theorem keys_step (reg : Registry ρ) (id : ResourceId) (resource : ρ) :
    (reg.step (id, resource)).keys =
      if id ∈ reg.keys ∨ capacity ≤ reg.keys.length then reg.keys else reg.keys ++ [id] := by
  rw [step, register_eq]
  by_cases hmem : id ∈ reg.keys
  · simp [hmem, KeyedList.keys_put]
  · by_cases hfull : capacity ≤ reg.keys.length <;> simp [hmem, hfull, KeyedList.keys_put]

theorem length_after_le (calls : List (ResourceId × ρ)) : (after calls).keys.length ≤ capacity := by
  induction calls using List.reverseRecOn with
  | nil => exact Nat.zero_le _
  | append_singleton calls call ih =>
    rw [after_concat, keys_step]
    split
    · exact ih
    · next h => simp at h ⊢; omega

theorem acceptedFrom_cons (reg : Registry ρ) (id : ResourceId) (resource : ρ)
    (calls : List (ResourceId × ρ)) :
    reg.acceptedFrom ((id, resource) :: calls) =
      if id ∉ reg.keys ∧ capacity ≤ reg.keys.length then
        (reg.step (id, resource)).acceptedFrom calls
      else id :: (reg.step (id, resource)).acceptedFrom calls := by
  rw [acceptedFrom, register_eq]
  by_cases h : id ∉ reg.keys ∧ capacity ≤ reg.keys.length
  · simp only [if_pos h]
  · simp only [if_neg h]

/-- What the calls add to identifiers that are distinct. -/
theorem keys_foldl_step (h : reg.keys.eraseDups = reg.keys) :
    (calls.foldl step reg).keys = (reg.keys ++ acceptedFrom reg calls).eraseDups := by
  induction calls generalizing reg with
  | nil => rw [acceptedFrom, List.append_nil, h]; rfl
  | cons call calls ih =>
    obtain ⟨id, resource⟩ := call
    have hkeys := keys_step reg id resource
    rw [List.foldl_cons, acceptedFrom_cons]
    by_cases hmem : id ∈ reg.keys
    · -- The identifier stands in the list already, so a second one is dropped.
      simp only [hmem, true_or, if_true] at hkeys
      rw [ih (by rw [hkeys, h]), hkeys]
      simp [hmem, List.eraseDups_append, List.cons_removeAll]
    · by_cases hfull : capacity ≤ reg.keys.length
      · simp only [hfull, or_true, if_true] at hkeys
        rw [ih (by rw [hkeys, h]), hkeys]
        simp [hmem, hfull]
      · simp only [hmem, hfull, or_self, if_false] at hkeys
        have hdistinct : (reg.keys ++ [id]).eraseDups = reg.keys ++ [id] := by
          rw [List.eraseDups_append, h, List.cons_removeAll]
          simp [hmem, List.eraseDups_cons]
        rw [ih (by rw [hkeys, hdistinct]), hkeys]
        simp [hmem, hfull]

theorem keys_after (calls : List (ResourceId × ρ)) :
    (after calls).keys = (accepted calls).eraseDups :=
  keys_foldl_step rfl

/-- Among identifiers that do not fill the registry, or with one that is there, a call succeeds. -/
theorem register_after (calls : List (ResourceId × ρ)) (id : ResourceId) (resource : ρ) :
    (after calls).register id resource =
      if id ∉ (after calls).keys ∧ (after calls).keys.length = capacity then
        .error .tooManyResources
      else .ok (after (calls ++ [(id, resource)])) := by
  have hle := length_after_le calls
  have hfull : capacity ≤ (after calls).keys.length ↔ (after calls).keys.length = capacity := by
    omega
  rw [after_concat, step, register_eq]
  simp only [hfull]
  split <;> rfl

end Registry

/-! ## Identifiers written down -/

/-- Resources under their identifiers, and the identifiers in a list of their own. -/
structure Ledger (ρ : Type) where
  resources : Registry ρ
  ids : List ResourceId

namespace Ledger

variable {ρ : Type}

/-- Registers a resource and says why it could not, if it could not. An identifier is written down
where no other resource was given up for the new one. -/
def register (id : ResourceId) (resource : ρ) (l : Ledger ρ) : Option CiError × Ledger ρ :=
  if (l.resources.get? id).isNone && l.resources.length ≥ Registry.capacity then
    (some .tooManyResources, l)
  else
    match l.resources.get? id with
    | some _ => (none, { l with resources := l.resources.put id resource })
    | none => (none, ⟨l.resources.put id resource, l.ids ++ [id]⟩)

/-- The ledger after calls in turn. -/
def after (calls : List (ResourceId × ρ)) : Ledger ρ :=
  calls.foldl (fun l call => (l.register call.1 call.2).2) ⟨[], []⟩

/-- The registry with its keys written down. -/
def ofRegistry (reg : Registry ρ) : Ledger ρ := ⟨reg, reg.keys⟩

/-- What a call of the registry is for the ledger. -/
def answer (l : Ledger ρ) : Except CiError (Registry ρ) → Option CiError × Ledger ρ
  | .ok reg => (none, ofRegistry reg)
  | .error e => (some e, l)

theorem register_ofRegistry (reg : Registry ρ) (id : ResourceId) (resource : ρ) :
    (ofRegistry reg).register id resource =
      answer (ofRegistry reg) (reg.register id resource) := by
  unfold register Registry.register ofRegistry
  by_cases hfull : (reg.get? id).isNone && reg.length ≥ Registry.capacity
  · simp only [if_pos hfull, answer]
  · simp only [if_neg hfull, answer, ofRegistry]
    cases hget : reg.get? id with
    | some old =>
      have hmem : id ∈ reg.keys := KeyedList.mem_keys_of_get? hget
      simp [KeyedList.keys_put, hmem]
    | none =>
      have hmem : id ∉ reg.keys := by
        rw [KeyedList.mem_keys_iff, hget]
        exact Bool.false_ne_true
      simp [KeyedList.keys_put, hmem]

theorem after_eq (calls : List (ResourceId × ρ)) : after calls = ofRegistry (.after calls) := by
  induction calls using List.reverseRecOn with
  | nil => rfl
  | append_singleton calls call ih =>
    have hstep : after (calls ++ [call]) = ((after calls).register call.1 call.2).2 :=
      List.foldl_concat ..
    rw [hstep, ih, register_ofRegistry, Registry.after_concat, Registry.step]
    cases (Registry.after calls).register call.1 call.2 <;> rfl

theorem register_after (calls : List (ResourceId × ρ)) (id : ResourceId) (resource : ρ) :
    (after calls).register id resource =
      if id ∉ (Registry.after calls).keys ∧
          (Registry.after calls).keys.length = Registry.capacity then
        (some .tooManyResources, after calls)
      else (none, after (calls ++ [(id, resource)])) := by
  rw [after_eq, after_eq, register_ofRegistry, Registry.register_after]
  split_ifs <;> rfl

end Ledger

/-- After any calls the identifiers are those of the calls that succeeded, each once and in order of
the first. There are at most 25, and a call fails exactly if its identifier is new and 25 are there.
A request goes to the first identifier that serves it; if there is none, the reason is a low version
if one is the same public resource, and otherwise that there is no such resource. A ledger holds the
same resources and the same identifiers, and a call that fails changes nothing in it. -/
theorem Registry.registered_in_order {ρ : Type} (calls : List (ResourceId × ρ)) :
    (after calls).keys = (accepted calls).eraseDups ∧
    (after calls).keys.length ≤ 25 ∧
    (∀ id resource, (after calls).register id resource =
      if id ∉ (after calls).keys ∧ (after calls).keys.length = 25 then .error .tooManyResources
      else .ok (after (calls ++ [(id, resource)]))) ∧
    (∀ requested, (after calls).lookup requested =
      match (after calls).keys.find? fun host => host.Serves requested with
      | some host => .ok host
      | none =>
        .error (if ∃ host ∈ (after calls).keys, host.SamePublic requested then .lowVersion
          else .noResource)) ∧
    Ledger.after calls = ⟨after calls, (after calls).keys⟩ ∧
    ∀ id resource, (Ledger.after calls).register id resource =
      if id ∉ (after calls).keys ∧ (after calls).keys.length = 25 then
        (some .tooManyResources, Ledger.after calls)
      else (none, Ledger.after (calls ++ [(id, resource)])) := by
  exact ⟨keys_after calls, length_after_le calls, register_after calls,
    fun requested => lookupFrom_eq requested .noResource _, Ledger.after_eq calls,
    Ledger.register_after calls⟩

end Ci

end DvbHost
