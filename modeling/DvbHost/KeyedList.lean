/-!
# Lists with keys

A finite map as a list of pairs in order of first insertion. `get?` is the view: every law of the
operations is said of it.
-/

namespace DvbHost

set_option autoImplicit false

abbrev KeyedList (κ ν : Type) := List (κ × ν)

namespace KeyedList

variable {κ ν : Type} [DecidableEq κ]

def get? : KeyedList κ ν → κ → Option ν
  | [], _ => none
  | (k', v) :: l, k => if k = k' then some v else get? l k

/-- Gives `k` the value `v`: in its place if it has one, else at the end. -/
def put : KeyedList κ ν → κ → ν → KeyedList κ ν
  | [], k, v => [(k, v)]
  | (k', v') :: l, k, v => if k = k' then (k, v) :: l else (k', v') :: put l k v

def erase : KeyedList κ ν → κ → KeyedList κ ν
  | [], _ => []
  | (k', v) :: l, k => if k = k' then erase l k else (k', v) :: erase l k

def keys (l : KeyedList κ ν) : List κ := l.map Prod.fst

theorem get?_put (l : KeyedList κ ν) (k k' : κ) (v : ν) :
    get? (put l k v) k' = if k' = k then some v else get? l k' := by
  induction l with
  | nil => rfl
  | cons p l ih =>
    obtain ⟨a, b⟩ := p
    by_cases h : k = a
    · subst h
      by_cases h' : k' = k <;> simp [put, get?, h']
    · by_cases h' : k' = a
      · have : k' ≠ k := fun e => h (e ▸ h')
        simp [put, get?, h, h', Ne.symm h]
      · simp [put, get?, h, h', ih]

theorem get?_erase (l : KeyedList κ ν) (k k' : κ) :
    get? (erase l k) k' = if k' = k then none else get? l k' := by
  induction l with
  | nil => simp [erase, get?]
  | cons p l ih =>
    obtain ⟨a, b⟩ := p
    by_cases h : k = a
    · subst h
      by_cases h' : k' = k
      · simpa [erase, h'] using ih
      · simp [erase, get?, ih, h']
    · by_cases h' : k' = a
      · simp [erase, get?, h, h', Ne.symm h]
      · simp [erase, get?, h, h', ih]

theorem mem_keys_of_get? {l : KeyedList κ ν} {k : κ} {v : ν} (h : get? l k = some v) :
    k ∈ keys l := by
  induction l with
  | nil => cases h
  | cons p l ih =>
    obtain ⟨k', v'⟩ := p
    rw [get?] at h
    split at h
    · next hk =>
      rw [hk]
      exact List.mem_cons_self ..
    · exact List.mem_cons_of_mem _ (ih h)

theorem get?_isSome_of_mem_keys {l : KeyedList κ ν} {k : κ} (h : k ∈ keys l) :
    (get? l k).isSome := by
  induction l with
  | nil => cases h
  | cons p l ih =>
    obtain ⟨k', v'⟩ := p
    rw [get?]
    split
    · rfl
    · next hk => exact ih ((List.mem_cons.mp h).resolve_left hk)

theorem mem_keys_iff {l : KeyedList κ ν} {k : κ} : k ∈ keys l ↔ (get? l k).isSome := by
  refine ⟨get?_isSome_of_mem_keys, fun h => ?_⟩
  obtain ⟨v, hv⟩ := Option.isSome_iff_exists.mp h
  exact mem_keys_of_get? hv

theorem mem_keys_put {l : KeyedList κ ν} {k k' : κ} {v : ν} :
    k' ∈ keys (put l k v) ↔ k' = k ∨ k' ∈ keys l := by
  rw [mem_keys_iff, mem_keys_iff, get?_put]
  by_cases h : k' = k <;> simp [h]

theorem mem_keys_erase {l : KeyedList κ ν} {k k' : κ} :
    k' ∈ keys (erase l k) ↔ k' ≠ k ∧ k' ∈ keys l := by
  rw [mem_keys_iff, mem_keys_iff, get?_erase]
  by_cases h : k' = k <;> simp [h]

end KeyedList

end DvbHost
