import DvbHost.Proofs.Checked.Basic

/-!
# Reading with faults

A reading step that a fault can stop. `ofCursor` is a step of the library as one that never does;
it keeps the structure of a reading, so a reading is free of faults if its fields are.
-/

namespace DvbHost

set_option autoImplicit false

variable {α β : Type}

/-- A reading step that can be stopped by a fault. After an error nothing more is read. -/
def CheckedCursor (α : Type) := StateT Bytes Decoding α

namespace CheckedCursor

instance : Monad CheckedCursor := inferInstanceAs (Monad (StateT Bytes Decoding))

instance : LawfulMonad CheckedCursor := inferInstanceAs (LawfulMonad (StateT Bytes Decoding))

/-- A step of the library. -/
def ofCursor (p : Cursor α) : CheckedCursor α := fun s =>
  Decoding.ofResult <|
    match p s with
    | (.ok a, s') => .ok (a, s')
    | (.error e, _) => .error e

/-- What a reading makes of a byte string; octets it leaves unread are ignored. -/
def run (p : CheckedCursor α) (bs : Bytes) : Decoding α := Prod.fst <$> p bs

theorem ofCursor_pure (a : α) : ofCursor (pure a) = pure a := rfl

theorem ofCursor_bind (p : Cursor α) (f : α → Cursor β) :
    ofCursor (p >>= f) = ofCursor p >>= fun a => ofCursor (f a) := by
  funext s
  change Decoding.ofResult (match (match p s with
    | (.ok a, s') => f a s'
    | (.error e, s') => (.error e, s')) with
    | (.ok a, s') => .ok (a, s')
    | (.error e, _) => .error e) = (ofCursor p s >>= fun q => ofCursor (f q.1) q.2)
  rw [ofCursor]
  obtain ⟨a | e, s'⟩ := p s <;> rfl

theorem run_ofCursor (p : Cursor α) (bs : Bytes) :
    (ofCursor p).run bs = Decoding.ofResult (p.run bs) := by
  rw [run, ofCursor, Cursor.run]
  obtain ⟨a | e, s'⟩ := p bs <;> rfl

/-! ## Parts, ends and loops -/

/-- A decoding of octets that were already read. -/
def decode (d : Decoding α) : CheckedCursor α := fun s => (fun a => (a, s)) <$> d

/-- A computation that reads nothing. -/
def check (c : Checked α) : CheckedCursor α := decode (Decoding.check c)

def u8 : CheckedCursor UInt8 := ofCursor Cursor.u8

def bytes (n : Nat) : CheckedCursor Bytes := ofCursor (Cursor.bytes n)

def rest : CheckedCursor Bytes := ofCursor Cursor.rest

/-- Cuts off `n` octets and reads them alone. -/
def within (n : Nat) (p : CheckedCursor α) : CheckedCursor α := do
  let part ← bytes n
  decode (p.run part)

/-- Reads with `p` and requires that nothing is left. -/
def exactly (p : CheckedCursor α) : CheckedCursor α := do
  let a ← p
  ofCursor Cursor.finish
  return a

/-- Reads `p` `n` times. -/
def repeated (p : CheckedCursor α) : (n : Nat) → CheckedCursor (List α)
  | 0 => pure []
  | n + 1 => do
    let a ← p
    return a :: (← repeated p n)

/-- Reads `p` until the data ends, but at most `fuel` times. -/
def untilEndWithin (p : CheckedCursor α) : (fuel : Nat) → CheckedCursor (List α)
  | 0 => pure []
  | fuel + 1 => fun s =>
    match s with
    | [] => pure ([], [])
    | _ :: _ => (do
        let a ← p
        return a :: (← untilEndWithin p fuel) : CheckedCursor (List α)) s

/-- Reads `p` until the data ends. -/
def untilEnd (p : CheckedCursor α) : CheckedCursor (List α) := fun s => untilEndWithin p s.length s

variable (p : Cursor α)

theorem decode_ofResult (r : Except SiError α) :
    decode (Decoding.ofResult r) = ofCursor (Cursor.lift r) := by
  funext s
  cases r <;> rfl

theorem check_ok (a : α) : check (.ok a) = pure a := rfl

theorem within_ofCursor (n : Nat) : within n (ofCursor p) = ofCursor (Cursor.within n p) := by
  simp only [within, Cursor.within, run_ofCursor, decode_ofResult, ofCursor_bind, bytes]

theorem exactly_ofCursor : exactly (ofCursor p) = ofCursor (Cursor.exactly p) := by
  simp only [exactly, Cursor.exactly, ofCursor_bind, ofCursor_pure]

theorem repeated_ofCursor (n : Nat) :
    repeated (ofCursor p) n = ofCursor (Cursor.repeated p n) := by
  induction n with
  | zero => rfl
  | succ n ih => simp only [repeated, Cursor.repeated, ih, ofCursor_bind, ofCursor_pure]

theorem untilEndWithin_ofCursor (fuel : Nat) :
    untilEndWithin (ofCursor p) fuel = ofCursor (Cursor.untilEndWithin p fuel) := by
  induction fuel with
  | zero => rfl
  | succ fuel ih =>
    funext s
    cases s with
    | nil => rfl
    | cons b s =>
      have hentry : (do
          let a ← ofCursor p
          return a :: (← untilEndWithin (ofCursor p) fuel)) =
          ofCursor (p >>= fun a => Cursor.untilEndWithin p fuel >>= fun as => pure (a :: as)) := by
        simp only [ih, ofCursor_bind, ofCursor_pure]
      exact congrFun hentry (b :: s)

theorem untilEnd_ofCursor : untilEnd (ofCursor p) = ofCursor (Cursor.untilEnd p) := by
  funext s
  rw [untilEnd, untilEndWithin_ofCursor]
  rfl

/-! ## Entries of a fixed size -/

variable {p : Cursor α} {g : Bytes → Checked α}

/-- Entries of `size` octets each, taken one by one; data that is no whole number of entries is
refused before any is read. -/
def entries (size : Nat) (g : Bytes → Checked α) : CheckedCursor (List α) := do
  let s ← rest
  decode (Decoding.require (s.length % size = 0) .lengthMismatch)
  check ((Bytes.cut size (s.length / size) s).mapM g)

/-- Parts that are all read without a fault, and as the library reads them. -/
theorem mapM_entries {parts : List Bytes}
    (h : ∀ part ∈ parts, ∃ a, g part = .ok a ∧ 0 < part.length ∧ p.Reads part a) :
    ∃ as, parts.mapM g = .ok as ∧ Cursor.Entries p parts as := by
  induction parts with
  | nil => exact ⟨[], rfl, .nil⟩
  | cons part parts ih =>
    obtain ⟨a, ha, hpart⟩ := h part List.mem_cons_self
    obtain ⟨as, has, hparts⟩ := ih fun part hmem => h part (List.mem_cons_of_mem _ hmem)
    refine ⟨a :: as, ?_, .cons hpart hparts⟩
    rw [List.mapM_cons, ha, has]
    rfl

/-- If no entry faults, the entries are those that the library reads. -/
theorem entries_eq {size : Nat} (hsize : 0 < size)
    (hentry : ∀ part : Bytes, part.length = size → ∃ a, g part = .ok a ∧ p.Reads part a) :
    entries size g = ofCursor (Cursor.entries size p) := by
  funext s
  change (decode (Decoding.require (s.length % size = 0) .lengthMismatch) >>= fun _ =>
    check ((Bytes.cut size (s.length / size) s).mapM g)) [] = _
  rw [ofCursor, Cursor.entries]
  by_cases hwhole : s.length % size = 0
  · have hlength : s.length = size * (s.length / size) :=
      (Nat.mul_div_cancel' (Nat.dvd_of_mod_eq_zero hwhole)).symm
    have hparts : ∀ part ∈ Bytes.cut size (s.length / size) s,
        ∃ a, g part = .ok a ∧ 0 < part.length ∧ p.Reads part a := by
      intro part hmem
      have hpart := Bytes.length_of_mem_cut (Nat.le_of_eq hlength.symm) hmem
      obtain ⟨a, ha, hreads⟩ := hentry part hpart
      exact ⟨a, ha, by omega, hreads⟩
    obtain ⟨as, hchecked, hread⟩ := mapM_entries hparts
    have hall : Cursor.untilEnd p s = (.ok as, []) := by
      have h := hread.untilEnd
      rwa [Bytes.flatten_cut hlength] at h
    rw [Decoding.require_true hwhole, if_pos hwhole, hchecked, hall]
    rfl
  · rw [Decoding.require_false hwhole, if_neg hwhole]
    rfl

end CheckedCursor

end DvbHost
