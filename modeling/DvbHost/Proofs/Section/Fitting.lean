import DvbHost.Proofs.Cursor
import DvbHost.Section.Basic

/-!
# Writing what fits a section

Lengths are checked at every nested loop and once more for the whole section. `Fits` says of a step
of writing that it fails only for a length that no section can have, so that the checks on the way
never refuse what the last one would let pass.
-/

namespace DvbHost

set_option autoImplicit false

variable {α β : Type} {x : Except SiError α} {f : α → Except SiError β} {P : α → Prop}
  {Q : β → Prop} {n m : Nat}

/-- The outcome of writing `n` octets: a result with the property, or that they are too many. -/
def Fits (x : Except SiError α) (n : Nat) (P : α → Prop) : Prop :=
  (∃ a, x = .ok a ∧ P a) ∨ (x = .error .lengthMismatch ∧ Section.maxLength < n)

namespace Fits

theorem pure {a : α} (h : P a) : Fits (.ok a) n P := .inl ⟨a, rfl, h⟩

/-- A part that does not fit does not fit in the whole. -/
theorem bind (hx : Fits x n P) (hnm : n ≤ m) (hf : ∀ a, P a → Fits (f a) m Q) :
    Fits (x >>= f) m Q := by
  obtain ⟨a, rfl, ha⟩ | ⟨rfl, hn⟩ := hx
  · exact hf a ha
  · exact .inr ⟨rfl, Nat.lt_of_lt_of_le hn hnm⟩

/-- A last step that cannot fail. -/
theorem map {g : α → β} (hx : Fits x n P) (hnm : n ≤ m) (hg : ∀ a, P a → Q (g a)) :
    Fits (x >>= fun a => .ok (g a)) m Q :=
  hx.bind hnm fun a ha => pure (hg a ha)

/-- Entries that are written one after the other, and what each is read as. -/
theorem mapM_map {write : α → Except SiError Bytes} (size : α → Nat) (p : Cursor β) (g : α → β) :
    ∀ {as : List α},
      (∀ a ∈ as, 0 < size a ∧
        Fits (write a) (size a) fun bs => bs.length = size a ∧ Cursor.Reads p bs (g a)) →
      Fits (as.mapM write) (as.map size).sum fun bss =>
        bss.flatten.length = (as.map size).sum ∧ Cursor.Entries p bss (as.map g) := by
  intro as
  induction as with
  | nil => exact fun _ => pure ⟨rfl, .nil⟩
  | cons a as ih =>
    intro h
    obtain ⟨hpos, ha⟩ := h a List.mem_cons_self
    have has := ih fun b hb => h b (List.mem_cons_of_mem a hb)
    rw [List.mapM_cons, List.map_cons, List.sum_cons]
    refine ha.bind (Nat.le_add_right _ _) fun bs hbs => ?_
    refine has.map (Nat.le_add_left _ _) fun bss hbss => ?_
    rw [List.flatten_cons, List.length_append, hbs.1, hbss.1]
    exact ⟨rfl, .cons ⟨hbs.1 ▸ hpos, hbs.2⟩ hbss.2⟩

/-- Entries that are read as they were written. -/
theorem mapM {write : α → Except SiError Bytes} (size : α → Nat) (p : Cursor α) {as : List α}
    (h : ∀ a ∈ as, 0 < size a ∧
      Fits (write a) (size a) fun bs => bs.length = size a ∧ Cursor.Reads p bs a) :
    Fits (as.mapM write) (as.map size).sum fun bss =>
      bss.flatten.length = (as.map size).sum ∧ Cursor.Entries p bss as := by
  have hmap := mapM_map size p id h
  rwa [List.map_id] at hmap

end Fits

end DvbHost
