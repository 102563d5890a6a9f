import DvbHost.Proofs.Cursor.Arrival
import DvbHost.Proofs.Descriptor.Block

/-!
# What a reading step takes

A step accounts for octets if it takes them from the front and answers the same on those alone. The
steps that read fields do, also where they fail, and so does what is made of them in turn, because
what follows the octets of a first step changes nothing for it. Where octets are missing a field
takes none; only a field behind another can be missed after octets were taken.
-/

namespace DvbHost

set_option autoImplicit false

namespace Cursor

variable {α β : Type} {p : Cursor α} {f : α → Cursor β}

/-- The step takes octets from the front, and on those alone it answers the same. -/
def Accounts (p : Cursor α) : Prop := ∀ s, ∃ taken, s = taken ++ (p s).2 ∧ p taken = ((p s).1, [])

/-- Where octets are missing, the step takes none. -/
def Retains (p : Cursor α) : Prop := ∀ s, (p s).1 = .error .truncatedData → (p s).2 = s

theorem accounts_u8 : Accounts u8
  | [] => ⟨[], rfl, rfl⟩
  | b :: _ => ⟨[b], rfl, rfl⟩

theorem accounts_rest : Accounts rest := fun s => ⟨s, (List.append_nil s).symm, rfl⟩

theorem accounts_lift (r : Except SiError α) : Accounts (lift r) := fun _ => ⟨[], rfl, rfl⟩

theorem accounts_bytes (n : Nat) : Accounts (bytes n) := by
  intro s
  by_cases h : n ≤ s.length
  · have htaken := (reads_bytes (s.take n)).all
    rw [List.length_take, Nat.min_eq_left h] at htaken
    rw [bytes_of_le h]
    exact ⟨s.take n, (List.take_append_drop n s).symm, htaken⟩
  · have hlt : s.length < n := Nat.not_le.mp h
    rw [bytes_of_lt hlt]
    exact ⟨[], rfl, bytes_of_lt (Nat.zero_lt_of_lt hlt)⟩

/-- What follows the octets of the first step does not change what it makes of them. -/
theorem Accounts.bind (hp : Accounts p) (hsteady : Steady p) (hf : ∀ a, Accounts (f a)) :
    Accounts (p >>= f) := by
  intro s
  obtain ⟨taken, hs, hagain⟩ := hp s
  cases hstep : p s with
  | mk outcome rest =>
    rw [hstep] at hs hagain
    cases outcome with
    | error e =>
      rw [bind_error hstep]
      exact ⟨taken, hs, bind_error hagain⟩
    | ok a =>
      obtain ⟨next, hrest, hnext⟩ := hf a rest
      have hlonger : p (taken ++ next) = (.ok a, next) := by
        rw [hsteady taken (by rw [hagain]; nofun) next, hagain]
        rfl
      rw [bind_ok hstep]
      refine ⟨taken ++ next, ?_, (bind_ok hlonger).trans hnext⟩
      rw [List.append_assoc, ← hrest]
      exact hs

theorem Accounts.map (hp : Accounts p) (g : α → β) : Accounts (p >>= fun a => pure (g a)) := by
  intro s
  obtain ⟨taken, hs, hagain⟩ := hp s
  refine ⟨taken, ?_, ?_⟩
  · rw [map_apply]
    exact hs
  · rw [map_apply, map_apply, hagain]

theorem retains_u8 : Retains u8
  | [], _ => rfl

theorem retains_bytes (n : Nat) : Retains (bytes n) := by
  intro s hs
  by_cases h : n ≤ s.length
  · rw [bytes_of_le h] at hs
    cases hs
  · rw [bytes_of_lt (Nat.not_le.mp h)]

theorem Retains.map (hp : Retains p) (g : α → β) : Retains (p >>= fun a => pure (g a)) := by
  intro s hs
  rw [map_apply] at hs ⊢
  apply hp s
  cases houtcome : (p s).1 with
  | ok a => rw [houtcome] at hs; cases hs
  | error e => rw [houtcome] at hs; exact congrArg _ (Except.error.inj hs)

theorem steady_length12 : Steady length12 := ((steady_bytes 2).map _).map _

end Cursor

namespace DescriptorLoop

open Cursor

theorem accounts_ofLength (n : Nat) : Accounts (ofLength n) :=
  (accounts_bytes n).bind (steady_bytes n) fun bs => accounts_lift (ofBytes bs)

theorem accounts_read : Accounts read :=
  (((accounts_bytes 2).map _).map _).bind steady_length12 accounts_ofLength

/-- Octets that are no loop are refused for another reason. -/
theorem ofBytes_ne_truncated (bs : Bytes) : ofBytes bs ≠ .error .truncatedData := by
  obtain ⟨rest, hbs, hnone⟩ := DescriptorBlock.exists_rest bs
  rw [DescriptorBlock.ofBytes_eq, DescriptorBlock.ofOctets_of_rest hbs hnone]
  match rest with
  | [] | [_] | _ :: _ :: _ => nofun

theorem retains_ofLength (n : Nat) : Retains (ofLength n) := by
  intro s hs
  by_cases h : n ≤ s.length
  · rw [ofLength, bind_ok (bytes_of_le h)] at hs
    exact absurd hs (ofBytes_ne_truncated (s.take n))
  · rw [ofLength, bind_error (bytes_of_lt (Nat.not_le.mp h))]

end DescriptorLoop

end DvbHost
