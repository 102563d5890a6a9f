import DvbHost.Section.Basic
import DvbHost.Proofs.Bytes

/-!
# Sections at the front of a byte string

What `Section.ofBytes` says of a byte string stays true when more octets come, unless it says that
octets are missing; and of a section that is cut short it says just that.
-/

namespace DvbHost.Section

set_option autoImplicit false

variable {bs : Bytes} {verifyCrc : Bool} {s : Section} {n : Nat}

theorem ofBytes_cons (tableId b1 b2 : UInt8) (tail : Bytes) (verifyCrc : Bool) :
    ofBytes (tableId :: b1 :: b2 :: tail) verifyCrc =
      if tableId = 0xFF then .error .endOfPsi
      else if maxLength < statedLength b1 b2 then .error .lengthMismatch
      else
        match Bytes.split? (3 + statedLength b1 b2) (tableId :: b1 :: b2 :: tail) with
        | none => .error .truncatedData
        | some (whole, _) => (ofWhole whole verifyCrc).map fun s => (s, 3 + statedLength b1 b2) :=
  rfl

/-- The size that a section says it has. -/
theorem size_of_ofBytes (h : ofBytes bs verifyCrc = .ok (s, n)) :
    3 ≤ n ∧ n ≤ 3 + maxLength ∧ n ≤ bs.length := by
  match bs, h with
  | tableId :: b1 :: b2 :: tail, h =>
    rw [ofBytes_cons] at h
    split at h
    · cases h
    · split at h
      · cases h
      · next hmax =>
        cases hsplit : Bytes.split? (3 + statedLength b1 b2) (tableId :: b1 :: b2 :: tail) with
        | none => rw [hsplit] at h; cases h
        | some parts =>
          obtain ⟨whole, rest⟩ := parts
          rw [hsplit] at h
          dsimp only at h
          cases hwhole : ofWhole whole verifyCrc with
          | error e => rw [hwhole] at h; cases h
          | ok s' =>
            rw [hwhole] at h
            obtain ⟨rfl, rfl⟩ := Prod.mk.inj (Except.ok.inj h)
            obtain ⟨hle, -, -⟩ := Bytes.split?_eq_some.mp hsplit
            exact ⟨by omega, by omega, hle⟩

/-- More octets do not change what was found. -/
theorem ofBytes_append (h : ofBytes bs verifyCrc ≠ .error .truncatedData) (x : Bytes) :
    ofBytes (bs ++ x) verifyCrc = ofBytes bs verifyCrc := by
  match bs, h with
  | tableId :: b1 :: b2 :: tail, h =>
    rw [List.cons_append, List.cons_append, List.cons_append, ofBytes_cons, ofBytes_cons]
    rw [ofBytes_cons] at h
    split
    · rfl
    · next hstuffing =>
      rw [if_neg hstuffing] at h
      split
      · rfl
      · next hmax =>
        rw [if_neg hmax] at h
        cases hsplit : Bytes.split? (3 + statedLength b1 b2) (tableId :: b1 :: b2 :: tail) with
        | none => rw [hsplit] at h; exact absurd rfl h
        | some parts =>
          obtain ⟨whole, rest⟩ := parts
          have happend := Bytes.split?_append hsplit x
          rw [List.cons_append, List.cons_append, List.cons_append] at happend
          rw [happend]
  | [], h => exact absurd rfl h
  | [_], h => exact absurd rfl h
  | [_, _], h => exact absurd rfl h

/-- A section that is cut short lacks octets. -/
theorem ofBytes_take (h : ofBytes bs verifyCrc = .ok (s, n)) {k : Nat} (hk : k < n) :
    ofBytes (bs.take k) verifyCrc = .error .truncatedData := by
  by_cases hne : ofBytes (bs.take k) verifyCrc = .error .truncatedData
  · exact hne
  · have hsame := ofBytes_append hne (bs.drop k)
    rw [List.take_append_drop, h] at hsame
    have hlength := (size_of_ofBytes hsame.symm).2.2
    rw [List.length_take] at hlength
    omega

end DvbHost.Section
