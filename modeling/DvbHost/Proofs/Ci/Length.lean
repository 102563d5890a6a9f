import DvbHost.Ci.Length
import DvbHost.Proofs.Bytes

/-!
# Length fields that are read back

`States` says which octets state which number. A number below `2 ^ 32` is read back from the field
that is written for it, whatever follows the field, and of all octets that state the number these are
the fewest (`field_shortest`). A body is read back from behind the field for its length. What is split
off leaves less than there was, so the streams that are made of such bodies end.
-/

namespace DvbHost.Ci.Length

set_option autoImplicit false

variable {n : Nat} {data body tail : Bytes}

/-! ## The octets of a number -/

theorem width_pos (n : Nat) : 1 ≤ width n := by
  rw [width]
  split_ifs <;> decide

theorem width_le (n : Nat) : width n ≤ 4 := by
  rw [width]
  split_ifs <;> decide

theorem lt_pow_width (h : n < 2 ^ 32) : n < 256 ^ width n := by
  rw [width]
  split_ifs <;> omega

/-! ## Writing and reading -/

theorem encode_short (h : n < 0x80) : encode n = .ok [UInt8.ofNat n] := if_pos h

theorem encode_long (h : 0x80 ≤ n) (hn : n < 2 ^ 32) :
    encode n = .ok (UInt8.ofNat (0x80 + width n) :: Bytes.ofNumber (width n) n) :=
  (if_neg (Nat.not_lt.mpr h)).trans (if_pos hn)

theorem decode_short {first : UInt8} (h : first.toNat < 0x80) (tail : Bytes) :
    decode (first :: tail) = .ok (first.toNat, 1) := if_pos h

/-- A field that states how many octets it has. -/
theorem decode_long (field : Bytes) (hpos : 1 ≤ field.length) (hle : field.length ≤ 4)
    (tail : Bytes) :
    decode (UInt8.ofNat (0x80 + field.length) :: (field ++ tail)) =
      .ok (field.number, 1 + field.length) := by
  have hfirst : (UInt8.ofNat (0x80 + field.length)).toNat = 0x80 + field.length := by
    rw [UInt8.toNat_ofNat']
    omega
  have hcount : ¬(field.length = 0 ∨ 4 < field.length) := by omega
  rw [decode, hfirst, if_neg (by omega), Nat.add_sub_cancel_left]
  dsimp only
  rw [if_neg hcount, Bytes.split?_length]

/-- A number below 128 is its own field. Any number that has so many octets has a field of the count
of these octets, with the top bit, and the octets. -/
def States (field : Bytes) (n : Nat) : Prop :=
  (n < 0x80 ∧ field = [UInt8.ofNat n]) ∨
    ∃ octets : Bytes, 1 ≤ octets.length ∧ octets.length ≤ 4 ∧
      field = UInt8.ofNat (0x80 + octets.length) :: octets ∧ n = octets.number

theorem States.decode_append {field : Bytes} (h : States field n) (tail : Bytes) :
    decode (field ++ tail) = .ok (n, field.length) := by
  obtain ⟨hlt, rfl⟩ | ⟨octets, hpos, hle, rfl, rfl⟩ := h
  · have hoctet : (UInt8.ofNat n).toNat = n := by
      rw [UInt8.toNat_ofNat']
      omega
    rw [List.singleton_append, decode_short (by rwa [hoctet]), hoctet]
    rfl
  · rw [List.cons_append, decode_long octets hpos hle, List.length_cons, Nat.add_comm]

theorem States.length_pos {field : Bytes} (h : States field n) : 0 < field.length := by
  obtain ⟨-, rfl⟩ | ⟨octets, -, -, rfl, -⟩ := h <;> exact Nat.zero_lt_succ _

/-- The field that is written states the number. -/
theorem states_of_encode (h : n < 2 ^ 32) : ∃ field, encode n = .ok field ∧ States field n := by
  by_cases hshort : n < 0x80
  · exact ⟨_, encode_short hshort, .inl ⟨hshort, rfl⟩⟩
  · have hlength := Bytes.length_ofNumber (width n) n
    refine ⟨_, encode_long (Nat.not_lt.mp hshort) h,
      .inr ⟨Bytes.ofNumber (width n) n, ?_, ?_, ?_, ?_⟩⟩
    · exact hlength.symm ▸ width_pos n
    · exact hlength.symm ▸ width_le n
    · rw [hlength]
    · rw [Bytes.number_ofNumber_of_lt (lt_pow_width h)]

/-- A number is read back from its field, whatever follows. -/
theorem decode_encode (h : n < 2 ^ 32) :
    ∃ field, encode n = .ok field ∧ ∀ tail, decode (field ++ tail) = .ok (n, field.length) := by
  obtain ⟨field, hfield, hstates⟩ := states_of_encode h
  exact ⟨field, hfield, hstates.decode_append⟩

/-! ## What is read -/

theorem states_of_decode {used : Nat} (h : decode data = .ok (n, used)) :
    ∃ field tail, data = field ++ tail ∧ field.length = used ∧ States field n := by
  cases data with
  | nil => cases h
  | cons first data =>
    rw [decode] at h
    split_ifs at h with hshort
    · cases h
      refine ⟨[first], data, rfl, rfl, .inl ⟨hshort, ?_⟩⟩
      rw [UInt8.ofNat_toNat]
    · dsimp only at h
      split_ifs at h with hcount
      split at h
      · cases h
      · next octets tail hsplit =>
        cases h
        obtain ⟨hle, htake, hdrop⟩ := Bytes.split?_eq_some.mp hsplit
        have hlength : octets.length = first.toNat - 0x80 := by
          rw [htake, List.length_take_of_le hle]
        have hfirst : 0x80 + octets.length = first.toNat := by omega
        refine ⟨first :: octets, tail, ?_, ?_, .inr ⟨octets, by omega, by omega, ?_, rfl⟩⟩
        · rw [htake, hdrop, List.cons_append, List.take_append_drop]
        · rw [List.length_cons, hlength, Nat.add_comm]
        · rw [hfirst, UInt8.ofNat_toNat]

/-- The byte strings that are read as a number, all of them, are those that state it. -/
theorem decode_length_iff : decode data = .ok (n, data.length) ↔ States data n := by
  refine ⟨fun h => ?_, fun h => ?_⟩
  · obtain ⟨field, tail, rfl, hlength, hfield⟩ := states_of_decode h
    rw [List.length_append, Nat.left_eq_add, List.length_eq_zero_iff] at hlength
    rwa [hlength, List.append_nil]
  · have hread := h.decode_append []
    rwa [List.append_nil] at hread

/-! ## The shortest field -/

/-- As few octets as hold the number, if it is not less than 128. -/
theorem width_le_of_lt {count : Nat} (hpos : 1 ≤ count) (h : n < 256 ^ count) :
    width n ≤ count := by
  match count, hpos with
  | 1, _ | 2, _ | 3, _ =>
    rw [width]
    split_ifs <;> omega
  | count + 4, _ => exact (width_le n).trans (Nat.le_add_left 4 count)

/-- Octets of the count that is announced are missing. -/
theorem decode_begun {octets part : Bytes} (hpos : 1 ≤ octets.length) (hle : octets.length ≤ 4)
    (hpart : part.length < octets.length) :
    decode (UInt8.ofNat (0x80 + octets.length) :: part) = .error .truncatedData := by
  have hfirst : (UInt8.ofNat (0x80 + octets.length)).toNat = 0x80 + octets.length := by
    rw [UInt8.toNat_ofNat']
    omega
  have hcount : ¬(octets.length = 0 ∨ 4 < octets.length) := by omega
  rw [decode, hfirst, if_neg (by omega), Nat.add_sub_cancel_left]
  dsimp only
  rw [if_neg hcount, Bytes.split?, if_neg (Nat.not_le.mpr hpart)]

/-- Every part of a field from its beginning lacks octets. -/
theorem States.decode_proper_prefix {field part : Bytes} (h : States field n)
    (hpart : part <+: field) (hne : part ≠ field) : decode part = .error .truncatedData := by
  have hlength : part.length < field.length :=
    Nat.lt_of_le_of_ne hpart.length_le fun heq => hne (hpart.eq_of_length heq)
  cases part with
  | nil => rfl
  | cons first part =>
    obtain ⟨-, rfl⟩ | ⟨octets, hpos, hle, rfl, -⟩ := h
    · exact absurd hlength (Nat.not_lt_of_le (Nat.le_add_left 1 part.length))
    · obtain ⟨rfl, -⟩ := List.cons_prefix_cons.mp hpart
      exact decode_begun hpos hle (Nat.lt_of_succ_lt_succ hlength)

/-- Every other field for a number is longer than the one that is written. -/
theorem States.length_lt {field other : Bytes} (hfield : encode n = .ok field)
    (h : States other n) (hne : other ≠ field) : field.length < other.length := by
  obtain ⟨hshort, rfl⟩ | ⟨octets, hpos, hle, rfl, rfl⟩ := h
  · exact absurd (Except.ok.inj ((encode_short hshort).symm.trans hfield)) hne
  · have hlt := Bytes.number_lt octets
    by_cases hshort : octets.number < 0x80
    · obtain rfl := Except.ok.inj ((encode_short hshort).symm.trans hfield)
      exact Nat.succ_lt_succ hpos
    · have hn : octets.number < 2 ^ 32 :=
        Nat.lt_of_lt_of_le hlt (Nat.pow_le_pow_right (by decide : 0 < 256) hle)
      obtain rfl := Except.ok.inj ((encode_long (Nat.not_lt.mp hshort) hn).symm.trans hfield)
      have hwidth : width octets.number ≠ octets.length := by
        intro heq
        rw [heq, Bytes.ofNumber_number] at hne
        exact hne rfl
      rw [List.length_cons, List.length_cons, Bytes.length_ofNumber]
      exact Nat.succ_lt_succ (Nat.lt_of_le_of_ne (width_le_of_lt hpos hlt) hwidth)

/-- A number below `2 ^ 32` has a field. It is read back whatever follows the field; of every part
of the field from its beginning it is said that octets are missing; and every other byte string that
is read as the number, all of it, is longer. A greater number has no field. -/
theorem field_shortest (n : Nat) :
    (n < 2 ^ 32 → ∃ field, encode n = .ok field ∧
      (∀ x, decode (field ++ x) = .ok (n, field.length)) ∧
      (∀ part, part <+: field → part ≠ field → decode part = .error .truncatedData) ∧
      ∀ other, decode other = .ok (n, other.length) → other ≠ field →
        field.length < other.length) ∧
    (2 ^ 32 ≤ n → encode n = .error .lengthMismatch) := by
  refine ⟨fun h => ?_, fun h => ?_⟩
  · obtain ⟨field, hfield, hstates⟩ := states_of_encode h
    refine ⟨field, hfield, hstates.decode_append, fun part => hstates.decode_proper_prefix,
      fun other hother hne => ?_⟩
    exact (decode_length_iff.mp hother).length_lt hfield hne
  · rw [encode, if_neg (by omega), if_neg (by omega)]

/-- The first number that needs three octets: its field, the field without its last octet, a longer
field that is read as the number too; and the first number without a field. -/
theorem field_shortest_bounds :
    encode 0x10000 = .ok [0x83, 0x01, 0x00, 0x00] ∧
      decode [0x83, 0x01, 0x00, 0x00, 0xFF] = .ok (0x10000, 4) ∧
      decode [0x83, 0x01, 0x00] = .error .truncatedData ∧
      decode [0x84, 0x00, 0x01, 0x00, 0x00] = .ok (0x10000, 5) ∧
      [0x83, 0x01, 0x00, 0x00].length < [0x84, 0x00, 0x01, 0x00, 0x00].length ∧
      encode 0x100000000 = .error .lengthMismatch := by
  obtain ⟨field, hfield, hread, hbegun, hother⟩ := (field_shortest 0x10000).1 (by decide)
  obtain rfl : [0x83, 0x01, 0x00, 0x00] = field := Except.ok.inj hfield
  exact ⟨hfield, hread [0xFF], hbegun _ (by decide) (by decide), by decide,
    hother [0x84, 0x00, 0x01, 0x00, 0x00] (by decide) (by decide),
    (field_shortest 0x100000000).2 (Nat.le_refl _)⟩

/-! ## Bodies behind their lengths -/

/-- What is split off is a body behind a field for its length. -/
theorem split_eq_ok :
    split data = .ok (body, tail) ↔
      ∃ field, States field body.length ∧ data = field ++ (body ++ tail) := by
  constructor
  · intro h
    rw [split] at h
    split at h
    · cases h
    · next n used hdecode =>
      split at h
      · cases h
      · next parts hparts =>
        cases h
        obtain ⟨field, behind, rfl, rfl, hfield⟩ := states_of_decode hdecode
        rw [List.drop_left] at hparts
        obtain ⟨hle, rfl, rfl⟩ := Bytes.split?_eq_some.mp hparts
        rw [List.length_take_of_le hle, List.take_append_drop]
        exact ⟨field, hfield, rfl⟩
  · rintro ⟨field, hfield, rfl⟩
    rw [split, hfield.decode_append]
    dsimp only
    rw [List.drop_left, Bytes.split?_length]

/-- A body is read back from behind the field for its length, whatever follows. -/
theorem split_encode (h : body.length < 2 ^ 32) :
    ∃ field, encode body.length = .ok field ∧
      ∀ tail, split (field ++ (body ++ tail)) = .ok (body, tail) := by
  obtain ⟨field, hfield, hstates⟩ := states_of_encode h
  exact ⟨field, hfield, fun tail => split_eq_ok.mpr ⟨field, hstates, rfl⟩⟩

theorem length_lt_of_split (h : split data = .ok (body, tail)) : tail.length < data.length := by
  obtain ⟨field, hfield, rfl⟩ := split_eq_ok.mp h
  have hpos := hfield.length_pos
  simp only [List.length_append]
  omega

end DvbHost.Ci.Length
