import DvbHost.Ci.Spdu
import DvbHost.Proofs.Bytes

/-!
# Session units have one written form

Reading accepts exactly what writing produces (`read_eq_ok`): the tag and the length octet fix how
long a unit is, and only a unit that names a session has data behind it. So in the other units no
octet can be added or left out.
-/

namespace DvbHost.Ci

set_option autoImplicit false

/-! ## Status codes -/

namespace SessionStatus

/-- A code that has a name goes by it. -/
def Proper : SessionStatus → Prop
  | other code => code ∉ [0x00, 0xF0, 0xF1, 0xF2, 0xF3]
  | _ => True

theorem ofCode_proper (c : UInt8) : (ofCode c).Proper := by
  rw [ofCode]
  split_ifs <;> simp_all [Proper]

theorem ofCode_code {status : SessionStatus} (h : status.Proper) : ofCode status.code = status := by
  cases status with
  | other code =>
    simp only [Proper, List.mem_cons, List.not_mem_nil, or_false, not_or] at h
    obtain ⟨h0, h1, h2, h3, h4⟩ := h
    rw [SessionStatus.code, ofCode, if_neg h0, if_neg h1, if_neg h2, if_neg h3, if_neg h4]
  | _ => rfl

end SessionStatus

/-! ## Fixed fields -/

theorem ResourceId.toBytes_ofBytes (a b c d : UInt8) :
    (ofBytes [a, b, c, d]).toBytes = [a, b, c, d] := by
  have hlt : Bytes.number [a, b, c, d] < 256 ^ 4 := Bytes.number_lt _
  rw [toBytes, ofBytes, Bytes.ofUInt32, UInt32.toNat_ofNat_of_lt' hlt]
  exact Bytes.ofNumber_number [a, b, c, d]

theorem ResourceId.ofBytes_toBytes (r : ResourceId) : ofBytes r.toBytes = r := by
  have hlt : r.value.toNat < 256 ^ 4 := r.value.toNat_lt
  rw [ofBytes, toBytes, Bytes.ofUInt32, Bytes.number_ofNumber_of_lt hlt, UInt32.ofNat_toNat]

namespace Spdu

variable {d d' : Bytes} {s s' : Spdu}

theorem ofUInt16_wordAt (hi lo : UInt8) : Bytes.ofUInt16 (wordAt hi lo) = [hi, lo] := by
  have hlt : Bytes.number [hi, lo] < 256 ^ 2 := Bytes.number_lt _
  rw [wordAt, Bytes.ofUInt16, UInt16.toNat_ofNat_of_lt' hlt]
  exact Bytes.ofNumber_number [hi, lo]

theorem exists_ofUInt16 (w : UInt16) : ∃ hi lo, Bytes.ofUInt16 w = [hi, lo] ∧ wordAt hi lo = w := by
  have hlt : w.toNat < 256 ^ 2 := w.toNat_lt
  refine ⟨_, _, rfl, ?_⟩
  change UInt16.ofNat (Bytes.number (Bytes.ofNumber 2 w.toNat)) = w
  rw [Bytes.number_ofNumber_of_lt hlt, UInt16.ofNat_toNat]

theorem exists_toBytes (r : ResourceId) :
    ∃ a b c d, r.toBytes = [a, b, c, d] ∧ .ofBytes [a, b, c, d] = r :=
  ⟨_, _, _, _, rfl, r.ofBytes_toBytes⟩

/-! ## Reading and writing -/

/-- The status goes by its name, if the unit has one. -/
def Proper : Spdu → Prop
  | openSessionResponse status _ _ | createSessionResponse status _ _
  | closeSessionResponse status _ => status.Proper
  | sessionNumber .. | openSessionRequest _ | createSession .. | closeSessionRequest _ => True

/-- How long the counted body is behind each tag. -/
def bodyLength : (tag : UInt8) → Nat
  | 0x91 => 4
  | 0x92 | 0x94 => 7
  | 0x93 => 6
  | 0x96 => 3
  | _ => 2

theorem length_fields (s : Spdu) : s.fields.length = bodyLength s.tag := by
  cases s <;> rfl

theorem bodyLength_bounds (tag : UInt8) : 2 ≤ bodyLength tag ∧ bodyLength tag ≤ 7 := by
  rw [bodyLength.eq_def]
  split <;> decide

theorem tag_ge (s : Spdu) : 0x90 ≤ s.tag := by
  rw [tag.eq_def]
  split <;> decide

theorem trailer_eq_nil (h : s.isSessionNumber = false) : s.trailer = [] := by
  cases s with
  | sessionNumber nb body => cases h
  | _ => rfl

theorem isSessionNumber_congr (h : s.tag = s'.tag) : s.isSessionNumber = s'.isSessionNumber := by
  have htag (u : Spdu) : u.isSessionNumber = (u.tag == 0x90) := by cases u <;> rfl
  rw [htag, htag, h]

theorem length_toBytes (s : Spdu) :
    s.toBytes.length = 2 + bodyLength s.tag + s.trailer.length := by
  rw [toBytes, List.cons_append, List.cons_append, List.length_cons, List.length_cons,
    List.length_append, length_fields]
  omega

/-- The parts of a unit are those that it is made of; only a unit that names a session takes up
what follows. -/
theorem parts_of_ofParts {tag : UInt8} {body trailer : Bytes} (h : ofParts tag body trailer = .ok s) :
    s.Proper ∧ s.tag = tag ∧ s.fields = body ∧ (s.isSessionNumber = true → s.trailer = trailer) := by
  rw [ofParts.eq_def] at h
  split at h
  · cases h
    exact ⟨trivial, rfl, ofUInt16_wordAt .., fun _ => rfl⟩
  · cases h
    exact ⟨trivial, rfl, ResourceId.toBytes_ofBytes .., nofun⟩
  · cases h
    refine ⟨SessionStatus.ofCode_proper _, rfl, ?_, nofun⟩
    rw [fields, SessionStatus.code_ofCode, ResourceId.toBytes_ofBytes, ofUInt16_wordAt]
    rfl
  · cases h
    refine ⟨trivial, rfl, ?_, nofun⟩
    rw [fields, ResourceId.toBytes_ofBytes, ofUInt16_wordAt]
    rfl
  · cases h
    refine ⟨SessionStatus.ofCode_proper _, rfl, ?_, nofun⟩
    rw [fields, SessionStatus.code_ofCode, ResourceId.toBytes_ofBytes, ofUInt16_wordAt]
    rfl
  · cases h
    exact ⟨trivial, rfl, ofUInt16_wordAt .., nofun⟩
  · cases h
    refine ⟨SessionStatus.ofCode_proper _, rfl, ?_, nofun⟩
    rw [fields, SessionStatus.code_ofCode, ofUInt16_wordAt]
  · split_ifs at h

theorem ofParts_parts (h : s.Proper) : ofParts s.tag s.fields s.trailer = .ok s := by
  cases s with
  | sessionNumber nb body =>
    obtain ⟨hi, lo, hnb, rfl⟩ := exists_ofUInt16 nb
    rw [fields, hnb]
    rfl
  | openSessionRequest r =>
    obtain ⟨a, b, c, d, hr, rfl⟩ := exists_toBytes r
    rw [fields, hr]
    rfl
  | openSessionResponse status r nb =>
    obtain ⟨a, b, c, d, hr, rfl⟩ := exists_toBytes r
    obtain ⟨hi, lo, hnb, rfl⟩ := exists_ofUInt16 nb
    rw [fields, hr, hnb]
    change Except.ok (openSessionResponse (.ofCode status.code) _ _) = _
    rw [SessionStatus.ofCode_code h]
  | createSession r nb =>
    obtain ⟨a, b, c, d, hr, rfl⟩ := exists_toBytes r
    obtain ⟨hi, lo, hnb, rfl⟩ := exists_ofUInt16 nb
    rw [fields, hr, hnb]
    rfl
  | createSessionResponse status r nb =>
    obtain ⟨a, b, c, d, hr, rfl⟩ := exists_toBytes r
    obtain ⟨hi, lo, hnb, rfl⟩ := exists_ofUInt16 nb
    rw [fields, hr, hnb]
    change Except.ok (createSessionResponse (.ofCode status.code) _ _) = _
    rw [SessionStatus.ofCode_code h]
  | closeSessionRequest nb =>
    obtain ⟨hi, lo, hnb, rfl⟩ := exists_ofUInt16 nb
    rw [fields, hnb]
    rfl
  | closeSessionResponse status nb =>
    obtain ⟨hi, lo, hnb, rfl⟩ := exists_ofUInt16 nb
    rw [fields, hnb]
    change Except.ok (closeSessionResponse (.ofCode status.code) _) = _
    rw [SessionStatus.ofCode_code h]

theorem read_toBytes (h : s.Proper) : read s.toBytes = .ok s := by
  have hlength := length_fields s ▸ bodyLength_bounds s.tag
  have hcount : (UInt8.ofNat s.fields.length).toNat = s.fields.length := by
    rw [UInt8.toNat_ofNat']
    omega
  have haccepted : (s.isSessionNumber || s.trailer.isEmpty) = true := by
    cases s <;> rfl
  rw [toBytes, List.cons_append, List.cons_append, read, hcount, Bytes.split?_length]
  dsimp only
  rw [ofParts_parts h]
  exact if_pos haccepted

theorem toBytes_of_read (h : read d = .ok s) : s.Proper ∧ s.toBytes = d := by
  rw [read.eq_def] at h
  split at h
  · next tag len tail =>
    split at h
    · cases h
    · next body trailer hsplit =>
      split at h
      · cases h
      · next u hparts =>
        split_ifs at h with haccepted
        cases h
        obtain ⟨hproper, htag, hfields, htrailer⟩ := parts_of_ofParts hparts
        obtain ⟨hle, hbody, hrest⟩ := Bytes.split?_eq_some.mp hsplit
        have hcount : UInt8.ofNat s.fields.length = len := by
          rw [hfields, hbody, List.length_take, Nat.min_eq_left hle, UInt8.ofNat_toNat]
        have hkept : s.trailer = trailer := by
          cases hnumber : s.isSessionNumber with
          | true => exact htrailer hnumber
          | false =>
            rw [hnumber, Bool.false_or, List.isEmpty_iff] at haccepted
            rw [trailer_eq_nil hnumber, haccepted]
        refine ⟨hproper, ?_⟩
        rw [toBytes, hcount, htag, hkept, hfields, hbody, hrest, List.cons_append, List.cons_append,
          List.take_append_drop]
  · cases h

/-- Exactly the written forms are accepted. -/
theorem read_eq_ok : read d = .ok s ↔ s.Proper ∧ s.toBytes = d :=
  ⟨toBytes_of_read, fun ⟨hproper, hd⟩ => hd ▸ read_toBytes hproper⟩

/-! ## Octets too many and too few -/

theorem error_of_not_ok (h : ∀ s, read d ≠ .ok s) : ∃ e, read d = .error e := by
  cases hread : read d with
  | error e => exact ⟨e, rfl⟩
  | ok s => exact absurd hread (h s)

theorem head?_of_read (h : read d = .ok s) : d.head? = some s.tag := by
  obtain ⟨-, rfl⟩ := toBytes_of_read h
  rfl

theorem length_of_read (h : read d = .ok s) : d.length = 2 + bodyLength s.tag + s.trailer.length := by
  obtain ⟨-, rfl⟩ := toBytes_of_read h
  exact length_toBytes s

theorem rejected_short (h : d.length < 4) : ∃ e, read d = .error e := by
  refine error_of_not_ok fun s hread => ?_
  have hlength := length_of_read hread
  have hbody := bodyLength_bounds s.tag
  omega

/-- The first octet fixes the length of every unit that does not name a session. -/
theorem rejected_of_length (h : read d = .ok s) (hs : s.isSessionNumber = false)
    (hhead : d'.head? = d.head?) (hlength : d'.length ≠ d.length) : ∃ e, read d' = .error e := by
  refine error_of_not_ok fun s' h' => hlength ?_
  have htag : s'.tag = s.tag :=
    Option.some.inj ((head?_of_read h').symm.trans (hhead.trans (head?_of_read h)))
  have hs' : s'.isSessionNumber = false := (isSessionNumber_congr htag).trans hs
  rw [length_of_read h, length_of_read h', trailer_eq_nil hs, trailer_eq_nil hs', htag]

/-- A tag is no length: nothing can stand before a unit, and no unit can lack its tag. -/
theorem ofNat_length_ne_tag (s s' : Spdu) : UInt8.ofNat s.fields.length ≠ s'.tag := by
  intro h
  have hbody := bodyLength_bounds s.tag
  have htag : 0x90 ≤ s'.tag.toNat := tag_ge s'
  rw [← h, UInt8.toNat_ofNat', length_fields] at htag
  omega

theorem rejected_behind (h : read d = .ok s) (b : UInt8) : ∃ e, read (b :: d) = .error e := by
  obtain ⟨-, rfl⟩ := toBytes_of_read h
  refine error_of_not_ok fun s' h' => ?_
  obtain ⟨-, hs'⟩ := toBytes_of_read h'
  exact ofNat_length_ne_tag s' s (List.cons.inj (List.cons.inj hs').2).1

theorem rejected_tail (h : read d = .ok s) : ∃ e, read d.tail = .error e := by
  obtain ⟨-, rfl⟩ := toBytes_of_read h
  refine error_of_not_ok fun s' h' => ?_
  obtain ⟨-, hs'⟩ := toBytes_of_read h'
  exact ofNat_length_ne_tag s s' (List.cons.inj hs').1.symm

/-- No octet can be put in or left out anywhere, nothing can follow, and the end is needed. -/
structure Tight (d : Bytes) : Prop where
  extra : ∀ i b, i ≤ d.length → ∃ e, read (d.insertIdx i b) = .error e
  missing : ∀ i, i < d.length → ∃ e, read (d.eraseIdx i) = .error e
  trailing : ∀ x, x ≠ [] → ∃ e, read (d ++ x) = .error e
  cut : ∀ n, n < d.length → ∃ e, read (d.take n) = .error e

theorem tight_of_read (h : read d = .ok s) (hs : s.isSessionNumber = false) : Tight d := by
  have hne : d ≠ [] := by
    rintro rfl
    cases h
  obtain ⟨tag, tail, rfl⟩ := List.exists_cons_of_ne_nil hne
  constructor
  · intro i b hi
    cases i with
    | zero => exact rejected_behind h b
    | succ i =>
      refine rejected_of_length h hs rfl ?_
      rw [List.length_insertIdx_of_le_length hi]
      exact Nat.succ_ne_self _
  · intro i hi
    cases i with
    | zero => exact rejected_tail h
    | succ i =>
      refine rejected_of_length h hs rfl ?_
      rw [List.length_eraseIdx_of_lt hi]
      omega
  · intro x hx
    refine rejected_of_length h hs rfl ?_
    have hpos := List.length_pos_of_ne_nil hx
    rw [List.length_append]
    omega
  · intro n hn
    cases n with
    | zero => exact ⟨.truncatedData, rfl⟩
    | succ n =>
      refine rejected_of_length h hs rfl ?_
      rw [List.length_take]
      omega

/-- Every unit whose status goes by its name is read back from its octets, and octets that are read
are those of the unit, so no two byte strings are read as the same unit. Where the unit does not
name a session, no octet can be put in, left out or added. Where it does, everything behind its
four octets is its data. -/
theorem written_form_unique :
    (∀ s : Spdu, s.Proper → read s.toBytes = .ok s) ∧
    (∀ d s, read d = .ok s → s.Proper ∧ s.toBytes = d) ∧
    (∀ d d' s, read d = .ok s → read d' = .ok s → d = d') ∧
    (∀ d s, read d = .ok s → s.isSessionNumber = false → Tight d) ∧
    ∀ nb body,
      (∀ x, read ((sessionNumber nb body).toBytes ++ x) = .ok (sessionNumber nb (body ++ x))) ∧
      ∀ n, n < 4 → ∃ e, read ((sessionNumber nb body).toBytes.take n) = .error e := by
  refine ⟨fun s => read_toBytes, fun d s => toBytes_of_read, fun d d' s h h' => ?_,
    fun d s => tight_of_read, fun nb body => ⟨fun x => ?_, fun n hn => ?_⟩⟩
  · exact (toBytes_of_read h).2.symm.trans (toBytes_of_read h').2
  · exact read_toBytes (s := sessionNumber nb (body ++ x)) trivial
  · refine rejected_short ?_
    rw [List.length_take]
    omega

/-- A refusal with a code that has no name, and the end of a session. -/
theorem written_form_unique_refusal :
    (createSessionResponse (.other 0x7F) .mmi 3).Proper ∧
      read (createSessionResponse (.other 0x7F) .mmi 3).toBytes =
        .ok (createSessionResponse (.other 0x7F) .mmi 3) ∧
      read [0x95, 2, 0, 1] = .ok (closeSessionRequest 1) ∧
      (closeSessionRequest 1).isSessionNumber = false ∧ Tight [0x95, 2, 0, 1] := by
  have hproper : (createSessionResponse (.other 0x7F) .mmi 3).Proper := by
    change (0x7F : UInt8) ∉ [0x00, 0xF0, 0xF1, 0xF2, 0xF3]
    decide
  have hread : read [0x95, 2, 0, 1] = .ok (closeSessionRequest 1) := rfl
  exact ⟨hproper, written_form_unique.1 _ hproper, hread, rfl,
    written_form_unique.2.2.2.1 _ _ hread rfl⟩

end Spdu

end DvbHost.Ci
