import DvbHost.Ci.Apdu
import DvbHost.Ci.Tpdu
import DvbHost.Proofs.Ci.Length
import DvbHost.Proofs.Layout.Basic
import DvbHost.Proofs.Outcome

/-!
# Streams of units

Application units stand one after the other in a message, and so do transport units in a response.
A unit is read back from the front of a stream with exactly what follows it left (`read_encode`), so
a whole stream decodes to the units that were written into it. What bounds the number of items in
the definitions is never reached: `items` is what an iterator gives call by call before it ends, and
`readResponse` is a loop until no octet is left.
-/

namespace DvbHost.Ci

set_option autoImplicit false

/-! ## Application units -/

namespace Apdu

variable {data tail : Bytes} {unit : Apdu} {e : CiError}

/-- Units one after the other. -/
def encodeAll (units : List Apdu) : Except CiError Bytes :=
  (units.mapM fun a => encode a.tag a.data).map List.flatten

/-- One call of an iterator: the item, if there is one, and the octets for the next call. After a
malformed unit there are none. -/
def next (data : Bytes) : Option (Except CiError Apdu) × Bytes :=
  match data with
  | [] => (none, [])
  | _ :: _ =>
    match read data with
    | .ok (unit, tail) => (some (.ok unit), tail)
    | .error e => (some (.error e), [])

/-- What an iterator gives in its first calls. -/
def calls : (count : Nat) → Bytes → List (Option (Except CiError Apdu))
  | 0, _ => []
  | count + 1, data => (next data).1 :: calls count (next data).2

theorem length_lt_of_read (h : read data = .ok (unit, tail)) : tail.length < data.length := by
  rw [read.eq_def] at h
  split at h
  · split at h
    · cases h
    · next hsplit =>
      cases h
      have hlt := Length.length_lt_of_split hsplit
      simp only [List.length_cons]
      omega
  · cases h

/-- A unit is read back from the front of a stream, with what follows it left. -/
theorem read_encode (htag : unit.tag ≤ 0xFFFFFF) (hdata : unit.data.length < 2 ^ 32) :
    ∃ octets, encode unit.tag unit.data = .ok octets ∧
      ∀ tail, read (octets ++ tail) = .ok (unit, tail) := by
  obtain ⟨field, hfield, hsplit⟩ := Length.split_encode hdata
  obtain ⟨t1, t2, t3, htags⟩ : ∃ t1 t2 t3, Bytes.ofNumber 3 unit.tag = [t1, t2, t3] :=
    ⟨_, _, _, rfl⟩
  have hnumber : Bytes.number [t1, t2, t3] = unit.tag := by
    rw [← htags, Bytes.number_ofNumber_of_lt (Nat.lt_succ_of_le htag)]
  refine ⟨[t1, t2, t3] ++ field ++ unit.data, ?_, fun tail => ?_⟩
  · rw [encode, if_pos (Nat.lt_succ_of_le htag), hfield, htags]
    rfl
  · rw [List.append_assoc, List.append_assoc]
    change read (t1 :: t2 :: t3 :: (field ++ (unit.data ++ tail))) = _
    rw [read, hsplit]
    dsimp only
    rw [hnumber]

/-! ### The items of a stream -/

theorem itemsWithin_cons (fuel : Nat) (b : UInt8) (data : Bytes) :
    itemsWithin (fuel + 1) (b :: data) =
      match read (b :: data) with
      | .error e => [.error e]
      | .ok (unit, tail) => .ok unit :: itemsWithin fuel tail :=
  itemsWithin.eq_3 _ _ (List.cons_ne_nil b data)

/-- Any bound that the octets keep to gives the same items. -/
theorem itemsWithin_congr {fuel fuel' : Nat} (h : data.length ≤ fuel) (h' : data.length ≤ fuel') :
    itemsWithin fuel data = itemsWithin fuel' data := by
  induction fuel generalizing data fuel' with
  | zero =>
    obtain rfl := List.eq_nil_of_length_eq_zero (Nat.le_zero.mp h)
    cases fuel' <;> rfl
  | succ fuel ih =>
    cases data with
    | nil => cases fuel' <;> rfl
    | cons b data =>
      obtain ⟨fuel', rfl⟩ := Nat.exists_eq_add_one_of_ne_zero (Nat.ne_zero_of_lt h')
      rw [itemsWithin_cons, itemsWithin_cons]
      cases hread : read (b :: data) with
      | error e => rfl
      | ok p =>
        have hlt := length_lt_of_read hread
        exact congrArg _ (ih (by omega) (by omega))

theorem items_nil : items [] = [] := rfl

theorem items_of_ok (h : read data = .ok (unit, tail)) : items data = .ok unit :: items tail := by
  have hlt := length_lt_of_read h
  cases data with
  | nil => cases h
  | cons b data =>
    rw [items, List.length_cons, itemsWithin_cons, h]
    exact congrArg _ (itemsWithin_congr (Nat.le_of_lt_succ hlt) (Nat.le_refl _))

theorem items_of_error (hne : data ≠ []) (h : read data = .error e) : items data = [.error e] := by
  cases data with
  | nil => exact absurd rfl hne
  | cons b data => rw [items, List.length_cons, itemsWithin_cons, h]

/-- Induction along the units at the front of a stream. -/
theorem stream_induction {motive : Bytes → Prop} (nil : motive [])
    (error : ∀ data e, data ≠ [] → read data = .error e → motive data)
    (ok : ∀ data unit tail, read data = .ok (unit, tail) → motive tail → motive data)
    (data : Bytes) : motive data := by
  induction hlength : data.length using Nat.strongRecOn generalizing data with
  | ind length ih =>
    cases data with
    | nil => exact nil
    | cons b data =>
      cases hread : read (b :: data) with
      | error e => exact error _ e (List.cons_ne_nil b data) hread
      | ok p =>
        exact ok _ p.1 p.2 hread (ih _ (hlength ▸ length_lt_of_read hread) p.2 rfl)

/-- A malformed unit ends the list, so there is at most one. -/
theorem items_eq_units (data : Bytes) :
    ∃ (units : List Apdu) (error : Option CiError),
      items data = units.map .ok ++ error.toList.map .error := by
  induction data using stream_induction with
  | nil => exact ⟨[], none, rfl⟩
  | error data e hne h => exact ⟨[], some e, items_of_error hne h⟩
  | ok data unit tail h ih =>
    obtain ⟨units, error, hitems⟩ := ih
    exact ⟨unit :: units, error, by rw [items_of_ok h, hitems]; rfl⟩

theorem length_items_le (data : Bytes) : (items data).length ≤ data.length := by
  induction data using stream_induction with
  | nil => exact Nat.le_refl 0
  | error data e hne h =>
    rw [items_of_error hne h]
    exact List.length_pos_of_ne_nil hne
  | ok data unit tail h ih =>
    have hlt := length_lt_of_read h
    rw [items_of_ok h, List.length_cons]
    omega

theorem calls_nil (count : Nat) : calls count [] = List.replicate count none := by
  induction count with
  | zero => rfl
  | succ count ih => exact congrArg _ ih

/-- An iterator gives the items in order, and from then on nothing. -/
theorem calls_eq (count : Nat) (data : Bytes) :
    calls count data = ((items data).map some).take count ++
      List.replicate (count - (items data).length) none := by
  induction count generalizing data with
  | zero => simp [calls]
  | succ count ih =>
    cases data with
    | nil => simpa [items_nil] using calls_nil (count + 1)
    | cons b data =>
      cases hread : read (b :: data) with
      | error e =>
        have hnext : next (b :: data) = (some (.error e), []) := by rw [next, hread]
        rw [calls, hnext, calls_nil, items_of_error (List.cons_ne_nil b data) hread]
        simp
      | ok p =>
        have hnext : next (b :: data) = (some (.ok p.1), p.2) := by rw [next, hread]
        rw [calls, hnext, ih, items_of_ok hread, List.map_cons, List.take_succ_cons,
          List.length_cons, Nat.add_sub_add_right, List.cons_append]

/-! ### Well-formed units -/

/-- A tag of three octets, a length and a body. -/
def Written : Layout Apdu := fun bs unit =>
  ∃ tag field : Bytes, tag.length = 3 ∧ Length.States field unit.data.length ∧
    unit.tag = tag.number ∧ bs = tag ++ (field ++ unit.data)

theorem Written.ne_nil {bs : Bytes} (h : Written bs unit) : bs ≠ [] := by
  obtain ⟨tag, field, htag, -, -, rfl⟩ := h
  exact List.append_ne_nil_of_left_ne_nil (List.ne_nil_of_length_pos (by omega)) _

theorem read_eq_ok : read data = .ok (unit, tail) ↔ ∃ bs, data = bs ++ tail ∧ Written bs unit := by
  constructor
  · intro h
    rw [read.eq_def] at h
    split at h
    · next t1 t2 t3 behind =>
      split at h
      · cases h
      · next body rest hsplit =>
        cases h
        obtain ⟨field, hfield, rfl⟩ := Length.split_eq_ok.mp hsplit
        exact ⟨t1 :: t2 :: t3 :: (field ++ body), by simp, [t1, t2, t3], field, rfl, hfield, rfl,
          rfl⟩
    · cases h
  · rintro ⟨_, rfl, tag, field, htag, hfield, hnumber, rfl⟩
    obtain ⟨t1, t2, t3, rfl⟩ := List.length_eq_three.mp htag
    rw [List.append_assoc, List.append_assoc]
    change read (t1 :: t2 :: t3 :: (field ++ (unit.data ++ tail))) = _
    rw [read, Length.split_eq_ok.mpr ⟨field, hfield, rfl⟩, ← hnumber]

/-- All items are units exactly if the octets are these units one after the other. -/
theorem items_eq_ok_iff (data : Bytes) (units : List Apdu) :
    items data = units.map .ok ↔ Cursor.Many Written data units := by
  induction data using stream_induction generalizing units with
  | nil =>
    rw [items_nil, eq_comm, List.map_eq_nil_iff]
    exact ⟨fun h => h ▸ Cursor.many_nil.mpr rfl, Cursor.Many.of_empty fun _ _ => Written.ne_nil⟩
  | error data e hne herror =>
    rw [items_of_error hne herror]
    cases units with
    | nil => exact iff_of_false nofun fun h => hne (Cursor.many_nil.mp h)
    | cons unit units =>
      refine iff_of_false (fun h => by cases (List.cons.inj h).1) fun h => ?_
      obtain ⟨bs, behind, rfl, hbs, -⟩ := Cursor.many_cons.mp h
      rw [read_eq_ok.mpr ⟨bs, rfl, hbs⟩] at herror
      cases herror
  | ok data unit tail hread ih =>
    rw [items_of_ok hread]
    cases units with
    | nil =>
      obtain ⟨bs, rfl, hbs⟩ := read_eq_ok.mp hread
      refine iff_of_false nofun fun h => hbs.ne_nil ?_
      exact (List.append_eq_nil_iff.mp (Cursor.many_nil.mp h)).1
    | cons first units =>
      rw [List.map_cons, List.cons.injEq, Except.ok.injEq, ih, Cursor.many_cons]
      constructor
      · rintro ⟨rfl, hunits⟩
        obtain ⟨bs, rfl, hbs⟩ := read_eq_ok.mp hread
        exact ⟨bs, tail, rfl, hbs, hunits⟩
      · rintro ⟨bs, behind, rfl, hbs, hunits⟩
        rw [read_eq_ok.mpr ⟨bs, rfl, hbs⟩] at hread
        cases hread
        exact ⟨rfl, hunits⟩

theorem eq_of_many {units units' : List Apdu} (h : Cursor.Many Written data units)
    (hitems : items data = units'.map .ok) : units = units' := by
  rw [(items_eq_ok_iff data units).mpr h] at hitems
  exact List.map_injective_iff.mpr (fun _ _ => Except.ok.inj) hitems

/-! ### Streams of written units -/

/-- A stream of written units, with anything behind it. -/
theorem items_encodeAll (units : List Apdu)
    (h : ∀ a ∈ units, a.tag ≤ 0xFFFFFF ∧ a.data.length < 2 ^ 32) :
    ∃ octets, encodeAll units = .ok octets ∧
      ∀ tail, items (octets ++ tail) = units.map .ok ++ items tail := by
  induction units with
  | nil => exact ⟨[], rfl, fun _ => rfl⟩
  | cons a units ih =>
    obtain ⟨octets, hencode, hread⟩ :=
      read_encode (h a (List.mem_cons_self ..)).1 (h a (List.mem_cons_self ..)).2
    obtain ⟨others, hothers, hitems⟩ := ih fun b hb => h b (List.mem_cons_of_mem a hb)
    obtain ⟨parts, hparts, rfl⟩ := Outcome.ok_of_map hothers
    refine ⟨octets ++ parts.flatten, ?_, fun tail => ?_⟩
    · rw [encodeAll, List.mapM_cons, hencode, hparts]
      rfl
    · rw [List.append_assoc, items_of_ok (hread _), hitems]
      rfl

end Apdu

/-! ## Transport units -/

namespace Tpdu

variable {data tail : Bytes} {unit : Tpdu}

/-- Units one after the other. -/
def encodeAll (units : List Tpdu) : Except CiError Bytes :=
  (units.mapM fun t => encode t.tag t.tcid t.data).map List.flatten

theorem ofOctet_octet (tag : TpduTag) : TpduTag.ofOctet tag.octet = .ok tag := by
  cases tag <;> rfl

theorem length_lt_of_read (h : read data = .ok (unit, tail)) : tail.length < data.length := by
  rw [read.eq_def] at h
  split at h
  · cases h
  · split at h
    · cases h
    · split at h
      · cases h
      · cases h
      · next hsplit =>
        cases h
        exact (Length.length_lt_of_split hsplit).trans (Nat.lt_succ_self _)

/-- A unit is read back from the front of a stream, with what follows it left. The number of the
connection counts as part of the body, hence the bound. -/
theorem read_encode (hdata : unit.data.length < 2 ^ 32 - 1) :
    ∃ octets, encode unit.tag unit.tcid unit.data = .ok octets ∧
      ∀ tail, read (octets ++ tail) = .ok (unit, tail) := by
  have hbody : (unit.tcid :: unit.data).length < 2 ^ 32 := by
    rw [List.length_cons]
    omega
  obtain ⟨field, hfield, hsplit⟩ := Length.split_encode hbody
  refine ⟨unit.tag.octet :: field ++ unit.tcid :: unit.data, ?_, fun tail => ?_⟩
  · rw [encode, Nat.add_comm, ← List.length_cons, hfield]
    rfl
  · rw [List.append_assoc, List.cons_append, read, ofOctet_octet]
    dsimp only
    rw [hsplit]

theorem readResponseWithin_cons (fuel : Nat) (b : UInt8) (data : Bytes) :
    readResponseWithin (fuel + 1) (b :: data) =
      match read (b :: data) with
      | .error e => .error e
      | .ok (unit, tail) => (readResponseWithin fuel tail).map (unit :: ·) :=
  readResponseWithin.eq_3 _ _ (List.cons_ne_nil b data)

/-- Any bound that the octets keep to gives the same units. -/
theorem readResponseWithin_congr {fuel fuel' : Nat} (h : data.length ≤ fuel)
    (h' : data.length ≤ fuel') : readResponseWithin fuel data = readResponseWithin fuel' data := by
  induction fuel generalizing data fuel' with
  | zero =>
    obtain rfl := List.eq_nil_of_length_eq_zero (Nat.le_zero.mp h)
    cases fuel' <;> rfl
  | succ fuel ih =>
    cases data with
    | nil => cases fuel' <;> rfl
    | cons b data =>
      obtain ⟨fuel', rfl⟩ := Nat.exists_eq_add_one_of_ne_zero (Nat.ne_zero_of_lt h')
      rw [readResponseWithin_cons, readResponseWithin_cons]
      cases hread : read (b :: data) with
      | error e => rfl
      | ok p =>
        have hlt := length_lt_of_read hread
        exact congrArg (Except.map (p.1 :: ·)) (ih (by omega) (by omega))

/-- The loop over a response: it ends when no octet is left or a unit is malformed. -/
theorem readResponse_of_ok (h : read data = .ok (unit, tail)) :
    readResponse data = (readResponse tail).map (unit :: ·) := by
  have hlt := length_lt_of_read h
  cases data with
  | nil => cases h
  | cons b data =>
    rw [readResponse, List.length_cons, readResponseWithin_cons, h]
    exact congrArg (Except.map (unit :: ·))
      (readResponseWithin_congr (Nat.le_of_lt_succ hlt) (Nat.le_refl _))

theorem readResponse_encodeAll (units : List Tpdu)
    (h : ∀ t ∈ units, t.data.length < 2 ^ 32 - 1) :
    ∃ octets, encodeAll units = .ok octets ∧ readResponse octets = .ok units := by
  induction units with
  | nil => exact ⟨[], rfl, rfl⟩
  | cons t units ih =>
    obtain ⟨octets, hencode, hread⟩ := read_encode (h t (List.mem_cons_self ..))
    obtain ⟨others, hothers, hresponse⟩ := ih fun u hu => h u (List.mem_cons_of_mem t hu)
    obtain ⟨parts, hparts, rfl⟩ := Outcome.ok_of_map hothers
    refine ⟨octets ++ parts.flatten, ?_, ?_⟩
    · rw [encodeAll, List.mapM_cons, hencode, hparts]
      rfl
    · rw [readResponse_of_ok (hread _), hresponse]
      rfl

end Tpdu

/-! ## The law of streams -/

/-- A stream of application units decodes to the units that were written, and what stands behind it
decodes as it would alone; a stream of transport units is read as a response of these units. On any
octets an iterator over application units ends: it gives `items` in order, at most one for each
octet, and then nothing, and only the last of them can be an error. -/
theorem unit_streams_readBack :
    (∀ units : List Apdu, (∀ a ∈ units, a.tag ≤ 0xFFFFFF ∧ a.data.length < 2 ^ 32) →
      ∃ octets, Apdu.encodeAll units = .ok octets ∧ Apdu.items octets = units.map .ok ∧
        ∀ tail, Apdu.items (octets ++ tail) = units.map .ok ++ Apdu.items tail) ∧
    (∀ units : List Tpdu, (∀ t ∈ units, t.data.length < 2 ^ 32 - 1) →
      ∃ octets, Tpdu.encodeAll units = .ok octets ∧ Tpdu.readResponse octets = .ok units) ∧
    ∀ data : Bytes,
      (∀ count, Apdu.calls count data = ((Apdu.items data).map some).take count ++
        List.replicate (count - (Apdu.items data).length) none) ∧
      (Apdu.items data).length ≤ data.length ∧
      ∃ (units : List Apdu) (error : Option CiError),
        Apdu.items data = units.map .ok ++ error.toList.map .error := by
  refine ⟨fun units h => ?_, Tpdu.readResponse_encodeAll,
    fun data => ⟨fun count => Apdu.calls_eq count data, Apdu.length_items_le data,
      Apdu.items_eq_units data⟩⟩
  obtain ⟨octets, hencode, hitems⟩ := Apdu.items_encodeAll units h
  have hwhole := hitems []
  rw [List.append_nil, Apdu.items_nil, List.append_nil] at hwhole
  exact ⟨octets, hencode, hwhole, hitems⟩

/-- Two application units behind length fields of two and four octets, of which the first has the
greatest tag. -/
def longUnits : List Apdu :=
  [⟨0xFFFFFF, List.replicate 0x80 0x5A⟩, ⟨0x9F8011, List.replicate 0x10000 0x9F⟩]

/-- A data unit behind a length field of three octets, and a status unit. -/
def answeredUnits : List Tpdu :=
  [⟨.dataMore, 1, List.replicate 0xFF 0xA0⟩, ⟨.sb, 1, [0x80]⟩]

/-- A torn unit behind whole ones is the last item. -/
theorem unit_streams_readBack_long :
    (∀ a ∈ longUnits, a.tag ≤ 0xFFFFFF ∧ a.data.length < 2 ^ 32) ∧
      (∀ t ∈ answeredUnits, t.data.length < 2 ^ 32 - 1) ∧
      (∃ octets, Apdu.encodeAll longUnits = .ok octets ∧
        Apdu.items (octets ++ [0x9F, 0x80]) = longUnits.map .ok ++ [.error .truncatedData]) ∧
      ∃ octets, Tpdu.encodeAll answeredUnits = .ok octets ∧
        Tpdu.readResponse octets = .ok answeredUnits := by
  have hlong : ∀ a ∈ longUnits, a.tag ≤ 0xFFFFFF ∧ a.data.length < 2 ^ 32 := by
    simp only [longUnits, List.mem_cons, List.not_mem_nil, or_false, forall_eq_or_imp, forall_eq,
      List.length_replicate]
    decide
  have hanswered : ∀ t ∈ answeredUnits, t.data.length < 2 ^ 32 - 1 := by
    simp only [answeredUnits, List.mem_cons, List.not_mem_nil, or_false, forall_eq_or_imp, forall_eq,
      List.length_replicate]
    decide
  obtain ⟨octets, hencode, -, hitems⟩ := unit_streams_readBack.1 longUnits hlong
  exact ⟨hlong, hanswered, ⟨octets, hencode, hitems [0x9F, 0x80]⟩,
    unit_streams_readBack.2.1 answeredUnits hanswered⟩

end DvbHost.Ci
