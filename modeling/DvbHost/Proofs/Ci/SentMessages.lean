import DvbHost.Proofs.Ci.GatheredFragments
import DvbHost.Proofs.Ci.UnitStreams

/-!
# Messages that go out in fragments

What a host queues for a message are units that the link can carry, and a peer that takes them up in
order has the message back. The size of the fragments is derived from the longest possible header; a
fragment that is one octet long has a short one.
-/

namespace DvbHost.Ci

set_option autoImplicit false

open Connection TransportEvent

/-! ## Cutting -/

namespace Connection

variable {n : Nat} {data : Bytes}

/-- A message in parts of `n` octets; the last one has what is left. -/
structure Parts (n : Nat) (data : Bytes) (mores : List Bytes) (last : Bytes) : Prop where
  full : ∀ part ∈ mores, part.length = n
  fits : last.length ≤ n
  nonempty : data ≠ [] → last ≠ []
  whole : mores.flatten ++ last = data

theorem fragmentsWithin_parts (hn : 1 ≤ n) {fuel : Nat} (hfuel : data.length < fuel) :
    ∃ mores last, fragmentsWithin n fuel data = mores ++ [last] ∧ Parts n data mores last := by
  induction fuel generalizing data with
  | zero => exact absurd hfuel (Nat.not_lt_zero _)
  | succ fuel ih =>
    rw [fragmentsWithin]
    split
    · next hdrop =>
      exact ⟨[], data, rfl, List.forall_mem_nil _, List.drop_eq_nil_iff.mp hdrop, id, rfl⟩
    · next hrest =>
      have hlt : n < data.length := by
        by_contra hle
        exact hrest (List.drop_eq_nil_of_le (Nat.not_lt.mp hle))
      have hdrop : (data.drop n).length < fuel := by
        rw [List.length_drop]
        omega
      obtain ⟨mores, last, hparts, parts⟩ := ih hdrop
      refine ⟨data.take n :: mores, last, congrArg (data.take n :: ·) hparts, ?_, parts.fits,
        fun _ => parts.nonempty hrest, ?_⟩
      · refine List.forall_mem_cons.mpr ⟨?_, parts.full⟩
        rw [List.length_take, Nat.min_eq_left hlt.le]
      · rw [List.flatten_cons, List.append_assoc, parts.whole, List.take_append_drop]

theorem fragments_parts (hn : 1 ≤ n) (data : Bytes) :
    ∃ mores last, fragments n data = mores ++ [last] ∧ Parts n data mores last :=
  fragmentsWithin_parts hn (Nat.lt_succ_self _)

theorem fragmentSize_pos (config : SlotConfig) : 1 ≤ config.fragmentSize := Nat.le_max_right ..

end Connection

/-! ## Encoding -/

theorem Length.length_encode_le {k : Nat} {field : Bytes} (h : Length.encode k = .ok field) :
    field.length ≤ 5 ∧ (k < 0x80 → field.length = 1) := by
  rw [Length.encode] at h
  split at h
  · obtain rfl := Except.ok.inj h
    exact ⟨Nat.le_add_left 1 4, fun _ => rfl⟩
  · split at h
    · next hlong _ =>
      obtain rfl := Except.ok.inj h
      have hwidth := Length.width_le k
      rw [List.length_cons, Bytes.length_ofNumber]
      exact ⟨by omega, fun hshort => absurd hshort hlong⟩
    · cases h

namespace Tpdu

variable {tag : TpduTag} {tcid : UInt8} {data unit : Bytes}

/-- Whether a unit can be encoded depends on how much data it has. -/
theorem encode_of_length (tag : TpduTag) (tcid : UInt8) (data : Bytes) :
    (data.length < 2 ^ 32 - 1 ∧ ∃ unit, encode tag tcid data = .ok unit ∧
        ∀ tail, read (unit ++ tail) = .ok (⟨tag, tcid, data⟩, tail)) ∨
      (2 ^ 32 - 1 ≤ data.length ∧ encode tag tcid data = .error .lengthMismatch) := by
  by_cases h : data.length < 2 ^ 32 - 1
  · have hread := @read_encode ⟨tag, tcid, data⟩ h
    exact .inl ⟨h, hread⟩
  · have hlong : Length.encode (1 + data.length) = .error .lengthMismatch := by
      rw [Length.encode, if_neg (by omega), if_neg (by omega)]
    refine .inr ⟨Nat.not_lt.mp h, ?_⟩
    rw [encode, hlong]
    rfl

/-- A fragment of the size that is derived from the size of the link fits it. -/
theorem length_le_of_encode {config : SlotConfig} (room : 4 ≤ config.maxTpduSize)
    (fits : data.length ≤ config.fragmentSize) (h : encode tag tcid data = .ok unit) :
    unit.length ≤ config.maxTpduSize := by
  obtain ⟨field, hfield, h⟩ := Outcome.ok_of_bind h
  obtain rfl := Except.ok.inj h
  obtain ⟨hlong, hshort⟩ := Length.length_encode_le hfield
  have hlength : (tag.octet :: field ++ tcid :: data).length = field.length + data.length + 2 := by
    simp only [List.length_cons, List.length_append]
    omega
  rw [hlength]
  rw [SlotConfig.fragmentSize, SlotConfig.header] at fits
  by_cases hsmall : config.maxTpduSize ≤ 7
  · have hone : field.length = 1 := hshort (by omega)
    omega
  · omega

end Tpdu

/-! ## Queueing -/

namespace Connection

variable {tcid : UInt8} {config : SlotConfig} {data : Bytes} {mores : List Bytes} {last : Bytes}

/-- The fragments of a message, as a module is to read them. -/
def fragmentUnits (tcid : UInt8) (mores : List Bytes) (last : Bytes) : List Tpdu :=
  mores.map (⟨.dataMore, tcid, ·⟩) ++ [⟨.dataLast, tcid, last⟩]

/-- Units are encoded for all parts if none is too long. -/
theorem unitsOf_ok (tcid : UInt8) (hmores : ∀ part ∈ mores, part.length < 2 ^ 32 - 1)
    (hlast : last.length < 2 ^ 32 - 1) :
    ∃ units, unitsOf tcid (mores ++ [last]) = .ok units ∧
      units.map Tpdu.read = (fragmentUnits tcid mores last).map fun t => .ok (t, []) := by
  have hread : ∀ {unit : Bytes} {t : Tpdu}, (∀ tail, Tpdu.read (unit ++ tail) = .ok (t, tail)) →
      Tpdu.read unit = .ok (t, []) := by
    intro unit t h
    have hnone := h []
    rwa [List.append_nil] at hnone
  induction mores with
  | nil =>
    rcases Tpdu.encode_of_length .dataLast tcid last with ⟨-, unit, hencode, htails⟩ | ⟨hlong, -⟩
    · refine ⟨[unit], ?_, ?_⟩
      · rw [List.nil_append, unitsOf, hencode]
        rfl
      · rw [List.map_singleton, hread htails]
        rfl
    · omega
  | cons part mores ih =>
    have hpart := hmores part (List.mem_cons_self ..)
    obtain ⟨units, hunits, hreads⟩ := ih fun p hp => hmores p (List.mem_cons_of_mem part hp)
    rcases Tpdu.encode_of_length .dataMore tcid part with ⟨-, unit, hencode, htails⟩ | ⟨hlong, -⟩
    · refine ⟨unit :: units, ?_, ?_⟩
      · rw [List.cons_append, unitsOf, hencode, hunits]
        · rfl
        · simp
      · rw [List.map_cons, hread htails, hreads]
        rfl
    · omega

/-- Queues the parts one by one; the first that cannot be encoded ends it. -/
def queueParts (tcid : UInt8) : List Bytes → Queue Bytes → Queue Bytes × Option CiError
  | [], queue => (queue, none)
  | [last], queue =>
    match Tpdu.encode .dataLast tcid last with
    | .error e => (queue, some e)
    | .ok unit => (queue.push unit, none)
  | part :: parts, queue =>
    match Tpdu.encode .dataMore tcid part with
    | .error e => (queue, some e)
    | .ok unit => queueParts tcid parts (queue.push unit)

theorem queueParts_ok {parts units : List Bytes} (h : unitsOf tcid parts = .ok units)
    (queue : Queue Bytes) : queueParts tcid parts queue = (queue.append units, none) := by
  induction parts using unitsOf.induct generalizing units queue with
  | case1 =>
    obtain rfl := Except.ok.inj h
    rfl
  | case2 last =>
    obtain ⟨unit, hunit, h⟩ := Outcome.ok_of_bind h
    obtain rfl := Except.ok.inj h
    rw [queueParts, hunit]
    rfl
  | case3 part parts hmore ih =>
    rw [unitsOf.eq_3 _ _ _ hmore] at h
    obtain ⟨unit, hunit, h⟩ := Outcome.ok_of_bind h
    obtain ⟨units', hunits, h⟩ := Outcome.ok_of_bind h
    obtain rfl := Except.ok.inj h
    rw [queueParts.eq_3 _ _ _ _ hmore, hunit]
    exact ih hunits (queue.push unit)

/-- If a part cannot be encoded, the first cannot, because none is longer. -/
theorem queueParts_fragments (config : SlotConfig) (tcid : UInt8) (data : Bytes)
    (queue : Queue Bytes) :
    queueParts tcid (fragments config.fragmentSize data) queue =
      match unitsOf tcid (fragments config.fragmentSize data) with
      | .ok units => (queue.append units, none)
      | .error e => (queue, some e) := by
  cases hunits : unitsOf tcid (fragments config.fragmentSize data) with
  | ok units => exact queueParts_ok hunits queue
  | error e =>
    obtain ⟨mores, last, hfragments, parts⟩ := fragments_parts (fragmentSize_pos config) data
    rw [hfragments] at hunits ⊢
    cases mores with
    | nil =>
      rcases Tpdu.encode_of_length .dataLast tcid last with ⟨-, unit, hencode, -⟩ | ⟨-, hencode⟩
      · rw [List.nil_append, unitsOf, hencode] at hunits
        cases hunits
      · rw [List.nil_append, unitsOf, hencode] at hunits
        cases hunits
        rw [List.nil_append, queueParts, hencode]
    | cons part mores =>
      have hpart := parts.full part (List.mem_cons_self ..)
      rcases Tpdu.encode_of_length .dataMore tcid part with ⟨hshort, -⟩ | ⟨-, hencode⟩
      · have hmores : ∀ p ∈ part :: mores, p.length < 2 ^ 32 - 1 := by
          intro p hp
          rw [parts.full p hp, ← hpart]
          exact hshort
        have hlast : last.length < 2 ^ 32 - 1 := by
          have hfits := parts.fits
          omega
        obtain ⟨units, hok, -⟩ := unitsOf_ok tcid hmores hlast
        cases hok.symm.trans hunits
      · have hmore : mores ++ [last] = [] → False := by simp
        rw [List.cons_append, unitsOf.eq_3 _ _ _ hmore, hencode] at hunits
        cases hunits
        rw [List.cons_append, queueParts.eq_3 _ _ _ _ hmore, hencode]

theorem length_of_mem_unitsOf {parts units : List Bytes} (room : 4 ≤ config.maxTpduSize)
    (fits : ∀ part ∈ parts, part.length ≤ config.fragmentSize)
    (h : unitsOf tcid parts = .ok units) : ∀ unit ∈ units, unit.length ≤ config.maxTpduSize := by
  induction parts using unitsOf.induct generalizing units with
  | case1 =>
    obtain rfl := Except.ok.inj h
    exact List.forall_mem_nil _
  | case2 last =>
    obtain ⟨unit, hunit, h⟩ := Outcome.ok_of_bind h
    obtain rfl := Except.ok.inj h
    exact List.forall_mem_singleton.mpr
      (Tpdu.length_le_of_encode room (fits last (List.mem_singleton_self last)) hunit)
  | case3 part parts hmore ih =>
    rw [unitsOf.eq_3 _ _ _ hmore] at h
    obtain ⟨unit, hunit, h⟩ := Outcome.ok_of_bind h
    obtain ⟨units', hunits, h⟩ := Outcome.ok_of_bind h
    obtain rfl := Except.ok.inj h
    obtain ⟨hpart, hparts⟩ := List.forall_mem_cons.mp fits
    exact List.forall_mem_cons.mpr ⟨Tpdu.length_le_of_encode room hpart hunit, ih hparts hunits⟩

/-- Units that are a message in fragments, which a link carries: as a module reads them, all have
data, and only the last is marked as such. -/
structure Fragmented (maxTpduSize : Nat) (tcid : UInt8) (data : Bytes) (units : List Bytes)
    (mores : List Tpdu) (last : Tpdu) : Prop where
  fits : ∀ unit ∈ units, unit.length ≤ maxTpduSize
  read : units.map Tpdu.read = (mores ++ [last]).map fun t => .ok (t, [])
  named : ∀ t ∈ mores ++ [last], t.tcid = tcid
  more : ∀ t ∈ mores, t.tag = .dataMore
  marked : last.tag = .dataLast
  nonempty : ∀ t ∈ mores ++ [last], t.data ≠ []
  whole : (mores ++ [last]).flatMap Tpdu.data = data

/-- Data of any size that can be counted is cut into such units. -/
theorem exists_fragmented (config : SlotConfig) (tcid : UInt8) (room : 4 ≤ config.maxTpduSize)
    (nonempty : data ≠ []) (size : data.length < 2 ^ 32 - 1) :
    ∃ units mores last, unitsOf tcid (fragments config.fragmentSize data) = .ok units ∧
      Fragmented config.maxTpduSize tcid data units mores last := by
  obtain ⟨mores, last, hfragments, parts⟩ := fragments_parts (fragmentSize_pos config) data
  have hpart : ∀ part ∈ mores ++ [last], part.length ≤ config.fragmentSize ∧ part ≠ [] ∧
      part.length ≤ data.length := by
    intro part hpart
    have hsub : part.length ≤ data.length := by
      have hflat : part.length ≤ (mores ++ [last]).flatten.length :=
        (List.sublist_flatten_of_mem hpart).length_le
      rwa [List.flatten_append, List.flatten_singleton, parts.whole] at hflat
    rcases List.mem_append.mp hpart with hmem | hmem
    · have hfull := parts.full part hmem
      have hpos := fragmentSize_pos config
      exact ⟨hfull.le, List.ne_nil_of_length_pos (by omega), hsub⟩
    · obtain rfl := List.mem_singleton.mp hmem
      exact ⟨parts.fits, parts.nonempty nonempty, hsub⟩
  have hshort : ∀ part ∈ mores ++ [last], part.length < 2 ^ 32 - 1 := fun part hmem =>
    (hpart part hmem).2.2.trans_lt size
  obtain ⟨units, hunits, hread⟩ := unitsOf_ok tcid
    (fun part hmem => hshort part (List.mem_append_left _ hmem))
    (hshort last (List.mem_append_right _ (List.mem_singleton_self last)))
  have hmem : ∀ t ∈ fragmentUnits tcid mores last, t.tcid = tcid ∧ t.data ∈ mores ++ [last] := by
    intro t ht
    rcases List.mem_append.mp ht with ht | ht
    · obtain ⟨part, hpart, rfl⟩ := List.mem_map.mp ht
      exact ⟨rfl, List.mem_append_left _ hpart⟩
    · obtain rfl := List.mem_singleton.mp ht
      exact ⟨rfl, List.mem_append_right _ (List.mem_singleton_self last)⟩
  rw [hfragments]
  refine ⟨units, _, _, hunits, ?_, hread, fun t ht => (hmem t ht).1, fun t ht => ?_, rfl,
    fun t ht => (hpart t.data (hmem t ht).2).2.1, ?_⟩
  · exact length_of_mem_unitsOf room (fun part hmem => (hpart part hmem).1) hunits
  · obtain ⟨part, -, rfl⟩ := List.mem_map.mp ht
    rfl
  · rw [List.flatMap_append, List.flatMap_singleton, List.flatMap_map, List.flatMap_id']
    exact parts.whole

end Connection

/-! ## The peer -/

namespace SlotRun

variable {ω : Type} (link : Link ω) (id : Nat) {r : SlotRun ω} {tcid : UInt8} {whole : Bytes}

/-- An active connection of a slot at work, with what has come in of a message. -/
structure Receiving (tcid : UInt8) (whole : Bytes) (r : SlotRun ω) : Prop where
  active : (r.slot.connectionD tcid).state = .active
  gathered : (r.slot.connectionD tcid).Gathered r.slot.config.maxSpduSize whole

/-- A fragment is taken up. -/
theorem Receiving.handle {t : Tpdu} (h : r.Receiving tcid whole) (named : t.tcid = tcid)
    (fragment : t.isFragment = true)
    (fits : (whole ++ t.data).length ≤ r.slot.config.maxSpduSize) :
    (r.handle link id t).1.Receiving tcid (t.gather whole) ∧
      (r.handle link id t).1.slot.config = r.slot.config ∧
      (r.handle link id t).2 = none ∧
      (r.handle link id t).1.events.toList = r.events.toList ++
        if t.isLast then (delivery r.slot.config.maxSpduSize (whole ++ t.data)).map
          (connection id tcid) else [] := by
  subst named
  let m : Meeting ω := ⟨id, r, t⟩
  have hstays : m.Stays link t.tcid := Meeting.stays_of_fragment link rfl h.active fragment
  obtain ⟨hgathered, hdelivers, herror⟩ :=
    Meeting.gathered_of_fragment link (m := m) h.active rfl fragment h.gathered
  have hconfig : (m.left link).slot.config = r.slot.config := handle_config link id t r
  refine ⟨⟨hstays.leaves, ?_⟩, hconfig, ?_, ?_⟩
  · change Gathered (m.left link).slot.config.maxSpduSize _ (m.leaves link t.tcid)
    rw [hconfig]
    exact hgathered
  · have hnone : excess r.slot.config.maxSpduSize whole t.data = none :=
      if_neg fun hlong => absurd hlong.2 (Nat.not_lt.mpr fits)
    exact herror.trans hnone
  · have htold := (Meeting.left_of_fragment (m := m) link (Slot.has_of_active h.active) fragment).2.1
    have hevents := m.left_events link
    rw [Meeting.Delivers, htold, noticesOf_map_connection, if_pos rfl] at hdelivers
    rw [htold, hdelivers] at hevents
    refine hevents.trans ?_
    cases hlast : t.isLast <;> simp only [m, Bool.false_eq_true, if_false, if_true,
      List.map_nil]

/-- Fragments are taken up that are not the last one. -/
theorem Receiving.handle_mores {ts : List Tpdu} (h : r.Receiving tcid whole)
    (named : ∀ t ∈ ts, t.tcid = tcid) (mores : ∀ t ∈ ts, t.tag = .dataMore)
    (fits : (whole ++ ts.flatMap Tpdu.data).length ≤ r.slot.config.maxSpduSize) :
    (handleAll link id ts r none).1.Receiving tcid (whole ++ ts.flatMap Tpdu.data) ∧
      (handleAll link id ts r none).1.slot.config = r.slot.config ∧
      (handleAll link id ts r none).2 = none ∧
      (handleAll link id ts r none).1.events.toList = r.events.toList := by
  induction ts generalizing r whole with
  | nil =>
    rw [List.flatMap_nil, List.append_nil]
    exact ⟨h, rfl, rfl, rfl⟩
  | cons t ts ih =>
    have htag := mores t (List.mem_cons_self ..)
    have hlast : t.isLast = false := by
      rw [Tpdu.isLast, htag]
      rfl
    have hgather : t.gather whole = whole ++ t.data := by rw [Tpdu.gather, htag]
    rw [List.flatMap_cons, ← List.append_assoc] at fits ⊢
    have hfirst : (whole ++ t.data).length ≤ r.slot.config.maxSpduSize := by
      rw [List.length_append] at fits
      omega
    obtain ⟨hreceiving, hconfig, herror, hevents⟩ :=
      h.handle link id (named t (List.mem_cons_self ..)) (by rw [Tpdu.isFragment, htag]; rfl) hfirst
    rw [hlast, if_neg Bool.false_ne_true, List.append_nil] at hevents
    rw [hgather] at hreceiving
    rw [handleAll]
    generalize r.handle link id t = handled at hreceiving hconfig herror hevents ⊢
    obtain ⟨r', e⟩ := handled
    obtain rfl : e = none := herror
    obtain ⟨hrest, hconfig', herror', hevents'⟩ := ih hreceiving
      (fun u hu => named u (List.mem_cons_of_mem t hu))
      (fun u hu => mores u (List.mem_cons_of_mem t hu)) (hconfig ▸ fits)
    exact ⟨hrest, hconfig'.trans hconfig, herror', hevents'.trans hevents⟩

theorem handleAll_concat (ts : List Tpdu) (t : Tpdu) (r : SlotRun ω) (error : Option CiError) :
    handleAll link id (ts ++ [t]) r error =
      (((handleAll link id ts r error).1.handle link id t).1,
        (handleAll link id ts r error).2 <|> ((handleAll link id ts r error).1.handle link id t).2) := by
  induction ts generalizing r error with
  | nil => rfl
  | cons u ts ih => exact ih ..

/-- A message that comes in fragments is told once, as a whole. -/
theorem Receiving.handle_message {mores : List Tpdu} {last : Tpdu} (h : r.Receiving tcid whole)
    (named : ∀ t ∈ mores ++ [last], t.tcid = tcid) (more : ∀ t ∈ mores, t.tag = .dataMore)
    (marked : last.tag = .dataLast)
    (nonempty : whole ++ (mores ++ [last]).flatMap Tpdu.data ≠ [])
    (fits : (whole ++ (mores ++ [last]).flatMap Tpdu.data).length ≤ r.slot.config.maxSpduSize) :
    (handleAll link id (mores ++ [last]) r none).2 = none ∧
      (handleAll link id (mores ++ [last]) r none).1.events.toList = r.events.toList ++
        [connection id tcid (.data (whole ++ (mores ++ [last]).flatMap Tpdu.data))] := by
  have hdelivery : delivery r.slot.config.maxSpduSize
      (whole ++ (mores ++ [last]).flatMap Tpdu.data) =
        [.data (whole ++ (mores ++ [last]).flatMap Tpdu.data)] :=
    if_pos ⟨List.length_pos_of_ne_nil nonempty, fits⟩
  rw [List.flatMap_append, List.flatMap_singleton, ← List.append_assoc] at fits hdelivery ⊢
  have hmores : (whole ++ mores.flatMap Tpdu.data).length ≤ r.slot.config.maxSpduSize := by
    rw [List.length_append] at fits
    omega
  obtain ⟨hreceiving, hconfig, herror, hevents⟩ := h.handle_mores link id
    (fun t ht => named t (List.mem_append_left _ ht)) more hmores
  have hlast : last.isLast = true := by
    rw [Tpdu.isLast, marked]
    rfl
  obtain ⟨-, -, herror', hevents'⟩ := hreceiving.handle link id
    (named last (List.mem_append_right _ (List.mem_singleton_self last)))
    (by rw [Tpdu.isFragment, hlast, Bool.or_true]) (hconfig ▸ fits)
  rw [handleAll_concat]
  constructor
  · rw [herror, herror']
    rfl
  · rw [hevents', hevents, hlast, if_pos rfl, hconfig, hdelivery]
    rfl

end SlotRun

/-! ## The message law -/

namespace TransportLayer

/-- Take an active connection of a layer. Data that is sent on it is queued as units that the link
carries; a module reads them as fragments of which only the last is marked; and a connection that is
active at a peer, takes them up in order and has the room tells the data once, behind what it has of
a message already, and makes no error. The parts can also be queued one by one: if one of them cannot
be encoded, nothing has been queued. -/
theorem message_sent_whole {l : TransportLayer} {slot : Nat} {tcid : UInt8} {s : Slot}
    {c : Connection} (found : l.slot? slot = some s) (known : s.connection? tcid = some c)
    (active : c.state = .active) (data : Bytes) :
    queueParts tcid (fragments s.config.fragmentSize data) c.queue =
        (match c.sendData s.config tcid data with
        | .ok c' => (c'.queue, none)
        | .error e => (c.queue, some e)) ∧
      (4 ≤ s.config.maxTpduSize → data ≠ [] → data.length < 2 ^ 32 - 1 →
        ∃ units mores last,
          l.sendData slot tcid data =
            .ok (l.putSlot slot (some (s.put tcid { c with queue := c.queue.append units }))) ∧
          (c.queue.append units).toList = c.queue.toList ++ units ∧
          Fragmented s.config.maxTpduSize tcid data units mores last ∧
          ∀ (ω : Type) (link : Link ω) (id : Nat) (peer : SlotRun ω),
            (peer.slot.connectionD tcid).state = .active →
            (peer.slot.connectionD tcid).discarding = false →
            ((peer.slot.connectionD tcid).chain ++ data).length ≤ peer.slot.config.maxSpduSize →
            (SlotRun.handleAll link id (mores ++ [last]) peer none).2 = none ∧
              (SlotRun.handleAll link id (mores ++ [last]) peer none).1.events.toList =
                peer.events.toList ++
                  [connection id tcid (.data ((peer.slot.connectionD tcid).chain ++ data))]) := by
  have hsend : ∀ config, c.sendData config tcid data =
      (unitsOf tcid (fragments config.fragmentSize data)).map fun units =>
        { c with queue := c.queue.append units } := by
    intro config
    rw [Connection.sendData, if_neg (not_not_intro active)]
    cases unitsOf tcid (fragments config.fragmentSize data) <;> rfl
  constructor
  · rw [queueParts_fragments, hsend]
    cases unitsOf tcid (fragments s.config.fragmentSize data) <;> rfl
  · intro room nonempty size
    obtain ⟨units, mores, last, hunits, fragmented⟩ :=
      exists_fragmented s.config tcid room nonempty size
    refine ⟨units, mores, last, ?_, Queue.toList_append .., fragmented, ?_⟩
    · rw [TransportLayer.sendData, update, found]
      dsimp only
      rw [known]
      dsimp only
      rw [hsend, hunits]
      rfl
    · intro ω link id peer hactive hkept hfits
      have hlength := hfits
      rw [List.length_append] at hlength
      have hreceiving : peer.Receiving tcid (peer.slot.connectionD tcid).chain :=
        ⟨hactive, (gathered_of_le (by omega)).mpr ⟨rfl, hkept⟩⟩
      rw [← fragmented.whole] at nonempty hfits
      have hmessage := hreceiving.handle_message link id fragmented.named fragmented.more
        fragmented.marked (fun hnil => nonempty (List.append_eq_nil_iff.mp hnil).2) hfits
      rwa [fragmented.whole] at hmessage

/-- A slot with one active connection over a link that carries nine octets at a time. -/
def narrowSlot : Slot :=
  ⟨0, 0, .ready, ⟨1000, 100, 9, 64⟩, [⟨.active, .empty, [], false, none, false, none⟩]⟩

theorem message_sent_whole_narrowSlot :
    ∃ l c units mores last, l = TransportLayer.mk [some narrowSlot] 1 .empty none ∧
      l.slot? 0 = some narrowSlot ∧ narrowSlot.connection? 1 = some c ∧ c.state = .active ∧
      l.sendData 0 1 [1, 2, 3, 4, 5] =
        .ok (l.putSlot 0 (some (narrowSlot.put 1 { c with queue := c.queue.append units }))) ∧
      Fragmented 9 1 [1, 2, 3, 4, 5] units mores last ∧
      (SlotRun.handleAll (TransportRun.refusing fun _ => false) 0 (mores ++ [last])
        ⟨narrowSlot, .empty, []⟩ none).1.events.toList =
        [connection 0 1 (.data [1, 2, 3, 4, 5])] := by
  have found : (TransportLayer.mk [some narrowSlot] 1 .empty none).slot? 0 = some narrowSlot := rfl
  obtain ⟨c, known, active⟩ : ∃ c, narrowSlot.connection? 1 = some c ∧ c.state = .active :=
    ⟨_, rfl, rfl⟩
  obtain ⟨units, mores, last, sent, -, fragmented, told⟩ :=
    (message_sent_whole found known active [1, 2, 3, 4, 5]).2 (by decide) (by decide) (by decide)
  exact ⟨_, c, units, mores, last, rfl, found, known, active, sent, fragmented,
    (told _ _ 0 ⟨narrowSlot, .empty, []⟩ rfl rfl (by decide)).2⟩

end TransportLayer

end DvbHost.Ci
