import DvbHost.Proofs.Ci.SlotHistory

/-!
# The lives of the connections of a layer

Every connection of a running transport layer has a life in the sense of `Connection.Life`, from the
idle state to the state that the layer has it in, and what is written of a run is that life. So
whatever all lives have in common holds of all connections in all runs.
-/

namespace DvbHost.Ci

set_option autoImplicit false

open Connection TransportEvent

variable {ω : Type}

namespace TransportLayer

theorem connectionAt_set (slots : List (Option Slot)) (i j : Nat) (slot : Option Slot)
    (tcid : UInt8) (h : i < slots.length) :
    connectionAt (slots.set i slot) j tcid =
      if i = j then (slot.map (·.connectionD tcid)).getD .idle else connectionAt slots j tcid := by
  rw [connectionAt, List.getElem?_set]
  by_cases hij : i = j
  · rw [if_pos hij, if_pos hij, if_pos h]
    rfl
  · rw [if_neg hij, if_neg hij]
    rfl

theorem connectionAt_of_slot? {l : TransportLayer} {slot : Nat} {s : Slot}
    (h : l.slot? slot = some s) (tcid : UInt8) :
    connectionAt l.slots slot tcid = s.connectionD tcid := by
  rw [connectionAt, getElem?_of_slot? h]
  rfl

/-! ## A sweep over the slots -/

/-- What is written of a sweep over slots, if the first of them has index `id`. -/
structure SweepRecords (id : Nat) (slots slots' : List (Option Slot))
    (events events' : List TransportEvent) (es : List Entry) : Prop where
  fit : AllFit slots'
  here : ∀ e ∈ es, id ≤ e.slot
  lives : ∀ i tcid, Life tcid (connectionAt slots i tcid) (momentsOf (id + i) tcid es)
    (connectionAt slots' i tcid)
  tells : ∃ told, events' = events ++ told ∧ (∀ e ∈ told, id ≤ e.slot) ∧
    ∀ i tcid, noticesOf (id + i) tcid told = noticesIn (momentsOf (id + i) tcid es)

/-- The slots behind the first do not matter to it, nor does the first to them. -/
theorem SweepRecords.cons {id : Nat} {slot slot' : Option Slot} {slots slots' : List (Option Slot)}
    {events events' told : List TransportEvent} {es es' : List Entry}
    (hfit : ∀ s, slot' = some s → s.Fits) (hhere : ∀ e ∈ es, e.slot = id)
    (hlives : ∀ tcid, Life tcid ((slot.map (·.connectionD tcid)).getD .idle)
      (momentsOf id tcid es) ((slot'.map (·.connectionD tcid)).getD .idle))
    (htold : ∀ e ∈ told, e.slot = id)
    (hnotices : ∀ tcid, noticesOf id tcid told = noticesIn (momentsOf id tcid es))
    (hrest : SweepRecords (id + 1) slots slots' (events ++ told) events' es') :
    SweepRecords id (slot :: slots) (slot' :: slots') events events' (es ++ es') := by
  obtain ⟨told', htold', hlater, hnotices'⟩ := hrest.tells
  have hfirst : ∀ tcid, momentsOf id tcid (es ++ es') = momentsOf id tcid es := fun tcid => by
    rw [momentsOf_append, momentsOf_eq_nil tcid fun e he => Nat.ne_of_gt (hrest.here e he),
      List.append_nil]
  have hothers : ∀ i tcid, momentsOf (id + (i + 1)) tcid (es ++ es') =
      momentsOf (id + 1 + i) tcid es' := fun i tcid => by
    rw [momentsOf_append, momentsOf_eq_nil tcid fun e he => by rw [hhere e he]; omega,
      List.nil_append, show id + (i + 1) = id + 1 + i by omega]
  refine ⟨?_, ?_, ?_, told ++ told', by rw [htold', List.append_assoc], ?_, ?_⟩
  · intro s hs
    rcases List.mem_cons.mp hs with hs | hs
    · exact hfit s hs.symm
    · exact hrest.fit s hs
  · intro e he
    rcases List.mem_append.mp he with he | he
    · exact Nat.le_of_eq (hhere e he).symm
    · exact Nat.le_of_succ_le (hrest.here e he)
  · rintro (_ | i) tcid
    · rw [Nat.add_zero, hfirst]
      exact hlives tcid
    · rw [hothers]
      exact hrest.lives i tcid
  · intro e he
    rcases List.mem_append.mp he with he | he
    · exact Nat.le_of_eq (htold e he).symm
    · exact Nat.le_of_succ_le (hlater e he)
  · rintro (_ | i) tcid
    · rw [Nat.add_zero, hfirst, noticesOf_append,
        noticesOf_eq_nil tcid fun e he => Nat.ne_of_gt (hlater e he), List.append_nil]
      exact hnotices tcid
    · rw [hothers, noticesOf_append, noticesOf_eq_nil tcid fun e he => by rw [htold e he]; omega,
        List.nil_append, show id + (i + 1) = id + 1 + i by omega]
      exact hnotices' i tcid

theorem pollFrom_records (link : Link ω) (now : Nat) (id : Nat) {slots : List (Option Slot)}
    (s : Sweep ω) (hfit : AllFit slots) :
    SweepRecords id slots (pollFrom link now id slots s).1 s.events.toList
      (pollFrom link now id slots s).2.events.toList (sweeps link now id slots s) := by
  induction slots generalizing id s with
  | nil => exact ⟨hfit, List.forall_mem_nil _, fun i tcid => .refl _, [],
      (List.append_nil _).symm, List.forall_mem_nil _, fun i tcid => rfl⟩
  | cons slot slots ih =>
    have hrest : AllFit slots := fun s hs => hfit s (List.mem_cons_of_mem _ hs)
    cases slot with
    | none =>
      have hlater := ih (id + 1) s hrest
      rw [← List.append_nil s.events.toList] at hlater
      rw [pollFrom, sweeps, ← List.nil_append (sweeps ..)]
      refine .cons ?_ (List.forall_mem_nil _) (fun tcid => .refl _) (List.forall_mem_nil _)
        (fun tcid => rfl) hlater
      intro s' hs'
      cases hs'
    | some slot =>
      have hslot : slot.Fits := hfit slot (List.mem_cons_self ..)
      have hpoll := SlotRun.poll_records link id now (r := ⟨slot, s.events, s.world⟩) hslot
      have hpolled := pollSlot_eq link now id slot s
      obtain ⟨told, htold, hhere, hnotices⟩ := hpoll.tells
      rw [pollFrom, sweeps]
      refine .cons ?_ hpoll.here ?_ hhere hnotices ?_
      · rintro s' hs'
        obtain rfl := Option.some.inj hs'
        rw [hpolled.1]
        exact hpoll.fits hslot
      · intro tcid
        rw [hpolled.1]
        exact hpoll.lives tcid
      · have hevents : s.events.toList ++ told = (pollSlot link now id slot s).2.events.toList := by
          rw [hpolled.2]
          exact htold.symm
        rw [hevents]
        exact ih (id + 1) _ hrest

/-! ## Requests -/

/-- What is written of a request that changes the layer. -/
structure GrantRecords (l : TransportLayer) (es : List Entry) (l' : TransportLayer) : Prop where
  few : l'.maxConnections = l.maxConnections
  fit : AllFit l'.slots
  lives : ∀ slot tcid, Life tcid (connectionAt l.slots slot tcid) (momentsOf slot tcid es)
    (connectionAt l'.slots slot tcid)
  tells : ∃ told, l'.events.toList = l.events.toList ++ told ∧
    ∀ slot tcid, noticesOf slot tcid told = noticesIn (momentsOf slot tcid es)

variable {l l' : TransportLayer} {slot : Nat} {s : Slot} {tcid : UInt8} {c : Connection}

/-- One connection has a moment of which nothing is told. -/
theorem GrantRecords.putSlot {happening : Happening} {after : Connection} (hfit : AllFit l.slots)
    (hs : l.slot? slot = some s) (hc : s.connection? tcid = some c)
    (step : Step tcid c ⟨happening, none, after⟩) :
    connectionAt (l.putSlot slot (some (s.put tcid after))).slots slot tcid = after ∧
    GrantRecords l [⟨slot, tcid, happening, none, after⟩]
      (l.putSlot slot (some (s.put tcid after))) := by
  have hget := getElem?_of_slot? hs
  obtain ⟨hlt, -⟩ := List.getElem?_eq_some_iff.mp hget
  have hat : ∀ slot' tcid',
      connectionAt (l.putSlot slot (some (s.put tcid after))).slots slot' tcid' =
        if slot = slot' then (if tcid' = tcid then after else s.connectionD tcid')
        else connectionAt l.slots slot' tcid' := fun slot' tcid' => by
    rw [TransportLayer.putSlot, connectionAt_set _ _ _ _ _ hlt]
    split
    · exact Slot.connectionD_put hc tcid'
    · rfl
  refine ⟨by rw [hat, if_pos rfl, if_pos rfl], rfl, hfit.putSlot hs Slot.length_put,
    fun slot' tcid' => ?_, [], (List.append_nil _).symm, fun slot' tcid' => ?_⟩
  · rw [hat]
    by_cases h : slot = slot'
    · rw [if_pos h, ← h, momentsOf_singleton, connectionAt_of_slot? hs]
      by_cases ht : tcid' = tcid
      · rw [if_pos ht, if_pos ht.symm, ht, Slot.connectionD_of_some hc]
        exact .one step
      · rw [if_neg ht, if_neg (Ne.symm ht)]
        exact .refl _
    · rw [if_neg h, momentsOf_eq_nil tcid' fun e he => by rw [List.mem_singleton.mp he]; exact h]
      exact .refl _
  · by_cases h : slot = slot'
    · rw [← h, momentsOf_singleton]
      split <;> rfl
    · rw [momentsOf_eq_nil tcid' fun e he => by rw [List.mem_singleton.mp he]; exact h]
      rfl

theorem register_records {device i : Nat} {number : UInt8} {config : SlotConfig}
    (hfew : l.maxConnections ≤ 254) (hfit : AllFit l.slots)
    (h : l.register device number config = .ok (i, l')) : GrantRecords l [] l' := by
  have hgrants := register_grants hfew hfit h
  rw [register] at h
  split at h
  · cases h
  · next j hj =>
    obtain ⟨rfl, rfl⟩ := Prod.mk.inj (Except.ok.inj h)
    obtain ⟨hlt, hnone, -⟩ := List.findIdx?_eq_some_iff_getElem.mp hj
    refine ⟨rfl, hgrants.fit, fun slot' tcid => ?_, [], (List.append_nil _).symm,
      fun slot' tcid => rfl⟩
    have hsame : connectionAt (l.slots.set j (some (.new device number config l.maxConnections)))
        slot' tcid = connectionAt l.slots slot' tcid := by
      rw [connectionAt_set _ _ _ _ _ hlt]
      split
      · next h =>
        rw [← h, connectionAt, List.getElem?_eq_getElem hlt, Option.isNone_iff_eq_none.mp hnone]
        exact Slot.connectionD_new ..
      · rfl
    change Life tcid _ _ (connectionAt (l.slots.set j _) slot' tcid)
    rw [hsame]
    exact .refl _

theorem destroySlot_records (hfit : AllFit l.slots) (hs : l.slot? slot = some s) :
    GrantRecords l (Slot.endsFrom slot 1 s.connections)
      { l.putSlot slot none with events := l.events.append (s.closing slot) } := by
  obtain ⟨hlt, -⟩ := List.getElem?_eq_some_iff.mp (getElem?_of_slot? hs)
  have hother : ∀ {slot' : Nat} (tcid : UInt8), slot ≠ slot' →
      momentsOf slot' tcid (Slot.endsFrom slot 1 s.connections) = [] := fun tcid hne =>
    momentsOf_eq_nil tcid fun e he => by rw [Slot.slot_of_mem_endsFrom he]; exact hne
  refine ⟨rfl, hfit.set slot nofun, fun slot' tcid => ?_, s.closing slot, Queue.toList_append _ _,
    fun slot' tcid => ?_⟩
  · change Life tcid _ _ (connectionAt (l.slots.set slot none) slot' tcid)
    rw [connectionAt_set _ _ _ _ _ hlt]
    by_cases h : slot = slot'
    · rw [if_pos h, ← h, connectionAt_of_slot? hs]
      exact Slot.life_ends (fits_of_slot? hfit hs) slot tcid
    · rw [if_neg h, hother tcid h]
      exact .refl _
  · by_cases h : slot = slot'
    · rw [← h]
      exact Slot.notices_ends (fits_of_slot? hfit hs) slot tcid
    · rw [hother tcid h, noticesOf_eq_nil tcid fun e he => by
        rw [Slot.slot_of_mem_closing he]
        exact h]
      rfl

theorem newConnection_records (hfit : AllFit l.slots) (h : l.newConnection slot = .ok (tcid, l')) :
    GrantRecords l [⟨slot, tcid, .begun, none, connectionAt l'.slots slot tcid⟩] l' := by
  rw [newConnection] at h
  split at h
  · cases h
  · next s hs =>
    split at h
    · cases h
    · split at h
      · cases h
      · next new s' hbegin =>
        obtain ⟨rfl, rfl⟩ := Prod.mk.inj (Except.ok.inj h)
        obtain ⟨c, hc, hidle, rfl⟩ := Slot.of_begin? (fits_of_slot? hfit hs) hbegin
        obtain ⟨hat, hrecords⟩ := GrantRecords.putSlot hfit hs hc (.begun hidle)
        rw [hat]
        exact hrecords

theorem deleteConnection_records (hfit : AllFit l.slots)
    (h : l.deleteConnection slot tcid = .ok l') :
    GrantRecords l [⟨slot, tcid, .ending, none, connectionAt l'.slots slot tcid⟩] l' := by
  obtain ⟨s, c, c', hs, hc, hf, rfl⟩ := update_ok h
  obtain ⟨hactive, hf⟩ := Outcome.ok_of_check hf
  obtain rfl := Except.ok.inj hf
  obtain ⟨hat, hrecords⟩ := GrantRecords.putSlot hfit hs hc (.ending (Decidable.not_not.mp hactive))
  rw [hat]
  exact hrecords

theorem sendData_records {data : Bytes} (hfit : AllFit l.slots)
    (h : l.sendData slot tcid data = .ok l') :
    GrantRecords l [⟨slot, tcid, .queued (TransportRun.unitsFor l slot tcid data), none,
      connectionAt l'.slots slot tcid⟩] l' := by
  obtain ⟨s, c, c', hs, hc, hf, rfl⟩ := update_ok h
  obtain ⟨hactive, hf⟩ := Outcome.ok_of_check hf
  obtain ⟨units, hunits, hf⟩ := Outcome.ok_of_bind hf
  obtain rfl := Except.ok.inj hf
  have hfor : TransportRun.unitsFor l slot tcid data = units := by
    rw [TransportRun.unitsFor, hs]
    dsimp only
    rw [hunits]
    rfl
  obtain ⟨hat, hrecords⟩ := GrantRecords.putSlot hfit hs hc
    (.queued (Decidable.not_not.mp hactive) hunits)
  rw [hat, hfor]
  exact hrecords

end TransportLayer

/-! ## Runs -/

namespace TransportRun

open TransportLayer

/-- What is written is a life of every connection, up to now, with all that was told of it or is
still to be told. -/
structure Recorded (r : TransportRun ω) (es : List Entry) : Prop where
  few : r.layer.maxConnections ≤ 254
  fit : AllFit r.layer.slots
  lives : ∀ slot tcid, Life tcid .idle (momentsOf slot tcid es)
    (connectionAt r.layer.slots slot tcid)
  tells : ∀ slot tcid, noticesOf slot tcid (r.told ++ r.layer.events.toList) =
    noticesIn (momentsOf slot tcid es)

namespace Recorded

variable {link : Link ω} {r : TransportRun ω} {es : List Entry}

theorem start (link : Link ω) (maxSlots maxConnections : Nat) (world : ω) :
    Recorded (start maxSlots maxConnections world) [] := by
  have haccounted := start_accounted link maxSlots maxConnections world
  refine ⟨haccounted.few, haccounted.fit, fun slot tcid => ?_, fun slot tcid => rfl⟩
  have hidle : connectionAt (List.replicate maxSlots (none : Option Slot)) slot tcid = .idle := by
    rw [connectionAt, List.getElem?_replicate]
    split <;> rfl
  change Life tcid .idle [] (connectionAt (List.replicate maxSlots none) slot tcid)
  rw [hidle]
  exact .refl _

theorem grant {l : TransportLayer} {es' : List Entry} (h : Recorded r es)
    (hl : GrantRecords r.layer es' l) : Recorded { r with layer := l } (es ++ es') := by
  obtain ⟨told, htold, hnotices⟩ := hl.tells
  refine ⟨hl.few ▸ h.few, hl.fit, fun slot tcid => ?_, fun slot tcid => ?_⟩
  · rw [momentsOf_append]
    exact (h.lives slot tcid).trans (hl.lives slot tcid)
  · rw [htold, ← List.append_assoc, noticesOf_append, h.tells, hnotices, momentsOf_append,
      noticesIn_append]

theorem refused (h : Recorded r es) : Recorded r (es ++ []) := by rwa [List.append_nil]

theorem poll (h : Recorded r es) (now : Nat) :
    Recorded (r.perform link (.poll now)) (es ++ r.happens link (.poll now)) := by
  have hsweep := pollFrom_records link now 0 ⟨r.layer.events, r.world, r.layer.lastError⟩ h.fit
  obtain ⟨told, htold, -, hnotices⟩ := hsweep.tells
  refine ⟨h.few, hsweep.fit, fun slot tcid => ?_, fun slot tcid => ?_⟩
  · have hlife := hsweep.lives slot tcid
    rw [Nat.zero_add] at hlife
    rw [momentsOf_append]
    exact (h.lives slot tcid).trans hlife
  · have hnotice := hnotices slot tcid
    rw [Nat.zero_add] at hnotice
    change noticesOf slot tcid ((r.told ++ (pollFrom link now 0 r.layer.slots
      ⟨r.layer.events, r.world, r.layer.lastError⟩).2.events.toList) ++ []) = _
    rw [List.append_nil, htold, ← List.append_assoc, noticesOf_append, h.tells, hnotice,
      momentsOf_append, noticesIn_append]
    rfl

theorem perform (h : Recorded r es) (request : Request) :
    Recorded (r.perform link request) (es ++ r.happens link request) := by
  cases request with
  | register device number config =>
    rw [TransportRun.perform, happens]
    cases hl : r.layer.register device number config with
    | error e => exact h.refused
    | ok a => exact h.grant (register_records h.few h.fit hl)
  | destroySlot slot =>
    rw [TransportRun.perform, happens, destroySlot]
    cases hs : r.layer.slot? slot with
    | none => exact h.refused
    | some s => exact h.grant (destroySlot_records h.fit hs)
  | newConnection slot =>
    rw [TransportRun.perform, happens]
    cases hl : r.layer.newConnection slot with
    | error e => exact h.refused
    | ok a => exact h.grant (newConnection_records h.fit hl)
  | deleteConnection slot tcid =>
    rw [TransportRun.perform, happens]
    cases hl : r.layer.deleteConnection slot tcid with
    | error e => exact h.refused
    | ok l => exact h.grant (deleteConnection_records h.fit hl)
  | sendData slot tcid data =>
    rw [TransportRun.perform, happens]
    cases hl : r.layer.sendData slot tcid data with
    | error e => exact h.refused
    | ok l => exact h.grant (sendData_records h.fit hl)
  | poll now => exact h.poll now

theorem after (h : Recorded r es) (requests : List Request) :
    Recorded (r.after link requests) (es ++ history link requests r) := by
  induction requests generalizing r es with
  | nil => exact h.refused
  | cons request requests ih =>
    rw [history, ← List.append_assoc]
    exact ih (h.perform request)

end Recorded

variable (link : Link ω) (maxSlots maxConnections : Nat) (world : ω) (requests : List Request)
  (slot : Nat) (tcid : UInt8)

theorem recorded_history :
    Recorded (TransportRun.after link requests (start maxSlots maxConnections world))
      (history link requests (start maxSlots maxConnections world)) :=
  (Recorded.start link maxSlots maxConnections world).after requests

/-- What happens to a connection in a run is a life of it that begins in the idle state and ends
in the state that the layer has it in. -/
theorem lifeOf_life : Life tcid .idle (lifeOf link maxSlots maxConnections world requests slot tcid)
    (connectionAt (TransportRun.after link requests
      (start maxSlots maxConnections world)).layer.slots slot tcid) :=
  (recorded_history link maxSlots maxConnections world requests).lives slot tcid

/-- What the polls tell of a connection, or will tell next, are the notices of its life. -/
theorem noticesIn_lifeOf :
    noticesIn (lifeOf link maxSlots maxConnections world requests slot tcid) =
      noticesOf slot tcid
        ((TransportRun.after link requests (start maxSlots maxConnections world)).told ++
          (TransportRun.after link requests
            (start maxSlots maxConnections world)).layer.events.toList) :=
  ((recorded_history link maxSlots maxConnections world requests).tells slot tcid).symm

end TransportRun

end DvbHost.Ci
