import DvbHost.Proofs.Ci.TransportHistory

/-!
# What is written of a slot at work

`Records` compares two states of a slot at work with what is written between them: under each
connection stands a life of it, and its notices are those that go to the events. Every step of a
poll is described by it once, and polls are put together from their steps.
-/

namespace DvbHost.Ci

set_option autoImplicit false

open Connection TransportEvent

variable {ω : Type}

namespace Slot

variable {s : Slot} {tcid : UInt8} {c c' : Connection}

theorem connectionD_of_some (h : s.connection? tcid = some c) : s.connectionD tcid = c := by
  rw [connectionD, h]
  rfl

theorem connectionD_put (h : s.connection? tcid = some c) (tcid' : UInt8) :
    (s.put tcid c').connectionD tcid' = if tcid' = tcid then c' else s.connectionD tcid' := by
  rw [connectionD, connection?_put h, connectionD]
  split <;> rfl

theorem connectionD_cleared (tcid : UInt8) : s.cleared.connectionD tcid = .idle := by
  rw [connectionD, connection?_cleared]
  cases s.connection? tcid <;> rfl

theorem connectionD_new (device : Nat) (number : UInt8) (config : SlotConfig) (n : Nat)
    (tcid : UInt8) : (new device number config n).connectionD tcid = .idle := by
  cases h : (new device number config n).connection? tcid with
  | none => rw [connectionD, h]; rfl
  | some c =>
    obtain ⟨-, hc⟩ := connection?_eq_some.mp h
    rw [connectionD_of_some h]
    exact List.eq_of_mem_replicate (List.mem_of_getElem? hc)

theorem put_put : (s.put tcid c).put tcid c' = s.put tcid c' := by
  rw [put, put, put]
  exact congrArg (fun cs => ({ s with connections := cs } : Slot)) (List.set_set ..)

theorem slot_of_mem_endsFrom {id first : Nat} {cs : List Connection} {e : Entry}
    (h : e ∈ endsFrom id first cs) : e.slot = id := by
  induction cs generalizing first with
  | nil => cases h
  | cons c cs ih =>
    rcases List.mem_cons.mp h with rfl | h
    · rfl
    · exact ih h

/-- When a slot ends, each of its connections ends, and its farewell is told. -/
theorem momentsOf_ends (fits : s.Fits) (id : Nat) (tcid : UInt8) :
    momentsOf id tcid (endsFrom id 1 s.connections) =
      ((s.connection? tcid).map fun c => [⟨.gone, c.farewell, .idle⟩]).getD [] := by
  apply found_of_fits fits (fun n cs => momentsOf id tcid (endsFrom id n cs))
  · exact fun n => rfl
  · intro n c cs
    rw [endsFrom, ← List.singleton_append, momentsOf_append, momentsOf_singleton]

theorem life_ends (fits : s.Fits) (id : Nat) (tcid : UInt8) :
    Life tcid (s.connectionD tcid) (momentsOf id tcid (endsFrom id 1 s.connections)) .idle := by
  rw [momentsOf_ends fits, connectionD]
  cases s.connection? tcid with
  | none => exact .refl _
  | some c => exact .one .gone

theorem notices_ends (fits : s.Fits) (id : Nat) (tcid : UInt8) :
    noticesOf id tcid (s.closing id) =
      noticesIn (momentsOf id tcid (endsFrom id 1 s.connections)) := by
  rw [noticesOf_closing fits, momentsOf_ends fits, hasOpen]
  cases s.connection? tcid with
  | none => rfl
  | some c =>
    change (if c.isOpen then _ else _) = c.farewell.toList
    rw [farewell]
    split <;> rfl

end Slot

namespace SlotRun

variable (link : Link ω) (id now : Nat)

/-- What is written between two states of a slot at work. -/
structure Records (r : SlotRun ω) (es : List Entry) (r' : SlotRun ω) : Prop where
  length_eq : r'.slot.connections.length = r.slot.connections.length
  here : ∀ e ∈ es, e.slot = id
  lives : ∀ tcid, Life tcid (r.slot.connectionD tcid) (momentsOf id tcid es)
    (r'.slot.connectionD tcid)
  tells : ∃ told, r'.events.toList = r.events.toList ++ told ∧ (∀ e ∈ told, e.slot = id) ∧
    ∀ tcid, noticesOf id tcid told = noticesIn (momentsOf id tcid es)

namespace Records

variable {id} {r r' r'' : SlotRun ω} {es es' : List Entry} {tcid : UInt8} {c : Connection}

theorem fits (h : Records id r es r') (hr : r.slot.Fits) : r'.slot.Fits := by
  rw [Slot.Fits, h.length_eq]
  exact hr

theorem trans (h : Records id r es r') (h' : Records id r' es' r'') :
    Records id r (es ++ es') r'' := by
  obtain ⟨told, htold, hslot, hnotices⟩ := h.tells
  obtain ⟨told', htold', hslot', hnotices'⟩ := h'.tells
  refine ⟨h'.length_eq.trans h.length_eq, ?_, fun tcid => ?_, told ++ told', ?_, ?_, fun tcid => ?_⟩
  · intro e he
    rcases List.mem_append.mp he with he | he
    · exact h.here e he
    · exact h'.here e he
  · rw [momentsOf_append]
    exact (h.lives tcid).trans (h'.lives tcid)
  · rw [htold', htold, List.append_assoc]
  · intro e he
    rcases List.mem_append.mp he with he | he
    · exact hslot e he
    · exact hslot' e he
  · rw [noticesOf_append, hnotices, hnotices', momentsOf_append, noticesIn_append]

/-- The connections and the events are the same; the device may have been at work. -/
theorem of_same (hconnections : r'.slot.connections = r.slot.connections)
    (hevents : r'.events = r.events) : Records id r [] r' := by
  refine ⟨congrArg List.length hconnections, List.forall_mem_nil _, fun tcid => ?_, [], ?_,
    nofun, fun tcid => rfl⟩
  · have hsame : r'.slot.connectionD tcid = r.slot.connectionD tcid := by
      rw [Slot.connectionD, Slot.connection?, hconnections]
      rfl
    rw [hsame]
    exact .refl _
  · rw [hevents, List.append_nil]

theorem refl (r : SlotRun ω) : Records id r [] r := .of_same rfl rfl

/-- One connection has one moment. -/
theorem changed {m : Moment} (hc : r.slot.connection? tcid = some c) (step : Step tcid c m)
    (hslot : r'.slot = r.slot.put tcid m.after)
    (hevents : r'.events.toList = r.events.toList ++ m.notice.toList.map (connection id tcid)) :
    Records id r [⟨id, tcid, m⟩] r' := by
  refine ⟨by rw [hslot, Slot.length_put], ?_, fun tcid' => ?_, _, hevents, ?_, fun tcid' => ?_⟩
  · intro e he
    rw [List.mem_singleton.mp he]
  · rw [hslot, Slot.connectionD_put hc, momentsOf_singleton]
    by_cases h : tcid' = tcid
    · rw [if_pos h, if_pos h.symm, h, Slot.connectionD_of_some hc]
      exact .one step
    · rw [if_neg h, if_neg (Ne.symm h)]
      exact .refl _
  · intro e he
    obtain ⟨n, -, rfl⟩ := List.mem_map.mp he
    rfl
  · rw [noticesOf_map_connection, momentsOf_singleton]
    split
    · rw [noticesIn, List.filterMap_cons]
      cases m.notice <;> rfl
    · rfl

theorem put_report {happening : Happening} {notice : Option Notice} {after : Connection}
    (hc : r.slot.connection? tcid = some c) (step : Step tcid c ⟨happening, notice, after⟩) :
    Records id r [⟨id, tcid, happening, notice, after⟩]
      ((r.put tcid after).report id tcid notice) :=
  .changed hc step (report_slot ..) (report_events ..)

/-- Nothing is told of the moment. -/
theorem put {happening : Happening} {after : Connection} (hc : r.slot.connection? tcid = some c)
    (step : Step tcid c ⟨happening, none, after⟩) :
    Records id r [⟨id, tcid, happening, none, after⟩] (r.put tcid after) := .put_report hc step

/-- A connection is begun, if one is idle. -/
theorem begun {slot : Slot} (hr : r.slot.Fits) (hbegin : r.slot.begin? = some (tcid, slot)) :
    Records id r (r.slot.begins id) { r with slot := slot } := by
  rw [Slot.begins, hbegin]
  obtain ⟨c, hc, hidle, rfl⟩ := Slot.of_begin? hr hbegin
  have hnew : (r.slot.put tcid (c.begin tcid)).connectionD tcid = c.begin tcid := by
    rw [Slot.connectionD_put hc, if_pos rfl]
  dsimp only
  rw [hnew]
  exact .put hc (.begun hidle)

theorem cleared (hr : r.slot.Fits) :
    Records id r (Slot.endsFrom id 1 r.slot.connections) (r.clear id) := by
  refine ⟨List.length_map .., fun e he => Slot.slot_of_mem_endsFrom he, fun tcid => ?_,
    r.slot.closing id, Queue.toList_append _ _, fun e he => Slot.slot_of_mem_closing he,
    fun tcid => Slot.notices_ends hr id tcid⟩
  change Life tcid _ _ (r.slot.cleared.connectionD tcid)
  rw [Slot.connectionD_cleared]
  exact Slot.life_ends hr id tcid

end Records

theorem write_records (tcid : UInt8) (unit : Bytes) (r : SlotRun ω) :
    Records id r [] (r.write link tcid unit).1 :=
  .of_same (congrArg Slot.connections (write_slot link tcid unit r)) (write_events link tcid unit r)

/-! ## Receiving -/

theorem answerRequest_records (tcid : UInt8) {r : SlotRun ω} (hr : r.slot.Fits) :
    Records id r (r.slot.begins id) (r.answerRequest link tcid).1 := by
  rw [answerRequest]
  split
  · next new slot hbegin =>
    rw [← List.append_nil (r.slot.begins id)]
    exact (Records.begun hr hbegin).trans (write_records link id tcid _ _)
  · next hnone =>
    rw [Slot.begins, hnone]
    exact write_records link id tcid _ r

/-- One unit from a module. -/
theorem handle_records (t : Tpdu) {r : SlotRun ω} (hr : r.slot.Fits) :
    Records id r (takes link id t r) (r.handle link id t).1 := by
  rw [handle, takes]
  cases hc : r.slot.connection? t.tcid with
  | none => exact .refl r
  | some c =>
    have hstep := Step.taken (c := c) r.slot.config.maxSpduSize (t := t) rfl
    dsimp only
    cases htag : t.tag
    case deleteTc =>
      have hidle : ({ c with awaiting := none }.receive r.slot.config.maxSpduSize t) =
          ⟨.idle, c.farewell, none⟩ := by
        rw [Connection.receive, htag]
        rfl
      rw [hidle] at hstep ⊢
      have hslot := write_slot link t.tcid (control .deleteTcReply t.tcid none) (r.put t.tcid .idle)
      have hevents := write_events link t.tcid (control .deleteTcReply t.tcid none)
        (r.put t.tcid .idle)
      rw [answerDelete]
      generalize (r.put t.tcid .idle).write link t.tcid _ = written at hslot hevents ⊢
      obtain ⟨w, _ | e⟩ := written
      · refine .changed hc hstep ((report_slot ..).trans hslot) ?_
        rw [report_events]
        exact congrArg (fun es : Queue TransportEvent => es.toList ++ _) hevents
      · refine .changed hc (.unanswered rfl htag) hslot ?_
        exact (congrArg Queue.toList hevents).trans (List.append_nil _).symm
    case requestTc =>
      have hquiet : ({ c with awaiting := none }.receive r.slot.config.maxSpduSize t).notice =
          none := by
        rw [Connection.receive, htag]
      rw [hquiet] at hstep
      have hput : Records id r [⟨id, t.tcid, .taken t, none, _⟩] (r.put t.tcid _) :=
        .put hc hstep
      exact hput.trans (answerRequest_records link id t.tcid (hput.fits hr))
    all_goals exact .put_report hc hstep

theorem handleAll_records (ts : List Tpdu) (error : Option CiError) {r : SlotRun ω}
    (hr : r.slot.Fits) :
    Records id r (takesAll link (meetingsIn link id ts r)) (handleAll link id ts r error).1 := by
  induction ts generalizing r error with
  | nil => exact .refl r
  | cons t ts ih =>
    have ht := handle_records link id t hr
    rw [handleAll, meetingsIn, takesAll, List.flatMap_cons]
    generalize r.handle link id t = handled at ht ⊢
    obtain ⟨r', e⟩ := handled
    exact ht.trans (ih (error <|> e) (ht.fits hr))

theorem receiveWithin_records (fuel : Nat) (error : Option CiError) {r : SlotRun ω}
    (hr : r.slot.Fits) :
    Records id r (takesAll link (meetingsWithin link id fuel r))
      (receiveWithin link id fuel r error).1 := by
  induction fuel generalizing r error with
  | zero => exact .refl r
  | succ fuel ih =>
    rw [receiveWithin, meetingsWithin]
    rcases link.read r.slot.device r.slot.number r.slot.config.room r.world with
      ⟨text | _ | response, world⟩
    · exact .of_same rfl rfl
    · exact .of_same rfl rfl
    · dsimp only
      have hread : Records id r [] { r with world := world } := .of_same rfl rfl
      split
      · exact hread
      · cases Tpdu.readResponse response with
        | error e => exact hread
        | ok units =>
          have hunits := handleAll_records link id units error (hread.fits hr)
          have hrest := ih (handleAll link id units { r with world := world } error).2
            (hunits.fits (hread.fits hr))
          dsimp only
          rw [handleAll_fst link id units _ none error, takesAll, List.flatMap_append]
          exact hread.trans (hunits.trans hrest)

theorem receive_records {r : SlotRun ω} (hr : r.slot.Fits) :
    Records id r (takesAll link (r.meetings link id)) (r.receive link id).1 :=
  receiveWithin_records link id _ none hr

/-! ## Sending -/

theorem sendFrom_records (count : Nat) (tcid : UInt8) (error : Option CiError) (r : SlotRun ω) :
    Records id r (turnsFrom link id now count tcid r)
      (sendFrom link id now count tcid r error).1 := by
  induction count generalizing tcid r error with
  | zero => exact .refl r
  | succ count ih =>
    rw [sendFrom, turnsFrom]
    cases hc : r.slot.connection? tcid with
    | none => exact .refl r
    | some c =>
      dsimp only
      cases hduty : c.duty r.slot.config tcid now with
      | nothing => exact ih ..
      | timedOut =>
        have hgone : Records id r [⟨id, tcid, .timedOut, c.farewell, .idle⟩]
            ((r.put tcid .idle).report id tcid c.farewell) := .put_report hc (.timedOut hduty)
        exact hgone.trans (ih ..)
      | send unit left =>
        have hslot := write_slot link tcid unit (r.put tcid left)
        have hevents := write_events link tcid unit (r.put tcid left)
        dsimp only
        generalize (r.put tcid left).write link tcid unit = written at hslot hevents ⊢
        obtain ⟨w, _ | e⟩ := written
        · have hsent : Records id r [⟨id, tcid, .sent c.reason unit true, none, left.sent now⟩]
              (w.put tcid (left.sent now)) := by
            refine .changed hc (.sent hduty) ?_ ?_
            · change w.slot.put tcid _ = _
              rw [hslot]
              exact Slot.put_put
            · exact (congrArg Queue.toList hevents).trans (List.append_nil _).symm
          exact hsent.trans (ih ..)
        · refine .changed hc (.failed hduty) hslot ?_
          exact (congrArg Queue.toList hevents).trans (List.append_nil _).symm

/-! ## Polls -/

theorem exchange_records {r : SlotRun ω} (hr : r.slot.Fits) :
    Records id r (r.exchanges link id now) (r.exchange link id now).1 := by
  have hreceive := receive_records link id hr
  rw [exchange, exchanges]
  generalize r.receive link id = received at hreceive ⊢
  obtain ⟨r', _ | e⟩ := received
  · exact hreceive.trans (sendFrom_records ..)
  · dsimp only
    rw [List.append_nil]
    exact hreceive

theorem greet_records (r : SlotRun ω) : Records id r [] (r.greet link).1 := by
  rw [greet]
  split <;> exact .of_same rfl rfl

theorem start_records {r : SlotRun ω} (hr : r.slot.Fits) :
    Records id r (r.starts link id now) (r.start link id now).1 := by
  rw [start, starts]
  rcases link.linkType r.slot.device r.slot.number r.world with ⟨text | _ | _, world⟩
  · exact .of_same rfl rfl
  · dsimp only
    let ready : SlotRun ω := { r with world := world, slot := { r.slot with state := .ready } }
    have hready : Records id r [] ready := .of_same rfl rfl
    cases hbegin : ({ r.slot with state := .ready } : Slot).begin? with
    | none => exact hready
    | some begun =>
      obtain ⟨tcid, slot⟩ := begun
      have hbegun : Records id ready (ready.slot.begins id) { ready with slot := slot } :=
        .begun (hready.fits hr) hbegin
      exact hready.trans (hbegun.trans (exchange_records link id now
        (hbegun.fits (hready.fits hr))))
  · exact .of_same rfl rfl

theorem poll_records {r : SlotRun ω} (hr : r.slot.Fits) :
    Records id r (r.polls link id now) (r.poll link id now).1 := by
  rw [poll, polls]
  rcases link.status r.slot.device r.slot.number r.world with ⟨text | status, world⟩
  · exact .of_same rfl rfl
  · dsimp only
    have hstatus : Records id r [] { r with world := world } := .of_same rfl rfl
    have hfits := hstatus.fits hr
    cases hstate : r.slot.state <;> cases status
    case empty.missing => exact hstatus
    case empty.initialising | empty.ready => exact hstatus.trans (greet_records link id _)
    case starting.missing | ready.missing | unsupported.missing =>
      exact hstatus.trans (.cleared hfits)
    case starting.ready => exact hstatus.trans (start_records link id now hfits)
    case ready.initialising | ready.ready =>
      exact hstatus.trans (exchange_records link id now hfits)
    case starting.initialising | unsupported.initialising | unsupported.ready => exact hstatus

end SlotRun

end DvbHost.Ci
