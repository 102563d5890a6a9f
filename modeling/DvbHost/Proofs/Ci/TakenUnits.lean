import DvbHost.Proofs.Ci.SlotMoves

/-!
# Units that are taken up

What one unit of a module does to the connections of its slot, and what it lets become known: both
are its own connection's business, but for one that is begun on request. A message is made known only
by a unit, so the messages that polls tell are those of the units that were taken up, in order.
-/

namespace DvbHost.Ci

set_option autoImplicit false

open Connection TransportEvent

variable {ω : Type}

/-! ## One unit -/

namespace Slot

theorem Fits.put {s : Slot} (fits : s.Fits) (tcid : UInt8) (c : Connection) : (s.put tcid c).Fits := by
  rw [Fits, length_put]
  exact fits

/-- A connection that is begun was idle, and the others stay as they are. -/
theorem connectionD_of_begin? {s s' : Slot} {new : UInt8} (fits : s.Fits)
    (h : s.begin? = some (new, s')) (tcid : UInt8) :
    s'.connectionD tcid = s.connectionD tcid ∨
      (s.connectionD tcid).state = .idle ∧ s'.connectionD tcid = (s.connectionD tcid).begin tcid := by
  obtain ⟨c, hc, hidle, rfl⟩ := of_begin? fits h
  rw [connectionD_put hc]
  by_cases heq : tcid = new
  · rw [if_pos heq, heq, connectionD_of_some hc]
    exact .inr ⟨hidle, rfl⟩
  · rw [if_neg heq]
    exact .inl rfl

/-- The slot has the connection. -/
def Has (s : Slot) (tcid : UInt8) : Prop := s.connection? tcid = some (s.connectionD tcid)

theorem connection?_or_has (s : Slot) (tcid : UInt8) :
    (s.connection? tcid = none ∧ s.connectionD tcid = .idle) ∨ s.Has tcid := by
  rw [Has, connectionD]
  cases s.connection? tcid with
  | none => exact .inl ⟨rfl, rfl⟩
  | some c => exact .inr rfl

theorem has_of_active {s : Slot} {tcid : UInt8} (active : (s.connectionD tcid).state = .active) :
    s.Has tcid := by
  rcases s.connection?_or_has tcid with ⟨-, hidle⟩ | has
  · rw [hidle] at active
    cases active
  · exact has

end Slot

namespace SlotRun

variable (link : Link ω) (id : Nat) {r : SlotRun ω} {t : Tpdu}

/-- What a unit makes of its connection. -/
def outcome (t : Tpdu) (r : SlotRun ω) : Connection.Outcome :=
  { r.slot.connectionD t.tcid with awaiting := none }.receive r.slot.config.maxSpduSize t

theorem answerRequest_events (tcid : UInt8) (r : SlotRun ω) :
    (r.answerRequest link tcid).1.events = r.events := by
  rw [answerRequest]
  split <;> rw [write_events]

theorem answerDelete_slot (tcid : UInt8) (o : Connection.Outcome) (r : SlotRun ω) :
    (r.answerDelete link id tcid o).1.slot = r.slot.put tcid o.connection := by
  have hslot := write_slot link tcid (control .deleteTcReply tcid none) (r.put tcid o.connection)
  rw [answerDelete]
  generalize (r.put tcid o.connection).write link tcid _ = written at hslot ⊢
  obtain ⟨w, _ | e⟩ := written
  · exact (report_slot ..).trans hslot
  · exact hslot

theorem answerDelete_events (tcid : UInt8) (o : Connection.Outcome) (r : SlotRun ω) :
    ∃ notices : List Notice, (∀ n ∈ notices, o.notice = some n) ∧
      (r.answerDelete link id tcid o).1.events.toList =
        r.events.toList ++ notices.map (connection id tcid) := by
  have hevents := write_events link tcid (control .deleteTcReply tcid none) (r.put tcid o.connection)
  rw [answerDelete]
  generalize (r.put tcid o.connection).write link tcid _ = written at hevents ⊢
  obtain ⟨w, _ | e⟩ := written
  · refine ⟨o.notice.toList, fun n => Option.mem_toList.mp, (report_events ..).trans ?_⟩
    exact congrArg (fun es : Queue TransportEvent => es.toList ++ _) hevents
  · exact ⟨[], List.forall_mem_nil _,
      (congrArg Queue.toList hevents).trans (List.append_nil _).symm⟩

theorem handle_of_not_has (h : r.slot.connection? t.tcid = none) :
    r.handle link id t = (r, some .badConnection) := by rw [handle, h]

/-- A unit changes its own connection; if it asks for another one, an idle one may be begun. -/
theorem handle_slot (has : r.slot.Has t.tcid) :
    (r.handle link id t).1.slot = r.slot.put t.tcid (r.outcome t).connection ∨
      ∃ new, (r.slot.put t.tcid (r.outcome t).connection).begin? =
        some (new, (r.handle link id t).1.slot) := by
  rw [handle, has]
  dsimp only
  split
  · exact .inl (answerDelete_slot ..)
  · rw [answerRequest]
    split
    · next new slot hbegin =>
      rw [write_slot]
      exact .inr ⟨new, hbegin⟩
    · rw [write_slot]
      exact .inl rfl
  · exact .inl (report_slot ..)

/-- All that a unit lets become known is what it does to its own connection. -/
theorem handle_events (t : Tpdu) (r : SlotRun ω) : ∃ notices : List Notice,
    (∀ n ∈ notices, (r.outcome t).notice = some n) ∧
      (r.handle link id t).1.events.toList =
        r.events.toList ++ notices.map (connection id t.tcid) := by
  rcases r.slot.connection?_or_has t.tcid with ⟨hnone, -⟩ | has
  · rw [handle_of_not_has link id hnone]
    exact ⟨[], List.forall_mem_nil _, (List.append_nil _).symm⟩
  · rw [handle, has]
    dsimp only
    split
    · exact answerDelete_events ..
    · rw [answerRequest_events]
      exact ⟨[], List.forall_mem_nil _, (List.append_nil _).symm⟩
    · exact ⟨_, fun n => Option.mem_toList.mp, report_events ..⟩

/-- A unit that is not answered at once. -/
theorem handle_unanswered (has : r.slot.Has t.tcid) (delete : t.tag ≠ .deleteTc)
    (request : t.tag ≠ .requestTc) :
    r.handle link id t = ((r.put t.tcid (r.outcome t).connection).report id t.tcid
      (r.outcome t).notice, (r.outcome t).error) := by
  rw [handle, has]
  dsimp only
  split
  · next h => exact absurd h delete
  · next h => exact absurd h request
  · rfl

end SlotRun

namespace Meeting

variable (link : Link ω) (m : Meeting ω)

/-- The slot at work after the unit. -/
def left : SlotRun ω := (m.run.handle link m.slot m.unit).1

/-- The error that comes of the unit. -/
def error : Option CiError := (m.run.handle link m.slot m.unit).2

/-- What the unit lets become known. -/
def told : List TransportEvent := (m.left link).events.toList.drop m.run.events.toList.length

/-- Whether the unit is one of the connection. -/
def names (slot : Nat) (tcid : UInt8) : Bool := m.slot == slot && m.unit.tcid == tcid

/-- The connection as the unit finds it. -/
def finds (tcid : UInt8) : Connection := m.run.slot.connectionD tcid

/-- The connection as the unit leaves it. -/
def leaves (tcid : UInt8) : Connection := (m.left link).slot.connectionD tcid

variable {m}

theorem told_eq {es : List TransportEvent}
    (h : (m.left link).events.toList = m.run.events.toList ++ es) : m.told link = es := by
  rw [told, h, List.drop_left]

theorem exists_told (m : Meeting ω) : ∃ notices : List Notice,
    (∀ n ∈ notices, (m.run.outcome m.unit).notice = some n) ∧
      m.told link = notices.map (connection m.slot m.unit.tcid) := by
  obtain ⟨notices, hown, hnotices⟩ := SlotRun.handle_events link m.slot m.unit m.run
  exact ⟨notices, hown, told_eq link hnotices⟩

theorem left_events (m : Meeting ω) :
    (m.left link).events.toList = m.run.events.toList ++ m.told link := by
  obtain ⟨notices, -, hnotices⟩ := SlotRun.handle_events link m.slot m.unit m.run
  rw [told_eq link hnotices]
  exact hnotices

/-- Nothing is told of other connections. -/
theorem noticesOf_told_of_not_names {slot : Nat} {tcid : UInt8} (h : m.names slot tcid = false) :
    noticesOf slot tcid (m.told link) = [] := by
  obtain ⟨notices, -, htold⟩ := m.exists_told link
  rw [htold]
  by_cases hslot : m.slot = slot
  · have htcid : m.unit.tcid ≠ tcid := by
      rintro rfl
      simp [names, hslot] at h
    rw [hslot, noticesOf_map_connection, if_neg htcid]
  · refine noticesOf_eq_nil tcid fun e he => ?_
    obtain ⟨n, -, rfl⟩ := List.mem_map.mp he
    exact hslot

/-- A unit of another connection leaves a connection as it is, or begun. -/
theorem leaves_of_ne {tcid : UInt8} (fits : m.run.slot.Fits) (h : m.unit.tcid ≠ tcid) :
    m.leaves link tcid = m.finds tcid ∨
      (m.finds tcid).state = .idle ∧ m.leaves link tcid = (m.finds tcid).begin tcid := by
  rw [leaves, finds, left]
  rcases m.run.slot.connection?_or_has m.unit.tcid with ⟨hnone, -⟩ | has
  · rw [SlotRun.handle_of_not_has link m.slot hnone]
    exact .inl rfl
  · have hput : (m.run.slot.put m.unit.tcid (m.run.outcome m.unit).connection).connectionD tcid =
        m.run.slot.connectionD tcid := (Slot.connectionD_put has tcid).trans (if_neg (Ne.symm h))
    rcases SlotRun.handle_slot link m.slot has with hslot | ⟨new, hbegin⟩
    · rw [hslot, hput]
      exact .inl rfl
    · have hbegun := Slot.connectionD_of_begin? (fits.put _ _) hbegin tcid
      rwa [hput] at hbegun

/-- A unit leaves its own connection as what it makes of it, or begun. -/
theorem leaves_self (fits : m.run.slot.Fits) (has : m.run.slot.Has m.unit.tcid) :
    m.leaves link m.unit.tcid = (m.run.outcome m.unit).connection ∨
      (m.run.outcome m.unit).connection.state = .idle ∧
        m.leaves link m.unit.tcid = (m.run.outcome m.unit).connection.begin m.unit.tcid := by
  have hput : (m.run.slot.put m.unit.tcid (m.run.outcome m.unit).connection).connectionD
      m.unit.tcid = (m.run.outcome m.unit).connection :=
    (Slot.connectionD_put has _).trans (if_pos rfl)
  rw [leaves, left]
  rcases SlotRun.handle_slot link m.slot has with hslot | ⟨new, hbegin⟩
  · rw [hslot]
    exact .inl hput
  · have hbegun := Slot.connectionD_of_begin? (fits.put _ _) hbegin m.unit.tcid
    rwa [hput] at hbegun

theorem leaves_of_not_has {tcid : UInt8} (h : m.run.slot.connection? m.unit.tcid = none) :
    m.leaves link tcid = m.finds tcid := by
  rw [leaves, left, SlotRun.handle_of_not_has link m.slot h, finds]

end Meeting

/-! ## What the polls tell -/

/-- The data of a notice. -/
def Notice.data? : Notice → Option Bytes
  | data octets => some octets
  | _ => none

/-- The messages among what is told of a connection. -/
def messagesOf (slot : Nat) (tcid : UInt8) (events : List TransportEvent) : List Bytes :=
  (noticesOf slot tcid events).filterMap Notice.data?

theorem messagesOf_append (slot : Nat) (tcid : UInt8) (es es' : List TransportEvent) :
    messagesOf slot tcid (es ++ es') = messagesOf slot tcid es ++ messagesOf slot tcid es' := by
  rw [messagesOf, noticesOf_append, List.filterMap_append]
  rfl

theorem messagesOf_eq_nil {slot : Nat} {tcid : UInt8} {es : List TransportEvent}
    (h : ∀ octets, connection slot tcid (.data octets) ∉ es) : messagesOf slot tcid es = [] := by
  refine List.filterMap_eq_nil_iff.mpr fun n hn => ?_
  cases n with
  | data octets => exact absurd (mem_noticesOf.mp hn) (h octets)
  | opened | closed => rfl

theorem Connection.farewell_ne_data (c : Connection) (octets : Bytes) :
    c.farewell ≠ some (.data octets) := by
  rw [farewell]
  split <;> rintro ⟨⟩

theorem Slot.data_not_mem_closing (s : Slot) (id slot : Nat) (tcid : UInt8) (octets : Bytes) :
    connection slot tcid (.data octets) ∉ s.closing id := by
  have hfarewells : ∀ (cs : List Connection) (n : Nat),
      connection slot tcid (.data octets) ∉ farewells id n cs := by
    intro cs
    induction cs with
    | nil => exact fun n => List.not_mem_nil
    | cons c cs ih =>
      intro n h
      rcases List.mem_append.mp h with h | h
      · obtain ⟨notice, hnotice, heq⟩ := List.mem_map.mp h
        cases heq
        exact c.farewell_ne_data octets (Option.mem_toList.mp hnotice)
      · exact ih (n + 1) h
  intro h
  rcases List.mem_append.mp h with h | h
  · exact hfarewells _ _ h
  · cases List.mem_singleton.mp h

/-- Only units of the module make messages known. -/
theorem Connection.Step.notice_ne_data {c : Connection} {tcid : UInt8} {m : Moment}
    (step : Step tcid c m) (untaken : m.Untaken) (octets : Bytes) :
    m.notice ≠ some (.data octets) := by
  cases step with
  | taken maxSize named | unanswered named tag => exact absurd rfl (untaken _)
  | timedOut turn | gone => exact c.farewell_ne_data octets
  | _ => nofun

/-- More events are told, and their messages are those that some units make known. -/
def Tells (link : Link ω) (events : List TransportEvent) (ms : List (Meeting ω))
    (events' : List TransportEvent) : Prop :=
  ∃ es, events' = events ++ es ∧
    ∀ slot tcid, messagesOf slot tcid es = messagesOf slot tcid (ms.flatMap (Meeting.told link))

namespace Tells

variable {link : Link ω} {ms ms' : List (Meeting ω)} {events events' events'' : List TransportEvent}

theorem refl (events : List TransportEvent) : Tells link events [] events :=
  ⟨[], (List.append_nil _).symm, fun _ _ => rfl⟩

theorem trans (h : Tells link events ms events') (h' : Tells link events' ms' events'') :
    Tells link events (ms ++ ms') events'' := by
  obtain ⟨es, rfl, hes⟩ := h
  obtain ⟨es', rfl, hes'⟩ := h'
  refine ⟨es ++ es', List.append_assoc .., fun slot tcid => ?_⟩
  rw [messagesOf_append, hes, hes', List.flatMap_append, messagesOf_append]

/-- No message is told. -/
theorem quiet {es : List TransportEvent}
    (h : ∀ slot tcid octets, connection slot tcid (.data octets) ∉ es) :
    Tells link events [] (events ++ es) :=
  ⟨es, rfl, fun slot tcid => messagesOf_eq_nil (h slot tcid)⟩

end Tells

namespace SlotRun

variable {link : Link ω} {id : Nat} {r r' : SlotRun ω} {ms : List (Meeting ω)}

theorem Move.tells (h : Move link id r ms r') : Tells link r.events.toList ms r'.events.toList := by
  cases h with
  | still connections config events =>
    rw [events]
    exact .refl _
  | changed found step untaken slot events =>
    rw [events]
    refine .quiet fun slot' tcid' octets hmem => ?_
    obtain ⟨n, hn, heq⟩ := List.mem_map.mp hmem
    cases heq
    exact step.notice_ne_data untaken octets (Option.mem_toList.mp hn)
  | cleared =>
    rw [clear, Queue.toList_append]
    exact .quiet fun slot tcid octets => r.slot.data_not_mem_closing id slot tcid octets
  | taken t =>
    refine ⟨_, Meeting.left_events link ⟨id, r, t⟩, fun slot tcid => ?_⟩
    rw [List.flatMap_singleton]

theorem Moves.tells (h : Moves link id r ms r') :
    Tells link r.events.toList ms r'.events.toList := by
  induction h with
  | refl r => exact .refl _
  | cons move _ ih => exact move.tells.trans ih

end SlotRun

namespace TransportLayer

theorem pollFrom_tells (link : Link ω) (now id : Nat) {slots : List (Option Slot)} (s : Sweep ω)
    (fit : AllFit slots) :
    Tells link s.events.toList (meetingsFrom link now id slots s)
      (pollFrom link now id slots s).2.events.toList := by
  induction slots generalizing id s with
  | nil => exact .refl _
  | cons slot slots ih =>
    have hrest : AllFit slots := fun s hs => fit s (List.mem_cons_of_mem _ hs)
    cases slot with
    | none => exact ih (id + 1) s hrest
    | some slot =>
      have hslot : slot.Fits := fit slot (List.mem_cons_self ..)
      have hpoll := (SlotRun.poll_moves link id now (r := ⟨slot, s.events, s.world⟩) hslot).tells
      rw [← (pollSlot_eq link now id slot s).2] at hpoll
      exact hpoll.trans (ih (id + 1) _ hrest)

end TransportLayer

namespace TransportRun

open TransportLayer

/-- The messages that polls have told, or will tell next, are those that the units made known. -/
def TellsMessages (link : Link ω) (r : TransportRun ω) : Prop :=
  ∀ slot tcid, messagesOf slot tcid (r.told ++ r.layer.events.toList) =
    messagesOf slot tcid (r.met.flatMap (Meeting.told link))

theorem TellsMessages.perform {link : Link ω} {r : TransportRun ω} (h : r.TellsMessages link)
    (accounted : Accounted link r) (request : Request) :
    (r.perform link request).TellsMessages link := by
  intro slot tcid
  cases request with
  | poll now =>
    obtain ⟨es, hes, hmessages⟩ := pollFrom_tells link now 0
      ⟨r.layer.events, r.world, r.layer.lastError⟩ accounted.fit
    change messagesOf slot tcid ((r.told ++ (pollFrom link now 0 r.layer.slots
      ⟨r.layer.events, r.world, r.layer.lastError⟩).2.events.toList) ++ []) =
        messagesOf slot tcid ((r.met ++ _).flatMap _)
    rw [List.append_nil, hes, ← List.append_assoc, messagesOf_append, h slot tcid, hmessages,
      List.flatMap_append, messagesOf_append]
  | register device number config =>
    rw [TransportRun.perform, register]
    split <;> exact h slot tcid
  | destroySlot slot' =>
    rw [TransportRun.perform, destroySlot]
    split
    · exact h slot tcid
    · next s hs =>
      change messagesOf slot tcid (r.told ++ (r.layer.events.append (s.closing slot')).toList) = _
      rw [Queue.toList_append, ← List.append_assoc, messagesOf_append, h slot tcid,
        messagesOf_eq_nil fun octets => s.data_not_mem_closing slot' slot tcid octets,
        List.append_nil]
      rfl
  | newConnection slot' =>
    rw [TransportRun.perform, newConnection]
    split
    · exact h slot tcid
    · split
      · exact h slot tcid
      · split <;> exact h slot tcid
  | deleteConnection slot' tcid' =>
    rw [TransportRun.perform]
    cases hl : r.layer.deleteConnection slot' tcid' with
    | error e => exact h slot tcid
    | ok l =>
      obtain ⟨s, c, c', -, -, -, rfl⟩ := update_ok hl
      exact h slot tcid
  | sendData slot' tcid' data =>
    rw [TransportRun.perform]
    cases hl : r.layer.sendData slot' tcid' data with
    | error e => exact h slot tcid
    | ok l =>
      obtain ⟨s, c, c', -, -, -, rfl⟩ := update_ok hl
      exact h slot tcid

theorem tellsMessages_after (link : Link ω) (maxSlots maxConnections : Nat) (world : ω)
    (requests : List Request) :
    (after link requests (start maxSlots maxConnections world)).TellsMessages link := by
  have hall : ∀ (requests : List Request) (r : TransportRun ω), r.TellsMessages link →
      Accounted link r → (after link requests r).TellsMessages link := by
    intro requests
    induction requests with
    | nil => exact fun r h _ => h
    | cons request requests ih =>
      exact fun r h accounted => ih _ (h.perform accounted request) (accounted.perform request)
  exact hall requests _ (fun _ _ => rfl) (start_accounted link maxSlots maxConnections world)

end TransportRun

end DvbHost.Ci
