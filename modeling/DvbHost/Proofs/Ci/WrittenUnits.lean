import DvbHost.Proofs.Ci.ConnectionHistory

/-!
# What devices write

The history of a run says which units go out in the turns of the connections. The devices are the
judges of that: let a link note down all that they write, and what they have written in a run is
what goes out in its history, in the same order, but for the answers that slots give at once.
-/

namespace DvbHost.Ci

set_option autoImplicit false

open Connection TransportLayer

variable {ω : Type}

/-- Units with the connections they were written for. -/
abbrev Notes := List (UInt8 × Bytes)

namespace Link

/-- The notes stay as they are. -/
def keeping {α : Type} (notes : Notes) (o : α × ω) : α × (ω × Notes) := (o.1, o.2, notes)

/-- The same devices; what they write is noted down. -/
def noting (link : Link ω) : Link (ω × Notes) where
  reset device slot w := keeping w.2 (link.reset device slot w.1)
  status device slot w := keeping w.2 (link.status device slot w.1)
  linkType device slot w := keeping w.2 (link.linkType device slot w.1)
  read device slot room w := keeping w.2 (link.read device slot room w.1)
  write device slot tcid unit w :=
    match link.write device slot tcid unit w.1 with
    | (.ok (), world) => (.ok (), world, w.2 ++ [(tcid, unit)])
    | (.error text, world) => (.error text, world, w.2)
  burst device slot w := link.burst device slot w.1

end Link

/-- Whether a unit answers one of the module at once, out of turn. -/
def isAnswer (unit : Bytes) : Bool :=
  unit.head?.any fun b => b == TpduTag.deleteTcReply.octet || b == TpduTag.newTc.octet ||
    b == TpduTag.tcError.octet

/-- The notes without the answers. -/
def Notes.inTurn (notes : Notes) : Notes := notes.filter fun p => !isAnswer p.2

/-- The unit that goes out. -/
def Moment.unitOut (m : Moment) : Option Bytes :=
  match m.happening with
  | .sent _ unit true => some unit
  | _ => none

/-- The unit that goes out, with its connection. -/
def Entry.note (e : Entry) : Option (UInt8 × Bytes) := e.moment.unitOut.map fun unit => (e.tcid, unit)

/-! ## Nothing that is sent in turn looks like an answer -/

namespace Connection

variable {tcid : UInt8} {c : Connection} {m : Moment} {ms : List Moment}

theorem isAnswer_of_encode {tag : TpduTag} {data unit : Bytes}
    (h : Tpdu.encode tag tcid data = .ok unit) : isAnswer unit = isAnswer [tag.octet] := by
  obtain ⟨length, -, h⟩ := Outcome.ok_of_bind h
  obtain rfl := Except.ok.inj h
  rfl

theorem isAnswer_of_unitsOf {parts units : List Bytes} (h : unitsOf tcid parts = .ok units) :
    ∀ unit ∈ units, isAnswer unit = false := by
  induction parts using unitsOf.induct generalizing units with
  | case1 =>
    obtain rfl := Except.ok.inj h
    exact List.forall_mem_nil _
  | case2 last =>
    obtain ⟨unit, hunit, h⟩ := Outcome.ok_of_bind h
    obtain rfl := Except.ok.inj h
    intro unit' hmem
    rw [List.mem_singleton.mp hmem]
    exact isAnswer_of_encode hunit
  | case3 part parts _ ih =>
    rw [unitsOf] at h
    · obtain ⟨unit, hunit, h⟩ := Outcome.ok_of_bind h
      obtain ⟨units', hunits', h⟩ := Outcome.ok_of_bind h
      obtain rfl := Except.ok.inj h
      intro unit' hmem
      rcases List.mem_cons.mp hmem with rfl | hmem
      · exact isAnswer_of_encode hunit
      · exact ih hunits' unit' hmem
    · assumption

/-- No unit in the queue looks like an answer. -/
def QueuesNoAnswer (c : Connection) : Prop := ∀ unit ∈ c.queue.toList, isAnswer unit = false

theorem Step.queuesNoAnswer (step : Step tcid c m) (h : c.QueuesNoAnswer) :
    m.after.QueuesNoAnswer := by
  cases step using Step.elim with
  | begun idle =>
    intro unit hmem
    change unit ∈ (c.queue.push _).toList at hmem
    rw [Queue.toList_push] at hmem
    rcases List.mem_append.mp hmem with hmem | hmem
    · exact h unit hmem
    · rw [List.mem_singleton.mp hmem]
      rfl
  | queued units active step =>
    cases step with
    | queued _ cut =>
      intro unit hmem
      rw [Queue.toList_append] at hmem
      rcases List.mem_append.mp hmem with hmem | hmem
      · exact h unit hmem
      · exact isAnswer_of_unitsOf cut unit hmem
  | ending active =>
    intro unit hmem
    rw [List.mem_singleton.mp hmem]
    rfl
  | taken t notice after reception =>
    cases reception with
    | agreed tag creating => exact h
    | status tag => exact h
    | reset ends silent => exact List.forall_mem_nil _
    | kept chain discarding tag goesOn unexpected silent => exact h
  | sent reason unit written left after busy turn departed =>
    intro unit' hmem
    rw [departed.queue_eq] at hmem
    cases turn with
    | announced flag => exact h unit' hmem
    | queued flag head =>
      apply h unit'
      rw [head]
      exact List.mem_cons_of_mem _ hmem
    | due flag empty active => exact h unit' hmem
  | ended happening ends => exact List.forall_mem_nil _

theorem Step.unitOut_noAnswer {unit : Bytes} (step : Step tcid c m) (h : c.QueuesNoAnswer)
    (out : m.unitOut = some unit) : isAnswer unit = false := by
  cases step using Step.elim with
  | sent reason unit' written left after busy turn departed =>
    cases written with
    | false => cases out
    | true =>
      obtain rfl := Option.some.inj out
      cases turn with
      | announced flag => rfl
      | queued flag head =>
        apply h
        rw [head]
        exact List.mem_cons_self ..
      | due flag empty active => rfl
  | ended happening ends => rcases ends with rfl | rfl <;> cases out
  | _ => cases out

/-- What goes out on a connection in its turns does not look like an answer. -/
theorem Life.unitOut_noAnswer (life : Life tcid .idle ms c) :
    ∀ m ∈ ms, ∀ unit, m.unitOut = some unit → isAnswer unit = false := by
  have h : c.QueuesNoAnswer ∧ ∀ m ∈ ms, ∀ unit, m.unitOut = some unit → isAnswer unit = false := by
    refine life.invariant (P := fun ms c => c.QueuesNoAnswer ∧
      ∀ m ∈ ms, ∀ unit, m.unitOut = some unit → isAnswer unit = false) ?_ ?_
    · exact ⟨List.forall_mem_nil _, List.forall_mem_nil _⟩
    · rintro ms c m _ ⟨hqueue, hout⟩ step
      refine ⟨step.queuesNoAnswer hqueue, ?_⟩
      intro m' hm' unit hunit
      rcases List.mem_append.mp hm' with hm' | hm'
      · exact hout m' hm' unit hunit
      · rw [List.mem_singleton.mp hm'] at hunit
        exact step.unitOut_noAnswer hqueue hunit
  exact h.2

end Connection

/-! ## What is noted down follows the history -/

/-- Between two worlds, what goes out in some entries was noted down, and else answers only. -/
structure Noted (w : ω × Notes) (es : List Entry) (w' : ω × Notes) : Prop where
  inTurn_eq : (∀ e ∈ es, ∀ p, e.note = some p → isAnswer p.2 = false) →
    w'.2.inTurn = w.2.inTurn ++ es.filterMap Entry.note

namespace Noted

variable {w w' w'' : ω × Notes} {es es' : List Entry}

theorem trans (h : Noted w es w') (h' : Noted w' es' w'') : Noted w (es ++ es') w'' := by
  constructor
  intro proper
  rw [h'.inTurn_eq fun e he => proper e (List.mem_append_right es he),
    h.inTurn_eq fun e he => proper e (List.mem_append_left es' he), List.filterMap_append,
    List.append_assoc]

/-- Nothing goes out, and nothing is noted down but answers. -/
theorem of_silent (silent : ∀ e ∈ es, e.note = none) (same : w'.2.inTurn = w.2.inTurn) :
    Noted w es w' := by
  constructor
  intro _
  rw [same, List.filterMap_eq_nil_iff.mpr silent, List.append_nil]

/-- Nothing happens, and nothing is noted down. -/
theorem of_same (same : w'.2 = w.2) : Noted w [] w' :=
  .of_silent (List.forall_mem_nil _) (congrArg Notes.inTurn same)

theorem refl (w : ω × Notes) : Noted w [] w := .of_same rfl

end Noted

namespace Slot

theorem note_begins (id : Nat) (s : Slot) : ∀ e ∈ s.begins id, e.note = none := by
  rw [begins]
  split
  · exact List.forall_mem_nil _
  · exact List.forall_mem_singleton.mpr rfl

theorem note_endsFrom (id first : Nat) (cs : List Connection) :
    ∀ e ∈ endsFrom id first cs, e.note = none := by
  induction cs generalizing first with
  | nil => exact List.forall_mem_nil _
  | cons c cs ih => exact List.forall_mem_cons.mpr ⟨rfl, ih (first + 1)⟩

end Slot

namespace SlotRun

variable (link : Link ω) (id now : Nat)

theorem report_world (tcid : UInt8) (notice : Option Notice) (r : SlotRun ω) :
    (r.report id tcid notice).world = r.world := by cases notice <;> rfl

/-- What is written is noted down. -/
theorem write_notes (tcid : UInt8) (unit : Bytes) (r : SlotRun (ω × Notes)) :
    (r.write link.noting tcid unit).1.world.2 =
      if (r.write link.noting tcid unit).2 = none then r.world.2 ++ [(tcid, unit)]
      else r.world.2 := by
  have hnoted : (link.noting.write r.slot.device r.slot.number tcid unit r.world).2.2 =
      match (link.noting.write r.slot.device r.slot.number tcid unit r.world).1 with
      | .ok () => r.world.2 ++ [(tcid, unit)]
      | .error _ => r.world.2 := by
    dsimp only [Link.noting]
    split <;> rfl
  rw [write]
  generalize link.noting.write r.slot.device r.slot.number tcid unit r.world = written at hnoted ⊢
  obtain ⟨text | _, world⟩ := written <;> exact hnoted

theorem write_inTurn {unit : Bytes} (answer : isAnswer unit = true) (tcid : UInt8)
    (r : SlotRun (ω × Notes)) :
    (r.write link.noting tcid unit).1.world.2.inTurn = r.world.2.inTurn := by
  rw [write_notes]
  split
  · simp [Notes.inTurn, answer]
  · rfl

/-! ### Receiving -/

theorem takes_silent (t : Tpdu) (r : SlotRun ω) : ∀ e ∈ r.takes link id t, e.note = none := by
  rw [takes]
  split
  · exact List.forall_mem_nil _
  · dsimp only
    split
    · split <;> exact List.forall_mem_singleton.mpr rfl
    · exact List.forall_mem_cons.mpr ⟨rfl, Slot.note_begins id _⟩
    · exact List.forall_mem_singleton.mpr rfl

theorem takesAll_silent (ms : List (Meeting ω)) : ∀ e ∈ takesAll link ms, e.note = none := by
  intro e he
  obtain ⟨m, -, he⟩ := List.mem_flatMap.mp he
  exact takes_silent link m.slot m.unit m.run e he

theorem answerRequest_inTurn (tcid : UInt8) (r : SlotRun (ω × Notes)) :
    (r.answerRequest link.noting tcid).1.world.2.inTurn = r.world.2.inTurn := by
  rw [answerRequest]
  split
  · exact write_inTurn link rfl tcid _
  · exact write_inTurn link rfl tcid r

theorem answerDelete_inTurn (tcid : UInt8) (o : Connection.Outcome) (r : SlotRun (ω × Notes)) :
    (r.answerDelete link.noting id tcid o).1.world.2.inTurn = r.world.2.inTurn := by
  have answer : isAnswer (control .deleteTcReply tcid none) = true := rfl
  have hwrite := write_inTurn link answer tcid (r.put tcid o.connection)
  rw [answerDelete]
  generalize (r.put tcid o.connection).write link.noting tcid _ = written at hwrite ⊢
  obtain ⟨r', _ | e⟩ := written
  · exact (congrArg (fun w : ω × Notes => w.2.inTurn) (report_world ..)).trans hwrite
  · exact hwrite

/-- A unit of the module is answered at once or not at all. -/
theorem handle_inTurn (t : Tpdu) (r : SlotRun (ω × Notes)) :
    (r.handle link.noting id t).1.world.2.inTurn = r.world.2.inTurn := by
  rw [handle]
  split
  · rfl
  · dsimp only
    split
    · exact answerDelete_inTurn link id t.tcid _ r
    · exact answerRequest_inTurn link t.tcid _
    · exact congrArg (fun w : ω × Notes => w.2.inTurn) (report_world ..)

theorem handleAll_inTurn (ts : List Tpdu) (error : Option CiError) (r : SlotRun (ω × Notes)) :
    (handleAll link.noting id ts r error).1.world.2.inTurn = r.world.2.inTurn := by
  induction ts generalizing r error with
  | nil => rfl
  | cons t ts ih =>
    rw [handleAll, ih]
    exact handle_inTurn link id t r

theorem receiveWithin_inTurn (fuel : Nat) (error : Option CiError) (r : SlotRun (ω × Notes)) :
    (receiveWithin link.noting id fuel r error).1.world.2.inTurn = r.world.2.inTurn := by
  induction fuel generalizing r error with
  | zero => rfl
  | succ fuel ih =>
    have hkeeps : (link.noting.read r.slot.device r.slot.number r.slot.config.room r.world).2.2 =
        r.world.2 := rfl
    rw [receiveWithin, ← hkeeps]
    generalize link.noting.read r.slot.device r.slot.number _ r.world = answer
    obtain ⟨text | _ | response, world⟩ := answer
    · rfl
    · rfl
    · dsimp only
      split
      · rfl
      · cases Tpdu.readResponse response with
        | error e => rfl
        | ok units => exact (ih _ _).trans (handleAll_inTurn link id units error _)

/-- What is received makes nothing go out but answers. -/
theorem receive_noted (r : SlotRun (ω × Notes)) :
    Noted r.world (takesAll link.noting (r.meetings link.noting id))
      (r.receive link.noting id).1.world :=
  .of_silent (takesAll_silent link.noting _) (receiveWithin_inTurn link id _ none r)

/-! ### Sending -/

theorem sendFrom_noted (count : Nat) (tcid : UInt8) (error : Option CiError)
    (r : SlotRun (ω × Notes)) :
    Noted r.world (turnsFrom link.noting id now count tcid r)
      (sendFrom link.noting id now count tcid r error).1.world := by
  induction count generalizing tcid r error with
  | zero => exact .refl _
  | succ count ih =>
    rw [sendFrom, turnsFrom]
    cases hc : r.slot.connection? tcid with
    | none => exact .refl _
    | some c =>
      dsimp only
      cases hduty : c.duty r.slot.config tcid now with
      | nothing => exact ih ..
      | timedOut =>
        have hgone : Noted r.world [⟨id, tcid, .timedOut, c.farewell, .idle⟩]
            ((r.put tcid .idle).report id tcid c.farewell).world := by
          rw [report_world]
          exact .of_silent (List.forall_mem_singleton.mpr rfl) rfl
        exact hgone.trans (ih ..)
      | send unit left =>
        have hwrite := write_notes link tcid unit (r.put tcid left)
        dsimp only
        generalize (r.put tcid left).write link.noting tcid unit = written at hwrite ⊢
        obtain ⟨w, _ | e⟩ := written
        · have hsent : Noted r.world [⟨id, tcid, .sent c.reason unit true, none, left.sent now⟩]
              (w.put tcid (left.sent now)).world := by
            constructor
            intro proper
            have hproper : isAnswer unit = false := proper _ (List.mem_singleton_self _) _ rfl
            change w.world.2.inTurn = _
            rw [hwrite, if_pos rfl, Notes.inTurn, List.filter_append]
            congr 1
            simp [hproper, Entry.note, Moment.unitOut]
          exact hsent.trans (ih ..)
        · refine .of_silent (List.forall_mem_singleton.mpr rfl) ?_
          exact congrArg Notes.inTurn hwrite

/-! ### Polls -/

theorem exchange_noted (r : SlotRun (ω × Notes)) :
    Noted r.world (r.exchanges link.noting id now) (r.exchange link.noting id now).1.world := by
  have hreceive := receive_noted link id r
  rw [exchange, exchanges]
  generalize r.receive link.noting id = received at hreceive ⊢
  obtain ⟨r', _ | e⟩ := received
  · exact hreceive.trans (sendFrom_noted ..)
  · dsimp only
    rw [List.append_nil]
    exact hreceive

theorem greet_noted (r : SlotRun (ω × Notes)) :
    Noted r.world [] (r.greet link.noting).1.world := by
  have hkeeps : (link.noting.reset r.slot.device r.slot.number r.world).2.2 = r.world.2 := rfl
  apply Noted.of_silent (List.forall_mem_nil _)
  rw [greet, ← hkeeps]
  generalize link.noting.reset r.slot.device r.slot.number r.world = answer
  obtain ⟨text | _, world⟩ := answer <;> rfl

theorem start_noted (r : SlotRun (ω × Notes)) :
    Noted r.world (r.starts link.noting id now) (r.start link.noting id now).1.world := by
  have hkeeps : (link.noting.linkType r.slot.device r.slot.number r.world).2.2 = r.world.2 := rfl
  rw [start, starts]
  generalize link.noting.linkType r.slot.device r.slot.number r.world = answer at hkeeps ⊢
  obtain ⟨text | _ | _, world⟩ := answer
  · exact .of_same hkeeps
  · dsimp only
    have hready : Noted r.world [] world := .of_same hkeeps
    cases hbegin : ({ r.slot with state := .ready } : Slot).begin? with
    | none => exact hready
    | some begun =>
      have hbegun : Noted world (Slot.begins id { r.slot with state := .ready }) world :=
        .of_silent (Slot.note_begins id _) rfl
      exact hready.trans (hbegun.trans
        (exchange_noted link id now { r with world := world, slot := begun.2 }))
  · exact .of_same hkeeps

theorem poll_noted (r : SlotRun (ω × Notes)) :
    Noted r.world (r.polls link.noting id now) (r.poll link.noting id now).1.world := by
  have hkeeps : (link.noting.status r.slot.device r.slot.number r.world).2.2 = r.world.2 := rfl
  rw [poll, polls]
  generalize link.noting.status r.slot.device r.slot.number r.world = answer at hkeeps ⊢
  obtain ⟨text | status, world⟩ := answer
  · exact .of_same hkeeps
  · dsimp only
    let served : SlotRun (ω × Notes) := { r with world := world }
    have hstatus : Noted r.world [] served.world := .of_same hkeeps
    cases hstate : r.slot.state <;> cases status
    case empty.missing => exact hstatus
    case empty.initialising | empty.ready => exact hstatus.trans (greet_noted link served)
    case starting.missing | ready.missing | unsupported.missing =>
      exact hstatus.trans (.of_silent (Slot.note_endsFrom id 1 _) rfl)
    case starting.ready => exact hstatus.trans (start_noted link id now served)
    case ready.initialising | ready.ready =>
      exact hstatus.trans (exchange_noted link id now served)
    case starting.initialising | unsupported.initialising | unsupported.ready => exact hstatus

end SlotRun

/-! ## Runs -/

namespace TransportLayer

variable (link : Link ω) (now : Nat)

theorem pollFrom_noted (id : Nat) (slots : List (Option Slot)) (s : Sweep (ω × Notes)) :
    Noted s.world (sweeps link.noting now id slots s)
      (pollFrom link.noting now id slots s).2.world := by
  induction slots generalizing id s with
  | nil => exact .refl _
  | cons slot slots ih =>
    cases slot with
    | none => exact ih (id + 1) s
    | some slot =>
      have hpoll := SlotRun.poll_noted link id now ⟨slot, s.events, s.world⟩
      have hworld : (pollSlot link.noting now id slot s).2.world =
          (SlotRun.poll link.noting id now ⟨slot, s.events, s.world⟩).1.world := by
        rw [pollSlot]
        split <;> next h => rw [h]
      rw [← hworld] at hpoll
      exact hpoll.trans (ih (id + 1) _)

end TransportLayer

namespace TransportRun

variable (link : Link ω)

theorem settle_world {α : Type} (outcome : Except CiError α) (layer : α → TransportLayer)
    (r : TransportRun ω) : (r.settle outcome layer).world = r.world := by
  cases outcome <;> rfl

theorem note_granted {α : Type} (slot : Nat) (tcid : UInt8) {happening : Happening}
    (outcome : Except CiError α) (layer : α → TransportLayer)
    (silent : ∀ notice after, Moment.unitOut ⟨happening, notice, after⟩ = none) :
    ∀ e ∈ granted slot tcid happening outcome layer, e.note = none := by
  cases outcome with
  | error e => exact List.forall_mem_nil _
  | ok a =>
    intro e he
    rw [List.mem_singleton.mp he, Entry.note, silent]
    rfl

/-- Only polls reach the devices, and only what goes out in polls goes out. -/
theorem perform_noted (r : TransportRun (ω × Notes)) (request : Request) :
    Noted r.world (r.happens link.noting request) (r.perform link.noting request).world := by
  cases request with
  | poll now =>
    exact pollFrom_noted link now 0 r.layer.slots ⟨r.layer.events, r.world, r.layer.lastError⟩
  | register device number config =>
    rw [perform, settle_world]
    exact .refl _
  | destroySlot slot =>
    rw [perform, settle_world, happens]
    split
    · exact .refl _
    · exact .of_silent (Slot.note_endsFrom slot 1 _) rfl
  | newConnection slot =>
    rw [perform, settle_world, happens]
    split
    · exact .of_silent (List.forall_mem_singleton.mpr rfl) rfl
    · exact .refl _
  | deleteConnection slot tcid =>
    rw [perform, settle_world]
    exact .of_silent (note_granted slot tcid _ _ fun _ _ => rfl) rfl
  | sendData slot tcid data =>
    rw [perform, settle_world]
    exact .of_silent (note_granted slot tcid _ _ fun _ _ => rfl) rfl

theorem after_noted (requests : List Request) (r : TransportRun (ω × Notes)) :
    Noted r.world (history link.noting requests r)
      (TransportRun.after link.noting requests r).world := by
  induction requests generalizing r with
  | nil => exact .refl _
  | cons request requests ih => exact (perform_noted link r request).trans (ih _)

/-- What the devices have written in a run, but for answers, is what goes out in its history. -/
theorem inTurn_eq_history (maxSlots maxConnections : Nat) (world : ω) (requests : List Request) :
    (TransportRun.after link.noting requests
      (start maxSlots maxConnections (world, []))).world.2.inTurn =
    (history link.noting requests (start maxSlots maxConnections (world, []))).filterMap
      Entry.note := by
  apply (after_noted link requests (start maxSlots maxConnections (world, []))).inTurn_eq
  intro e he p hp
  obtain ⟨unit, hunit, rfl⟩ := Option.map_eq_some_iff.mp hp
  have life := lifeOf_life link.noting maxSlots maxConnections (world, []) requests e.slot e.tcid
  exact life.unitOut_noAnswer e.moment
    (List.mem_filterMap.mpr ⟨e, he, if_pos ⟨rfl, rfl⟩⟩) unit hunit

end TransportRun

end DvbHost.Ci
