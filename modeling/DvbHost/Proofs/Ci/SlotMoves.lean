import DvbHost.Proofs.Ci.ResponseTimeouts

/-!
# The moves of a slot

A poll of a slot is a row of moves of few kinds: a unit of the module is taken up, one connection
has another moment of its life, all connections end, or none of them changes. What a host asks of a
slot are such moves too. So what holds of every new slot and is kept by every move holds of a slot at
any time, and whenever it takes up a unit; it may depend on the units that were taken up before.
-/

namespace DvbHost.Ci

set_option autoImplicit false

open Connection TransportEvent

variable {ω : Type}

/-- Not a unit of the module that is taken up. -/
def Moment.Untaken (m : Moment) : Prop := ∀ t, m.happening ≠ .taken t

namespace SlotRun

variable (link : Link ω) (id now : Nat)

/-- A move of a slot at work, with the units that it takes up. -/
inductive Move (r : SlotRun ω) : List (Meeting ω) → SlotRun ω → Prop
  /-- The connections stay as they are; the device may have been at work. -/
  | still {r' : SlotRun ω} (connections : r'.slot.connections = r.slot.connections)
      (config : r'.slot.config = r.slot.config) (events : r'.events = r.events) : Move r [] r'
  | changed {r' : SlotRun ω} {tcid : UInt8} {c : Connection} {m : Moment}
      (found : r.slot.connection? tcid = some c) (step : Step tcid c m) (untaken : m.Untaken)
      (slot : r'.slot = r.slot.put tcid m.after)
      (events : r'.events.toList = r.events.toList ++ m.notice.toList.map (connection id tcid)) :
      Move r [] r'
  | cleared : Move r [] (r.clear id)
  | taken (t : Tpdu) : Move r [⟨id, r, t⟩] (r.handle link id t).1

/-- Moves in a row. -/
inductive Moves : SlotRun ω → List (Meeting ω) → SlotRun ω → Prop
  | refl (r : SlotRun ω) : Moves r [] r
  | cons {r r' r'' : SlotRun ω} {ms ms' : List (Meeting ω)} (move : Move link id r ms r')
      (rest : Moves r' ms' r'') : Moves r (ms ++ ms') r''

variable {link id} {r r' r'' : SlotRun ω} {ms ms' : List (Meeting ω)}

theorem Move.length_eq (h : Move link id r ms r') (fits : r.slot.Fits) :
    r'.slot.connections.length = r.slot.connections.length := by
  cases h with
  | still connections config events => rw [connections]
  | changed found step untaken slot events => rw [slot, Slot.length_put]
  | cleared => exact List.length_map ..
  | taken t => exact (handle_records link id t fits).length_eq

theorem Move.fits (h : Move link id r ms r') (fits : r.slot.Fits) : r'.slot.Fits := by
  rw [Slot.Fits, h.length_eq fits]
  exact fits

theorem Move.slot_of_mem (h : Move link id r ms r') : ∀ m ∈ ms, m.slot = id := by
  cases h with
  | taken t => exact slot_of_mem_singleton id r t
  | _ => exact List.forall_mem_nil _

/-- A connection is begun, if one is idle. -/
theorem Move.begun {tcid : UInt8} {slot : Slot} (fits : r.slot.Fits)
    (hbegin : r.slot.begin? = some (tcid, slot)) : Move link id r [] { r with slot := slot } := by
  obtain ⟨c, hc, hidle, rfl⟩ := Slot.of_begin? fits hbegin
  exact .changed hc (.begun hidle) (by rintro _ ⟨⟩) rfl (List.append_nil _).symm

namespace Moves

theorem one (move : Move link id r ms r') : Moves link id r ms r' := by
  rw [← List.append_nil ms]
  exact .cons move (.refl r')

theorem trans (h : Moves link id r ms r') (h' : Moves link id r' ms' r'') :
    Moves link id r (ms ++ ms') r'' := by
  induction h with
  | refl r => exact h'
  | cons move _ ih =>
    rw [List.append_assoc]
    exact .cons move (ih h')

theorem still (connections : r'.slot.connections = r.slot.connections)
    (config : r'.slot.config = r.slot.config) (events : r'.events = r.events) :
    Moves link id r [] r' := one (.still connections config events)

theorem fits (h : Moves link id r ms r') (fits : r.slot.Fits) : r'.slot.Fits := by
  induction h with
  | refl r => exact fits
  | cons move _ ih => exact ih (move.fits fits)

theorem slot_of_mem (h : Moves link id r ms r') : ∀ m ∈ ms, m.slot = id := by
  induction h with
  | refl r => exact List.forall_mem_nil _
  | cons move _ ih =>
    intro m hm
    rcases List.mem_append.mp hm with hm | hm
    · exact move.slot_of_mem m hm
    · exact ih m hm

end Moves

/-! ## Polls are made of moves -/

variable (link id)

theorem handleAll_moves (ts : List Tpdu) (error : Option CiError) (r : SlotRun ω) :
    Moves link id r (meetingsIn link id ts r) (handleAll link id ts r error).1 := by
  induction ts generalizing r error with
  | nil => exact .refl r
  | cons t ts ih =>
    rw [handleAll, meetingsIn, ← List.singleton_append]
    exact .cons (.taken t) (ih ..)

theorem receiveWithin_moves (fuel : Nat) (error : Option CiError) (r : SlotRun ω) :
    Moves link id r (meetingsWithin link id fuel r) (receiveWithin link id fuel r error).1 := by
  induction fuel generalizing r error with
  | zero => exact .refl r
  | succ fuel ih =>
    rw [receiveWithin, meetingsWithin]
    rcases link.read r.slot.device r.slot.number r.slot.config.room r.world with
      ⟨text | _ | response, world⟩
    · exact .still rfl rfl rfl
    · exact .still rfl rfl rfl
    · dsimp only
      have hread : Moves link id r [] { r with world := world } := .still rfl rfl rfl
      split
      · exact hread
      · cases Tpdu.readResponse response with
        | error e => exact hread
        | ok units =>
          dsimp only
          rw [handleAll_fst link id units _ none error]
          exact hread.trans ((handleAll_moves link id units error _).trans (ih ..))

theorem receive_moves (r : SlotRun ω) :
    Moves link id r (r.meetings link id) (r.receive link id).1 :=
  receiveWithin_moves link id _ none r

theorem sendFrom_moves (count : Nat) (tcid : UInt8) (error : Option CiError) (r : SlotRun ω) :
    Moves link id r [] (sendFrom link id now count tcid r error).1 := by
  induction count generalizing tcid r error with
  | zero => exact .refl r
  | succ count ih =>
    rw [sendFrom]
    cases hc : r.slot.connection? tcid with
    | none => exact .refl r
    | some c =>
      dsimp only
      cases hduty : c.duty r.slot.config tcid now with
      | nothing => exact ih ..
      | timedOut =>
        have hgone : Move link id r [] ((r.put tcid .idle).report id tcid c.farewell) :=
          .changed hc (.timedOut hduty) (by rintro _ ⟨⟩) (report_slot ..) (report_events ..)
        exact .cons hgone (ih ..)
      | send unit left =>
        have hslot := write_slot link tcid unit (r.put tcid left)
        have hevents := write_events link tcid unit (r.put tcid left)
        dsimp only
        generalize (r.put tcid left).write link tcid unit = written at hslot hevents ⊢
        obtain ⟨w, _ | e⟩ := written
        · have hsent : Move link id r [] (w.put tcid (left.sent now)) := by
            refine .changed hc (.sent hduty) (by rintro _ ⟨⟩) ?_ ?_
            · change w.slot.put tcid _ = _
              rw [hslot]
              exact Slot.put_put
            · exact (congrArg Queue.toList hevents).trans (List.append_nil _).symm
          exact .cons hsent (ih ..)
        · refine .one (.changed hc (.failed hduty) (by rintro _ ⟨⟩) hslot ?_)
          exact (congrArg Queue.toList hevents).trans (List.append_nil _).symm

theorem exchange_moves (r : SlotRun ω) :
    Moves link id r (r.meetings link id) (r.exchange link id now).1 := by
  have hreceive := receive_moves link id r
  rw [exchange]
  generalize r.receive link id = received at hreceive ⊢
  obtain ⟨r', _ | e⟩ := received
  · rw [← List.append_nil (r.meetings link id)]
    exact hreceive.trans (sendFrom_moves ..)
  · exact hreceive

theorem greet_moves (r : SlotRun ω) : Moves link id r [] (r.greet link).1 := by
  rw [greet]
  split <;> exact .still rfl rfl rfl

theorem start_moves {r : SlotRun ω} (fits : r.slot.Fits) :
    Moves link id r (r.startMeetings link id) (r.start link id now).1 := by
  rw [start, startMeetings]
  rcases link.linkType r.slot.device r.slot.number r.world with ⟨text | _ | _, world⟩
  · exact .still rfl rfl rfl
  · dsimp only
    let ready : SlotRun ω := { r with world := world, slot := { r.slot with state := .ready } }
    have hready : Moves link id r [] ready := .still rfl rfl rfl
    cases hbegin : ({ r.slot with state := .ready } : Slot).begin? with
    | none => exact hready
    | some begun =>
      obtain ⟨tcid, slot⟩ := begun
      have hbegun : Move link id ready [] { ready with slot := slot } :=
        .begun (hready.fits fits) hbegin
      exact hready.trans (.cons hbegun (exchange_moves link id now _))
  · exact .still rfl rfl rfl

theorem poll_moves {r : SlotRun ω} (fits : r.slot.Fits) :
    Moves link id r (r.pollMeetings link id) (r.poll link id now).1 := by
  rw [poll, pollMeetings]
  rcases link.status r.slot.device r.slot.number r.world with ⟨text | status, world⟩
  · exact .still rfl rfl rfl
  · dsimp only
    have hstatus : Moves link id r [] { r with world := world } := .still rfl rfl rfl
    cases hstate : r.slot.state <;> cases status
    case empty.missing => exact hstatus
    case empty.initialising | empty.ready => exact hstatus.trans (greet_moves link id _)
    case starting.missing | ready.missing | unsupported.missing =>
      exact hstatus.trans (.one .cleared)
    case starting.ready => exact hstatus.trans (start_moves link id now (hstatus.fits fits))
    case ready.initialising | ready.ready => exact hstatus.trans (exchange_moves link id now _)
    case starting.initialising | unsupported.initialising | unsupported.ready => exact hstatus

end SlotRun

/-! ## What every move keeps -/

/-- The units that the slot with an index takes up. -/
def metBy (id : Nat) (ms : List (Meeting ω)) : List (Meeting ω) := ms.filter fun m => m.slot == id

theorem metBy_append (id : Nat) (ms ms' : List (Meeting ω)) :
    metBy id (ms ++ ms') = metBy id ms ++ metBy id ms' := List.filter_append ..

theorem metBy_eq_self {id : Nat} {ms : List (Meeting ω)} (h : ∀ m ∈ ms, m.slot = id) :
    metBy id ms = ms := List.filter_eq_self.mpr fun m hm => beq_iff_eq.mpr (h m hm)

theorem metBy_eq_nil {id : Nat} {ms : List (Meeting ω)} (h : ∀ m ∈ ms, m.slot ≠ id) :
    metBy id ms = [] :=
  List.filter_eq_nil_iff.mpr fun m hm => mt beq_iff_eq.mp (h m hm)

/-- What holds of a slot with an index after the units it has taken up, whatever it does. -/
structure SlotInvariant (link : Link ω) (id : Nat) (I : List (Meeting ω) → Slot → Prop) : Prop where
  new : ∀ before device number config n, n < 256 → I before (.new device number config n)
  move : ∀ {before r ms r'}, r.slot.Fits → SlotRun.Move link id r ms r' → I before r.slot →
    I (before ++ ms) r'.slot

/-- Each of some units finds a slot of which `I` holds, after the units before it. -/
def MetWith (I : List (Meeting ω) → Slot → Prop) : (before ms : List (Meeting ω)) → Prop
  | _, [] => True
  | before, m :: ms => (m.run.slot.Fits ∧ I before m.run.slot) ∧ MetWith I (before ++ [m]) ms

namespace MetWith

variable {I : List (Meeting ω) → Slot → Prop} {before ms ms' : List (Meeting ω)}

theorem append (h : MetWith I before ms) (h' : MetWith I (before ++ ms) ms') :
    MetWith I before (ms ++ ms') := by
  induction ms generalizing before with
  | nil => rwa [List.append_nil] at h'
  | cons m ms ih =>
    rw [List.append_cons] at h'
    exact ⟨h.1, ih h.2 h'⟩

theorem at_split {m : Meeting ω} (h : MetWith I before (ms ++ m :: ms')) :
    m.run.slot.Fits ∧ I (before ++ ms) m.run.slot := by
  induction ms generalizing before with
  | nil =>
    rw [List.append_nil]
    exact h.1
  | cons m' ms ih =>
    rw [List.append_cons]
    exact ih h.2

end MetWith

namespace SlotInvariant

open TransportLayer SlotRun

variable {link : Link ω} {id : Nat} {I : List (Meeting ω) → Slot → Prop}
  {before ms : List (Meeting ω)}

theorem of_moves (inv : SlotInvariant link id I) {r r' : SlotRun ω} (moves : Moves link id r ms r')
    (fits : r.slot.Fits) (start : I before r.slot) :
    I (before ++ ms) r'.slot ∧ MetWith I before ms := by
  induction moves generalizing before with
  | refl r =>
    rw [List.append_nil]
    exact ⟨start, trivial⟩
  | cons move _ ih =>
    have hmove := inv.move fits move start
    obtain ⟨hrest, hmet⟩ := ih (move.fits fits) hmove
    rw [← List.append_assoc]
    refine ⟨hrest, .append ?_ hmet⟩
    cases move with
    | taken t => exact ⟨⟨fits, start⟩, trivial⟩
    | _ => trivial

/-! ## Sweeps and requests -/

/-- In a sweep over slots, the one with the index is the only one that the invariant is about. -/
theorem of_sweep {base i : Nat} (inv : SlotInvariant link id I) (hid : id = base + i) (now : Nat)
    {slots : List (Option Slot)} (s : Sweep ω) (fit : AllFit slots)
    (start : ∀ s, slots[i]?.join = some s → I before s) :
    (∀ s', (pollFrom link now base slots s).1[i]?.join = some s' →
      I (before ++ metBy id (meetingsFrom link now base slots s)) s') ∧
    MetWith I before (metBy id (meetingsFrom link now base slots s)) := by
  induction slots generalizing base i s with
  | nil => exact ⟨by rintro _ ⟨⟩, trivial⟩
  | cons slot slots ih =>
    have hrest : AllFit slots := fun s hs => fit s (List.mem_cons_of_mem _ hs)
    cases slot with
    | none =>
      rw [pollFrom, meetingsFrom]
      cases i with
      | zero =>
        have hnone : metBy id (meetingsFrom link now (base + 1) slots s) = [] :=
          metBy_eq_nil fun m hm => by
            have := (pollFrom_sweeps link now (base + 1) s hrest).met m hm
            omega
        rw [hnone]
        exact ⟨by rintro _ ⟨⟩, trivial⟩
      | succ i => exact ih (by omega) s hrest start
    | some slot =>
      have hslot : slot.Fits := fit slot (List.mem_cons_self ..)
      have hmoves := poll_moves link base now (r := ⟨slot, s.events, s.world⟩) hslot
      have hpolled := (pollSlot_eq link now base slot s).1
      rw [pollFrom, meetingsFrom, metBy_append]
      cases i with
      | zero =>
        obtain rfl : id = base := hid
        have hnone : metBy id (meetingsFrom link now (id + 1) slots (pollSlot link now id slot s).2) =
            [] := metBy_eq_nil fun m hm => by
          have := (pollFrom_sweeps link now (id + 1) _ hrest).met m hm
          omega
        rw [hnone, List.append_nil, metBy_eq_self hmoves.slot_of_mem]
        obtain ⟨hafter, hmet⟩ := inv.of_moves hmoves hslot (start slot rfl)
        refine ⟨?_, hmet⟩
        intro s' hs'
        obtain rfl := Option.some.inj hs'
        rw [hpolled]
        exact hafter
      | succ i =>
        have hnone : metBy id (SlotRun.pollMeetings link base ⟨slot, s.events, s.world⟩) = [] :=
          metBy_eq_nil fun m hm => by
            have := hmoves.slot_of_mem m hm
            omega
        rw [hnone, List.nil_append]
        exact ih (by omega) _ hrest start

/-- What is upheld at any time of a run. -/
structure Upheld (id : Nat) (I : List (Meeting ω) → Slot → Prop) (r : TransportRun ω) : Prop where
  few : r.layer.maxConnections ≤ 254
  fit : AllFit r.layer.slots
  now : ∀ s, r.layer.slot? id = some s → I (metBy id r.met) s
  met : MetWith I [] (metBy id r.met)

variable {r : TransportRun ω} {l : TransportLayer} {slot : Nat} {s : Slot} {tcid : UInt8}

/-- One connection of a slot changes. -/
theorem upheld_put (inv : SlotInvariant link id I) (h : Upheld id I r) {c : Connection} {m : Moment}
    (hs : r.layer.slot? slot = some s) (hc : s.connection? tcid = some c) (step : Step tcid c m)
    (untaken : m.Untaken) (silent : m.notice = none) :
    Upheld id I { r with layer := r.layer.putSlot slot (some (s.put tcid m.after)) } := by
  obtain ⟨hlt, -⟩ := List.getElem?_eq_some_iff.mp (getElem?_of_slot? hs)
  refine ⟨h.few, h.fit.putSlot hs Slot.length_put, fun s' hs' => ?_, h.met⟩
  change (r.layer.putSlot slot _).slot? id = some s' at hs'
  rw [slot?_putSlot _ hlt] at hs'
  split at hs'
  · next heq =>
    subst heq
    obtain rfl := Option.some.inj hs'
    have hmove : Move link slot ⟨s, r.layer.events, r.world⟩ []
        ⟨s.put tcid m.after, r.layer.events, r.world⟩ :=
      .changed hc step untaken rfl (by rw [silent]; exact (List.append_nil _).symm)
    have hkept := inv.move (fits_of_slot? h.fit hs) hmove (h.now s hs)
    rwa [List.append_nil] at hkept
  · exact h.now s' hs'

theorem upheld_poll (inv : SlotInvariant link id I) (h : Upheld id I r) (now : Nat) :
    Upheld id I (r.perform link (.poll now)) := by
  have hsweeps := pollFrom_sweeps link now 0 ⟨r.layer.events, r.world, r.layer.lastError⟩ h.fit
  obtain ⟨hslot, hmet⟩ := inv.of_sweep (Nat.zero_add id).symm now
    ⟨r.layer.events, r.world, r.layer.lastError⟩ h.fit h.now
  refine ⟨h.few, hsweeps.fit, fun s hs => ?_, ?_⟩
  · change I (metBy id (r.met ++ _)) s
    rw [metBy_append]
    exact hslot s hs
  · change MetWith I [] (metBy id (r.met ++ _))
    rw [metBy_append]
    exact h.met.append hmet

theorem upheld_register (inv : SlotInvariant link id I) (h : Upheld id I r) (device : Nat)
    (number : UInt8) (config : SlotConfig) :
    Upheld id I (r.perform link (.register device number config)) := by
  rw [TransportRun.perform]
  cases hl : r.layer.register device number config with
  | error e => exact h
  | ok a =>
    have hgrants := register_grants h.few h.fit hl
    refine ⟨hgrants.few ▸ h.few, hgrants.fit, fun s hs => ?_, h.met⟩
    rw [register] at hl
    split at hl
    · cases hl
    · next j hj =>
      obtain rfl := Except.ok.inj hl
      obtain ⟨hlt, -⟩ := List.findIdx?_eq_some_iff_getElem.mp hj
      change (r.layer.putSlot j _).slot? id = some s at hs
      rw [slot?_putSlot _ hlt] at hs
      split at hs
      · obtain rfl := Option.some.inj hs
        exact inv.new _ _ _ _ _ (by have := h.few; omega)
      · exact h.now s hs

theorem upheld_destroySlot (h : Upheld id I r) (slot : Nat) :
    Upheld id I (r.perform link (.destroySlot slot)) := by
  rw [TransportRun.perform]
  cases hl : r.layer.destroySlot slot with
  | error e => exact h
  | ok l =>
    have hgrants := destroySlot_grants h.fit hl
    refine ⟨hgrants.few ▸ h.few, hgrants.fit, fun s hs => ?_, h.met⟩
    rw [destroySlot] at hl
    split at hl
    · cases hl
    · next t ht =>
      obtain rfl := Except.ok.inj hl
      obtain ⟨hlt, -⟩ := List.getElem?_eq_some_iff.mp (getElem?_of_slot? ht)
      change (r.layer.putSlot slot none).slot? id = some s at hs
      rw [slot?_putSlot _ hlt] at hs
      split at hs
      · cases hs
      · exact h.now s hs

theorem upheld_perform (inv : SlotInvariant link id I) (h : Upheld id I r) (request : Request) :
    Upheld id I (r.perform link request) := by
  cases request with
  | poll now => exact inv.upheld_poll h now
  | register device number config => exact inv.upheld_register h device number config
  | destroySlot slot => exact upheld_destroySlot h slot
  | newConnection slot =>
    rw [TransportRun.perform]
    cases hl : r.layer.newConnection slot with
    | error e => exact h
    | ok a =>
      rw [newConnection] at hl
      split at hl
      · cases hl
      · next s hs =>
        split at hl
        · cases hl
        · split at hl
          · cases hl
          · next tcid s' hbegin =>
            obtain rfl := Except.ok.inj hl
            obtain ⟨c, hc, hidle, rfl⟩ := Slot.of_begin? (fits_of_slot? h.fit hs) hbegin
            exact inv.upheld_put h hs hc (.begun hidle) (by rintro _ ⟨⟩) rfl
  | deleteConnection slot tcid =>
    rw [TransportRun.perform]
    cases hl : r.layer.deleteConnection slot tcid with
    | error e => exact h
    | ok l =>
      obtain ⟨s, c, c', hs, hc, hf, rfl⟩ := update_ok hl
      obtain ⟨hactive, hf⟩ := Outcome.ok_of_check hf
      obtain rfl := Except.ok.inj hf
      exact inv.upheld_put h hs hc (.ending (Decidable.not_not.mp hactive)) (by rintro _ ⟨⟩) rfl
  | sendData slot tcid data =>
    rw [TransportRun.perform]
    cases hl : r.layer.sendData slot tcid data with
    | error e => exact h
    | ok l =>
      obtain ⟨s, c, c', hs, hc, hf, rfl⟩ := update_ok hl
      obtain ⟨hactive, hf⟩ := Outcome.ok_of_check hf
      obtain ⟨units, hunits, hf⟩ := Outcome.ok_of_bind hf
      obtain rfl := Except.ok.inj hf
      exact inv.upheld_put h hs hc (.queued (Decidable.not_not.mp hactive) hunits)
        (by rintro _ ⟨⟩) rfl

/-- It holds of the slot after any run, and whenever the slot has taken up a unit. -/
theorem upheld (inv : SlotInvariant link id I) (maxSlots maxConnections : Nat) (world : ω)
    (requests : List Request) :
    Upheld id I (TransportRun.after link requests
      (TransportRun.start maxSlots maxConnections world)) := by
  have hstart : Upheld id I (TransportRun.start maxSlots maxConnections world) := by
    have haccounted := TransportRun.start_accounted link maxSlots maxConnections world
    refine ⟨haccounted.few, haccounted.fit, fun s hs => ?_, trivial⟩
    cases List.eq_of_mem_replicate (List.mem_of_getElem? (getElem?_of_slot? hs))
  generalize TransportRun.start maxSlots maxConnections world = r at hstart ⊢
  induction requests generalizing r with
  | nil => exact hstart
  | cons request requests ih => exact ih _ (inv.upheld_perform hstart request)

end SlotInvariant

end DvbHost.Ci
