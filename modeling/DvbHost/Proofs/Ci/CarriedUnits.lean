import DvbHost.Proofs.Ci.SessionTraffic

/-!
# What a carrier takes

The traffic of a run says which units go out. The carrier is the judge of that: let it write down
all that it takes, and what it has taken of any activity is what goes out in the traffic of that
activity, octet by octet and in the same order.
-/

namespace DvbHost.Ci

set_option autoImplicit false

variable {τ η : Type}

/-- What a carrier has taken. -/
abbrev Taken := List (Nat × UInt8 × Bytes)

/-- The same carrier; what it takes is written down. -/
def Carrier.logged (carrier : Carrier τ) : Carrier (τ × Taken) where
  send slot tcid data t :=
    (carrier.send slot tcid data t.1).map fun t' => (t', t.2 ++ [(slot, tcid, data)])

/-- The octets that go out. -/
def Traffic.taken : Traffic → Option (Nat × UInt8 × Bytes)
  | .sent slot tcid unit _ => some (slot, tcid, unit.toBytes)
  | _ => none

/-- Between two states of a layer the carrier has taken what goes out, and nothing else. -/
structure Carried (l : SessionLayer (τ × Taken)) (es : List Traffic)
    (l' : SessionLayer (τ × Taken)) : Prop where
  taken_eq : l'.transport.2 = l.transport.2 ++ es.filterMap Traffic.taken

namespace Carried

variable {l l' l'' : SessionLayer (τ × Taken)} {es es' : List Traffic} {e : Traffic}

theorem of_same (h : l'.transport = l.transport) : Carried l [] l' :=
  ⟨by rw [h]; exact (List.append_nil _).symm⟩

theorem trans (h : Carried l es l') (h' : Carried l' es' l'') : Carried l (es ++ es') l'' := by
  constructor
  rw [h'.taken_eq, h.taken_eq, List.filterMap_append, List.append_assoc]

/-- Something happens that is not sent. -/
theorem cons (silent : e.taken = none) (h : Carried l es l') : Carried l (e :: es) l' := by
  constructor
  rw [List.filterMap_cons_none silent]
  exact h.taken_eq

/-- The table may change along with it. -/
theorem withTable (h : Carried l es l') (table : SessionTable) :
    Carried l es { l' with table := table } := ⟨h.taken_eq⟩

end Carried

namespace SessionLayer

variable {carrier : Carrier τ} {l l' : SessionLayer (τ × Taken)}

/-- A unit that was sent was taken. -/
theorem send_carried {slot : Nat} {tcid : UInt8} {unit : Spdu} (table : SessionTable)
    (h : l.send carrier.logged slot tcid unit = .ok l') :
    Carried l [.sent slot tcid unit table] l' := by
  obtain ⟨t, ht, rfl⟩ := Outcome.ok_of_map h
  obtain ⟨t', -, rfl⟩ := Outcome.ok_of_map ht
  exact ⟨rfl⟩

theorem create_carried {slot : Nat} {tcid : UInt8} {resource : ResourceId} {id : SessionId}
    (h : l.create carrier.logged slot tcid resource = .ok (id, l')) :
    Carried l [.sent slot tcid (.createSession resource id.number) l.table] l' := by
  rw [create] at h
  obtain ⟨number, -, h⟩ := Outcome.ok_of_bind h
  obtain ⟨l₁, hs, h⟩ := Outcome.ok_of_bind h
  obtain ⟨rfl, rfl⟩ := Prod.mk.inj (Except.ok.inj h)
  exact (send_carried l.table hs).withTable _

theorem destroy_carried {id : SessionId} (h : l.destroy carrier.logged id = .ok l') :
    Carried l [.sent id.slot id.tcid (.closeSessionRequest id.number) l.table] l' := by
  rw [destroy] at h
  obtain ⟨-, h⟩ := Outcome.ok_of_check h
  obtain ⟨l₁, hs, h⟩ := Outcome.ok_of_bind h
  obtain rfl := Except.ok.inj h
  exact (send_carried l.table hs).withTable _

theorem apdu_carried {id : SessionId} {apdu : Bytes}
    (h : l.sendApdu carrier.logged id apdu = .ok l') :
    Carried l (l.apduTraffic carrier.logged id apdu) l' := by
  rw [apduTraffic, h]
  exact send_carried l.table (Outcome.ok_of_check h).2

theorem each_carried (apdu : Bytes) (ids : List SessionId) (result : Except CiError Nat)
    (l : SessionLayer (τ × Taken)) :
    Carried l (eachTraffic carrier.logged apdu ids l)
      (sendEach carrier.logged apdu ids result l).2 := by
  induction ids generalizing result l with
  | nil => exact .of_same rfl
  | cons id ids ih =>
    rw [eachTraffic, sendEach]
    cases hl : l.sendApdu carrier.logged id apdu with
    | ok l' => exact (apdu_carried hl).trans (ih _ l')
    | error e =>
      rw [apduTraffic, hl]
      exact ih _ l

end SessionLayer

namespace Dialogue

variable (carrier : Carrier τ) (h : Handler η) {d : Dialogue (τ × Taken) η}

theorem sending_carried (slot : Nat) (tcid : UInt8) (unit : Spdu)
    {next : Dialogue (τ × Taken) η → Dialogue (τ × Taken) η}
    (hnext : ∀ d, (next d).layer.transport = d.layer.transport) :
    Carried d.layer (d.layer.sends carrier.logged slot tcid unit)
      (d.sending carrier.logged slot tcid unit next).1.layer := by
  rw [SessionLayer.sends, sending]
  cases hs : d.layer.send carrier.logged slot tcid unit with
  | error e => exact .of_same rfl
  | ok l =>
    have hsent := SessionLayer.send_carried d.layer.table hs
    constructor
    rw [← hsent.taken_eq]
    exact congrArg Prod.snd (hnext _)

theorem openRequest_carried (slot : Nat) (tcid : UInt8) (requested : ResourceId) :
    Carried d.layer (d.openTraffic carrier.logged h slot tcid requested)
      (d.openRequest carrier.logged h slot tcid requested).1.layer := by
  obtain ⟨hlayer, -⟩ := offer_cases h d slot tcid requested
  rw [openTraffic, openRequest]
  generalize d.offer h slot tcid requested = offered at hlayer ⊢
  obtain ⟨status | ⟨resource, number⟩, d'⟩ := offered
  all_goals
    rw [← hlayer]
    exact .cons rfl (sending_carried carrier slot tcid _ fun _ => rfl)

theorem closeRequest_carried (id : SessionId) :
    Carried d.layer (d.closeTraffic carrier.logged id)
      (d.closeRequest carrier.logged h id).1.layer := by
  rw [closeTraffic, closeRequest]
  cases d.layer.table.get? id with
  | none => exact sending_carried carrier id.slot id.tcid _ fun _ => rfl
  | some s =>
    dsimp only
    have hlayer : ((if s.isOpen = true then d.tell h (.closed id s.resource) else d).withTable
        (·.remove id)).layer = (d.withTable (·.remove id)).layer := by split <;> rfl
    rw [← hlayer]
    generalize (if s.isOpen = true then d.tell h (.closed id s.resource) else d).withTable
      (·.remove id) = gone at hlayer ⊢
    have htransport : gone.layer.transport = d.layer.transport := by
      rw [hlayer]
      rfl
    exact (Carried.of_same htransport).trans
      (sending_carried carrier id.slot id.tcid _ fun _ => rfl)

theorem receive_carried (slot : Nat) (tcid : UInt8) (unit : Spdu) :
    Carried d.layer (d.receiveTraffic carrier.logged h slot tcid unit)
      (d.receive carrier.logged h slot tcid unit).1.layer := by
  cases unit with
  | openSessionRequest requested =>
    exact .cons rfl (openRequest_carried carrier h slot tcid requested)
  | closeSessionRequest number => exact .cons rfl (closeRequest_carried carrier h _)
  | sessionNumber number body =>
    refine .cons rfl (.of_same ?_)
    change (d.receiveData h ⟨slot, tcid, number⟩ body).1.layer.transport = _
    rw [receiveData]
    split <;> rfl
  | createSessionResponse status resource number =>
    refine .cons rfl (.of_same ?_)
    change (d.createResponse h ⟨slot, tcid, number⟩ resource status).1.layer.transport = _
    rw [createResponse]
    split <;> rfl
  | closeSessionResponse status number =>
    refine .cons rfl (.of_same ?_)
    change (d.closeResponse h ⟨slot, tcid, number⟩).1.layer.transport = _
    rw [closeResponse]
    split
    · rfl
    · split <;> rfl
  | openSessionResponse status resource number => exact .cons rfl (.of_same rfl)
  | createSession resource number => exact .cons rfl (.of_same rfl)

theorem process_carried (e : TransportEvent) :
    Carried d.layer (d.processTraffic carrier.logged h e)
      (d.process carrier.logged h e).1.layer := by
  cases e with
  | connection slot tcid notice =>
    cases notice with
    | opened => exact .of_same rfl
    | data data =>
      rw [processTraffic, process]
      cases Spdu.read data with
      | error e => exact .of_same rfl
      | ok unit => exact receive_carried carrier h slot tcid unit
    | closed => exact .cons rfl (.of_same (by rw [process, layer_of_closeConnection]))
  | slotClosed slot =>
    have hall : ∀ (tcids : List UInt8) (d : Dialogue (τ × Taken) η),
        (tcids.foldl (closeConnection h slot) d).layer.transport = d.layer.transport := by
      intro tcids
      induction tcids with
      | nil => exact fun d => rfl
      | cons tcid tcids ih =>
        intro d
        rw [List.foldl_cons, ih, layer_of_closeConnection]
    exact .cons rfl (.of_same (hall _ d))

theorem events_carried (events : List TransportEvent) (error : Option CiError) :
    Carried d.layer (d.eventsTraffic carrier.logged h events)
      (processAll carrier.logged h events d error).1.layer := by
  induction events generalizing d error with
  | nil => exact .of_same rfl
  | cons e events ih =>
    have he := process_carried carrier h e (d := d)
    rw [eventsTraffic, processAll]
    generalize d.process carrier.logged h e = processed at he ⊢
    obtain ⟨d', _ | error'⟩ := processed
    · exact he.trans (ih error)
    · exact he.trans (ih (some error'))

theorem perform_carried (a : Activity) :
    Carried d.layer (a.traffic carrier.logged h d) (a.perform carrier.logged h d).layer := by
  cases a with
  | create slot tcid resource =>
    rw [Activity.traffic, Activity.perform, SessionLayer.createTraffic]
    cases hl : d.layer.create carrier.logged slot tcid resource with
    | ok p => exact SessionLayer.create_carried hl
    | error e => exact .of_same rfl
  | destroy id =>
    rw [Activity.traffic, Activity.perform, SessionLayer.destroyTraffic]
    cases hl : d.layer.destroy carrier.logged id with
    | ok l => exact SessionLayer.destroy_carried hl
    | error e => exact .of_same rfl
  | sendApdu id apdu =>
    rw [Activity.traffic, Activity.perform]
    cases hl : d.layer.sendApdu carrier.logged id apdu with
    | ok l => exact SessionLayer.apdu_carried hl
    | error e =>
      rw [SessionLayer.apduTraffic, hl]
      exact .of_same rfl
  | broadcast resource apdu => exact SessionLayer.each_carried apdu _ (.ok 0) d.layer
  | poll events => exact events_carried carrier h events none

/-- What a carrier takes on an occasion is what goes out in the traffic of the occasion. -/
theorem taken_eq_traffic (transport : τ) (activity : Activity) :
    (Occasion.perform h d ⟨carrier.logged, (transport, []), activity⟩).layer.transport.2 =
      (traffic h [⟨carrier.logged, (transport, []), activity⟩] d).filterMap Traffic.taken := by
  rw [traffic, traffic, List.append_nil]
  exact (perform_carried carrier h activity (d := { d with layer := { d.layer with
    transport := (transport, []) } })).taken_eq

end Dialogue

end DvbHost.Ci
