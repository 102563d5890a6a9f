import DvbHost.Proofs.Ci.SessionRun
import Mathlib.Data.List.Basic

/-!
# What goes over the connections of a session layer

A run is written down unit by unit: what went out, what of the module was processed, and what ended
connections. The numbers that go out for new sessions are new, and data goes out only on sessions
that were opened and that nothing has ended since. One exception is the handler's own doing: a
request that it refuses with the status of success is answered with that status and the number 0.
-/

namespace DvbHost.Ci

set_option autoImplicit false

variable {τ η : Type}

/-- What happens on the connections of a session layer. -/
inductive Traffic where
  /-- A unit went out; the table is the one at that time. -/
  | sent (slot : Nat) (tcid : UInt8) (unit : Spdu) (table : SessionTable)
  /-- A unit of the module was processed, with an error or without. -/
  | processed (slot : Nat) (tcid : UInt8) (unit : Spdu) (error : Option CiError)
  /-- The handler was asked for a resource. -/
  | asked (slot : Nat) (requested : ResourceId) (answer : Except SessionStatus ResourceId)
  /-- A connection has ended. -/
  | disconnected (slot : Nat) (tcid : UInt8)
  /-- A slot has lost its module, and all its connections have ended. -/
  | slotClosed (slot : Nat)

/-! ## Writing it down -/

namespace SessionLayer

variable (carrier : Carrier τ)

/-- A unit is sent, if the carrier takes it. -/
def sends (l : SessionLayer τ) (slot : Nat) (tcid : UInt8) (unit : Spdu) : List Traffic :=
  match l.send carrier slot tcid unit with
  | .ok _ => [.sent slot tcid unit l.table]
  | .error _ => []

/-- A session is asked for. -/
def createTraffic (l : SessionLayer τ) (slot : Nat) (tcid : UInt8) (resource : ResourceId) :
    List Traffic :=
  match l.create carrier slot tcid resource with
  | .ok (id, _) => [.sent slot tcid (.createSession resource id.number) l.table]
  | .error _ => []

/-- The end of a session is asked for. -/
def destroyTraffic (l : SessionLayer τ) (id : SessionId) : List Traffic :=
  match l.destroy carrier id with
  | .ok _ => [.sent id.slot id.tcid (.closeSessionRequest id.number) l.table]
  | .error _ => []

/-- Data is sent on a session. -/
def apduTraffic (l : SessionLayer τ) (id : SessionId) (apdu : Bytes) : List Traffic :=
  match l.sendApdu carrier id apdu with
  | .ok _ => [.sent id.slot id.tcid (.sessionNumber id.number apdu) l.table]
  | .error _ => []

/-- Data is sent on sessions in turn. -/
def eachTraffic (apdu : Bytes) : List SessionId → SessionLayer τ → List Traffic
  | [], _ => []
  | id :: ids, l =>
    l.apduTraffic carrier id apdu ++
      match l.sendApdu carrier id apdu with
      | .ok l => eachTraffic apdu ids l
      | .error _ => eachTraffic apdu ids l

/-- Data is sent on all active sessions to a resource. -/
def broadcastTraffic (l : SessionLayer τ) (resource : ResourceId) (apdu : Bytes) : List Traffic :=
  let targets := l.table.active.filter fun p => p.2.sameResource resource
  eachTraffic carrier apdu (targets.map Prod.fst) l

end SessionLayer

namespace Dialogue

variable (carrier : Carrier τ) (h : Handler η)

/-- The host answers a module's wish for a session. -/
def openTraffic (d : Dialogue τ η) (slot : Nat) (tcid : UInt8) (requested : ResourceId) :
    List Traffic :=
  .asked slot requested (h.lookup slot requested d.handler).1 ::
    match d.offer h slot tcid requested with
    | (.error status, d) =>
      d.layer.sends carrier slot tcid (.openSessionResponse status requested 0)
    | (.ok (resource, number), d) =>
      d.layer.sends carrier slot tcid (.openSessionResponse .ok resource number)

/-- The host answers the end of a session. -/
def closeTraffic (d : Dialogue τ η) (id : SessionId) : List Traffic :=
  match d.layer.table.get? id with
  | none => d.layer.sends carrier id.slot id.tcid (.closeSessionResponse .noResource id.number)
  | some _ =>
    (d.withTable (·.remove id)).layer.sends carrier id.slot id.tcid
      (.closeSessionResponse .ok id.number)

/-- A unit of the module, and the answer to it. -/
def receiveTraffic (d : Dialogue τ η) (slot : Nat) (tcid : UInt8) (unit : Spdu) : List Traffic :=
  .processed slot tcid unit (d.receive carrier h slot tcid unit).2 ::
    match unit with
    | .openSessionRequest requested => d.openTraffic carrier h slot tcid requested
    | .closeSessionRequest number => d.closeTraffic carrier ⟨slot, tcid, number⟩
    | _ => []

def processTraffic (d : Dialogue τ η) : TransportEvent → List Traffic
  | .connection _ _ .opened => []
  | .connection slot tcid (.data data) =>
    match Spdu.read data with
    | .error _ => []
    | .ok unit => d.receiveTraffic carrier h slot tcid unit
  | .connection slot tcid .closed => [.disconnected slot tcid]
  | .slotClosed slot => [.slotClosed slot]

/-- Events in turn. -/
def eventsTraffic : List TransportEvent → Dialogue τ η → List Traffic
  | [], _ => []
  | e :: es, d => d.processTraffic carrier h e ++ eventsTraffic es (d.process carrier h e).1

end Dialogue

def Activity.traffic (carrier : Carrier τ) (h : Handler η) (d : Dialogue τ η) :
    Activity → List Traffic
  | .create slot tcid resource => d.layer.createTraffic carrier slot tcid resource
  | .destroy id => d.layer.destroyTraffic carrier id
  | .sendApdu id apdu => d.layer.apduTraffic carrier id apdu
  | .broadcast resource apdu => d.layer.broadcastTraffic carrier resource apdu
  | .poll events => d.eventsTraffic carrier h events

/-- What happens on the connections in a run. -/
def Dialogue.traffic (h : Handler η) : List (Occasion τ) → Dialogue τ η → List Traffic
  | [], _ => []
  | o :: os, d =>
    o.activity.traffic o.carrier h { d with layer := { d.layer with transport := o.transport } } ++
      traffic h os (o.perform h d)

/-! ## What is said of it -/

/-- The number that a unit of the host gives to a new session. -/
def Spdu.given : Spdu → Option UInt16
  | createSession _ number => some number
  | openSessionResponse status _ number => if status.code = 0 then some number else none
  | _ => none

namespace Traffic

/-- A session is opened: the host agrees to it, or the module has agreed to it. -/
def opens (id : SessionId) : Traffic → Bool
  | sent slot tcid (.openSessionResponse .ok _ number) _ => id = ⟨slot, tcid, number⟩
  | processed slot tcid (.createSessionResponse .ok _ number) none => id = ⟨slot, tcid, number⟩
  | _ => false

/-- A session ends: one side asks for its end, or its connection is gone. -/
def ends (id : SessionId) : Traffic → Bool
  | sent slot tcid (.closeSessionRequest number) _ => id = ⟨slot, tcid, number⟩
  | processed slot tcid (.closeSessionRequest number) _ => id = ⟨slot, tcid, number⟩
  | disconnected slot tcid => id.slot = slot && id.tcid = tcid
  | slotClosed slot => id.slot = slot
  | _ => false

/-- A session was opened, and since then nothing has ended it. -/
def Live (id : SessionId) (past : List Traffic) : Prop :=
  ∃ before o since, past = before ++ o :: since ∧ o.opens id = true ∧
    ∀ e ∈ since, e.ends id = false

/-- A number that no session of the connection has, and not 0. -/
def Fresh (slot : Nat) (tcid : UInt8) (number : UInt16) (table : SessionTable) : Prop :=
  number ≠ 0 ∧ table.get? ⟨slot, tcid, number⟩ = none

/-- The handler has just refused a request with the status of success. -/
def Relayed (past : List Traffic) (slot : Nat) : Prop :=
  ∃ requested status, past.getLast? = some (asked slot requested (.error status)) ∧
    status.code = 0

/-- What is true of a thing that happens, after all that happened before it. -/
def Sound (past : List Traffic) : Traffic → Prop
  | sent slot tcid unit table =>
    (∀ number, unit.given = some number →
      Fresh slot tcid number table ∨ number = 0 ∧ Relayed past slot) ∧
    ∀ number body, unit = .sessionNumber number body → Live ⟨slot, tcid, number⟩ past
  | _ => True

end Traffic

namespace SessionTable

/-- The session is there and active. -/
def Active (t : SessionTable) (id : SessionId) : Prop :=
  ∃ s, t.get? id = some s ∧ s.phase = .active

end SessionTable

/-- All that happened was sound, and every session that is active now is live. -/
structure Orderly (past : List Traffic) (t : SessionTable) : Prop where
  sound : ∀ before e after, past = before ++ e :: after → e.Sound before
  live : ∀ id, t.Active id → Traffic.Live id past

namespace Orderly

variable {past es es' : List Traffic} {e : Traffic} {t t' t'' : SessionTable}

theorem new (maxSessions : Nat) : Orderly [] (.new maxSessions) := by
  constructor
  · intro before e after h
    cases before <;> cases h
  · rintro id ⟨s, hs, -⟩
    rw [SessionTable.get?_new] at hs
    cases hs

/-- Sessions that are active no more need not be live. -/
theorem shrink (h : Orderly past t) (active : ∀ id, t'.Active id → t.Active id) :
    Orderly past t' := ⟨h.sound, fun id hid => h.live id (active id hid)⟩

/-- One more thing happens. A session that is active after it is opened by it, or was active before
and is not ended by it. -/
theorem note (h : Orderly past t) (sound : e.Sound past)
    (active : ∀ id, t'.Active id → e.opens id = true ∨ t.Active id ∧ e.ends id = false) :
    Orderly (past ++ [e]) t' := by
  constructor
  · intro before e' after hsplit
    rcases List.eq_nil_or_concat' after with rfl | ⟨after, last, rfl⟩
    · obtain ⟨rfl, he⟩ := List.append_inj' hsplit rfl
      obtain rfl := List.singleton_inj.mp he
      exact sound
    · rw [← List.cons_append, ← List.append_assoc] at hsplit
      obtain ⟨rfl, -⟩ := List.append_inj' hsplit rfl
      exact h.sound before e' after rfl
  · intro id hid
    rcases active id hid with hopens | ⟨hactive, hends⟩
    · exact ⟨past, e, [], rfl, hopens, List.forall_mem_nil _⟩
    · obtain ⟨before, o, since, rfl, hopens, hlives⟩ := h.live id hactive
      refine ⟨before, o, since ++ [e], by rw [List.append_assoc]; rfl, hopens, ?_⟩
      intro e' he'
      rcases List.mem_append.mp he' with he' | he'
      · exact hlives e' he'
      · rw [List.mem_singleton.mp he']
        exact hends

/-- Something happens that says nothing of sessions. -/
theorem pass (h : Orderly past t) (sound : e.Sound past) (ends : ∀ id, e.ends id = false) :
    Orderly (past ++ [e]) t := h.note sound fun id hid => .inr ⟨hid, ends id⟩

end Orderly

/-! ## New numbers -/

namespace SessionTable

variable {t : SessionTable} {slot : Nat} {tcid : UInt8} {id id' : SessionId}

theorem fresh_of_allocate {number : UInt16} (h : t.allocate slot tcid = .ok number) :
    Traffic.Fresh slot tcid number t :=
  ⟨ne_zero_of_allocate t h, get?_of_allocate t h⟩

/-! ## Which sessions are active -/

theorem active_of_resourceOf (h : ¬ (t.resourceOf id).isNone = true) : t.Active id := by
  cases hr : t.resourceOf id with
  | none => exact absurd (congrArg Option.isNone hr) h
  | some resource =>
    obtain ⟨s, hs, hp, -⟩ := resourceOf_eq_some hr
    exact ⟨s, hs, hp⟩

/-- A session that is put in is the only one that becomes active, and only if it is put in so. -/
theorem active_of_insert {s : Session} (h : (t.insert id s).Active id') :
    id' = id ∧ s.phase = .active ∨ t.Active id' := by
  obtain ⟨s', hs', hp⟩ := h
  rw [get?_insert] at hs'
  split at hs'
  · next hid =>
    obtain rfl := Option.some.inj hs'
    exact .inl ⟨hid, hp⟩
  · exact .inr ⟨s', hs', hp⟩

/-- The session whose phase is set is the only one that becomes active, and only in this phase. -/
theorem active_of_setPhase {phase : SessionPhase} (h : (t.setPhase id phase).Active id') :
    id' = id ∧ phase = .active ∨ id' ≠ id ∧ t.Active id' := by
  obtain ⟨s', hs', hp⟩ := h
  rw [get?_setPhase] at hs'
  split at hs'
  · next hid =>
    obtain ⟨s, -, rfl⟩ := Option.map_eq_some_iff.mp hs'
    exact .inl ⟨hid, hp⟩
  · next hid => exact .inr ⟨hid, s', hs', hp⟩

theorem active_of_remove (h : (t.remove id).Active id') : id' ≠ id ∧ t.Active id' := by
  obtain ⟨s', hs', hp⟩ := h
  rw [get?_remove] at hs'
  split at hs'
  · cases hs'
  · next hid => exact ⟨hid, s', hs', hp⟩

theorem active_of_removeConnection (h : (t.removeConnection slot tcid).Active id) :
    ¬ (id.slot = slot ∧ id.tcid = tcid) ∧ t.Active id := by
  obtain ⟨s, hs, hp⟩ := h
  rw [get?_removeConnection] at hs
  split at hs
  · cases hs
  · next hid => exact ⟨hid, s, hs, hp⟩

/-- The connections that a slot is known to have are all that have sessions. -/
theorem mem_connectionsOf (h : t.Active id) : id.tcid ∈ t.connectionsOf id.slot := by
  obtain ⟨s, hs, -⟩ := h
  rw [connectionsOf, List.mem_mergeSort, List.mem_filterMap]
  refine ⟨(id.slot, id.tcid), ?_, if_pos rfl⟩
  rw [get?, onConnection] at hs
  cases hc : t.connections.get? (id.slot, id.tcid) with
  | none =>
    rw [hc] at hs
    cases (ConnectionSessions.sessions_empty id.number).symm.trans hs
  | some c => exact KeyedList.mem_keys_of_get? hc

end SessionTable

/-! ## Everything that happens is in order -/

namespace SessionLayer

variable (carrier : Carrier τ) {past : List Traffic} {l l' : SessionLayer τ}

theorem create_orderly {slot : Nat} {tcid : UInt8} {resource : ResourceId} {id : SessionId}
    (h : Orderly past l.table) (hl : l.create carrier slot tcid resource = .ok (id, l')) :
    Orderly (past ++ [.sent slot tcid (.createSession resource id.number) l.table]) l'.table := by
  obtain ⟨number, hfree, rfl, htable⟩ := table_of_create hl
  rw [htable]
  refine h.note ⟨?_, nofun⟩ ?_
  · intro n hn
    obtain rfl := Option.some.inj hn
    exact .inl (SessionTable.fresh_of_allocate hfree)
  · intro id hid
    rcases SessionTable.active_of_insert hid with ⟨-, hphase⟩ | hactive
    · cases hphase
    · exact .inr ⟨hactive, rfl⟩

theorem destroy_orderly {id : SessionId} (h : Orderly past l.table)
    (hl : l.destroy carrier id = .ok l') :
    Orderly (past ++ [.sent id.slot id.tcid (.closeSessionRequest id.number) l.table])
      l'.table := by
  obtain ⟨s, -, -, htable⟩ := table_of_destroy hl
  rw [htable]
  refine h.note ⟨nofun, nofun⟩ ?_
  intro id' hid'
  rcases SessionTable.active_of_setPhase hid' with ⟨-, hphase⟩ | ⟨hne, hactive⟩
  · cases hphase
  · exact .inr ⟨hactive, decide_eq_false hne⟩

/-- Data goes out on active sessions only, and these are live. -/
theorem apdu_orderly (h : Orderly past l.table) (id : SessionId) (apdu : Bytes) :
    Orderly (past ++ l.apduTraffic carrier id apdu) l.table := by
  rw [apduTraffic]
  split
  · next hl =>
    obtain ⟨hactive, -⟩ := Outcome.ok_of_check hl
    refine h.pass ⟨nofun, ?_⟩ fun _ => rfl
    intro number body hunit
    cases hunit
    exact h.live id (SessionTable.active_of_resourceOf hactive)
  · rwa [List.append_nil]

theorem each_orderly (apdu : Bytes) (ids : List SessionId) (h : Orderly past l.table) :
    Orderly (past ++ eachTraffic carrier apdu ids l) l.table := by
  induction ids generalizing past l with
  | nil =>
    rw [eachTraffic]
    rwa [List.append_nil]
  | cons id ids ih =>
    have hfirst := apdu_orderly carrier h id apdu
    rw [eachTraffic, ← List.append_assoc]
    split
    · next l' hl =>
      have htable := table_of_sendApdu hl
      rw [← htable] at hfirst ⊢
      exact ih hfirst
    · exact ih hfirst

end SessionLayer

namespace Dialogue

variable (carrier : Carrier τ) (h : Handler η) {past : List Traffic} {d : Dialogue τ η}

/-- The table is the same until the rest goes on, and the rest goes on only if the unit went out. -/
theorem sending_orderly {slot : Nat} {tcid : UInt8} {unit : Spdu}
    {next : Dialogue τ η → Dialogue τ η} (hp : Orderly past d.layer.table)
    (hnext : ∀ l : SessionLayer τ, l.table = d.layer.table →
      Orderly (past ++ [.sent slot tcid unit d.layer.table])
        (next { d with layer := l }).layer.table) :
    Orderly (past ++ d.layer.sends carrier slot tcid unit)
      (d.sending carrier slot tcid unit next).1.layer.table := by
  rw [SessionLayer.sends, sending]
  cases hs : d.layer.send carrier slot tcid unit with
  | error e =>
    dsimp only
    rwa [List.append_nil]
  | ok l => exact hnext l (SessionLayer.send_table hs)

/-- A request is refused by the handler or for want of a number; one that is not gets a free
number. -/
theorem offer_cases (d : Dialogue τ η) (slot : Nat) (tcid : UInt8) (requested : ResourceId) :
    (d.offer h slot tcid requested).2.layer = d.layer ∧
    match (d.offer h slot tcid requested).1 with
    | .error status => status = .busy ∨ (h.lookup slot requested d.handler).1 = .error status
    | .ok (_, number) => d.layer.table.allocate slot tcid = .ok number := by
  rw [offer]
  rcases h.lookup slot requested d.handler with ⟨status | resource, handler⟩
  · exact ⟨rfl, .inr rfl⟩
  · dsimp only
    cases d.layer.table.allocate slot tcid with
    | error e => exact ⟨rfl, .inl rfl⟩
    | ok number => exact ⟨rfl, rfl⟩

theorem openRequest_orderly (slot : Nat) (tcid : UInt8) (requested : ResourceId)
    (hp : Orderly past d.layer.table) :
    Orderly (past ++ d.openTraffic carrier h slot tcid requested)
      (d.openRequest carrier h slot tcid requested).1.layer.table := by
  obtain ⟨hlayer, hanswer⟩ := offer_cases h d slot tcid requested
  rw [openTraffic, openRequest, List.append_cons]
  have hasked : Orderly (past ++ [.asked slot requested (h.lookup slot requested d.handler).1])
      d.layer.table := hp.pass trivial fun _ => rfl
  generalize d.offer h slot tcid requested = offered at hlayer hanswer ⊢
  obtain ⟨status | ⟨resource, number⟩, d'⟩ := offered
  all_goals
    dsimp only at hlayer hanswer
    rw [← hlayer] at hasked
  · refine sending_orderly carrier hasked fun l hl => ?_
    change Orderly _ l.table
    rw [hl]
    refine hasked.pass ⟨?_, by rintro _ _ ⟨⟩⟩ fun _ => ?_
    · intro n hn
      rw [Spdu.given] at hn
      split at hn
      · next hcode =>
        obtain rfl := Option.some.inj hn
        rcases hanswer with rfl | hrefused
        · cases hcode
        · refine .inr ⟨rfl, requested, status, ?_, hcode⟩
          rw [List.getLast?_concat, hrefused]
      · cases hn
    · rfl
  · refine sending_orderly carrier hasked fun l hl => ?_
    change Orderly _ (l.table.insert _ _)
    rw [hl]
    rw [← hlayer] at hanswer
    refine hasked.note ⟨?_, by rintro _ _ ⟨⟩⟩ ?_
    · intro n hn
      obtain rfl := Option.some.inj hn
      exact .inl (SessionTable.fresh_of_allocate hanswer)
    · intro id hid
      rcases SessionTable.active_of_insert hid with ⟨hnew, -⟩ | hactive
      · exact .inl (decide_eq_true hnew)
      · exact .inr ⟨hactive, rfl⟩

theorem createResponse_orderly (id : SessionId) (resource : ResourceId) (status : SessionStatus)
    (hp : Orderly past d.layer.table) :
    Orderly (past ++ [.processed id.slot id.tcid (.createSessionResponse status resource id.number)
        (d.createResponse h id resource status).2])
      (d.createResponse h id resource status).1.layer.table := by
  rw [createResponse]
  split
  · exact hp.pass trivial fun _ => rfl
  · refine hp.note trivial fun id' hid' => ?_
    change SessionTable.Active (if status = .ok then _ else _) id' at hid'
    split at hid'
    · next hok =>
      rw [hok]
      rcases SessionTable.active_of_setPhase hid' with ⟨hid, -⟩ | ⟨-, hactive⟩
      · exact .inl (decide_eq_true hid)
      · exact .inr ⟨hactive, rfl⟩
    · exact .inr ⟨(SessionTable.active_of_remove hid').2, rfl⟩

theorem closeRequest_orderly (id : SessionId) (error : Option CiError)
    (hp : Orderly past d.layer.table) :
    Orderly (past ++ .processed id.slot id.tcid (.closeSessionRequest id.number) error ::
        d.closeTraffic carrier id)
      (d.closeRequest carrier h id).1.layer.table := by
  have hended : Orderly
      (past ++ [.processed id.slot id.tcid (.closeSessionRequest id.number) error])
      (d.layer.table.remove id) := by
    refine hp.note trivial fun id' hid' => ?_
    obtain ⟨hne, hactive⟩ := SessionTable.active_of_remove hid'
    exact .inr ⟨hactive, decide_eq_false hne⟩
  have hanswered : ∀ status table, Orderly _ (d.layer.table.remove id) := fun status table =>
    hended.pass (e := .sent id.slot id.tcid (.closeSessionResponse status id.number) table)
      ⟨nofun, nofun⟩ fun _ => rfl
  rw [List.append_cons, closeTraffic, closeRequest]
  cases hs : d.layer.table.get? id with
  | none =>
    have hsame : d.layer.table.remove id = d.layer.table := by rw [SessionTable.remove, hs]
    rw [hsame] at hended hanswered
    refine sending_orderly carrier hended fun l hl => ?_
    change Orderly _ l.table
    rw [hl]
    exact hanswered ..
  | some s =>
    dsimp only
    have hlayer : ((if s.isOpen = true then d.tell h (.closed id s.resource) else d).withTable
        (·.remove id)).layer = (d.withTable (·.remove id)).layer := by split <;> rfl
    rw [← hlayer]
    have htable : ((if s.isOpen = true then d.tell h (.closed id s.resource) else d).withTable
        (·.remove id)).layer.table = d.layer.table.remove id := congrArg _ hlayer
    generalize (if s.isOpen = true then d.tell h (.closed id s.resource) else d).withTable
      (·.remove id) = gone at htable ⊢
    refine sending_orderly carrier (htable ▸ hended) fun l hl => ?_
    change Orderly _ l.table
    rw [hl, htable]
    exact hanswered ..

theorem closeResponse_orderly (id : SessionId) (status : SessionStatus) (error : Option CiError)
    (hp : Orderly past d.layer.table) :
    Orderly (past ++ [.processed id.slot id.tcid (.closeSessionResponse status id.number) error])
      (d.closeResponse h id).1.layer.table := by
  have hpassed : Orderly
      (past ++ [.processed id.slot id.tcid (.closeSessionResponse status id.number) error])
      d.layer.table := hp.pass trivial fun _ => rfl
  rw [closeResponse]
  split
  · exact hpassed
  · split
    · exact hpassed.shrink fun id' hid' => (SessionTable.active_of_remove hid').2
    · exact hpassed

/-- Whatever a module sends, it is in order, and so is the answer. -/
theorem receive_orderly (slot : Nat) (tcid : UInt8) (unit : Spdu)
    (hp : Orderly past d.layer.table) :
    Orderly (past ++ d.receiveTraffic carrier h slot tcid unit)
      (d.receive carrier h slot tcid unit).1.layer.table := by
  cases unit with
  | sessionNumber number body =>
    have hpassed : Orderly (past ++ [.processed slot tcid (.sessionNumber number body)
        (d.receiveData h ⟨slot, tcid, number⟩ body).2]) d.layer.table := hp.pass trivial fun _ => rfl
    have htable : (d.receiveData h ⟨slot, tcid, number⟩ body).1.layer.table = d.layer.table := by
      rw [receiveData]
      split <;> rfl
    change Orderly _ (d.receiveData h ⟨slot, tcid, number⟩ body).1.layer.table
    rw [htable]
    exact hpassed
  | openSessionRequest requested =>
    have hpassed : Orderly (past ++ [.processed slot tcid (.openSessionRequest requested)
        (d.openRequest carrier h slot tcid requested).2]) d.layer.table :=
      hp.pass trivial fun _ => rfl
    have hanswered := openRequest_orderly carrier h slot tcid requested hpassed
    rwa [← List.append_cons] at hanswered
  | createSessionResponse status resource number =>
    exact createResponse_orderly h ⟨slot, tcid, number⟩ resource status hp
  | closeSessionRequest number => exact closeRequest_orderly carrier h ⟨slot, tcid, number⟩ _ hp
  | closeSessionResponse status number =>
    exact closeResponse_orderly h ⟨slot, tcid, number⟩ status _ hp
  | openSessionResponse status resource number => exact hp.pass trivial fun _ => rfl
  | createSession resource number => exact hp.pass trivial fun _ => rfl

/-- When a connection ends, its sessions are gone; the carrier has no part in it. -/
theorem layer_of_closeConnection (slot : Nat) (d : Dialogue τ η) (tcid : UInt8) :
    (d.closeConnection h slot tcid).layer =
      { d.layer with table := d.layer.table.removeConnection slot tcid } := by
  have htold : ∀ (events : List SessionEvent) (d : Dialogue τ η),
      (events.foldl (tell h) d).layer = d.layer := by
    intro events
    induction events with
    | nil => exact fun d => rfl
    | cons e events ih => exact fun d => ih (d.tell h e)
  rw [closeConnection, htold]
  rfl

/-- When connections of a slot end, no session on any of them is active. -/
theorem active_of_closeConnections {slot : Nat} {tcids : List UInt8} {id : SessionId}
    (hid : (tcids.foldl (closeConnection h slot) d).layer.table.Active id) :
    ¬ (id.slot = slot ∧ id.tcid ∈ tcids) ∧ d.layer.table.Active id := by
  induction tcids generalizing d with
  | nil => exact ⟨nofun, hid⟩
  | cons tcid tcids ih =>
    obtain ⟨hothers, hactive⟩ := ih hid
    rw [layer_of_closeConnection] at hactive
    obtain ⟨hthis, hactive⟩ := SessionTable.active_of_removeConnection hactive
    refine ⟨?_, hactive⟩
    rintro ⟨hslot, hmem⟩
    rcases List.mem_cons.mp hmem with htcid | hmem
    · exact hthis ⟨hslot, htcid⟩
    · exact hothers ⟨hslot, hmem⟩

theorem process_orderly (e : TransportEvent) (hp : Orderly past d.layer.table) :
    Orderly (past ++ d.processTraffic carrier h e) (d.process carrier h e).1.layer.table := by
  cases e with
  | connection slot tcid notice =>
    cases notice with
    | opened =>
      change Orderly (past ++ []) d.layer.table
      rwa [List.append_nil]
    | data data =>
      rw [processTraffic, process]
      cases Spdu.read data with
      | error e =>
        dsimp only
        rwa [List.append_nil]
      | ok unit => exact receive_orderly carrier h slot tcid unit hp
    | closed =>
      refine hp.note trivial fun id hid => ?_
      change SessionTable.Active (d.closeConnection h slot tcid).layer.table id at hid
      rw [layer_of_closeConnection] at hid
      obtain ⟨hother, hactive⟩ := SessionTable.active_of_removeConnection hid
      refine .inr ⟨hactive, ?_⟩
      simpa [Traffic.ends] using hother
  | slotClosed slot =>
    refine hp.note trivial fun id hid => ?_
    obtain ⟨hother, hactive⟩ := active_of_closeConnections h hid
    have hslot : id.slot ≠ slot := by
      rintro rfl
      exact hother ⟨rfl, SessionTable.mem_connectionsOf hactive⟩
    exact .inr ⟨hactive, decide_eq_false hslot⟩

theorem events_orderly (events : List TransportEvent) (error : Option CiError)
    (hp : Orderly past d.layer.table) :
    Orderly (past ++ d.eventsTraffic carrier h events)
      (processAll carrier h events d error).1.layer.table := by
  induction events generalizing past d error with
  | nil =>
    rw [eventsTraffic]
    rwa [List.append_nil]
  | cons e events ih =>
    have he := process_orderly carrier h e hp
    rw [eventsTraffic, processAll, ← List.append_assoc]
    generalize d.process carrier h e = processed at he ⊢
    obtain ⟨d', _ | error'⟩ := processed
    · exact ih error he
    · exact ih (some error') he

theorem perform_orderly (a : Activity) (hp : Orderly past d.layer.table) :
    Orderly (past ++ a.traffic carrier h d) (a.perform carrier h d).layer.table := by
  cases a with
  | create slot tcid resource =>
    rw [Activity.traffic, Activity.perform, SessionLayer.createTraffic]
    cases hl : d.layer.create carrier slot tcid resource with
    | ok p => exact SessionLayer.create_orderly carrier hp hl
    | error e =>
      dsimp only
      rwa [List.append_nil]
  | destroy id =>
    rw [Activity.traffic, Activity.perform, SessionLayer.destroyTraffic]
    cases hl : d.layer.destroy carrier id with
    | ok l => exact SessionLayer.destroy_orderly carrier hp hl
    | error e =>
      dsimp only
      rwa [List.append_nil]
  | sendApdu id apdu =>
    have hsent := SessionLayer.apdu_orderly carrier hp id apdu
    rw [Activity.traffic, Activity.perform]
    split
    · next l hl =>
      change Orderly _ l.table
      rwa [SessionLayer.table_of_sendApdu hl]
    · exact hsent
  | broadcast resource apdu =>
    have htable := SessionLayer.sendEach_table carrier apdu
      ((d.layer.table.active.filter fun p => p.2.sameResource resource).map Prod.fst) (.ok 0) d.layer
    change Orderly _ (d.layer.broadcast carrier resource apdu).2.table
    rw [SessionLayer.broadcast, htable]
    exact SessionLayer.each_orderly carrier apdu _ hp
  | poll events => exact events_orderly carrier h events none hp

/-- Whatever happens, it is in order. -/
theorem run_orderly (os : List (Occasion τ)) (hp : Orderly past d.layer.table) :
    Orderly (past ++ traffic h os d) (run h os d).layer.table := by
  induction os generalizing past d with
  | nil =>
    rw [traffic]
    rwa [List.append_nil]
  | cons o os ih =>
    rw [traffic, ← List.append_assoc]
    exact ih (perform_orderly o.carrier h o.activity (d := { d with layer := { d.layer with
      transport := o.transport } }) hp)

end Dialogue

namespace SessionLayer

/-- Whatever happens to a session layer: a number that goes out for a new session is not 0 and no
session of the connection has it, except that the number 0 goes out where the handler has just
refused the request with the status of success. Data goes out on a session only after the session
was opened, and with nothing since that has ended it. -/
theorem traffic_in_order (transport : τ) (maxSessions : Nat) (h : Handler η) (start : η)
    (os : List (Occasion τ)) :
    (∀ before slot tcid unit table after number,
      Dialogue.traffic h os ⟨new transport maxSessions, start⟩ =
        before ++ .sent slot tcid unit table :: after → unit.given = some number →
      (number ≠ 0 ∧ table.get? ⟨slot, tcid, number⟩ = none) ∨
        (number = 0 ∧ ∃ requested status,
          before.getLast? = some (.asked slot requested (.error status)) ∧ status.code = 0)) ∧
    (∀ before slot tcid number body table after,
      Dialogue.traffic h os ⟨new transport maxSessions, start⟩ =
        before ++ .sent slot tcid (.sessionNumber number body) table :: after →
      Traffic.Live ⟨slot, tcid, number⟩ before) := by
  have hrun := Dialogue.run_orderly h os (d := ⟨new transport maxSessions, start⟩)
    (Orderly.new maxSessions)
  rw [List.nil_append] at hrun
  constructor
  · intro before slot tcid unit table after number hsplit hgiven
    exact (hrun.sound before _ after hsplit).1 number hgiven
  · intro before slot tcid number body table after hsplit
    exact (hrun.sound before _ after hsplit).2 number body rfl

/-- A handler that grants every request. -/
def granting : Handler Unit := ⟨fun _ requested s => (.ok requested, s), fun _ s => s⟩

/-- A module asks for a session. The carrier takes everything. -/
def grantedRequest : Occasion Unit :=
  ⟨⟨fun _ _ _ t => .ok t⟩, (), .poll [.connection 0 1 (.data [0x91, 4, 0, 1, 0, 0x41])]⟩

/-- Data is sent on the session. -/
def grantedData : Occasion Unit := ⟨⟨fun _ _ _ t => .ok t⟩, (), .sendApdu ⟨0, 1, 1⟩ [0x9F]⟩

theorem traffic_in_order_granted :
    let traffic := Dialogue.traffic granting [grantedRequest, grantedData] ⟨new () 8, ()⟩
    traffic.length = 4 ∧
    (((1 : UInt16) ≠ 0 ∧ (SessionTable.new 8).get? ⟨0, 1, 1⟩ = none) ∨
      ((1 : UInt16) = 0 ∧ ∃ requested status,
        (traffic.take 2).getLast? = some (.asked 0 requested (.error status)) ∧ status.code = 0)) ∧
    Traffic.Live ⟨0, 1, 1⟩ (traffic.take 3) := by
  intro traffic
  have ordered := traffic_in_order () 8 granting () [grantedRequest, grantedData]
  have given : Spdu.given (.openSessionResponse .ok ⟨0x00010041⟩ 1) = some 1 := rfl
  refine ⟨rfl, ?_, ?_⟩
  · exact ordered.1 (traffic.take 2) 0 1 _ (SessionTable.new 8) (traffic.drop 3) 1 rfl given
  · exact ordered.2 (traffic.take 3) 0 1 1 [0x9F]
      (grantedRequest.perform granting ⟨new () 8, ()⟩).layer.table [] rfl

/-- A handler that refuses every request with the status of success. -/
def muddled : Handler Unit := ⟨fun _ _ s => (.error .ok, s), fun _ s => s⟩

/-- A module asks for a session. The carrier takes everything. -/
def muddledTraffic : List Traffic :=
  Dialogue.traffic muddled
    [⟨⟨fun _ _ _ t => .ok t⟩, (), .poll [.connection 0 1 (.data [0x91, 4, 0, 1, 0, 0x41])]⟩]
    ⟨new () 8, ()⟩

/-- The number 0 goes out with the status of success. -/
theorem muddledTraffic_notFresh :
    ¬ ∀ before slot tcid unit table after number,
      muddledTraffic = before ++ .sent slot tcid unit table :: after → unit.given = some number →
      number ≠ 0 ∧ table.get? ⟨slot, tcid, number⟩ = none := by
  intro fresh
  have hgiven := fresh (muddledTraffic.take 2) 0 1 (.openSessionResponse .ok ⟨0x00010041⟩ 0)
    (.new 8) [] 0 rfl rfl
  exact hgiven.1 rfl

end SessionLayer

end DvbHost.Ci
