import DvbHost.Proofs.Ci.ConnectionEpisodes
import DvbHost.Proofs.Ci.SessionTable
import DvbHost.Ci.Session

/-!
# Sessions are on open connections

A session layer learns of the end of a connection from the transport layer, and only when it is
polled: by then the connection can be gone, or be open again. After every poll, all sessions are on
open connections all the same, unless a module ended a connection and the reply could not be
written, of which the session layer never learns.
-/

namespace DvbHost.Ci

set_option autoImplicit false

open Episode TransportEvent TransportLayer

variable {ω η : Type}

/-! ## Runs of both layers -/

/-- What is asked of a session layer or, past it, of the transport layer below. The transport layer
is not polled but by the session layer. -/
inductive StackCall where
  | register (device : Nat) (number : UInt8) (config : SlotConfig)
  | destroySlot (slot : Nat)
  | newConnection (slot : Nat)
  | deleteConnection (slot : Nat) (tcid : UInt8)
  | sendData (slot : Nat) (tcid : UInt8) (data : Bytes)
  | create (slot : Nat) (tcid : UInt8) (resource : ResourceId)
  | destroy (id : SessionId)
  | sendApdu (id : SessionId) (apdu : Bytes)
  | broadcast (resource : ResourceId) (apdu : Bytes)
  | poll (now : Nat)

/-- Both layers with their devices and their handler, and the units that were taken up. -/
structure StackRun (ω η : Type) where
  layer : SessionLayer TransportLayer
  world : ω
  handler : η
  met : List (Meeting ω)

namespace StackRun

def start (maxSlots maxConnections maxSessions : Nat) (world : ω) (handler : η) : StackRun ω η :=
  ⟨.new (.new maxSlots maxConnections) maxSessions, world, handler, []⟩

/-- What becomes of the layers. A call that fails leaves them as they are. -/
def settle {α : Type} (outcome : Except CiError α) (layer : α → SessionLayer TransportLayer)
    (r : StackRun ω η) : StackRun ω η :=
  match outcome with
  | .ok a => { r with layer := layer a }
  | .error _ => r

/-- The handler may look at the devices and change them, and calls neither layer during a poll. -/
def perform (link : Link ω) (h : Handler (η × ω)) (r : StackRun ω η) : StackCall → StackRun ω η
  | .register device number config =>
    r.settle (r.layer.transport.register device number config) fun p =>
      { r.layer with transport := p.2 }
  | .destroySlot slot =>
    r.settle (r.layer.transport.destroySlot slot) fun t => { r.layer with transport := t }
  | .newConnection slot =>
    r.settle (r.layer.transport.newConnection slot) fun p => { r.layer with transport := p.2 }
  | .deleteConnection slot tcid =>
    r.settle (r.layer.transport.deleteConnection slot tcid) fun t =>
      { r.layer with transport := t }
  | .sendData slot tcid data =>
    r.settle (r.layer.transport.sendData slot tcid data) fun t => { r.layer with transport := t }
  | .create slot tcid resource => r.settle (r.layer.create carrier slot tcid resource) Prod.snd
  | .destroy id => r.settle (r.layer.destroy carrier id) fun l => l
  | .sendApdu id apdu => r.settle (r.layer.sendApdu carrier id apdu) fun l => l
  | .broadcast resource apdu => { r with layer := (r.layer.broadcast carrier resource apdu).2 }
  | .poll now =>
    let polled := (r.layer.poll link h now r.world fun world => (r.handler, world)).1
    { layer := polled.layer
      world := polled.handler.2
      handler := polled.handler.1
      met := r.met ++ meetingsFrom link now 0 r.layer.transport.slots
        ⟨r.layer.transport.events, r.world, r.layer.transport.lastError⟩ }

/-- One call after the other. -/
def after (link : Link ω) (h : Handler (η × ω)) (calls : List StackCall) (r : StackRun ω η) :
    StackRun ω η := calls.foldl (perform link h) r

end StackRun

/-! ## What a session layer makes of its transport layer -/

/-- Another transport layer with the same connections open and the same to tell. -/
structure TransportLayer.Alike (t t' : TransportLayer) : Prop where
  few : t'.maxConnections = t.maxConnections
  fit : AllFit t.slots → AllFit t'.slots
  events : t'.events = t.events
  opens : ∀ slot tcid, openAt t'.slots slot tcid = openAt t.slots slot tcid

namespace TransportLayer.Alike

variable {t t' t'' : TransportLayer}

theorem refl (t : TransportLayer) : Alike t t := ⟨rfl, id, rfl, fun _ _ => rfl⟩

theorem trans (h : Alike t t') (h' : Alike t' t'') : Alike t t'' where
  few := h'.few.trans h.few
  fit := fun hfit => h'.fit (h.fit hfit)
  events := h'.events.trans h.events
  opens := fun slot tcid => (h'.opens slot tcid).trans (h.opens slot tcid)

/-- Data is queued on open connections only. -/
theorem of_sendData {slot : Nat} {tcid : UInt8} {data : Bytes}
    (h : t.sendData slot tcid data = .ok t') : Alike t t' ∧ openAt t.slots slot tcid = true := by
  obtain ⟨s, c, c', hs, hc, hf, rfl⟩ := update_ok h
  obtain ⟨hactive, hf⟩ := Outcome.ok_of_check hf
  obtain ⟨units, -, hf⟩ := Outcome.ok_of_bind hf
  obtain rfl := Except.ok.inj hf
  refine ⟨⟨rfl, fun hfit => hfit.putSlot hs Slot.length_put, rfl, ?_⟩, ?_⟩
  · have hopen : ({ c with queue := c.queue.append units } : Connection).isOpen = c.isOpen := rfl
    exact openAt_putSlot hs (Slot.hasOpen_put_of_isOpen hc hopen)
  · have hget : t.slots[slot]?.join = some s := hs
    rw [openAt, hget]
    change s.hasOpen tcid = true
    rw [Slot.hasOpen_of_some hc, Connection.isOpen_of_state (Decidable.not_not.mp hactive)]
    rfl

end TransportLayer.Alike

namespace SessionLayer

/-- Every session was there before or is on an open connection. -/
structure Extends (l l' : SessionLayer TransportLayer) : Prop where
  alike : Alike l.transport l'.transport
  sessions : ∀ id, (l'.table.get? id).isSome → (l.table.get? id).isSome ∨
    openAt l.transport.slots id.slot id.tcid = true

variable {l l' l'' : SessionLayer TransportLayer}

namespace Extends

/-- The table has no new session. -/
theorem of_table (halike : Alike l.transport l'.transport)
    (hold : ∀ id, (l'.table.get? id).isSome → (l.table.get? id).isSome) : Extends l l' :=
  ⟨halike, fun id hid => .inl (hold id hid)⟩

theorem refl (l : SessionLayer TransportLayer) : Extends l l := .of_table (.refl _) fun _ => id

theorem trans (h : Extends l l') (h' : Extends l' l'') : Extends l l'' := by
  refine ⟨h.alike.trans h'.alike, fun id hid => ?_⟩
  rcases h'.sessions id hid with hold | hopen
  · exact h.sessions id hold
  · rw [h.alike.opens] at hopen
    exact .inr hopen

end Extends

variable {slot : Nat} {tcid : UInt8}

/-- A unit is sent on an open connection, and no session comes or goes. -/
theorem send_spec {unit : Spdu} (h : l.send carrier slot tcid unit = .ok l') :
    l'.table = l.table ∧ Alike l.transport l'.transport ∧
      openAt l.transport.slots slot tcid = true := by
  rw [send] at h
  cases hs : TransportLayer.carrier.send slot tcid unit.toBytes l.transport with
  | error e => rw [hs] at h; cases h
  | ok t =>
    rw [hs] at h
    cases h
    obtain ⟨halike, hopen⟩ := Alike.of_sendData hs
    exact ⟨rfl, halike, hopen⟩

theorem Extends.send {unit : Spdu} (h : l.send carrier slot tcid unit = .ok l') : Extends l l' := by
  obtain ⟨htable, halike, -⟩ := send_spec h
  refine .of_table halike fun id hid => ?_
  rw [← htable]
  exact hid

/-- A session that is put in is on an open connection. -/
theorem Extends.insert {number : UInt16} {s : Session} {unit : Spdu}
    (h : l.send carrier slot tcid unit = .ok l') :
    Extends l { l' with table := l'.table.insert ⟨slot, tcid, number⟩ s } := by
  obtain ⟨htable, halike, hopen⟩ := send_spec h
  refine ⟨halike, fun id hid => ?_⟩
  change ((l'.table.insert ⟨slot, tcid, number⟩ s).get? id).isSome at hid
  rw [SessionTable.get?_insert, htable] at hid
  split at hid
  · next heq =>
    rw [heq]
    exact .inr hopen
  · exact .inl hid

theorem create_extends {resource : ResourceId} {id : SessionId}
    (h : l.create carrier slot tcid resource = .ok (id, l')) : Extends l l' := by
  rw [create] at h
  obtain ⟨number, -, h⟩ := Outcome.ok_of_bind h
  obtain ⟨l₁, hs, h⟩ := Outcome.ok_of_bind h
  obtain ⟨rfl, rfl⟩ := Prod.mk.inj (Except.ok.inj h)
  exact .insert hs

theorem destroy_extends {id : SessionId} (h : l.destroy carrier id = .ok l') : Extends l l' := by
  rw [destroy] at h
  obtain ⟨-, h⟩ := Outcome.ok_of_check h
  obtain ⟨l₁, hs, h⟩ := Outcome.ok_of_bind h
  obtain rfl := Except.ok.inj h
  refine (Extends.send hs).trans (.of_table (.refl _) fun id' hid' => ?_)
  exact SessionTable.isSome_of_setPhase hid'

theorem sendApdu_extends {id : SessionId} {apdu : Bytes} (h : l.sendApdu carrier id apdu = .ok l') :
    Extends l l' := .send (Outcome.ok_of_check h).2

theorem sendEach_extends (apdu : Bytes) (ids : List SessionId) (result : Except CiError Nat)
    (l : SessionLayer TransportLayer) : Extends l (sendEach carrier apdu ids result l).2 := by
  induction ids generalizing result l with
  | nil => exact .refl l
  | cons id ids ih =>
    rw [sendEach]
    cases hs : l.sendApdu carrier id apdu with
    | ok l' => exact (sendApdu_extends hs).trans (ih _ l')
    | error e => exact ih _ l

end SessionLayer

namespace Dialogue

open SessionLayer

variable {d d' : Dialogue TransportLayer η} (h : Handler η) {l : SessionLayer TransportLayer}

/-- A unit is queued, and then what follows is done; if it is refused, nothing is. -/
theorem sending_extends {slot : Nat} {tcid : UInt8} {unit : Spdu}
    {next : Dialogue TransportLayer η → Dialogue TransportLayer η} (hd : Extends l d.layer)
    (hnext : ∀ l', d.layer.send carrier slot tcid unit = .ok l' →
      Extends d.layer (next { d with layer := l' }).layer) :
    Extends l (d.sending carrier slot tcid unit next).1.layer := by
  rw [sending]
  cases hs : d.layer.send carrier slot tcid unit with
  | error e => exact hd
  | ok l' => exact hd.trans (hnext l' hs)

theorem offer_layer (slot : Nat) (tcid : UInt8) (requested : ResourceId) :
    (d.offer h slot tcid requested).2.layer = d.layer := by
  rw [offer]
  split
  · rfl
  · split <;> rfl

theorem openRequest_extends (slot : Nat) (tcid : UInt8) (requested : ResourceId) :
    Extends d.layer (d.openRequest carrier h slot tcid requested).1.layer := by
  have hoffer : Extends d.layer (d.offer h slot tcid requested).2.layer := by
    rw [offer_layer]
    exact .refl _
  rw [openRequest]
  generalize d.offer h slot tcid requested = offered at hoffer ⊢
  obtain ⟨status | ⟨resource, number⟩, o⟩ := offered
  · exact sending_extends hoffer fun l' hs => .send hs
  · exact sending_extends hoffer fun l' hs => .insert hs

theorem createResponse_extends (id : SessionId) (resource : ResourceId) (status : SessionStatus) :
    Extends d.layer (d.createResponse h id resource status).1.layer := by
  rw [createResponse]
  split
  · exact .refl _
  · refine .of_table (.refl _) fun id' hid' => ?_
    change ((if status = .ok then d.layer.table.setPhase id .active
      else d.layer.table.remove id).get? id').isSome at hid'
    split at hid'
    · exact SessionTable.isSome_of_setPhase hid'
    · exact SessionTable.isSome_of_remove hid'

theorem closeRequest_extends (id : SessionId) :
    Extends d.layer (d.closeRequest carrier h id).1.layer := by
  rw [closeRequest]
  split
  · exact sending_extends (.refl _) fun l' hs => .send hs
  · next s hs =>
    dsimp only
    have htold : (if s.isOpen then d.tell h (.closed id s.resource) else d).layer = d.layer := by
      split <;> rfl
    generalize (if s.isOpen then d.tell h (.closed id s.resource) else d) = told at htold ⊢
    refine sending_extends (.of_table ?_ fun id' hid' => ?_) fun l' hs => .send hs
    · change Alike _ told.layer.transport
      rw [htold]
      exact .refl _
    · change ((told.layer.table.remove id).get? id').isSome at hid'
      rw [htold] at hid'
      exact SessionTable.isSome_of_remove hid'

theorem closeResponse_extends (id : SessionId) :
    Extends d.layer (d.closeResponse h id).1.layer := by
  rw [closeResponse]
  split
  · exact .refl _
  · split
    · refine .of_table (.refl _) fun id' hid' => ?_
      exact SessionTable.isSome_of_remove hid'
    · exact .refl _

theorem receiveData_extends (id : SessionId) (data : Bytes) :
    Extends d.layer (d.receiveData h id data).1.layer := by
  rw [receiveData]
  split <;> exact .refl _

/-- Whatever a module sends, a session that it opens is on an open connection. -/
theorem receive_extends (slot : Nat) (tcid : UInt8) (unit : Spdu) :
    Extends d.layer (d.receive carrier h slot tcid unit).1.layer := by
  cases unit with
  | sessionNumber number body => exact receiveData_extends h _ body
  | openSessionRequest requested => exact openRequest_extends h slot tcid requested
  | createSessionResponse status resource number => exact createResponse_extends h _ resource status
  | closeSessionRequest number => exact closeRequest_extends h _
  | closeSessionResponse status number => exact closeResponse_extends h _
  | openSessionResponse status resource number => exact .refl _
  | createSession resource number => exact .refl _

theorem foldl_tell_layer (events : List SessionEvent) (d : Dialogue TransportLayer η) :
    (events.foldl (tell h) d).layer = d.layer := by
  induction events generalizing d with
  | nil => rfl
  | cons e events ih => exact ih (d.tell h e)

theorem closeConnection_layer (slot : Nat) (tcid : UInt8) :
    (d.closeConnection h slot tcid).layer =
      { d.layer with table := d.layer.table.removeConnection slot tcid } := by
  rw [closeConnection, foldl_tell_layer]
  rfl

theorem closeConnection_extends (slot : Nat) (tcid : UInt8) :
    Extends d.layer (d.closeConnection h slot tcid).layer := by
  rw [closeConnection_layer]
  refine .of_table (.refl _) fun id hid => ?_
  exact SessionTable.isSome_of_removeConnection hid

theorem closeConnections_extends (slot : Nat) (tcids : List UInt8)
    (d : Dialogue TransportLayer η) :
    Extends d.layer (tcids.foldl (closeConnection h slot) d).layer := by
  induction tcids generalizing d with
  | nil => exact .refl _
  | cons tcid tcids ih => exact (closeConnection_extends h slot tcid).trans (ih _)

theorem process_extends (e : TransportEvent) :
    Extends d.layer (d.process carrier h e).1.layer := by
  cases e with
  | connection slot tcid notice =>
    cases notice with
    | opened => exact .refl _
    | data data =>
      rw [process]
      split
      · exact .refl _
      · exact receive_extends h slot tcid _
    | closed => exact closeConnection_extends h slot tcid
  | slotClosed slot => exact closeConnections_extends h slot _ d

end Dialogue

/-! ## Sessions and what is told of their connections -/

namespace SessionLayer

/-- Every session is on an open connection or on one of which `ahead` tells the end, but for those
on connections that are `lost`. -/
def Grounded (lost : Nat → UInt8 → Prop) (ahead : List TransportEvent)
    (l : SessionLayer TransportLayer) : Prop :=
  ∀ id, (l.table.get? id).isSome → ¬ lost id.slot id.tcid →
    openAt l.transport.slots id.slot id.tcid = true ∨
      connection id.slot id.tcid .closed ∈ ahead

variable {l l' : SessionLayer TransportLayer} {lost lost' : Nat → UInt8 → Prop}
  {ahead : List TransportEvent}

theorem Grounded.extend (h : Grounded lost ahead l) (hl : Extends l l') :
    Grounded lost ahead l' := by
  intro id hid hkept
  rw [hl.alike.opens]
  rcases hl.sessions id hid with hold | hopen
  · exact h id hold hkept
  · exact .inl hopen

/-- The transport layer goes on by itself. -/
theorem Grounded.carry {t : TransportLayer} {es : List TransportEvent}
    (h : Grounded lost ahead l)
    (hkeeps : ∀ slot tcid, Keeps (openAt l.transport.slots slot tcid) (noticesOf slot tcid es)
      (lost' slot tcid) (openAt t.slots slot tcid)) :
    Grounded (fun slot tcid => lost slot tcid ∨ lost' slot tcid) (ahead ++ es)
      { l with transport := t } := by
  intro id hid hkept
  obtain ⟨hlost, hlost'⟩ := not_or.mp hkept
  have hkeep := hkeeps id.slot id.tcid
  rcases h id hid hlost with hopen | hclosed
  · rw [hopen] at hkeep
    rcases hkeep.open_or_closed hlost' with hopen' | hclosed
    · exact .inl hopen'
    · exact .inr (List.mem_append_right ahead (mem_noticesOf.mp hclosed))
  · exact .inr (List.mem_append_left es hclosed)

end SessionLayer

namespace Dialogue

open SessionLayer

variable {d : Dialogue TransportLayer η} (h : Handler η) {lost : Nat → UInt8 → Prop}
  {ahead : List TransportEvent}

/-- When the end of a connection is handled, its sessions go. -/
theorem process_grounded (e : TransportEvent) (hd : Grounded lost (e :: ahead) d.layer) :
    Grounded lost ahead (d.process carrier h e).1.layer := by
  intro id hid hkept
  have hextends := process_extends h (d := d) e
  rcases (hd.extend hextends) id hid hkept with hopen | hclosed
  · exact .inl hopen
  · rcases List.mem_cons.mp hclosed with rfl | hlater
    · change ((d.closeConnection h id.slot id.tcid).layer.table.get? id).isSome at hid
      rw [closeConnection_layer, SessionTable.get?_removeConnection, if_pos ⟨rfl, rfl⟩] at hid
      cases hid
    · exact .inr hlater

theorem processAll_grounded (events : List TransportEvent) (error : Option CiError)
    (hd : Grounded lost events d.layer) :
    Alike d.layer.transport (processAll carrier h events d error).1.layer.transport ∧
      Grounded lost [] (processAll carrier h events d error).1.layer := by
  induction events generalizing d error with
  | nil => exact ⟨.refl _, hd⟩
  | cons e events ih =>
    have halike := (process_extends h (d := d) e).alike
    have hprocess := process_grounded h e hd
    rw [processAll]
    generalize d.process carrier h e = processed at halike hprocess ⊢
    obtain ⟨d', _ | error'⟩ := processed
    · obtain ⟨halike', hall⟩ := ih error hprocess
      exact ⟨halike.trans halike', hall⟩
    · obtain ⟨halike', hall⟩ := ih (some error') hprocess
      exact ⟨halike.trans halike', hall⟩

end Dialogue

/-! ## Whole runs -/

namespace StackRun

/-- Between calls, whatever happened to the connections of the sessions is told or is to be told by
the next poll. -/
structure Grounded (link : Link ω) (r : StackRun ω η) : Prop where
  few : r.layer.transport.maxConnections ≤ 254
  fit : AllFit r.layer.transport.slots
  sessions : r.layer.Grounded (fun slot tcid => Lost link slot tcid r.met)
    r.layer.transport.events.toList

namespace Grounded

variable {link : Link ω} {r : StackRun ω η}

theorem start (link : Link ω) (maxSlots maxConnections maxSessions : Nat) (world : ω)
    (handler : η) : Grounded link (start maxSlots maxConnections maxSessions world handler) := by
  refine ⟨Nat.min_le_right .., fun s hs => ?_, fun id hid => ?_⟩
  · cases List.eq_of_mem_replicate hs
  · change ((SessionTable.new maxSessions).get? id).isSome at hid
    rw [SessionTable.get?_new] at hid
    cases hid

theorem grant {α : Type} {outcome : Except CiError α} {t : α → TransportLayer}
    (h : Grounded link r) (ht : ∀ a, outcome = .ok a → Grants r.layer.transport (t a)) :
    Grounded link (r.settle outcome fun a => { r.layer with transport := t a }) := by
  cases outcome with
  | error e => exact h
  | ok a =>
    have hgrants := ht a rfl
    obtain ⟨es, hes, hkeeps⟩ := hgrants.tells
    refine ⟨Nat.le_trans (Nat.le_of_eq hgrants.few) h.few, hgrants.fit, ?_⟩
    have hsessions := h.sessions.carry hkeeps
    rw [← hes] at hsessions
    intro id hid hkept
    exact hsessions id hid (not_or.mpr ⟨hkept, not_false⟩)

theorem extend {l : SessionLayer TransportLayer} (h : Grounded link r)
    (hl : SessionLayer.Extends r.layer l) : Grounded link { r with layer := l } := by
  refine ⟨Nat.le_trans (Nat.le_of_eq hl.alike.few) h.few, hl.alike.fit h.fit, ?_⟩
  have hsessions := h.sessions.extend hl
  rw [← hl.alike.events] at hsessions
  exact hsessions

theorem settle {α : Type} {outcome : Except CiError α} {l : α → SessionLayer TransportLayer}
    (h : Grounded link r) (hl : ∀ a, outcome = .ok a → SessionLayer.Extends r.layer (l a)) :
    Grounded link (r.settle outcome l) := by
  cases outcome with
  | error e => exact h
  | ok a => exact h.extend (hl a rfl)

/-- In a poll the transport layer goes on first, and the session layer then handles what was told,
with the transport layer as it is by then. -/
theorem poll (handler : Handler (η × ω)) (h : Grounded link r) (now : Nat) :
    Grounded link (r.perform link handler (.poll now)) ∧
      (r.perform link handler (.poll now)).layer.transport.events.toList = [] := by
  have hsweeps := pollFrom_sweeps link now 0
    ⟨r.layer.transport.events, r.world, r.layer.transport.lastError⟩ h.fit
  obtain ⟨es, hes, -, hkeeps⟩ := hsweeps.tells
  have hcarried := h.sessions.carry (t := (r.layer.transport.poll link now r.world).1)
    fun slot tcid => by
      have hkeep := hkeeps slot tcid
      rw [Nat.zero_add] at hkeep
      exact hkeep
  rw [← hes] at hcarried
  obtain ⟨halike, hsessions⟩ := Dialogue.processAll_grounded handler _ none
    (d := ⟨_, (r.handler, (r.layer.transport.poll link now r.world).2.2)⟩) hcarried
  have hevents : (r.perform link handler (.poll now)).layer.transport.events.toList = [] :=
    congrArg Queue.toList halike.events
  refine ⟨⟨Nat.le_trans (Nat.le_of_eq halike.few) h.few, halike.fit hsweeps.fit, ?_⟩, hevents⟩
  rw [hevents]
  intro id hid hkept
  refine hsessions id hid fun hlost => hkept ?_
  exact (lost_append link id.slot id.tcid ..).mpr hlost

theorem perform (handler : Handler (η × ω)) (h : Grounded link r) (call : StackCall) :
    Grounded link (r.perform link handler call) := by
  cases call with
  | register device number config => exact h.grant fun a ha => register_grants h.few h.fit ha
  | destroySlot slot => exact h.grant fun a ha => destroySlot_grants h.fit ha
  | newConnection slot => exact h.grant fun a ha => newConnection_grants h.fit ha
  | deleteConnection slot tcid => exact h.grant fun a ha => deleteConnection_grants h.fit ha
  | sendData slot tcid data => exact h.grant fun a ha => sendData_grants h.fit ha
  | create slot tcid resource => exact h.settle fun a ha => SessionLayer.create_extends ha
  | destroy id => exact h.settle fun a ha => SessionLayer.destroy_extends ha
  | sendApdu id apdu => exact h.settle fun a ha => SessionLayer.sendApdu_extends ha
  | broadcast resource apdu => exact h.extend (SessionLayer.sendEach_extends ..)
  | poll now => exact (h.poll handler now).1

theorem after (handler : Handler (η × ω)) (h : Grounded link r) (calls : List StackCall) :
    Grounded link (r.after link handler calls) := by
  induction calls generalizing r with
  | nil => exact h
  | cons call calls ih => exact ih (h.perform handler call)

end Grounded

/-- After every poll of the session layer, every session is on a connection that is active or in
deletion, if no module has ended this connection with a reply that could not be written. -/
theorem session_on_open_connection (link : Link ω) (handler : Handler (η × ω))
    (maxSlots maxConnections maxSessions : Nat) (world : ω) (state : η) (calls : List StackCall)
    (now : Nat) :
    let r := after link handler (calls ++ [.poll now])
      (start maxSlots maxConnections maxSessions world state)
    ∀ id s, r.layer.table.get? id = some s →
      (¬ ∃ m ∈ r.met, m.Unanswered link id.slot id.tcid) →
      r.layer.transport.connectionState id.slot id.tcid = some .active ∨
        r.layer.transport.connectionState id.slot id.tcid = some .deletion := by
  intro r id s session answered
  have hbefore := (Grounded.start link maxSlots maxConnections maxSessions world state).after
    handler calls
  have hpoll := hbefore.poll handler now
  have hr : r = perform link handler
      (after link handler calls (start maxSlots maxConnections maxSessions world state))
      (.poll now) := by
    change after link handler (calls ++ [.poll now]) _ = _
    rw [after, List.foldl_append]
    rfl
  rw [← hr] at hpoll
  obtain ⟨hgrounded, hevents⟩ := hpoll
  rw [TransportRun.connectionState_iff_openAt]
  have hsession := hgrounded.sessions id (by rw [session]; rfl) answered
  rw [hevents] at hsession
  rcases hsession with hopen | hclosed
  · exact hopen
  · cases hclosed

/-- A handler that has every resource and keeps nothing. -/
def agreeable : Handler (Unit × List (Option Bytes)) where
  lookup _ requested s := (.ok requested, s)
  event _ s := s

/-- A module agrees to its first connection and then asks for a session on it. -/
def askingModule : List (Option Bytes) :=
  [none, some (Connection.control .createTcReply 1 none), some [0xA0, 7, 1, 0x91, 4, 0, 1, 0, 0x41]]

def greetingCalls : List StackCall := [.register 0 0 .standard, .poll 0, .poll 1, .poll 2]

def askedRun : StackRun (List (Option Bytes)) Unit :=
  after (TransportRun.refusing fun _ => false) agreeable (greetingCalls ++ [.poll 3])
    (start 1 1 10 askingModule ())

theorem session_on_open_connection_askedRun :
    ∃ s, askedRun.layer.table.get? ⟨0, 1, 1⟩ = some s ∧
      (¬ ∃ m ∈ askedRun.met, m.Unanswered (TransportRun.refusing fun _ => false) 0 1) ∧
      (askedRun.layer.transport.connectionState 0 1 = some .active ∨
        askedRun.layer.transport.connectionState 0 1 = some .deletion) := by
  obtain ⟨s, hs⟩ : ∃ s, askedRun.layer.table.get? ⟨0, 1, 1⟩ = some s :=
    Option.isSome_iff_exists.mp rfl
  have hanswered :
      ¬ ∃ m ∈ askedRun.met, m.Unanswered (TransportRun.refusing fun _ => false) 0 1 := by
    rintro ⟨m, -, -, -, -, -, text, htext⟩
    cases htext
  exact ⟨s, hs, hanswered, session_on_open_connection _ _ _ _ _ _ _ _ _ _ s hs hanswered⟩

end StackRun

end DvbHost.Ci
