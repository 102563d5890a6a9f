import DvbHost.Ci.Session
import DvbHost.Proofs.Ci.SessionTable
import DvbHost.Proofs.Outcome

/-!
# Runs of a session layer

A run is any list of calls and polls, each with whatever carrier there is at that time. `Change`
says once what a single thing that happens can do to the table of sessions, and what is told of it;
`Receives` says which of the changes a unit of the module makes. Nothing is assumed of the carrier,
of the handler or of the transport events.
-/

namespace DvbHost.Ci

set_option autoImplicit false

variable {τ η : Type}

/-! ## What can happen -/

/-- A handler that also writes down what it is told, in order. -/
def Handler.recorded (h : Handler η) : Handler (η × List SessionEvent) where
  lookup slot requested s :=
    ((h.lookup slot requested s.1).1, (h.lookup slot requested s.1).2, s.2)
  event e s := (h.event e s.1, s.2 ++ [e])

/-- What the host asks of a session layer, or what the transport layer tells it in a poll. -/
inductive Activity where
  | create (slot : Nat) (tcid : UInt8) (resource : ResourceId)
  | destroy (id : SessionId)
  | sendApdu (id : SessionId) (apdu : Bytes)
  | broadcast (resource : ResourceId) (apdu : Bytes)
  | poll (events : List TransportEvent)

/-- What becomes of a session layer and its handler. A call that fails leaves both as they are. -/
def Activity.perform (carrier : Carrier τ) (h : Handler η) (d : Dialogue τ η) :
    Activity → Dialogue τ η
  | .create slot tcid resource =>
    match d.layer.create carrier slot tcid resource with
    | .ok (_, l) => { d with layer := l }
    | .error _ => d
  | .destroy id =>
    match d.layer.destroy carrier id with
    | .ok l => { d with layer := l }
    | .error _ => d
  | .sendApdu id apdu =>
    match d.layer.sendApdu carrier id apdu with
    | .ok l => { d with layer := l }
    | .error _ => d
  | .broadcast resource apdu => { d with layer := (d.layer.broadcast carrier resource apdu).2 }
  | .poll events => (Dialogue.processAll carrier h events d none).1

/-- An activity, and the carrier it meets. Others use the carrier too, so its state is any. -/
structure Occasion (τ : Type) where
  carrier : Carrier τ
  transport : τ
  activity : Activity

def Occasion.perform (h : Handler η) (d : Dialogue τ η) (o : Occasion τ) : Dialogue τ η :=
  o.activity.perform o.carrier h { d with layer := { d.layer with transport := o.transport } }

/-- One occasion after the other. -/
def Dialogue.run (h : Handler η) (os : List (Occasion τ)) (d : Dialogue τ η) : Dialogue τ η :=
  os.foldl (Occasion.perform h) d

/-- A poll over a transport layer is such an occasion: its events are those that the transport
layer tells. -/
theorem SessionLayer.poll_eq_perform {ω : Type} (link : Link ω) (h : Handler η) (now : Nat)
    (l : SessionLayer TransportLayer) (world : ω) (start : ω → η) :
    (l.poll link h now world start).1 =
      Occasion.perform h ⟨l, start (l.transport.poll link now world).2.2⟩
        ⟨TransportLayer.carrier, (l.transport.poll link now world).1,
          .poll (l.transport.poll link now world).2.1⟩ := rfl

/-! ## What a single thing does to the table -/

/-- A table, what is told, and the table after it. -/
inductive SessionTable.Change : SessionTable → List SessionEvent → SessionTable → Prop
  | asked {t : SessionTable} {slot : Nat} {tcid : UInt8} {number : UInt16} (resource : ResourceId)
      (free : t.allocate slot tcid = .ok number) :
      Change t [] (t.insert ⟨slot, tcid, number⟩ ⟨resource, .creating⟩)
  | ending {t : SessionTable} {id : SessionId} {s : Session} (found : t.get? id = some s)
      (active : s.phase = .active) : Change t [] (t.setPhase id .closing)
  | data {t : SessionTable} {id : SessionId} {resource : ResourceId} (octets : Bytes)
      (active : t.resourceOf id = some resource) : Change t [.data id resource octets] t
  | opened {t : SessionTable} {slot : Nat} {tcid : UInt8} {number : UInt16} (resource : ResourceId)
      (free : t.allocate slot tcid = .ok number) :
      Change t [.opened ⟨slot, tcid, number⟩ resource]
        (t.insert ⟨slot, tcid, number⟩ ⟨resource, .active⟩)
  | agreed {t : SessionTable} {id : SessionId} {s : Session} (resource : ResourceId)
      (found : t.get? id = some s) (creating : s.phase = .creating) :
      Change t [.created id resource .ok] (t.setPhase id .active)
  | refused {t : SessionTable} {id : SessionId} {s : Session} (resource : ResourceId)
      {status : SessionStatus} (found : t.get? id = some s) (creating : s.phase = .creating)
      (failed : status ≠ .ok) : Change t [.created id resource status] (t.remove id)
  | closed {t : SessionTable} {id : SessionId} {s : Session} (found : t.get? id = some s)
      (wasOpen : s.isOpen = true) : Change t [.closed id s.resource] (t.remove id)
  | withdrawn {t : SessionTable} {id : SessionId} {s : Session} (found : t.get? id = some s)
      (notOpen : s.isOpen = false) : Change t [] (t.remove id)
  | disconnected (t : SessionTable) (slot : Nat) (tcid : UInt8) :
      Change t (t.farewells slot tcid) (t.removeConnection slot tcid)

/-- Changes in turn. -/
inductive SessionTable.Changes : SessionTable → List SessionEvent → SessionTable → Prop
  | refl (t : SessionTable) : Changes t [] t
  | step {t t' t'' : SessionTable} {told told' : List SessionEvent} (before : Changes t told t')
      (change : Change t' told' t'') : Changes t (told ++ told') t''

namespace SessionTable

/-- What a unit of the module does to a table, and what is told of it. -/
def Receives (t : SessionTable) (slot : Nat) (tcid : UInt8) (unit : Spdu)
    (told : List SessionEvent) (t' : SessionTable) : Prop :=
  match unit with
  | .sessionNumber number octets =>
    match t.resourceOf ⟨slot, tcid, number⟩ with
    | some resource => told = [.data ⟨slot, tcid, number⟩ resource octets] ∧ t' = t
    | none => told = [] ∧ t' = t
  | .openSessionRequest _ =>
    (told = [] ∧ t' = t) ∨
      ∃ resource number, t.allocate slot tcid = .ok number ∧
        told = [.opened ⟨slot, tcid, number⟩ resource] ∧
        t' = t.insert ⟨slot, tcid, number⟩ ⟨resource, .active⟩
  | .createSessionResponse status resource number =>
    if (t.get? ⟨slot, tcid, number⟩).map Session.phase = some .creating then
      told = [.created ⟨slot, tcid, number⟩ resource status] ∧
        t' = if status = .ok then t.setPhase ⟨slot, tcid, number⟩ .active
          else t.remove ⟨slot, tcid, number⟩
    else told = [] ∧ t' = t
  | .closeSessionRequest number =>
    match t.get? ⟨slot, tcid, number⟩ with
    | some s =>
      told = (if s.isOpen then [.closed ⟨slot, tcid, number⟩ s.resource] else []) ∧
        t' = t.remove ⟨slot, tcid, number⟩
    | none => told = [] ∧ t' = t
  | .closeSessionResponse _ number =>
    match t.get? ⟨slot, tcid, number⟩ with
    | some s =>
      if s.phase = .closing then
        told = [.closed ⟨slot, tcid, number⟩ s.resource] ∧ t' = t.remove ⟨slot, tcid, number⟩
      else told = [] ∧ t' = t
    | none => told = [] ∧ t' = t
  | .openSessionResponse .. | .createSession .. => told = [] ∧ t' = t

theorem Changes.single {t t' : SessionTable} {told : List SessionEvent} (h : Change t told t') :
    Changes t told t' := Changes.step (.refl t) h

theorem Changes.trans {t t' t'' : SessionTable} {told told' : List SessionEvent}
    (h : Changes t told t') (h' : Changes t' told' t'') : Changes t (told ++ told') t'' := by
  induction h' with
  | refl => rwa [List.append_nil]
  | step _ change ih =>
    rw [← List.append_assoc]
    exact ih.step change

/-- A unit of the module changes nothing and nothing is told of it, or it makes one change. -/
theorem Receives.change {t t' : SessionTable} {slot : Nat} {tcid : UInt8} {unit : Spdu}
    {told : List SessionEvent} (h : t.Receives slot tcid unit told t') :
    told = [] ∧ t' = t ∨ Change t told t' := by
  cases unit with
  | sessionNumber number octets =>
    rw [Receives] at h
    split at h
    · next resource hr =>
      obtain ⟨rfl, rfl⟩ := h
      exact .inr (.data octets hr)
    · exact .inl h
  | openSessionRequest requested =>
    rcases h with h | ⟨resource, number, free, rfl, rfl⟩
    · exact .inl h
    · exact .inr (.opened resource free)
  | createSessionResponse status resource number =>
    rw [Receives] at h
    split at h
    · next hp =>
      obtain ⟨s, hs, hc⟩ := Option.map_eq_some_iff.mp hp
      obtain ⟨rfl, rfl⟩ := h
      split
      · next hok =>
        rw [hok]
        exact .inr (.agreed resource hs hc)
      · next hok => exact .inr (.refused resource hs hc hok)
    · exact .inl h
  | closeSessionRequest number =>
    rw [Receives] at h
    split at h
    · next s hs =>
      obtain ⟨rfl, rfl⟩ := h
      split
      · next ho => exact .inr (.closed hs ho)
      · next ho => exact .inr (.withdrawn hs (Bool.not_eq_true _ ▸ ho))
    · exact .inl h
  | closeSessionResponse status number =>
    rw [Receives] at h
    split at h
    · next s hs =>
      split at h
      · next hp =>
        obtain ⟨rfl, rfl⟩ := h
        refine .inr (.closed hs ?_)
        rw [Session.isOpen, hp]
        rfl
      · exact .inl h
    · exact .inl h
  | openSessionResponse status resource number => exact .inl h
  | createSession resource number => exact .inl h

/-- At most one change is a number of changes. -/
theorem Changes.of_change {t t' : SessionTable} {told : List SessionEvent}
    (h : told = [] ∧ t' = t ∨ Change t told t') : Changes t told t' := by
  rcases h with ⟨rfl, rfl⟩ | h
  · exact .refl t'
  · exact .single h

/-- What every change keeps, every number of changes keeps. -/
theorem Changes.invariant {P : SessionTable → List SessionEvent → Prop}
    (keeps : ∀ {t t' told told'}, P t told → Change t told' t' → P t' (told ++ told'))
    {t t' : SessionTable} {told told' : List SessionEvent} (h : Changes t told' t')
    (start : P t told) : P t' (told ++ told') := by
  induction h with
  | refl => rwa [List.append_nil]
  | step _ change ih =>
    rw [← List.append_assoc]
    exact keeps ih change

end SessionTable

/-! ## What the functions do -/

theorem SessionLayer.send_table {carrier : Carrier τ} {l l' : SessionLayer τ} {slot : Nat}
    {tcid : UInt8} {unit : Spdu} (h : l.send carrier slot tcid unit = .ok l') :
    l'.table = l.table := by
  rw [SessionLayer.send] at h
  cases hs : carrier.send slot tcid unit.toBytes l.transport with
  | error e => rw [hs] at h; cases h
  | ok t => rw [hs] at h; cases h; rfl

namespace Dialogue

open SessionTable

/-- What is told on the way from the first state to the second, and the table then, are in a given
relation. -/
def Reports (d d' : Dialogue τ (η × List SessionEvent))
    (r : List SessionEvent → SessionTable → Prop) : Prop :=
  ∃ told, d'.handler.2 = d.handler.2 ++ told ∧ r told d'.layer.table

variable {d d' : Dialogue τ (η × List SessionEvent)}

theorem Reports.silent {r : List SessionEvent → SessionTable → Prop}
    (ht : d'.handler.2 = d.handler.2) (hr : r [] d'.layer.table) : Reports d d' r :=
  ⟨[], by rw [ht, List.append_nil], hr⟩

variable (carrier : Carrier τ) (h : Handler η)

/-- Either the carrier refuses a unit, or the rest goes on with the same table. -/
theorem sending_cases {slot : Nat} {tcid : UInt8} {unit : Spdu}
    {next : Dialogue τ (η × List SessionEvent) → Dialogue τ (η × List SessionEvent)} :
    (d.sending carrier slot tcid unit next).1 = d ∨
      ∃ l : SessionLayer τ, l.table = d.layer.table ∧
        (d.sending carrier slot tcid unit next).1 = next { d with layer := l } := by
  rw [sending]
  cases hs : d.layer.send carrier slot tcid unit with
  | error e => exact .inl rfl
  | ok l => exact .inr ⟨l, SessionLayer.send_table hs, rfl⟩

theorem receiveData_reports (slot : Nat) (tcid : UInt8) (number : UInt16) (octets : Bytes) :
    Reports d (d.receiveData h.recorded ⟨slot, tcid, number⟩ octets).1
      (d.layer.table.Receives slot tcid (.sessionNumber number octets)) := by
  rw [receiveData]
  split
  · next hr =>
    refine .silent rfl ?_
    rw [Receives, hr]
    exact ⟨rfl, rfl⟩
  · next resource hr =>
    refine ⟨_, rfl, ?_⟩
    rw [Receives, hr]
    exact ⟨rfl, rfl⟩

/-- An offer asks the handler and tells it nothing; a number that is offered is free. -/
theorem offer_spec (d : Dialogue τ (η × List SessionEvent)) (slot : Nat) (tcid : UInt8)
    (requested : ResourceId) :
    (d.offer h.recorded slot tcid requested).2.layer = d.layer ∧
    (d.offer h.recorded slot tcid requested).2.handler.2 = d.handler.2 ∧
    ∀ p, (d.offer h.recorded slot tcid requested).1 = .ok p →
      d.layer.table.allocate slot tcid = .ok p.2 := by
  rw [offer]
  rcases hx : h.recorded.lookup slot requested d.handler with ⟨_ | resource, s⟩
  · have hs : d.handler.2 = s.2 := congrArg (fun x => x.2.2) hx
    exact ⟨rfl, hs.symm, fun _ hp => nomatch hp⟩
  · have hs : d.handler.2 = s.2 := congrArg (fun x => x.2.2) hx
    dsimp only
    cases ha : d.layer.table.allocate slot tcid with
    | error e => exact ⟨rfl, hs.symm, fun _ hp => nomatch hp⟩
    | ok number =>
      refine ⟨rfl, hs.symm, ?_⟩
      rintro p hp
      obtain rfl := Except.ok.inj hp
      rfl

theorem openRequest_reports (slot : Nat) (tcid : UInt8) (requested : ResourceId) :
    Reports d (d.openRequest carrier h.recorded slot tcid requested).1
      (d.layer.table.Receives slot tcid (.openSessionRequest requested)) := by
  have hspec := offer_spec h d slot tcid requested
  rw [openRequest]
  generalize d.offer h.recorded slot tcid requested = offered at hspec ⊢
  obtain ⟨answer, o⟩ := offered
  obtain ⟨hl, ht, hfree⟩ := hspec
  have hsilent : ∀ l : SessionLayer τ, l.table = d.layer.table → Reports d { o with layer := l }
      (d.layer.table.Receives slot tcid (.openSessionRequest requested)) :=
    fun l hl' => .silent ht (.inl ⟨rfl, hl'⟩)
  have htable : o.layer.table = d.layer.table := congrArg SessionLayer.table hl
  cases answer with
  | error status =>
    rcases sending_cases carrier with hsent | ⟨l, hl', hsent⟩
    · exact hsent ▸ hsilent o.layer htable
    · exact hsent ▸ hsilent l (hl'.trans htable)
  | ok given =>
    obtain ⟨resource, number⟩ := given
    rcases sending_cases carrier with hsent | ⟨l, hl', hsent⟩
    · exact hsent ▸ hsilent o.layer htable
    · refine hsent ▸ ⟨_, congrArg (· ++ _) ht, .inr ⟨resource, number, hfree _ rfl, rfl, ?_⟩⟩
      change l.table.insert _ _ = _
      rw [hl', htable]

theorem createResponse_reports (slot : Nat) (tcid : UInt8) (number : UInt16) (resource : ResourceId)
    (status : SessionStatus) :
    Reports d (d.createResponse h.recorded ⟨slot, tcid, number⟩ resource status).1
      (d.layer.table.Receives slot tcid (.createSessionResponse status resource number)) := by
  rw [createResponse]
  split
  · next hp =>
    refine .silent rfl ?_
    rw [Receives, if_neg hp]
    exact ⟨rfl, rfl⟩
  · next hp =>
    refine ⟨_, rfl, ?_⟩
    rw [Receives, if_pos (Decidable.not_not.mp hp)]
    exact ⟨rfl, rfl⟩

theorem closeRequest_reports (slot : Nat) (tcid : UInt8) (number : UInt16) :
    Reports d (d.closeRequest carrier h.recorded ⟨slot, tcid, number⟩).1
      (d.layer.table.Receives slot tcid (.closeSessionRequest number)) := by
  rw [closeRequest]
  split
  · next hs =>
    have hsilent : ∀ l : SessionLayer τ, l.table = d.layer.table → Reports d { d with layer := l }
        (d.layer.table.Receives slot tcid (.closeSessionRequest number)) := by
      intro l hl
      refine .silent rfl ?_
      rw [Receives, hs]
      exact ⟨rfl, hl⟩
    rcases sending_cases carrier with hsent | ⟨l, hl, hsent⟩
    · exact hsent ▸ hsilent d.layer rfl
    · exact hsent ▸ hsilent l hl
  · next s hs =>
    let told : Dialogue τ (η × List SessionEvent) :=
      if s.isOpen then d.tell h.recorded (.closed ⟨slot, tcid, number⟩ s.resource) else d
    have htable : told.layer = d.layer := by
      dsimp only [told]
      split <;> rfl
    have hgone : ∀ l : SessionLayer τ, l.table = told.layer.table.remove ⟨slot, tcid, number⟩ →
        Reports d { told with layer := l }
          (d.layer.table.Receives slot tcid (.closeSessionRequest number)) := by
      intro l hl
      refine ⟨if s.isOpen then [.closed ⟨slot, tcid, number⟩ s.resource] else [], ?_, ?_⟩
      · dsimp only [told]
        split
        · rfl
        · exact (List.append_nil _).symm
      · rw [Receives, hs]
        exact ⟨rfl, htable ▸ hl⟩
    rcases sending_cases carrier with hsent | ⟨l, hl, hsent⟩
    · exact hsent ▸ hgone _ rfl
    · exact hsent ▸ hgone l hl

theorem closeResponse_reports (slot : Nat) (tcid : UInt8) (status : SessionStatus)
    (number : UInt16) :
    Reports d (d.closeResponse h.recorded ⟨slot, tcid, number⟩).1
      (d.layer.table.Receives slot tcid (.closeSessionResponse status number)) := by
  rw [closeResponse]
  split
  · next hs =>
    refine .silent rfl ?_
    rw [Receives, hs]
    exact ⟨rfl, rfl⟩
  · next s hs =>
    split
    · next hp =>
      refine ⟨_, rfl, ?_⟩
      rw [Receives, hs]
      exact (if_pos hp).mpr ⟨rfl, rfl⟩
    · next hp =>
      refine .silent rfl ?_
      rw [Receives, hs]
      exact (if_neg hp).mpr ⟨rfl, rfl⟩

theorem receive_reports (slot : Nat) (tcid : UInt8) (unit : Spdu) :
    Reports d (d.receive carrier h.recorded slot tcid unit).1
      (d.layer.table.Receives slot tcid unit) := by
  cases unit with
  | sessionNumber number body => exact receiveData_reports h slot tcid number body
  | openSessionRequest requested => exact openRequest_reports carrier h slot tcid requested
  | createSessionResponse status resource number =>
    exact createResponse_reports h slot tcid number resource status
  | closeSessionRequest number => exact closeRequest_reports carrier h slot tcid number
  | closeSessionResponse status number => exact closeResponse_reports h slot tcid status number
  | openSessionResponse status resource number => exact .silent rfl ⟨rfl, rfl⟩
  | createSession resource number => exact .silent rfl ⟨rfl, rfl⟩

/-- The handler is told events one by one. -/
theorem foldl_tell (events : List SessionEvent) (d : Dialogue τ (η × List SessionEvent)) :
    (events.foldl (tell h.recorded) d).layer = d.layer ∧
    (events.foldl (tell h.recorded) d).handler.2 = d.handler.2 ++ events := by
  induction events generalizing d with
  | nil => exact ⟨rfl, (List.append_nil _).symm⟩
  | cons e events ih =>
    obtain ⟨hl, ht⟩ := ih (d.tell h.recorded e)
    refine ⟨hl, ?_⟩
    rw [List.foldl_cons, ht]
    change (d.handler.2 ++ [e]) ++ events = _
    rw [List.append_assoc]
    rfl

theorem closeConnection_reports (slot : Nat) (tcid : UInt8) :
    Reports d (d.closeConnection h.recorded slot tcid) fun told t =>
      told = d.layer.table.farewells slot tcid ∧ t = d.layer.table.removeConnection slot tcid := by
  obtain ⟨hl, ht⟩ := foldl_tell h (d.layer.table.farewells slot tcid)
    (d.withTable (·.removeConnection slot tcid))
  exact ⟨_, ht, rfl, congrArg SessionLayer.table hl⟩

end Dialogue

/-! ## Calls -/

namespace SessionLayer

variable {carrier : Carrier τ} {l l' : SessionLayer τ}

/-- A session that is asked for gets a free number. -/
theorem table_of_create {slot : Nat} {tcid : UInt8} {resource : ResourceId} {id : SessionId}
    (h : l.create carrier slot tcid resource = .ok (id, l')) :
    ∃ number, l.table.allocate slot tcid = .ok number ∧ id = ⟨slot, tcid, number⟩ ∧
      l'.table = l.table.insert ⟨slot, tcid, number⟩ ⟨resource, .creating⟩ := by
  rw [create] at h
  obtain ⟨number, ha, h⟩ := Outcome.ok_of_bind h
  obtain ⟨l₁, hs, h⟩ := Outcome.ok_of_bind h
  obtain ⟨rfl, rfl⟩ := Prod.mk.inj (Except.ok.inj h)
  exact ⟨number, ha, rfl, by rw [send_table hs]⟩

/-- The end of a session is asked for only while it is active. -/
theorem table_of_destroy {id : SessionId} (h : l.destroy carrier id = .ok l') :
    ∃ s, l.table.get? id = some s ∧ s.phase = .active ∧
      l'.table = l.table.setPhase id .closing := by
  rw [destroy] at h
  obtain ⟨hsome, h⟩ := Outcome.ok_of_check h
  obtain ⟨l₁, hs, h⟩ := Outcome.ok_of_bind h
  obtain rfl := Except.ok.inj h
  obtain ⟨resource, hr⟩ : ∃ resource, l.table.resourceOf id = some resource := by
    cases hr : l.table.resourceOf id with
    | none => exact absurd (congrArg Option.isNone hr) hsome
    | some resource => exact ⟨resource, rfl⟩
  obtain ⟨s, hget, hphase, -⟩ := SessionTable.resourceOf_eq_some hr
  exact ⟨s, hget, hphase, by rw [send_table hs]⟩

theorem table_of_sendApdu {id : SessionId} {apdu : Bytes}
    (h : l.sendApdu carrier id apdu = .ok l') : l'.table = l.table :=
  send_table (Outcome.ok_of_check h).2

theorem sendEach_table (carrier : Carrier τ) (apdu : Bytes) (ids : List SessionId)
    (result : Except CiError Nat) (l : SessionLayer τ) :
    (sendEach carrier apdu ids result l).2.table = l.table := by
  induction ids generalizing result l with
  | nil => rfl
  | cons id ids ih =>
    rw [sendEach]
    cases hs : l.sendApdu carrier id apdu with
    | ok l' => exact (ih _ l').trans (table_of_sendApdu hs)
    | error e => exact ih _ l

end SessionLayer

/-! ## Handlers that behave alike -/

variable {θ : Type}

/-- States of `h`, seen through `f`, are states of `h'` that answer alike and change alike. -/
structure Handler.Maps (f : η → θ) (h : Handler η) (h' : Handler θ) : Prop where
  lookup : ∀ slot requested s,
    h'.lookup slot requested (f s) =
      ((h.lookup slot requested s).1, f (h.lookup slot requested s).2)
  event : ∀ e s, h'.event e (f s) = f (h.event e s)

/-- Writing down changes nothing. -/
theorem Handler.recorded_maps (h : Handler η) : Handler.Maps Prod.fst h.recorded h :=
  ⟨fun _ _ _ => rfl, fun _ _ => rfl⟩

namespace Dialogue

def map (f : η → θ) (d : Dialogue τ η) : Dialogue τ θ := ⟨d.layer, f d.handler⟩

variable {f : η → θ} {h : Handler η} {h' : Handler θ} (hm : Handler.Maps f h h')
variable (carrier : Carrier τ) (d : Dialogue τ η)

theorem map_sending {slot : Nat} {tcid : UInt8} {unit : Spdu} {next : Dialogue τ η → Dialogue τ η}
    {next' : Dialogue τ θ → Dialogue τ θ} (hnext : ∀ d, (next d).map f = next' (d.map f)) :
    (d.sending carrier slot tcid unit next).1.map f =
      ((d.map f).sending carrier slot tcid unit next').1 := by
  obtain ⟨l, s⟩ := d
  simp only [sending, map]
  cases l.send carrier slot tcid unit with
  | error e => rfl
  | ok l' => exact hnext ⟨l', s⟩

include hm

theorem map_tell (e : SessionEvent) : (d.tell h e).map f = (d.map f).tell h' e := by
  rw [tell, tell, map, map, hm.event]

theorem map_receiveData (id : SessionId) (octets : Bytes) :
    (d.receiveData h id octets).1.map f = ((d.map f).receiveData h' id octets).1 := by
  have htable : (d.map f).layer.table = d.layer.table := rfl
  rw [receiveData, receiveData, htable]
  cases d.layer.table.resourceOf id with
  | none => rfl
  | some resource => exact map_tell hm d _

theorem map_offer (slot : Nat) (tcid : UInt8) (requested : ResourceId) :
    (d.map f).offer h' slot tcid requested =
      ((d.offer h slot tcid requested).1, (d.offer h slot tcid requested).2.map f) := by
  obtain ⟨l, s⟩ := d
  simp only [offer, map, hm.lookup]
  rcases h.lookup slot requested s with ⟨_ | resource, s'⟩
  · rfl
  · dsimp only
    cases l.table.allocate slot tcid <;> rfl

theorem map_openRequest (slot : Nat) (tcid : UInt8) (requested : ResourceId) :
    (d.openRequest carrier h slot tcid requested).1.map f =
      ((d.map f).openRequest carrier h' slot tcid requested).1 := by
  rw [openRequest, openRequest, map_offer hm]
  generalize d.offer h slot tcid requested = offered
  obtain ⟨status | ⟨resource, number⟩, o⟩ := offered
  · exact map_sending carrier o fun _ => rfl
  · exact map_sending carrier o fun o => map_tell hm _ _

theorem map_createResponse (id : SessionId) (resource : ResourceId) (status : SessionStatus) :
    (d.createResponse h id resource status).1.map f =
      ((d.map f).createResponse h' id resource status).1 := by
  have htable : (d.map f).layer.table = d.layer.table := rfl
  rw [createResponse, createResponse, htable]
  by_cases hp : (d.layer.table.get? id).map Session.phase ≠ some .creating
  · rw [if_pos hp, if_pos hp]
  · rw [if_neg hp, if_neg hp]
    exact map_tell hm _ _

theorem map_closeRequest (id : SessionId) :
    (d.closeRequest carrier h id).1.map f = ((d.map f).closeRequest carrier h' id).1 := by
  have htable : (d.map f).layer.table = d.layer.table := rfl
  rw [closeRequest, closeRequest, htable]
  cases d.layer.table.get? id with
  | none => exact map_sending carrier d fun _ => rfl
  | some s =>
    dsimp only
    by_cases ho : s.isOpen = true
    · rw [if_pos ho, if_pos ho, ← map_tell hm]
      exact map_sending carrier _ fun _ => rfl
    · rw [if_neg ho, if_neg ho]
      exact map_sending carrier _ fun _ => rfl

theorem map_closeResponse (id : SessionId) :
    (d.closeResponse h id).1.map f = ((d.map f).closeResponse h' id).1 := by
  have htable : (d.map f).layer.table = d.layer.table := rfl
  rw [closeResponse, closeResponse, htable]
  cases d.layer.table.get? id with
  | none => rfl
  | some found =>
    dsimp only
    by_cases hp : found.phase = .closing
    · rw [if_pos hp, if_pos hp]
      exact map_tell hm _ _
    · rw [if_neg hp, if_neg hp]

theorem map_receive (slot : Nat) (tcid : UInt8) (unit : Spdu) :
    (d.receive carrier h slot tcid unit).1.map f =
      ((d.map f).receive carrier h' slot tcid unit).1 := by
  cases unit with
  | sessionNumber number body => exact map_receiveData hm d _ body
  | openSessionRequest requested => exact map_openRequest hm carrier d slot tcid requested
  | createSessionResponse status resource number => exact map_createResponse hm d _ resource status
  | closeSessionRequest number => exact map_closeRequest hm carrier d _
  | closeSessionResponse status number => exact map_closeResponse hm d _
  | openSessionResponse status resource number => rfl
  | createSession resource number => rfl

theorem map_foldl_tell (events : List SessionEvent) :
    (events.foldl (tell h) d).map f = events.foldl (tell h') (d.map f) := by
  induction events generalizing d with
  | nil => rfl
  | cons e events ih => rw [List.foldl_cons, ih, map_tell hm, List.foldl_cons]

theorem map_closeConnection (slot : Nat) (tcid : UInt8) :
    (d.closeConnection h slot tcid).map f = (d.map f).closeConnection h' slot tcid :=
  map_foldl_tell hm _ _

theorem map_process (e : TransportEvent) :
    (d.process carrier h e).1.map f = ((d.map f).process carrier h' e).1 := by
  cases e with
  | connection slot tcid notice =>
    cases notice with
    | opened => rfl
    | data octets =>
      rw [process, process]
      cases Spdu.read octets with
      | error e => rfl
      | ok unit => exact map_receive hm carrier d slot tcid unit
    | closed => exact map_closeConnection hm d slot tcid
  | slotClosed slot =>
    have hall : ∀ (tcids : List UInt8) (d : Dialogue τ η),
        (tcids.foldl (closeConnection h slot) d).map f =
          tcids.foldl (closeConnection h' slot) (d.map f) := by
      intro tcids
      induction tcids with
      | nil => exact fun d => rfl
      | cons tcid tcids ih =>
        intro d
        rw [List.foldl_cons, ih, map_closeConnection hm, List.foldl_cons]
    exact hall _ d

theorem map_processAll (events : List TransportEvent) (error error' : Option CiError) :
    (processAll carrier h events d error).1.map f =
      (processAll carrier h' events (d.map f) error').1 := by
  induction events generalizing d error error' with
  | nil => rfl
  | cons e events ih =>
    have he := map_process hm carrier d e
    rw [processAll, processAll]
    generalize d.process carrier h e = processed at he ⊢
    generalize (d.map f).process carrier h' e = processed' at he ⊢
    obtain ⟨d₁, _ | _⟩ := processed
    all_goals
      obtain ⟨d₂, _ | _⟩ := processed'
      all_goals
        obtain rfl : d₁.map f = d₂ := he
        exact ih d₁ _ _

theorem map_perform (o : Occasion τ) : (o.perform h d).map f = o.perform h' (d.map f) := by
  obtain ⟨carrier, transport, activity⟩ := o
  cases activity with
  | create slot tcid resource =>
    simp only [Occasion.perform, Activity.perform, map]
    cases SessionLayer.create carrier { d.layer with transport } slot tcid resource <;> rfl
  | destroy id =>
    simp only [Occasion.perform, Activity.perform, map]
    cases SessionLayer.destroy carrier { d.layer with transport } id <;> rfl
  | sendApdu id apdu =>
    simp only [Occasion.perform, Activity.perform, map]
    cases SessionLayer.sendApdu carrier { d.layer with transport } id apdu <;> rfl
  | broadcast resource apdu => rfl
  | poll events => exact map_processAll hm carrier _ events none none

theorem map_run (os : List (Occasion τ)) : (run h os d).map f = run h' os (d.map f) := by
  induction os generalizing d with
  | nil => rfl
  | cons o os ih =>
    change (run h os (o.perform h d)).map f = _
    rw [ih, map_perform hm]
    rfl

omit hm

/-- The dialogue with the handler that does not write down. -/
def unrecorded (d : Dialogue τ (η × List SessionEvent)) : Dialogue τ η := ⟨d.layer, d.handler.1⟩

/-- A run with a handler that writes down is the run with the handler alone. -/
theorem unrecorded_run (h : Handler η) (d : Dialogue τ (η × List SessionEvent))
    (os : List (Occasion τ)) : (run h.recorded os d).unrecorded = run h os d.unrecorded :=
  map_run h.recorded_maps d os

end Dialogue

end DvbHost.Ci
