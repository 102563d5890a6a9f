import DvbHost.Proofs.Ci.SessionRun

/-!
# The passages of a session layer

A run is written down in the smallest pieces in which the table of sessions can change: one call,
one unit of the module, the end of one connection. `SessionTable.Undergoes` says what each of them
does to the table and what is told of it, and by `run_walks` a run is nothing but such pieces, each
beginning where the one before it ends.
-/

namespace DvbHost.Ci

set_option autoImplicit false

variable {τ η : Type}

/-- What can change a table of sessions. -/
inductive Cause where
  /-- The host has asked for a session and has its name. -/
  | created (id : SessionId)
  /-- Any other call, and any that fails. -/
  | called
  /-- A unit of the module. -/
  | received (slot : Nat) (tcid : UInt8) (unit : Spdu)
  /-- A connection has ended. -/
  | disconnected (slot : Nat) (tcid : UInt8)

structure Passage where
  cause : Cause
  before : SessionTable
  told : List SessionEvent
  after : SessionTable

/-! ## Writing it down -/

namespace Dialogue

variable (carrier : Carrier τ) (h : Handler η)

/-- From one state to another. The handler has written down all that it was told. -/
def passage (cause : Cause) (d d' : Dialogue τ (η × List SessionEvent)) : Passage :=
  ⟨cause, d.layer.table, d'.handler.2.drop d.handler.2.length, d'.layer.table⟩

/-- Connections of a slot end in turn. -/
def closePassages (slot : Nat) :
    List UInt8 → Dialogue τ (η × List SessionEvent) → List Passage
  | [], _ => []
  | tcid :: tcids, d =>
    let d' := d.closeConnection h.recorded slot tcid
    passage (.disconnected slot tcid) d d' :: closePassages slot tcids d'

def processPassages (d : Dialogue τ (η × List SessionEvent)) : TransportEvent → List Passage
  | .connection _ _ .opened => []
  | .connection slot tcid (.data octets) =>
    match Spdu.read octets with
    | .error _ => []
    | .ok unit =>
      [passage (.received slot tcid unit) d (d.receive carrier h.recorded slot tcid unit).1]
  | .connection slot tcid .closed =>
    [passage (.disconnected slot tcid) d (d.closeConnection h.recorded slot tcid)]
  | .slotClosed slot => closePassages h slot (d.layer.table.connectionsOf slot) d

/-- Events in turn. -/
def eventsPassages : List TransportEvent → Dialogue τ (η × List SessionEvent) → List Passage
  | [], _ => []
  | e :: es, d =>
    d.processPassages carrier h e ++ eventsPassages es (d.process carrier h.recorded e).1

end Dialogue

/-- What a call is to the table. -/
def Activity.cause (carrier : Carrier τ) (l : SessionLayer τ) : Activity → Cause
  | .create slot tcid resource =>
    match l.create carrier slot tcid resource with
    | .ok (id, _) => .created id
    | .error _ => .called
  | _ => .called

def Activity.passages (carrier : Carrier τ) (h : Handler η)
    (d : Dialogue τ (η × List SessionEvent)) : Activity → List Passage
  | .poll events => d.eventsPassages carrier h events
  | call => [d.passage (call.cause carrier d.layer) (call.perform carrier h.recorded d)]

def Occasion.passages (h : Handler η) (d : Dialogue τ (η × List SessionEvent)) (o : Occasion τ) :
    List Passage :=
  o.activity.passages o.carrier h { d with layer := { d.layer with transport := o.transport } }

/-- All passages of a run, in order. -/
def Dialogue.passages (h : Handler η) :
    List (Occasion τ) → Dialogue τ (η × List SessionEvent) → List Passage
  | [], _ => []
  | o :: os, d => o.passages h d ++ passages h os (o.perform h.recorded d)

/-! ## What a passage does -/

namespace SessionTable

/-- What a cause does to a table, and what is told of it. -/
def Undergoes (t : SessionTable) (cause : Cause) (told : List SessionEvent)
    (t' : SessionTable) : Prop :=
  match cause with
  | .created id =>
    told = [] ∧ ∃ resource, t.allocate id.slot id.tcid = .ok id.number ∧
      t' = t.insert id ⟨resource, .creating⟩
  | .called =>
    told = [] ∧ (t' = t ∨ ∃ id s, t.get? id = some s ∧ s.phase = .active ∧
      t' = t.setPhase id .closing)
  | .received slot tcid unit => t.Receives slot tcid unit told t'
  | .disconnected slot tcid => told = t.farewells slot tcid ∧ t' = t.removeConnection slot tcid

/-- Whatever happens makes one change, or none. -/
theorem Undergoes.change {t t' : SessionTable} {cause : Cause} {told : List SessionEvent}
    (h : t.Undergoes cause told t') : told = [] ∧ t' = t ∨ Change t told t' := by
  cases cause with
  | created id =>
    obtain ⟨rfl, resource, free, rfl⟩ := h
    exact .inr (.asked resource free)
  | called =>
    obtain ⟨rfl, rfl | ⟨id, s, found, active, rfl⟩⟩ := h
    · exact .inl ⟨rfl, rfl⟩
    · exact .inr (.ending found active)
  | received slot tcid unit => exact Receives.change h
  | disconnected slot tcid =>
    obtain ⟨rfl, rfl⟩ := h
    exact .inr (.disconnected t slot tcid)

theorem Undergoes.changes {t t' : SessionTable} {cause : Cause} {told : List SessionEvent}
    (h : t.Undergoes cause told t') : Changes t told t' := .of_change h.change

end SessionTable

/-- From one table to another by passages, each of which does what its cause does. -/
inductive Course : SessionTable → List Passage → SessionTable → Prop
  | nil (t : SessionTable) : Course t [] t
  | cons {p : Passage} {ps : List Passage} {t : SessionTable}
      (does : p.before.Undergoes p.cause p.told p.after) (rest : Course p.after ps t) :
      Course p.before (p :: ps) t

namespace Course

variable {t t' t'' : SessionTable} {p : Passage} {ps ps' : List Passage}

theorem single (does : p.before.Undergoes p.cause p.told p.after) :
    Course p.before [p] p.after := .cons does (.nil _)

theorem append (h : Course t ps t') (h' : Course t' ps' t'') : Course t (ps ++ ps') t'' := by
  induction h with
  | nil => exact h'
  | cons does _ ih => exact .cons does (ih h')

/-- A course through a list of passages goes through its parts. -/
theorem split (h : Course t (ps ++ ps') t'') : ∃ t', Course t ps t' ∧ Course t' ps' t'' := by
  induction ps generalizing t with
  | nil => exact ⟨t, .nil t, h⟩
  | cons p ps ih =>
    cases h with
    | cons does rest =>
      obtain ⟨t', hps, hps'⟩ := ih rest
      exact ⟨t', .cons does hps, hps'⟩

/-- By passages the table changes as it can change, and that is told. -/
theorem changes (h : Course t ps t') : SessionTable.Changes t (ps.flatMap Passage.told) t' := by
  induction h with
  | nil t => exact .refl t
  | cons does _ ih => exact does.changes.trans ih

end Course

/-! ## Runs are made of passages -/

namespace Dialogue

/-- The second state is reached from the first by changes of the table, and of nothing else was
told. -/
def Advances (d d' : Dialogue τ (η × List SessionEvent)) : Prop :=
  ∃ told, d'.handler.2 = d.handler.2 ++ told ∧
    SessionTable.Changes d.layer.table told d'.layer.table

/-- Passages lead from the first state to the second, and what was told in them is what was told. -/
structure Walks (d : Dialogue τ (η × List SessionEvent)) (ps : List Passage)
    (d' : Dialogue τ (η × List SessionEvent)) : Prop where
  course : Course d.layer.table ps d'.layer.table
  told : d'.handler.2 = d.handler.2 ++ ps.flatMap Passage.told

variable {d d' d'' : Dialogue τ (η × List SessionEvent)} {ps ps' : List Passage}

theorem Walks.refl (d : Dialogue τ (η × List SessionEvent)) : Walks d [] d :=
  ⟨.nil _, (List.append_nil _).symm⟩

theorem Walks.append (h : Walks d ps d') (h' : Walks d' ps' d'') : Walks d (ps ++ ps') d'' :=
  ⟨h.course.append h'.course, by rw [h'.told, h.told, List.flatMap_append, List.append_assoc]⟩

theorem Walks.advances (h : Walks d ps d') : Advances d d' :=
  ⟨ps.flatMap Passage.told, h.told, h.course.changes⟩

theorem Reports.walks {c : Cause} (hr : Reports d d' (d.layer.table.Undergoes c)) :
    Walks d [d.passage c d'] d' := by
  obtain ⟨told, ht, hdoes⟩ := hr
  have htold : (d.passage c d').told = told := by
    change d'.handler.2.drop d.handler.2.length = told
    rw [ht, List.drop_left]
  refine ⟨Course.single (p := d.passage c d') (htold ▸ hdoes), ?_⟩
  rw [List.flatMap_singleton, htold, ht]

/-- A call that leaves the table as it is. -/
theorem Reports.called (ht : d'.handler.2 = d.handler.2) (hl : d'.layer.table = d.layer.table) :
    Reports d d' (d.layer.table.Undergoes .called) := .silent ht ⟨rfl, .inl hl⟩

variable (carrier : Carrier τ) (h : Handler η)

theorem close_walks (slot : Nat) (tcids : List UInt8)
    (d : Dialogue τ (η × List SessionEvent)) :
    Walks d (d.closePassages h slot tcids) (tcids.foldl (closeConnection h.recorded slot) d) := by
  induction tcids generalizing d with
  | nil => exact .refl d
  | cons tcid tcids ih =>
    exact (Reports.walks (closeConnection_reports h slot tcid)).append (ih _)

theorem process_walks (e : TransportEvent) :
    Walks d (d.processPassages carrier h e) (d.process carrier h.recorded e).1 := by
  cases e with
  | connection slot tcid notice =>
    cases notice with
    | opened => exact .refl d
    | data octets =>
      rw [processPassages, process]
      cases Spdu.read octets with
      | error e => exact .refl d
      | ok unit =>
        exact Reports.walks (c := .received slot tcid unit)
          (receive_reports carrier h slot tcid unit)
    | closed => exact Reports.walks (closeConnection_reports h slot tcid)
  | slotClosed slot => exact close_walks h slot _ d

theorem events_walks (events : List TransportEvent) (error : Option CiError) :
    Walks d (d.eventsPassages carrier h events)
      (processAll carrier h.recorded events d error).1 := by
  induction events generalizing d error with
  | nil => exact .refl d
  | cons e events ih =>
    have he := process_walks carrier h (d := d) e
    rw [processAll, eventsPassages]
    generalize d.process carrier h.recorded e = processed at he ⊢
    obtain ⟨d', _ | error'⟩ := processed
    · exact he.append (ih error)
    · exact he.append (ih (some error'))

theorem perform_walks (a : Activity) :
    Walks d (a.passages carrier h d) (a.perform carrier h.recorded d) := by
  cases a with
  | create slot tcid resource =>
    refine Reports.walks ?_
    rw [Activity.cause, Activity.perform]
    cases hc : d.layer.create carrier slot tcid resource with
    | ok created =>
      obtain ⟨id, l⟩ := created
      obtain ⟨number, free, rfl, hl⟩ := SessionLayer.table_of_create hc
      exact .silent rfl ⟨rfl, resource, free, hl⟩
    | error e => exact .called rfl rfl
  | destroy id =>
    refine Reports.walks (c := .called) ?_
    rw [Activity.perform]
    split
    · next l hc =>
      obtain ⟨s, hs, hp, hl⟩ := SessionLayer.table_of_destroy hc
      exact .silent rfl ⟨rfl, .inr ⟨id, s, hs, hp, hl⟩⟩
    · exact .called rfl rfl
  | sendApdu id apdu =>
    refine Reports.walks (c := .called) ?_
    rw [Activity.perform]
    split
    · next l hc => exact .called rfl (SessionLayer.table_of_sendApdu hc)
    · exact .called rfl rfl
  | broadcast resource apdu =>
    exact Reports.walks (.called rfl (SessionLayer.sendEach_table ..))
  | poll events => exact events_walks carrier h events none

theorem run_walks (os : List (Occasion τ)) (d : Dialogue τ (η × List SessionEvent)) :
    Walks d (d.passages h os) (run h.recorded os d) := by
  induction os generalizing d with
  | nil => exact .refl d
  | cons o os ih =>
    -- what others do to the transport in between concerns neither the table nor the handler
    obtain ⟨hcourse, htold⟩ := perform_walks o.carrier h o.activity (d := { d with layer :=
      { d.layer with transport := o.transport } })
    have hfirst : Walks d (o.passages h d) (o.perform h.recorded d) := ⟨hcourse, htold⟩
    exact hfirst.append (ih _)

theorem processAll_advances (events : List TransportEvent) (error : Option CiError) :
    Advances d (processAll carrier h.recorded events d error).1 :=
  (events_walks carrier h events error).advances

theorem run_advances (os : List (Occasion τ)) (d : Dialogue τ (η × List SessionEvent)) :
    Advances d (run h.recorded os d) := (run_walks h os d).advances

end Dialogue

end DvbHost.Ci
