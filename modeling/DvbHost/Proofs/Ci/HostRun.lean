import DvbHost.Proofs.Ci.SessionState
import DvbHost.Proofs.Ci.TransportRun

/-!
# Runs of a host

A run is any list of calls, each with a transport layer that others may have used since, and polls
with whatever devices there are at that time. A resource is registered as it was made, and sessions
are polled by the host alone. Every call keeps the host `Tidy`.
-/

namespace DvbHost.Ci

set_option autoImplicit false

variable {ω ρ α κ : Type}

inductive HostCall (ω ρ α : Type) where
  | register (resource : { r : HostResource ρ // r.sessions = [] })
  | registerStandard (localOffset : Option Int16)
  | attach (session : SessionId) (application : α)
  | detach (session : SessionId)
  | takeError
  | create (slot : Nat) (tcid : UInt8) (resource : ResourceId)
  | destroy (session : SessionId)
  | sendApdu (session : SessionId) (apdu : Bytes)
  | broadcast (resource : ResourceId) (apdu : Bytes)
  | sendCaPmt (c : CaPmt)
  | enterMenu (slot : Nat)
  | answerMenu (session : SessionId) (choice : UInt8)
  | answerEnquiry (session : SessionId) (text : Option String)
  | closeMmi (session : SessionId)
  | poll (link : Link ω) (now : Nat) (unixTime : Int) (world : ω)

/-- A call, and what others have done to the transport layer before it. -/
structure HostOccasion (ω ρ α : Type) where
  meanwhile : TransportLayer → TransportLayer
  call : HostCall ω ρ α

namespace CommonInterface

/-- The host after its transport layer was used. -/
def meanwhile (ci : CommonInterface ρ α) (f : TransportLayer → TransportLayer) :
    CommonInterface ρ α :=
  { ci with sessions := { ci.sessions with transport := f ci.sessions.transport } }

/-- A call that fails leaves the host as it is. -/
def settle (ci : CommonInterface ρ α) :
    Except CiError (CommonInterface ρ α) → CommonInterface ρ α
  | .ok ci => ci
  | .error _ => ci

/-- What is left of a call of the session layer. -/
def settleSessions (ci : CommonInterface ρ α)
    (outcome : Except CiError (SessionLayer TransportLayer)) : CommonInterface ρ α :=
  ci.settle (outcome.map fun l => { ci with sessions := l })

def perform (guests : Guests ω ρ α) (ci : CommonInterface ρ α) :
    HostCall ω ρ α → CommonInterface ρ α
  | .register resource => ci.settle (ci.register resource.val)
  | .registerStandard localOffset => (ci.registerStandard localOffset).1
  | .attach session application => ci.settle (ci.attach session application)
  | .detach session => (ci.detach session).2
  | .takeError => ci.takeError.2
  | .create slot tcid resource =>
    ci.settleSessions ((ci.sessions.create TransportLayer.carrier slot tcid resource).map Prod.snd)
  | .destroy session => ci.settleSessions (ci.sessions.destroy TransportLayer.carrier session)
  | .sendApdu session apdu =>
    ci.settleSessions (ci.sessions.sendApdu TransportLayer.carrier session apdu)
  | .broadcast resource apdu =>
    { ci with sessions := (ci.sessions.broadcast TransportLayer.carrier resource apdu).2 }
  | .sendCaPmt c => (ci.sendCaPmt c).2
  | .enterMenu slot => ci.settle (ci.enterMenu slot)
  | .answerMenu session choice => ci.settle (ci.answerMenu session choice)
  | .answerEnquiry session text => ci.settle (ci.answerEnquiry session text)
  | .closeMmi session => ci.settle (ci.closeMmi session)
  | .poll link now unixTime world => (ci.poll link guests now unixTime world).1

/-- One occasion after the other. -/
def run (guests : Guests ω ρ α) (os : List (HostOccasion ω ρ α)) (ci : CommonInterface ρ α) :
    CommonInterface ρ α :=
  os.foldl (fun ci o => (ci.meanwhile o.meanwhile).perform guests o.call) ci

/-- What the resources and applications of a host are when its sessions are polled. -/
def dispatch (ci : CommonInterface ρ α) (world : ω) : Dispatch ω ρ α :=
  ⟨ci.registry, ci.applications, .empty, .empty, none, world⟩

/-- The events of sessions that a poll tells, each with the state that it meets. -/
def meetings (link : Link ω) (guests : Guests ω ρ α) (now : Nat) (unixTime : Int)
    (ci : CommonInterface ρ α) (world : ω) : List (Dispatch ω ρ α × SessionEvent) :=
  (ci.sessions.poll link (Dispatch.handler guests now unixTime).observed now world
    fun world => (ci.dispatch world, [])).1.handler.2

/-! ## Polls -/

theorem sendAll_table (outbox : List (SessionId × Bytes)) (error : Option CiError)
    (l : SessionLayer TransportLayer) : (sendAll outbox error l).2.table = l.table := by
  induction outbox generalizing error l with
  | nil => rfl
  | cons unit outbox ih =>
    obtain ⟨session, apdu⟩ := unit
    rw [sendAll]
    cases hs : l.sendApdu TransportLayer.carrier session apdu with
    | ok l' => exact (ih error l').trans (SessionLayer.table_of_sendApdu hs)
    | error e => exact ih (some e) l

/-- A poll is made of what the sessions tell, of the work of the resources after it, and of data
that is sent. -/
theorem poll_spec (link : Link ω) (guests : Guests ω ρ α) (now : Nat) (unixTime : Int)
    (ci : CommonInterface ρ α) (world : ω) :
    let handler := Dispatch.handler guests now unixTime
    let start := ci.dispatch (ci.sessions.transport.poll link now world).2.2
    let polled := ci.poll link guests now unixTime world
    ∃ told d,
      ci.meetings link guests now unixTime world = handler.meetings start told ∧
      SessionTable.Changes ci.sessions.table told polled.1.sessions.table ∧
      (∀ (β γ : Type) (heard : ω → β) (name : α → γ), guests.Quiet heard name →
        Dispatch.Works heard name (fun _ _ => False) (handler.after start told) d) ∧
      polled.1.registry = d.registry ∧ polled.1.applications = d.applications ∧
      polled.2.1 = d.events.toList ∧ polled.2.2 = d.world := by
  intro handler start polled
  let reached := ci.sessions.transport.poll link now world
  let layer : SessionLayer TransportLayer := { ci.sessions with transport := reached.1 }
  let heard := Dialogue.processAll TransportLayer.carrier handler reached.2.1 ⟨layer, start⟩ none
  let d : Dispatch ω ρ α :=
    { heard.1.handler with error := heard.1.handler.error <|> heard.2 <|> ci.lastError }
  obtain ⟨told, hafter, hmeetings, hchanges⟩ := Dialogue.processAll_told (h := handler)
    (fun _ _ _ => rfl) TransportLayer.carrier reached.2.1 layer start
  refine ⟨told, d.pollEach guests (d.context now unixTime) d.registry.keys, hmeetings, ?_, ?_,
    rfl, rfl, rfl, rfl⟩
  · have htable : polled.1.sessions.table = heard.1.layer.table := sendAll_table _ _ _
    rw [htable]
    exact hchanges
  · intro β γ heard name hq
    rw [← hafter]
    exact (Dispatch.Works.refl _).noting _ |>.trans (Dispatch.works_pollEach hq _ _ d)

/-! ## Every call keeps a host tidy -/

def IsTidy (ci : CommonInterface ρ α) : Prop :=
  Tidy ci.sessions.table ci.registry ci.applications

variable {ci ci' : CommonInterface ρ α}

namespace IsTidy

theorem settle (h : ci.IsTidy) {outcome : Except CiError (CommonInterface ρ α)}
    (hok : ∀ ci', outcome = .ok ci' → ci'.IsTidy) : (ci.settle outcome).IsTidy := by
  cases outcome with
  | ok ci' => exact hok ci' rfl
  | error e => exact h

theorem of_table (h : ci.IsTidy) {l : SessionLayer TransportLayer}
    (htable : l.table = ci.sessions.table) : IsTidy { ci with sessions := l } := by
  change Tidy l.table _ _
  rw [htable]
  exact h

/-- A call of the session layer changes the table at most, and tells nothing. -/
theorem settleSessions (h : ci.IsTidy) {outcome : Except CiError (SessionLayer TransportLayer)}
    (hok : ∀ l, outcome = .ok l → l.table = ci.sessions.table ∨
      SessionTable.Change ci.sessions.table [] l.table) : (ci.settleSessions outcome).IsTidy := by
  refine h.settle fun ci' hci' => ?_
  cases outcome with
  | error e => cases hci'
  | ok l =>
    obtain rfl := Except.ok.inj hci'
    rcases hok l rfl with htable | hchange
    · exact h.of_table htable
    · exact h.silent hchange

theorem register (h : ci.IsTidy) {resource : HostResource ρ} (hempty : resource.sessions = [])
    (hok : ci.register resource = .ok ci') : ci'.IsTidy := by
  rw [CommonInterface.register, Registry.register] at hok
  split at hok
  · cases hok
  · obtain rfl := Except.ok.inj hok
    refine ⟨h.attached, fun k id hk => h.kept k id ?_⟩
    obtain ⟨r, hr, hid⟩ := hk
    dsimp only at hr
    rw [KeyedList.get?_put] at hr
    split at hr
    · obtain rfl := Option.some.inj hr
      rw [hempty] at hid
      cases hid
    · exact ⟨r, hr, hid⟩

theorem registerAll (h : ci.IsTidy) {resources : List (HostResource ρ)}
    (hempty : ∀ r ∈ resources, r.sessions = []) : (registerAll resources ci).1.IsTidy := by
  induction resources generalizing ci with
  | nil => exact h
  | cons r resources ih =>
    rw [CommonInterface.registerAll]
    cases hr : ci.register r with
    | error e => exact h
    | ok ci' =>
      exact ih (h.register (hempty r (List.mem_cons_self ..)) hr)
        fun r hr => hempty r (List.mem_cons_of_mem _ hr)

theorem attach (h : ci.IsTidy) {session : SessionId} {application : α}
    (hok : ci.attach session application = .ok ci') : ci'.IsTidy := by
  rw [CommonInterface.attach] at hok
  split at hok
  · cases hok
  · next hactive =>
    obtain rfl := Except.ok.inj hok
    refine ⟨fun id hid => ?_, h.kept⟩
    dsimp only at hid
    rw [KeyedList.get?_put] at hid
    split at hid
    · next heq =>
      obtain ⟨k, hk⟩ := Option.ne_none_iff_exists'.mp fun hnone =>
        hactive (Option.isNone_iff_eq_none.mpr hnone)
      obtain ⟨s, hs, hphase, -⟩ := SessionTable.resourceOf_eq_some hk
      rw [heq]
      exact (SessionTable.hasOpen_iff _ session).mpr ⟨s, hs, .inl hphase⟩
    · exact h.attached id hid

theorem detach (h : ci.IsTidy) (session : SessionId) : (ci.detach session).2.IsTidy := by
  refine ⟨fun id hid => h.attached id ?_, h.kept⟩
  change ((ci.applications.erase session).get? id).isSome at hid
  rw [KeyedList.get?_erase] at hid
  split at hid
  · cases hid
  · exact hid

theorem sendUnit (h : ci.IsTidy) {session : SessionId} {unit : Except CiError Bytes}
    (hok : ci.sendUnit session unit = .ok ci') : ci'.IsTidy := by
  obtain ⟨octets, -, hok⟩ := Outcome.ok_of_bind hok
  obtain ⟨l, hl, hok⟩ := Outcome.ok_of_bind hok
  obtain rfl := Except.ok.inj hok
  exact h.of_table (SessionLayer.table_of_sendApdu hl)

theorem broadcast (h : ci.IsTidy) (resource : ResourceId) (apdu : Bytes) :
    IsTidy { ci with
      sessions := (ci.sessions.broadcast TransportLayer.carrier resource apdu).2 } :=
  h.of_table (SessionLayer.sendEach_table ..)

theorem dispatch (h : ci.IsTidy) (world : ω) :
    Tidy ci.sessions.table (ci.dispatch world).registry (ci.dispatch world).applications := h

theorem poll (h : ci.IsTidy) (link : Link ω) (guests : Guests ω ρ α) (now : Nat) (unixTime : Int)
    (world : ω) : (ci.poll link guests now unixTime world).1.IsTidy := by
  obtain ⟨told, d, -, hchanges, hworks, hregistry, happlications, -, -⟩ :=
    ci.poll_spec link guests now unixTime world
  have hd := ((h.dispatch _).changes guests now unixTime hchanges).1.works
    (hworks _ _ _ _ guests.quiet_trivial)
  rw [← hregistry, ← happlications] at hd
  exact hd

theorem perform (h : ci.IsTidy) (guests : Guests ω ρ α) (call : HostCall ω ρ α) :
    (ci.perform guests call).IsTidy := by
  cases call with
  | register resource => exact h.settle fun _ hok => h.register resource.property hok
  | registerStandard localOffset =>
    exact h.registerAll fun r hr => HostResource.sessions_of_mem_standard hr
  | attach session application => exact h.settle fun _ hok => h.attach hok
  | detach session => exact h.detach session
  | takeError => exact h
  | create slot tcid resource =>
    refine h.settleSessions fun l hl => .inr ?_
    obtain ⟨⟨id, l'⟩, hcreate, rfl⟩ := Outcome.ok_of_map hl
    obtain ⟨number, hfree, -, htable⟩ := SessionLayer.table_of_create hcreate
    rw [htable]
    exact .asked resource hfree
  | destroy session =>
    refine h.settleSessions fun l hl => .inr ?_
    obtain ⟨s, hs, hphase, htable⟩ := SessionLayer.table_of_destroy hl
    rw [htable]
    exact .ending hs hphase
  | sendApdu session apdu =>
    exact h.settleSessions fun l hl => .inl (SessionLayer.table_of_sendApdu hl)
  | broadcast resource apdu => exact h.broadcast resource apdu
  | sendCaPmt c =>
    change (ci.sendCaPmt c).2.IsTidy
    rw [CommonInterface.sendCaPmt]
    cases c.apdu with
    | error e => exact h
    | ok apdu => exact h.broadcast .conditionalAccess apdu
  | enterMenu slot =>
    refine h.settle fun ci' hok => ?_
    rw [CommonInterface.enterMenu] at hok
    split at hok
    · cases hok
    · exact h.sendUnit hok
  | answerMenu session choice => exact h.settle fun _ hok => h.sendUnit hok
  | answerEnquiry session text => exact h.settle fun _ hok => h.sendUnit hok
  | closeMmi session => exact h.settle fun _ hok => h.sendUnit hok
  | poll link now unixTime world => exact h.poll link guests now unixTime world

theorem run (h : ci.IsTidy) (guests : Guests ω ρ α) (os : List (HostOccasion ω ρ α)) :
    (ci.run guests os).IsTidy := by
  induction os generalizing ci with
  | nil => exact h
  | cons o os ih =>
    have hmeanwhile : (ci.meanwhile o.meanwhile).IsTidy := h
    exact ih (hmeanwhile.perform guests o.call)

end IsTidy

/-! ## The end of a session -/

/-- An application that is attached to a session when a poll begins is told of its end once if the
poll reports this, and stays attached if not. -/
theorem poll_tells_once (link : Link ω) {guests : Guests ω ρ α} {heard : ω → List (SessionId × κ)}
    {name : α → κ} (ha : guests.Accounts heard name) (now : Nat) (unixTime : Int)
    (ci : CommonInterface ρ α) (world : ω) (id : SessionId) :
    let polled := ci.poll link guests now unixTime world
    let reached := (ci.sessions.transport.poll link now world).2.2
    let attached := (ci.applications.get? id).map name
    ((∃ k, .sessionClosed id k ∈ polled.2.1) →
      polled.1.applications.get? id = none ∧
        Dispatch.heardOf heard id polled.2.2 =
          Dispatch.heardOf heard id reached ++ attached.toList) ∧
    ((∀ k, .sessionClosed id k ∉ polled.2.1) →
      (polled.1.applications.get? id).map name = attached ∧
        Dispatch.heardOf heard id polled.2.2 = Dispatch.heardOf heard id reached) := by
  intro polled reached attached
  obtain ⟨told, d, -, -, hworks, -, happlications, hevents, hworld⟩ :=
    ci.poll_spec link guests now unixTime world
  have hd := hworks _ _ heard name ha.toQuiet
  have htold := Dispatch.told_after now unixTime ha.toQuiet told (ci.dispatch reached)
  have hconserved := Dispatch.after_conserves now unixTime ha told (ci.dispatch reached) id
  rw [← Dispatch.heardOf_of_eq hd.heard, ← hd.names id, ← hworld, ← happlications] at hconserved
  have hreported : ∀ k, .sessionClosed id k ∈ polled.2.1 ↔ .closed id k ∈ told := by
    intro k
    change _ ∈ (ci.poll link guests now unixTime world).2.1 ↔ _
    rw [hevents, hd.reported, htold.reported]
    exact or_iff_right List.not_mem_nil
  constructor
  · rintro ⟨k, hk⟩
    have hleft := htold.left id ⟨k, (hreported k).mp hk⟩
    rw [← hd.names id, ← happlications] at hleft
    rw [hleft, Option.toList_none, List.append_nil] at hconserved
    exact ⟨Option.map_eq_none_iff.mp hleft, hconserved⟩
  · intro hopen
    have hstays := htold.stays id fun ⟨k, hk⟩ => hopen k ((hreported k).mpr hk)
    rw [← hd.names id, ← happlications] at hstays
    rw [hstays] at hconserved
    exact ⟨hstays, List.append_cancel_right hconserved⟩

/-- After every run, a host has state of sessions only that the table has as active or closing. In
a further poll, no session opens of which the host then has state, and an application attached to a
session that closes in it is told so once and is attached no more; no other application is told or
let go. -/
theorem no_state_outlives_session (guests : Guests ω ρ α) (transport : TransportLayer)
    (maxSessions : Nat) (os : List (HostOccasion ω ρ α)) :
    let ci := run guests os (new transport maxSessions)
    (∀ id, Remembers ci.registry ci.applications id →
      ∃ s, ci.sessions.table.get? id = some s ∧ (s.phase = .active ∨ s.phase = .closing)) ∧
    ∀ (used : TransportLayer → TransportLayer) (link : Link ω) (now : Nat) (unixTime : Int)
      (world : ω),
      let ci := ci.meanwhile used
      let polled := ci.poll link guests now unixTime world
      (∀ d e, (d, e) ∈ ci.meetings link guests now unixTime world → e.mark = .opening →
        ¬ Remembers d.registry d.applications e.session) ∧
      ∀ (κ : Type) (heard : ω → List (SessionId × κ)) (name : α → κ), guests.Accounts heard name →
        ∀ id,
          let reached := (ci.sessions.transport.poll link now world).2.2
          let attached := (ci.applications.get? id).map name
          ((∃ k, .sessionClosed id k ∈ polled.2.1) →
            polled.1.applications.get? id = none ∧
              Dispatch.heardOf heard id polled.2.2 =
                Dispatch.heardOf heard id reached ++ attached.toList) ∧
          ((∀ k, .sessionClosed id k ∉ polled.2.1) →
            (polled.1.applications.get? id).map name = attached ∧
              Dispatch.heardOf heard id polled.2.2 = Dispatch.heardOf heard id reached) := by
  intro ci
  have hnew : (new transport maxSessions : CommonInterface ρ α).IsTidy := Tidy.new maxSessions
  have htidy : ci.IsTidy := hnew.run guests os
  refine ⟨fun id hid => (SessionTable.hasOpen_iff _ id).mp (htidy.hasOpen hid), ?_⟩
  intro used link now unixTime world ci polled
  refine ⟨?_, fun κ heard name ha id => ci.poll_tells_once link ha now unixTime world id⟩
  intro d e hmet hopening
  obtain ⟨told, -, hmeetings, hchanges, -⟩ := ci.poll_spec link guests now unixTime world
  rw [hmeetings] at hmet
  have hused : ci.IsTidy := htidy
  exact ((hused.dispatch _).changes guests now unixTime hchanges).2 (d, e) hmet hopening

end CommonInterface

/-! ## Guests with an account -/

/-- Applications with names, and a world that keeps account of those that are told of the end. -/
def Guests.recorded (guests : Guests ω ρ α) : Guests (ω × List (SessionId × κ)) ρ (κ × α) where
  opened ctx session state world :=
    match guests.opened ctx session state world.1 with
    | (r, w) => (r, w, world.2)
  receive ctx session apdu state world :=
    match guests.receive ctx session apdu state world.1 with
    | (r, w) => (r, w, world.2)
  closed ctx session state world :=
    match guests.closed ctx session state world.1 with
    | (r, w) => (r, w, world.2)
  poll ctx state world :=
    match guests.poll ctx state world.1 with
    | (r, w) => (r, w, world.2)
  applicationReceive ctx session apdu application world :=
    match guests.applicationReceive ctx session apdu application.2 world.1 with
    | (r, w) => (r.map (application.1, ·), w, world.2)
  applicationClosed session application world :=
    (guests.applicationClosed session application.2 world.1,
      world.2 ++ [(session, application.1)])

theorem Guests.recorded_accounts (guests : Guests ω ρ α) :
    (guests.recorded : Guests (ω × List (SessionId × κ)) ρ (κ × α)).Accounts Prod.snd Prod.fst where
  opened _ _ _ _ := rfl
  receive _ _ _ _ _ := rfl
  closed _ _ _ _ := rfl
  poll _ _ _ := rfl
  applicationReceive _ _ _ _ _ := ⟨rfl, rfl⟩
  applicationClosed _ _ _ := rfl

namespace CommonInterface

/-- Guests that do nothing, with an account. -/
def idleGuests : Guests (List (Option Bytes) × List (SessionId × String)) Unit (String × Unit) :=
  Guests.recorded
    { opened := fun _ _ state world => (.done state, world)
      receive := fun _ _ _ state world => (.done state, world)
      closed := fun _ _ state world => (.done state, world)
      poll := fun _ state world => (.done state, world)
      applicationReceive := fun _ _ _ application world => (.done application, world)
      applicationClosed := fun _ _ world => world }

/-- A device that gives out the responses before the account. -/
def respondingLink : Link (List (Option Bytes) × List (SessionId × String)) where
  reset _ _ w := (.ok (), w)
  status _ _ w := (.ok .ready, w)
  linkType _ _ w := (.ok .packets, w)
  read _ _ _ w := (.ok w.1.head?.join, w.1.tail, w.2)
  write _ _ _ _ w := (.ok (), w)
  burst _ _ _ := 1

/-- A poll in which the module has one response. -/
def pollWith (now : Nat) (response : Option Bytes) :
    HostOccasion (List (Option Bytes) × List (SessionId × String)) Unit (String × Unit) :=
  ⟨fun t => t, .poll respondingLink now 0 ([response], [])⟩

/-- A module is found, and a connection with it made. -/
def connecting :
    List (HostOccasion (List (Option Bytes) × List (SessionId × String)) Unit (String × Unit)) :=
  [⟨fun t => (t.register 0 0 .standard).toOption.elim t Prod.snd, .registerStandard none⟩,
    pollWith 0 none, pollWith 1 none, pollWith 2 (some (Connection.control .createTcReply 1 none))]

def connectedHost : CommonInterface Unit (String × Unit) :=
  run idleGuests connecting (new (.new 1 1) 8)

/-- The module asks for a session to the resource manager. -/
def openRequested : Bytes := [0xA0, 7, 1, 0x91, 4, 0, 1, 0, 0x41]

/-- The session opens, the module sends its profile there, and an application takes over. -/
def takingOver :
    List (HostOccasion (List (Option Bytes) × List (SessionId × String)) Unit (String × Unit)) :=
  connecting ++
    [pollWith 3 (some openRequested),
      pollWith 4 (some [0xA0, 9, 1, 0x90, 2, 0, 1, 0x9F, 0x80, 0x11, 0]),
      ⟨fun t => t, .attach ⟨0, 1, 1⟩ ("viewer", ())⟩]

def attendedHost : CommonInterface Unit (String × Unit) :=
  run idleGuests takingOver (new (.new 1 1) 8)

/-- The poll in which the module closes the session. -/
def lastPoll : CommonInterface Unit (String × Unit) × List CiEvent ×
    List (Option Bytes) × List (SessionId × String) :=
  attendedHost.poll respondingLink idleGuests 5 0 ([some [0xA0, 5, 1, 0x95, 2, 0, 1]], [])

theorem no_state_outlives_session_attended :
    (Remembers attendedHost.registry attendedHost.applications ⟨0, 1, 1⟩ ∧
      ∃ s, attendedHost.sessions.table.get? ⟨0, 1, 1⟩ = some s ∧
        (s.phase = .active ∨ s.phase = .closing)) ∧
    (∃ d e, (d, e) ∈ connectedHost.meetings respondingLink idleGuests 3 0 ([openRequested], []) ∧
      e.mark = .opening ∧ ¬ Remembers d.registry d.applications e.session) ∧
    lastPoll.1.applications.get? ⟨0, 1, 1⟩ = none ∧
      Dispatch.heardOf Prod.snd ⟨0, 1, 1⟩ lastPoll.2.2 = ["viewer"] := by
  refine ⟨?_, ?_, ?_⟩
  · have hremembers : Remembers attendedHost.registry attendedHost.applications ⟨0, 1, 1⟩ :=
      .inl (by decide +kernel)
    exact ⟨hremembers,
      (no_state_outlives_session idleGuests (.new 1 1) 8 takingOver).1 _ hremembers⟩
  · have htold : (connectedHost.meetings respondingLink idleGuests 3 0 ([openRequested], [])).map
        Prod.snd = [.opened ⟨0, 1, 1⟩ .resourceManager] := by decide +kernel
    obtain ⟨⟨d, e⟩, hmet, he⟩ := List.mem_map.mp (htold ▸ List.mem_singleton_self _)
    have hopening : e.mark = .opening := congrArg SessionEvent.mark he
    exact ⟨d, e, hmet, hopening,
      ((no_state_outlives_session idleGuests (.new 1 1) 8 connecting).2 (fun t => t) respondingLink
        3 0 _).1 d e hmet hopening⟩
  · have hclosed : CiEvent.sessionClosed ⟨0, 1, 1⟩ .resourceManager ∈ lastPoll.2.1 := by
      decide +kernel
    exact (((no_state_outlives_session idleGuests (.new 1 1) 8 takingOver).2 (fun t => t)
      respondingLink 5 0 _).2 String Prod.snd Prod.fst (Guests.recorded_accounts _) ⟨0, 1, 1⟩).1
      ⟨_, hclosed⟩

end CommonInterface

end DvbHost.Ci
