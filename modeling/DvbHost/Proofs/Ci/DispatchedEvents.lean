import DvbHost.Proofs.Ci.ResourceSessions
import DvbHost.Proofs.Ci.SessionMeetings

/-!
# What events of sessions do to a host

A host has state of a session in its resources and in the application attached to it. `Told` says
what becomes of both, and of what is reported, when events are told in order: a resource takes up
state of a session only with data on it, and a session that closes is forgotten by the resource that
it was opened for and loses its application. How often applications are told so is read off the
world, for guests that keep an account of it there.
-/

namespace DvbHost.Ci

set_option autoImplicit false

variable {ω ρ α β κ : Type}

/-! ## Guests -/

/-- Guests leave alone what `heard` reads off the world but when applications are told of the end
of their sessions, and applications keep what `name` reads off them. -/
structure Guests.Quiet (guests : Guests ω ρ α) (heard : ω → β) (name : α → κ) : Prop where
  opened : ∀ ctx session state world,
    heard (guests.opened ctx session state world).2 = heard world
  receive : ∀ ctx session apdu state world,
    heard (guests.receive ctx session apdu state world).2 = heard world
  closed : ∀ ctx session state world,
    heard (guests.closed ctx session state world).2 = heard world
  poll : ∀ ctx state world, heard (guests.poll ctx state world).2 = heard world
  applicationReceive : ∀ ctx session apdu application world,
    heard (guests.applicationReceive ctx session apdu application world).2 = heard world ∧
      name (guests.applicationReceive ctx session apdu application world).1.state = name application

/-- The world keeps an account of the applications that are told of the end of their sessions. -/
structure Guests.Accounts (guests : Guests ω ρ α) (heard : ω → List (SessionId × κ))
    (name : α → κ) : Prop extends guests.Quiet heard name where
  applicationClosed : ∀ session application world,
    heard (guests.applicationClosed session application world) =
      heard world ++ [(session, name application)]

/-- Where nothing is heard and there are no names, all guests are quiet. -/
theorem Guests.quiet_trivial (guests : Guests ω ρ α) : guests.Quiet (fun _ => ()) fun _ => () where
  opened _ _ _ _ := rfl
  receive _ _ _ _ _ := rfl
  closed _ _ _ _ := rfl
  poll _ _ _ := rfl
  applicationReceive _ _ _ _ _ := ⟨rfl, rfl⟩

namespace HostResource

variable {guests : Guests ω ρ α} {heard : ω → β} {name : α → κ}
variable (hq : guests.Quiet heard name) (ctx : Context) (session : SessionId) (world : ω)
  (r : HostResource ρ)

include hq

theorem heard_opened : heard (r.opened guests ctx session world).2 = heard world := by
  cases r with
  | guest k state => exact hq.opened ctx session state world
  | _ => rfl

theorem heard_receive (apdu : Apdu) :
    heard (r.receive guests ctx session apdu world).2 = heard world := by
  cases r with
  | guest k state => exact hq.receive ctx session apdu state world
  | _ => rfl

theorem heard_closed : heard (r.closed guests ctx session world).2 = heard world := by
  cases r with
  | guest k state => exact hq.closed ctx session state world
  | _ => rfl

theorem heard_poll : heard (r.poll guests ctx world).2 = heard world := by
  cases r with
  | guest k state => exact hq.poll ctx state world
  | _ => rfl

end HostResource

/-- The registered resource `k` keeps something for a session. -/
def Registry.Keeps (registry : Registry (HostResource ρ)) (k : ResourceId) (id : SessionId) :
    Prop := ∃ r, registry.get? k = some r ∧ id ∈ r.sessions

namespace Dispatch

/-! ## Apart from the ends of sessions -/

/-- What a dispatch may do while no session ends: no application comes or goes, and resources take
up state of no sessions but where they may. -/
structure Works (heard : ω → β) (name : α → κ) (may : ResourceId → SessionId → Prop)
    (d d' : Dispatch ω ρ α) : Prop where
  names : ∀ id, (d'.applications.get? id).map name = (d.applications.get? id).map name
  heard : heard d'.world = heard d.world
  reported : ∀ id k,
    CiEvent.sessionClosed id k ∈ d'.events.toList ↔ CiEvent.sessionClosed id k ∈ d.events.toList
  keeps : ∀ k id, d'.registry.Keeps k id → d.registry.Keeps k id ∨ may k id

variable {heard : ω → β} {name : α → κ} {may : ResourceId → SessionId → Prop}
variable {d d' d'' : Dispatch ω ρ α}

namespace Works

theorem refl (d : Dispatch ω ρ α) : Works heard name may d d :=
  ⟨fun _ => rfl, rfl, fun _ _ => .rfl, fun _ _ => .inl⟩

theorem trans (h : Works heard name may d d') (h' : Works heard name may d' d'') :
    Works heard name may d d'' where
  names id := (h'.names id).trans (h.names id)
  heard := h'.heard.trans h.heard
  reported id k := (h'.reported id k).trans (h.reported id k)
  keeps k id hk := (h'.keeps k id hk).elim (h.keeps k id) .inr

theorem mono {may' : ResourceId → SessionId → Prop} (h : Works heard name may d d')
    (himp : ∀ k id, may k id → may' k id) : Works heard name may' d d' :=
  ⟨h.names, h.heard, h.reported, fun k id hk => (h.keeps k id hk).imp_right (himp k id)⟩

/-- Errors play no part. -/
theorem noting (h : Works heard name may d d') (error : Option CiError) :
    Works heard name may d { d' with error := error } := ⟨h.names, h.heard, h.reported, h.keeps⟩

/-- Every report but that of an end. -/
theorem report (d : Dispatch ω ρ α) {e : CiEvent} (he : ∀ id k, e ≠ .sessionClosed id k) :
    Works heard name may d (d.report e) where
  names _ := rfl
  heard := rfl
  reported id k := by
    rw [Dispatch.report, Queue.toList_push, List.mem_append, List.mem_singleton]
    exact or_iff_left (Ne.symm (he id k))
  keeps _ _ := .inl

end Works

/-- What resources and applications say reports no end of a session. -/
theorem sessionClosed_mem_take {σ : Type} (r : Reaction σ) (world : ω) (d : Dispatch ω ρ α)
    (id : SessionId) (k : ResourceId) :
    CiEvent.sessionClosed id k ∈ (d.take r world).events.toList ↔
      CiEvent.sessionClosed id k ∈ d.events.toList := by
  rw [take, Queue.toList_append, List.mem_append]
  refine or_iff_left fun h => ?_
  obtain ⟨event, -, he⟩ := List.mem_map.mp h
  cases he

/-- After a resource has reacted, another keeps what it kept, and this one what it says. -/
theorem keeps_of_react {k k' : ResourceId} {id : SessionId}
    {f : HostResource ρ → ω → Reaction (HostResource ρ) × ω}
    (h : (d.react k' f).2.registry.Keeps k id) :
    k ≠ k' ∧ d.registry.Keeps k id ∨
      k = k' ∧ ∃ r, d.registry.get? k' = some r ∧ id ∈ (f r d.world).1.state.sessions := by
  rw [react] at h
  cases hr : d.registry.get? k' with
  | none =>
    rw [hr] at h
    refine .inl ⟨?_, h⟩
    rintro rfl
    obtain ⟨r, hr', -⟩ := h
    exact nomatch hr'.symm.trans hr
  | some r =>
    rw [hr] at h
    obtain ⟨r', hr', hid⟩ := h
    dsimp only at hr'
    rw [KeyedList.get?_put] at hr'
    by_cases hk : k = k'
    · rw [if_pos hk] at hr'
      obtain rfl := Option.some.inj hr'
      exact .inr ⟨hk, r, rfl, hid⟩
    · rw [if_neg hk] at hr'
      exact .inl ⟨hk, r', hr', hid⟩

/-- Applications have no part in the reaction of a resource. -/
theorem applications_react (d : Dispatch ω ρ α) (k : ResourceId)
    (f : HostResource ρ → ω → Reaction (HostResource ρ) × ω) :
    (d.react k f).2.applications = d.applications := by
  rw [react]
  cases d.registry.get? k <;> rfl

theorem sessionClosed_mem_react (d : Dispatch ω ρ α) (k k' : ResourceId) (id : SessionId)
    (f : HostResource ρ → ω → Reaction (HostResource ρ) × ω) :
    CiEvent.sessionClosed id k ∈ (d.react k' f).2.events.toList ↔
      CiEvent.sessionClosed id k ∈ d.events.toList := by
  rw [react]
  cases d.registry.get? k' with
  | none => rfl
  | some r => exact sessionClosed_mem_take (f r d.world).1 (f r d.world).2 d id k

theorem heard_react (d : Dispatch ω ρ α) (k : ResourceId)
    {f : HostResource ρ → ω → Reaction (HostResource ρ) × ω}
    (hf : ∀ r world, heard (f r world).2 = heard world) :
    heard (d.react k f).2.world = heard d.world := by
  rw [react]
  cases d.registry.get? k with
  | none => rfl
  | some r => exact hf r d.world

theorem works_react (d : Dispatch ω ρ α) (k : ResourceId)
    {f : HostResource ρ → ω → Reaction (HostResource ρ) × ω}
    (hheard : ∀ r world, heard (f r world).2 = heard world)
    (hsessions : ∀ r world id, id ∈ (f r world).1.state.sessions → id ∈ r.sessions ∨ may k id) :
    Works heard name may d (d.react k f).2 where
  names id := by rw [applications_react]
  heard := heard_react d k hheard
  reported id k' := sessionClosed_mem_react d k' k id f
  keeps k' id h := by
    rcases keeps_of_react h with ⟨-, hkeeps⟩ | ⟨rfl, r, hr, hid⟩
    · exact .inl hkeeps
    · exact (hsessions r d.world id hid).imp_left fun hm => ⟨r, hr, hm⟩

variable {guests : Guests ω ρ α} (now : Nat) (unixTime : Int)

/-- A resource may take up state of the session that data comes on. -/
theorem works_receiveApdu (hq : guests.Quiet heard name) (session : SessionId) (k : ResourceId)
    (apdu : Apdu) (d : Dispatch ω ρ α) :
    Works heard name (fun k' id => k' = k ∧ id = session) d
      (d.receiveApdu guests now unixTime session k apdu).2 := by
  simp only [receiveApdu]
  cases happ : d.applications.get? session with
  | some application =>
    let reaction :=
      guests.applicationReceive (d.context now unixTime) session apdu application d.world
    obtain ⟨hheard, hname⟩ :=
      hq.applicationReceive (d.context now unixTime) session apdu application d.world
    have hreported := sessionClosed_mem_take reaction.1 reaction.2 d
    refine ⟨fun id => ?_, hheard, hreported, fun _ _ => .inl⟩
    dsimp only
    rw [KeyedList.get?_put]
    split
    · next hid =>
      rw [hid, happ]
      exact congrArg some hname
    · rfl
  | none =>
    dsimp only
    split
    · exact .refl d
    · refine works_react d k (fun r world => r.heard_receive hq _ session world apdu) ?_
      intro r world id h
      rcases HostResource.mem_sessions_of_receive h with hid | hid
      · exact .inr ⟨rfl, hid⟩
      · exact .inl hid

theorem works_receiveAll (hq : guests.Quiet heard name) (session : SessionId) (k : ResourceId)
    (units : List (Except CiError Apdu)) (d : Dispatch ω ρ α) :
    Works heard name (fun k' id => k' = k ∧ id = session) d
      (d.receiveAll guests now unixTime session k units).2 := by
  induction units generalizing d with
  | nil => exact .refl d
  | cons unit units ih =>
    cases unit with
    | error e => exact .refl d
    | ok apdu =>
      have hunit := works_receiveApdu now unixTime hq session k apdu d
      rw [receiveAll]
      generalize d.receiveApdu guests now unixTime session k apdu = received at hunit ⊢
      obtain ⟨_ | e, d'⟩ := received
      · exact hunit.trans (ih d')
      · exact hunit

theorem works_pollEach (hq : guests.Quiet heard name) (ctx : Context) (ids : List ResourceId)
    (d : Dispatch ω ρ α) :
    Works heard name (fun _ _ => False) d (d.pollEach guests ctx ids) := by
  induction ids generalizing d with
  | nil => exact .refl d
  | cons k ids ih =>
    have hpoll : Works heard name (fun _ _ => False) d
        (d.react k fun r world => r.poll guests ctx world).2 :=
      works_react d k (fun r world => r.heard_poll hq ctx world) fun r world id h =>
        .inl (HostResource.sessions_poll ▸ h)
    exact (hpoll.noting _).trans (ih _)

/-! ## Sessions that end -/

/-- Whether the end of a session is among what is told. -/
def Closes (told : List SessionEvent) (id : SessionId) : Prop := ∃ k, .closed id k ∈ told

/-- What a dispatch has become by being told of events. -/
structure Told (name : α → κ) (told : List SessionEvent) (d d' : Dispatch ω ρ α) : Prop where
  left : ∀ id, Closes told id → (d'.applications.get? id).map name = none
  stays : ∀ id, ¬ Closes told id →
    (d'.applications.get? id).map name = (d.applications.get? id).map name
  reported : ∀ id k, CiEvent.sessionClosed id k ∈ d'.events.toList ↔
    CiEvent.sessionClosed id k ∈ d.events.toList ∨ .closed id k ∈ told
  keeps : ∀ k id, d'.registry.Keeps k id →
    d.registry.Keeps k id ∧ .closed id k ∉ told ∨ ∃ octets, .data id k octets ∈ told

theorem Told.nil (d : Dispatch ω ρ α) : Told name [] d d where
  left id h := by
    obtain ⟨k, hk⟩ := h
    cases hk
  stays _ _ := rfl
  reported id k := by simp only [List.not_mem_nil, or_false]
  keeps k id h := .inl ⟨h, List.not_mem_nil⟩

theorem Told.append {told told' : List SessionEvent} (h : Told name told d d')
    (h' : Told name told' d' d'') : Told name (told ++ told') d d'' where
  left id hc := by
    by_cases hc' : Closes told' id
    · exact h'.left id hc'
    · obtain ⟨k, hk⟩ := hc
      have hbefore : Closes told id :=
        ⟨k, (List.mem_append.mp hk).resolve_right fun hk' => hc' ⟨k, hk'⟩⟩
      rw [h'.stays id hc', h.left id hbefore]
  stays id hc := by
    rw [h'.stays id fun ⟨k, hk⟩ => hc ⟨k, List.mem_append_right _ hk⟩,
      h.stays id fun ⟨k, hk⟩ => hc ⟨k, List.mem_append_left _ hk⟩]
  reported id k := by rw [h'.reported, h.reported, List.mem_append, or_assoc]
  keeps k id hk := by
    rcases h'.keeps k id hk with ⟨hk', hnot'⟩ | ⟨octets, hdata⟩
    · rcases h.keeps k id hk' with ⟨hbefore, hnot⟩ | ⟨octets, hdata⟩
      · exact .inl ⟨hbefore, fun hm => (List.mem_append.mp hm).elim hnot hnot'⟩
      · exact .inr ⟨octets, List.mem_append_left _ hdata⟩
    · exact .inr ⟨octets, List.mem_append_right _ hdata⟩

/-- Events that are no ends. -/
theorem Works.told {e : SessionEvent} (h : Works heard name may d d')
    (hopen : ∀ id k, e ≠ .closed id k) (hmay : ∀ k id, may k id → ∃ octets, e = .data id k octets) :
    Told name [e] d d' where
  left id hc := by
    obtain ⟨k, hk⟩ := hc
    exact absurd (List.mem_singleton.mp hk).symm (hopen id k)
  stays id _ := h.names id
  reported id k := by
    rw [h.reported, List.mem_singleton]
    exact (or_iff_left (Ne.symm (hopen id k))).symm
  keeps k id hk := by
    rcases h.keeps k id hk with hk | hk
    · exact .inl ⟨hk, fun hm => hopen id k (List.mem_singleton.mp hm).symm⟩
    · obtain ⟨octets, he⟩ := hmay k id hk
      exact .inr ⟨octets, List.mem_singleton.mpr he.symm⟩

theorem get?_dismiss (guests : Guests ω ρ α) (session id : SessionId) (d : Dispatch ω ρ α) :
    (d.dismiss guests session).applications.get? id =
      if id = session then none else d.applications.get? id := by
  rw [dismiss]
  cases happ : d.applications.get? session with
  | none =>
    by_cases hid : id = session
    · rw [if_pos hid, hid]
      exact happ
    · rw [if_neg hid]
  | some application => exact KeyedList.get?_erase ..

theorem registry_dismiss (guests : Guests ω ρ α) (session : SessionId) (d : Dispatch ω ρ α) :
    (d.dismiss guests session).registry = d.registry := by
  rw [dismiss]
  cases d.applications.get? session <;> rfl

theorem events_dismiss (guests : Guests ω ρ α) (session : SessionId) (d : Dispatch ω ρ α) :
    (d.dismiss guests session).events = d.events := by
  rw [dismiss]
  cases d.applications.get? session <;> rfl

theorem event_closed (guests : Guests ω ρ α) (session : SessionId) (k : ResourceId)
    (d : Dispatch ω ρ α) :
    d.event guests now unixTime (.closed session k) =
      ((d.dismiss guests session).react k fun r world =>
        r.closed guests (d.context now unixTime) session world).2.report
          (.sessionClosed session k) := rfl

/-- A session that closes loses its application and is forgotten by its resource. -/
theorem told_closed (guests : Guests ω ρ α) (session : SessionId) (k : ResourceId)
    (d : Dispatch ω ρ α) :
    Told name [.closed session k] d (d.event guests now unixTime (.closed session k)) := by
  rw [event_closed]
  constructor
  case left =>
    rintro id ⟨k', hk⟩
    obtain ⟨rfl, -⟩ := SessionEvent.closed.inj (List.mem_singleton.mp hk)
    rw [report, applications_react, get?_dismiss, if_pos rfl]
    rfl
  case stays =>
    intro id hc
    have hne : id ≠ session := by
      rintro rfl
      exact hc ⟨k, List.mem_singleton_self _⟩
    rw [report, applications_react, get?_dismiss, if_neg hne]
  case reported =>
    intro id k'
    rw [report, Queue.toList_push, List.mem_append, sessionClosed_mem_react, events_dismiss,
      List.mem_singleton, List.mem_singleton, CiEvent.sessionClosed.injEq,
      SessionEvent.closed.injEq]
  case keeps =>
    intro k' id h
    refine .inl ?_
    rcases keeps_of_react h with ⟨hne, hk⟩ | ⟨rfl, r, hr, hid⟩
    · rw [registry_dismiss] at hk
      exact ⟨hk, fun hm => hne (SessionEvent.closed.inj (List.mem_singleton.mp hm)).2⟩
    · rw [registry_dismiss] at hr
      obtain ⟨hne, hbefore⟩ := HostResource.mem_sessions_of_closed hid
      exact ⟨⟨r, hr, hbefore⟩,
        fun hm => hne (SessionEvent.closed.inj (List.mem_singleton.mp hm)).1⟩

/-! ## All events -/

theorem event_opened (guests : Guests ω ρ α) (session : SessionId) (k : ResourceId)
    (d : Dispatch ω ρ α) :
    d.event guests now unixTime (.opened session k) =
      let reacted := (d.report (.sessionOpened session k)).react k fun r world =>
        r.opened guests (d.context now unixTime) session world
      reacted.2.note reacted.1 := rfl

theorem event_data (guests : Guests ω ρ α) (session : SessionId) (k : ResourceId) (data : Bytes)
    (d : Dispatch ω ρ α) :
    d.event guests now unixTime (.data session k data) =
      let received := d.receiveAll guests now unixTime session k (Apdu.items data)
      received.2.note received.1 := rfl

/-- An event that is no end is work, and it has a resource take up state only with data. -/
theorem works_event (hq : guests.Quiet heard name) {e : SessionEvent}
    (hopen : ∀ id k, e ≠ .closed id k) (d : Dispatch ω ρ α) :
    Works heard name (fun k id => ∃ octets, e = .data id k octets) d
      (d.event guests now unixTime e) := by
  cases e with
  | opened session k =>
    rw [event_opened]
    refine (Works.trans (.report d ?_) (works_react _ k ?_ ?_)).noting _
    · exact fun _ _ he => nomatch he
    · exact fun r world => r.heard_opened hq _ session world
    · exact fun r world id h => .inl (HostResource.sessions_opened ▸ h)
  | created session k status => exact .report d fun _ _ he => nomatch he
  | data session k octets =>
    rw [event_data]
    refine ((works_receiveAll now unixTime hq session k (Apdu.items octets) d).mono ?_).noting _
    rintro k id ⟨rfl, rfl⟩
    exact ⟨octets, rfl⟩
  | closed session k => exact absurd rfl (hopen session k)

theorem told_event (hq : guests.Quiet heard name) (e : SessionEvent) (d : Dispatch ω ρ α) :
    Told name [e] d (d.event guests now unixTime e) := by
  by_cases hc : ∃ session k, e = .closed session k
  · obtain ⟨session, k, rfl⟩ := hc
    exact told_closed now unixTime guests session k d
  · have hopen : ∀ id k, e ≠ .closed id k := fun id k he => hc ⟨id, k, he⟩
    exact (works_event now unixTime hq hopen d).told hopen fun _ _ h => h

theorem told_after (hq : guests.Quiet heard name) (told : List SessionEvent)
    (d : Dispatch ω ρ α) : Told name told d ((handler guests now unixTime).after d told) := by
  induction told generalizing d with
  | nil => exact .nil d
  | cons e told ih => exact (told_event now unixTime hq e d).append (ih _)

/-! ## Applications that are told of the end -/

section

variable {heard : ω → List (SessionId × κ)}

/-- The names of the applications that were told of the end of a session. -/
def heardOf (heard : ω → List (SessionId × κ)) (id : SessionId) (world : ω) : List κ :=
  ((heard world).filter fun p => p.1 = id).map Prod.snd

theorem heardOf_of_eq {id : SessionId} {world world' : ω} (h : heard world' = heard world) :
    heardOf heard id world' = heardOf heard id world := by rw [heardOf, h, heardOf]

theorem dismiss_conserves (ha : guests.Accounts heard name) (session id : SessionId)
    (d : Dispatch ω ρ α) :
    heardOf heard id (d.dismiss guests session).world ++
        (((d.dismiss guests session).applications.get? id).map name).toList =
      heardOf heard id d.world ++ ((d.applications.get? id).map name).toList := by
  rw [get?_dismiss, dismiss]
  cases happ : d.applications.get? session with
  | none =>
    by_cases hid : id = session
    · rw [if_pos hid, hid, happ]
    · rw [if_neg hid]
  | some application =>
    dsimp only
    rw [heardOf, ha.applicationClosed, List.filter_append, List.map_append, ← heardOf]
    by_cases hid : id = session
    · have hkept : [(session, name application)].filter (fun p => p.1 = session) =
          [(session, name application)] := List.filter_cons_of_pos (decide_eq_true rfl)
      rw [if_pos hid, hid, happ, hkept]
      exact List.append_nil _
    · rw [if_neg hid, List.filter_cons_of_neg (by simpa using Ne.symm hid), List.filter_nil,
        List.map_nil, List.append_nil]

/-- An application stays attached or is told, and is told once. -/
theorem event_conserves (ha : guests.Accounts heard name) (e : SessionEvent) (d : Dispatch ω ρ α)
    (id : SessionId) :
    heardOf heard id (d.event guests now unixTime e).world ++
        (((d.event guests now unixTime e).applications.get? id).map name).toList =
      heardOf heard id d.world ++ ((d.applications.get? id).map name).toList := by
  by_cases hc : ∃ session k, e = .closed session k
  · obtain ⟨session, k, rfl⟩ := hc
    have hreact := heard_react (d.dismiss guests session) k
      fun r world => r.heard_closed ha.toQuiet (d.context now unixTime) session world
    rw [event_closed, report, applications_react, heardOf_of_eq hreact,
      dismiss_conserves ha session id d]
  · have hworks := works_event now unixTime ha.toQuiet (fun id k he => hc ⟨id, k, he⟩) d
    rw [heardOf_of_eq hworks.heard, hworks.names id]

theorem after_conserves (ha : guests.Accounts heard name) (told : List SessionEvent)
    (d : Dispatch ω ρ α) (id : SessionId) :
    heardOf heard id ((handler guests now unixTime).after d told).world ++
        ((((handler guests now unixTime).after d told).applications.get? id).map name).toList =
      heardOf heard id d.world ++ ((d.applications.get? id).map name).toList := by
  induction told generalizing d with
  | nil => rfl
  | cons e told ih => exact (ih _).trans (event_conserves now unixTime ha e d id)

end

end Dispatch

end DvbHost.Ci
