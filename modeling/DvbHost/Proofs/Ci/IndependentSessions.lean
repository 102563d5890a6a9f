import DvbHost.Proofs.Calendar.DateTime
import DvbHost.Proofs.Ci.HostRun
import DvbHost.Proofs.Ci.Length

/-!
# Sessions are served independently

One object for each resource of the library serves all sessions to it. `only` takes out of its state
all but what it keeps for one session. Seen from that session, a call on the session or a poll is
the same on what is left (`only_call`), and a call on another session sends, reports and changes
nothing (`spares_call`). So by induction (`observations_only`) a session sees the same of any calls as
when those on all other sessions are left out.
-/

namespace DvbHost

set_option autoImplicit false

/-! ## Lists with keys, seen from one key -/

namespace KeyedList

variable {κ ν : Type} [DecidableEq κ]

/-- The entries of one key. -/
def only (k : κ) (l : KeyedList κ ν) : KeyedList κ ν := l.filter (·.1 == k)

theorem get?_only (l : KeyedList κ ν) (k : κ) : get? (only k l) k = get? l k := by
  induction l with
  | nil => rfl
  | cons p l ih =>
    rw [only, List.filter_cons]
    by_cases h : k = p.1
    · rw [if_pos (beq_iff_eq.mpr h.symm), get?, get?, if_pos h, if_pos h]
    · rw [if_neg fun he => h (beq_iff_eq.mp he).symm, get?, if_neg h]
      exact ih

theorem only_put (l : KeyedList κ ν) (k : κ) (v : ν) : only k (put l k v) = put (only k l) k v := by
  induction l with
  | nil => exact List.filter_eq_self.mpr fun q hq => by simp [List.mem_singleton.mp hq]
  | cons p l ih =>
    obtain ⟨a, b⟩ := p
    by_cases h : k = a
    · subst h
      simp [only, put]
    · have hne : (a == k) = false := beq_false_of_ne (Ne.symm h)
      simpa [only, put, h, hne] using ih

theorem only_put_of_ne {k k' : κ} (h : k ≠ k') (l : KeyedList κ ν) (v : ν) :
    only k (put l k' v) = only k l := by
  have hk : (k' == k) = false := beq_false_of_ne (Ne.symm h)
  induction l with
  | nil => simp [only, put, hk]
  | cons p l ih =>
    obtain ⟨a, b⟩ := p
    rw [put]
    split_ifs with ha
    · subst ha
      simp [only, hk]
    · simp only [only, List.filter_cons] at ih ⊢
      rw [ih]

theorem erase_eq_filter (l : KeyedList κ ν) (k : κ) : erase l k = l.filter (·.1 != k) := by
  induction l with
  | nil => rfl
  | cons p l ih =>
    obtain ⟨a, b⟩ := p
    rw [erase, List.filter_cons, ih]
    by_cases h : k = a
    · simp [h]
    · simp [h, Ne.symm h]

theorem only_erase (l : KeyedList κ ν) (k : κ) : only k (erase l k) = erase (only k l) k := by
  rw [erase_eq_filter, erase_eq_filter, only, only, List.filter_comm]

theorem only_erase_of_ne {k k' : κ} (h : k ≠ k') (l : KeyedList κ ν) :
    only k (erase l k') = only k l := by
  rw [erase_eq_filter, only, only, List.filter_filter]
  refine List.filter_congr fun q _ => ?_
  by_cases hq : q.1 = k
  · simp [hq, h]
  · simp [hq]

end KeyedList

namespace Ci

/-! ## Calls and what a session sees of them -/

/-- The session that a report is about. -/
def AppEvent.session : AppEvent → SessionId
  | moduleProfile s _ | applicationInfo s _ | caInfo s _ | caPmtReply s _ | mmi s _ => s

/-- What a resource can be called for. -/
inductive ResourceCall where
  | opened (ctx : Context) (session : SessionId)
  | receive (ctx : Context) (session : SessionId) (apdu : Apdu)
  | closed (ctx : Context) (session : SessionId)
  | poll (ctx : Context)

namespace ResourceCall

/-- The session that the call is on; a poll is on none. -/
def session? : ResourceCall → Option SessionId
  | opened _ s | receive _ s _ | closed _ s => some s
  | poll _ => none

/-- The call is on no other session. -/
def concerns (s : SessionId) (c : ResourceCall) : Bool := c.session?.all (· == s)

end ResourceCall

/-- One thing that a session sees. -/
inductive Observation where
  | sent (unit : Bytes)
  | reported (event : AppEvent)
  | returned (call : ResourceCall) (error : Option CiError)

namespace HostResource

variable {ω ρ α : Type}

def call (guests : Guests ω ρ α) (world : ω) (r : HostResource ρ) :
    ResourceCall → Reaction (HostResource ρ) × ω
  | .opened ctx session => r.opened guests ctx session world
  | .receive ctx session apdu => r.receive guests ctx session apdu world
  | .closed ctx session => r.closed guests ctx session world
  | .poll ctx => r.poll guests ctx world

/-- Calls in order, each with the reaction to it. -/
def reactions (guests : Guests ω ρ α) : HostResource ρ → ω → List ResourceCall →
    List (ResourceCall × Reaction (HostResource ρ))
  | _, _, [] => []
  | r, world, c :: calls =>
    let (reaction, world) := r.call guests world c
    (c, reaction) :: reactions guests reaction.state world calls

def isGuest : HostResource ρ → Bool
  | guest .. => true
  | _ => false

end HostResource

/-! ## Reactions, seen from one session -/

namespace Reaction

variable {σ τ : Type}

/-- The units and reports of a reaction for one session, with a part of the state. -/
def only (s : SessionId) (f : σ → τ) (r : Reaction σ) : Reaction τ :=
  ⟨f r.state, r.sent.filter (·.1 == s), r.events.filter (·.session == s), r.error⟩

variable {s t : SessionId} {f : σ → τ} {state : σ} {e : CiError} {event : AppEvent} {tag : Nat}
  {data : Bytes} {r : Reaction σ}

/-- What the session sees of a reaction to a call. It sees the result of each call that is not on
another session. -/
def observed (s : SessionId) (call : ResourceCall) (r : Reaction σ) : List Observation :=
  (r.sent.filter (·.1 == s)).map (.sent ·.2) ++
    (r.events.filter (·.session == s)).map .reported ++
    if call.concerns s then [.returned call r.error] else []

/-- Nothing for the session comes of it. -/
def Spares (s : SessionId) (f : σ → τ) (old : σ) (r : Reaction σ) : Prop :=
  r.only s f = ⟨f old, [], [], r.error⟩

theorem only_done : (done state).only s f = done (f state) := rfl

theorem only_fail : (fail state e).only s f = fail (f state) e := rfl

theorem only_emit (h : event.session = s) : (emit state event).only s f = emit (f state) event := by
  rw [only, emit, emit, List.filter_singleton, beq_iff_eq.mpr h]
  rfl

theorem only_send : (send state s tag data).only s f = send (f state) s tag data := by
  rw [send, send]
  cases Apdu.encode tag data with
  | error e => rfl
  | ok apdu =>
    dsimp only
    rw [only, List.filter_singleton, beq_self_eq_true]
    rfl

theorem only_after (h : event.session = s) :
    (after event r).only s f = after event (r.only s f) := by
  rw [only, after, after, List.filter_cons, if_pos (beq_iff_eq.mpr h)]
  rfl

theorem spares_done {old : σ} (hstate : f state = f old) : (done state).Spares s f old := by
  rw [Spares, only_done, hstate]
  rfl

theorem spares_fail {old : σ} (hstate : f state = f old) : (fail state e).Spares s f old := by
  rw [Spares, only_fail, hstate]
  rfl

theorem spares_emit {old : σ} (hstate : f state = f old) (h : event.session ≠ s) :
    (emit state event).Spares s f old := by
  rw [Spares, only, emit, List.filter_singleton, beq_false_of_ne h, hstate]
  rfl

theorem spares_send {old : σ} (hstate : f state = f old) (h : t ≠ s) :
    (send state t tag data).Spares s f old := by
  rw [send]
  cases Apdu.encode tag data with
  | error e => exact spares_fail hstate
  | ok apdu =>
    rw [Spares, only, List.filter_singleton, beq_false_of_ne h, hstate]
    rfl

theorem spares_after {old : σ} (hr : r.Spares s f old) (h : event.session ≠ s) :
    (after event r).Spares s f old := by
  rw [Spares, only, mk.injEq] at hr
  rw [Spares, only, after, List.filter_cons, if_neg fun he => h (beq_iff_eq.mp he), hr.1, hr.2.1,
    hr.2.2.1]

theorem observed_only (call : ResourceCall) : observed s call (r.only s f) = observed s call r := by
  rw [observed, observed, only, List.filter_filter, List.filter_filter]
  simp only [Bool.and_self]

theorem observed_of_spares {old : σ} {call : ResourceCall} (hr : r.Spares s f old)
    (hcall : call.concerns s = false) : observed s call r = [] := by
  rw [← observed_only (f := f), hr, observed, if_neg (Bool.eq_false_iff.mp hcall)]
  rfl

/-- Seen as a reaction of something that holds the state. -/
theorem only_map {σ' τ' : Type} {g : σ → σ'} {k : τ → τ'} {f' : σ' → τ'} {r' : Reaction τ}
    (hr : r.only s f = r') (h : ∀ state, f' (g state) = k (f state)) :
    (r.map g).only s f' = r'.map k := by
  rw [← hr, only, map, map, only, h]

theorem spares_map {σ' τ' : Type} {old : σ} {g : σ → σ'} {f' : σ' → τ'} (hr : r.Spares s f old)
    (h : ∀ state, f state = f old → f' (g state) = f' (g old)) :
    (r.map g).Spares s f' (g old) := by
  rw [Spares, only, mk.injEq] at hr
  rw [Spares, only, map, hr.2.1, hr.2.2.1, h r.state hr.1]

end Reaction

/-! ## The single resources -/

variable {s t : SessionId} {apdu : Apdu} {ctx : Context}

namespace ResourceManager

/-- What is kept for one session. -/
def only (s : SessionId) (m : ResourceManager) : ResourceManager := ⟨m.changed.filter (· == s)⟩

variable {m : ResourceManager}

theorem only_add (h : t ≠ s) : only s ⟨t :: m.changed⟩ = m.only s := by
  rw [only, List.filter_cons, if_neg fun he => h (beq_iff_eq.mp he), only]

theorem only_profile (data : Bytes) :
    (m.profile s data).only s (only s) = (m.only s).profile s data := by
  have hmem : s ∈ (m.only s).changed ↔ s ∈ m.changed := by
    rw [only, List.mem_filter]
    exact and_iff_left (beq_self_eq_true s)
  rw [profile, profile]
  cases Bytes.parts? 4 data with
  | none => rfl
  | some parts =>
    dsimp only
    rw [Reaction.only_after (s := s) rfl]
    by_cases h : s ∈ m.changed
    · rw [if_pos h, if_pos (hmem.mpr h)]
      rfl
    · rw [if_neg h, if_neg (mt hmem.mp h), Reaction.only_send, only, List.filter_cons,
        if_pos (beq_self_eq_true s)]
      rfl

theorem spares_profile (h : t ≠ s) (data : Bytes) : (m.profile t data).Spares s (only s) m := by
  rw [profile]
  cases Bytes.parts? 4 data with
  | none => exact Reaction.spares_fail rfl
  | some parts =>
    refine Reaction.spares_after ?_ h
    split_ifs
    · exact Reaction.spares_done rfl
    · exact Reaction.spares_send (only_add h) h

theorem only_opened : (m.opened s).only s (only s) = (m.only s).opened s := Reaction.only_send

theorem spares_opened (h : t ≠ s) : (m.opened t).Spares s (only s) m := Reaction.spares_send rfl h

theorem only_receive :
    (m.receive ctx s apdu).only s (only s) = (m.only s).receive ctx s apdu := by
  rw [receive, receive]
  split_ifs
  · exact Reaction.only_send
  · exact only_profile apdu.data
  · exact Reaction.only_send
  · rfl

theorem spares_receive (h : t ≠ s) : (m.receive ctx t apdu).Spares s (only s) m := by
  rw [receive]
  split_ifs
  · exact Reaction.spares_send rfl h
  · exact spares_profile h apdu.data
  · exact Reaction.spares_send rfl h
  · exact Reaction.spares_fail rfl

theorem only_closed : (m.closed s).only s = (m.only s).closed s := by
  rw [only, closed, closed, only, List.filter_comm]

theorem only_closed_of_ne (h : t ≠ s) : (m.closed t).only s = m.only s := by
  rw [only, closed, only, List.filter_filter]
  refine congrArg mk (List.filter_congr fun id _ => ?_)
  by_cases hid : id = s
  · simp [hid, Ne.symm h]
  · simp [hid]

end ResourceManager

namespace ApplicationInformation

theorem only_opened : (opened s).only s id = opened s := Reaction.only_send

theorem spares_opened (h : t ≠ s) : (opened t).Spares s id () := Reaction.spares_send rfl h

theorem only_receive :
    (receive s apdu).only s id = receive s apdu := by
  rw [receive]
  split_ifs
  · split
    · exact Reaction.only_emit rfl
    · rfl
  · rfl

theorem spares_receive (h : t ≠ s) : (receive t apdu).Spares s id () := by
  rw [receive]
  split_ifs
  · split
    · exact Reaction.spares_emit rfl h
    · exact Reaction.spares_fail rfl
  · exact Reaction.spares_fail rfl

end ApplicationInformation

namespace ConditionalAccess

theorem only_opened : (opened s).only s id = opened s := Reaction.only_send

theorem spares_opened (h : t ≠ s) : (opened t).Spares s id () := Reaction.spares_send rfl h

theorem only_receive : (receive s apdu).only s id = receive s apdu := by
  rw [receive]
  split_ifs
  · rw [systems]
    split
    · rfl
    · exact Reaction.only_emit rfl
  · split
    · exact Reaction.only_emit rfl
    · rfl
  · rfl

theorem spares_receive (h : t ≠ s) : (receive t apdu).Spares s id () := by
  rw [receive]
  split_ifs
  · rw [systems]
    split
    · exact Reaction.spares_fail rfl
    · exact Reaction.spares_emit rfl h
  · split
    · exact Reaction.spares_emit rfl h
    · exact Reaction.spares_fail rfl
  · exact Reaction.spares_fail rfl

end ConditionalAccess

namespace Clock

/-- What is kept for one session, with what is told to all. -/
def only (s : SessionId) (c : Clock) : Clock := ⟨c.localOffset, c.schedules.only s⟩

variable {c : Clock}

theorem only_reschedule (seconds now : Nat) :
    (c.reschedule s seconds now).only s = (c.only s).reschedule s seconds now := by
  rw [reschedule, reschedule]
  split_ifs
  · rw [only, KeyedList.only_erase]
    rfl
  · rw [only, KeyedList.only_put]
    rfl

theorem only_reschedule_of_ne (h : t ≠ s) (seconds now : Nat) :
    (c.reschedule t seconds now).only s = c.only s := by
  rw [reschedule]
  split_ifs
  · rw [only, KeyedList.only_erase_of_ne (Ne.symm h)]
    rfl
  · rw [only, KeyedList.only_put_of_ne (Ne.symm h)]
    rfl

theorem only_receive : (c.receive ctx s apdu).only s (only s) = (c.only s).receive ctx s apdu := by
  rw [receive, receive]
  split_ifs
  · dsimp only
    rw [Reaction.only_send, only_reschedule]
    rfl
  · rfl

theorem spares_receive (h : t ≠ s) : (c.receive ctx t apdu).Spares s (only s) c := by
  rw [receive]
  split_ifs
  · exact Reaction.spares_send (only_reschedule_of_ne h _ _) h
  · exact Reaction.spares_fail rfl

theorem only_closed : (c.closed s).only s = (c.only s).closed s := by
  rw [only, closed, KeyedList.only_erase]
  rfl

theorem only_closed_of_ne (h : t ≠ s) : (c.closed t).only s = c.only s := by
  rw [only, closed, KeyedList.only_erase_of_ne (Ne.symm h)]
  rfl

/-- The unit that tells the time can always be made: it has five or seven octets of data. -/
theorem exists_time (c : Clock) (unixTime : Int) :
    ∃ octets, Apdu.encode tagTime (c.body unixTime) = .ok octets := by
  have hlength : (c.body unixTime).length < 2 ^ 32 := by
    rw [body, List.length_append, DateTime.length_toBytes]
    split
    · rw [Bytes.length_ofUInt16]
      decide
    · decide
  obtain ⟨field, hfield, -⟩ := Length.decode_encode hlength
  exact ⟨Bytes.ofNumber 3 tagTime ++ field ++ c.body unixTime, by
    rw [Apdu.encode, if_pos (by decide), hfield]; rfl⟩

theorem restart_of_none_due {now : Nat} (h : c.due now = []) : c.restart now = c := by
  have hnone : ∀ p ∈ c.schedules, ¬p.2.isDue now = true := by
    rw [due, KeyedList.keys, List.map_eq_nil_iff, List.filter_eq_nil_iff] at h
    exact h
  rw [restart]
  refine congrArg (mk c.localOffset) ((List.map_congr_left fun p hp => ?_).trans (List.map_id _))
  rw [if_neg (hnone p hp), id_eq]

/-- A poll sends the same unit on every session that is due, and never fails. -/
theorem poll_eq {octets : Bytes}
    (h : Apdu.encode tagTime (c.body ctx.unixTime) = .ok octets) :
    c.poll ctx = ⟨c.restart ctx.now, (c.due ctx.now).map (·, octets), [], none⟩ := by
  rw [poll, h]
  cases hdue : c.due ctx.now with
  | nil => rw [restart_of_none_due hdue]; rfl
  | cons session sessions => rfl

theorem only_restart (now : Nat) : (c.restart now).only s = (c.only s).restart now := by
  rw [only, restart, KeyedList.only, List.filter_map]
  refine congrArg (mk c.localOffset) (congrArg _ (List.filter_congr fun p _ => ?_))
  rw [Function.comp_apply]
  split <;> rfl

theorem due_only (now : Nat) : (c.only s).due now = (c.due now).filter (· == s) := by
  rw [due, due, KeyedList.keys, KeyedList.keys, List.filter_map, only, KeyedList.only,
    List.filter_comm]
  rfl

theorem only_poll : (c.poll ctx).only s (only s) = (c.only s).poll ctx := by
  obtain ⟨octets, htime⟩ := c.exists_time ctx.unixTime
  have htime' : Apdu.encode tagTime ((c.only s).body ctx.unixTime) = .ok octets := htime
  rw [poll_eq htime, poll_eq htime', Reaction.only, only_restart, due_only, List.filter_map]
  rfl

end Clock

namespace Mmi

/-- What is kept for one session. -/
def only (s : SessionId) (m : Mmi) : Mmi := ⟨m.chains.only s⟩

variable {m : Mmi}

theorem only_close : (m.close s).only s = (m.only s).close s :=
  congrArg mk (KeyedList.only_erase m.chains s)

theorem only_close_of_ne (h : t ≠ s) : (m.close t).only s = m.only s :=
  congrArg mk (KeyedList.only_erase_of_ne (Ne.symm h) m.chains)

theorem only_displayControl (data : Bytes) :
    (m.displayControl s data).only s (only s) = (m.only s).displayControl s data := by
  rw [displayControl, displayControl]
  cases displayReply data with
  | error e => rfl
  | ok reply => exact Reaction.only_send

theorem spares_displayControl (h : t ≠ s) (data : Bytes) :
    (m.displayControl t data).Spares s (only s) m := by
  rw [displayControl]
  cases displayReply data with
  | error e => exact Reaction.spares_fail rfl
  | ok reply => exact Reaction.spares_send rfl h

theorem only_enquiry (data : Bytes) :
    (m.enquiry s data).only s (only s) = (m.only s).enquiry s data := by
  rw [enquiry.eq_def, enquiry.eq_def]
  split
  · exact Reaction.only_emit rfl
  · rfl

theorem spares_enquiry (h : t ≠ s) (data : Bytes) : (m.enquiry t data).Spares s (only s) m := by
  rw [enquiry.eq_def]
  split
  · exact Reaction.spares_emit rfl h
  · exact Reaction.spares_fail rfl

theorem event_session (kind : ChainedObject) (menu : Menu) :
    (AppEvent.mmi t (kind.event menu)).session = t := rfl

theorem only_object (kind : ChainedObject) (last : Bool) (data : Bytes) :
    (m.object s kind last data).only s (only s) = (m.only s).object s kind last data := by
  have hjoined : (m.only s).joined s kind data = m.joined s kind data := by
    rw [joined, joined, only, KeyedList.get?_only]
  rw [object, object, hjoined]
  cases m.joined s kind data with
  | error e => rw [Reaction.only_fail, only_close]
  | ok whole =>
    dsimp only
    split_ifs
    · cases Menu.read whole with
      | error e => rw [Reaction.only_fail, only_close]
      | ok menu => rw [Reaction.only_emit (event_session kind menu), only_close]
    · rw [Reaction.only_done, only, KeyedList.only_put]
      rfl

theorem spares_object (h : t ≠ s) (kind : ChainedObject) (last : Bool) (data : Bytes) :
    (m.object t kind last data).Spares s (only s) m := by
  rw [object]
  cases m.joined t kind data with
  | error e => exact Reaction.spares_fail (only_close_of_ne h)
  | ok whole =>
    dsimp only
    split_ifs
    · cases Menu.read whole with
      | error e => exact Reaction.spares_fail (only_close_of_ne h)
      | ok menu => exact Reaction.spares_emit (only_close_of_ne h) h
    · exact Reaction.spares_done (congrArg mk (KeyedList.only_put_of_ne (Ne.symm h) ..))

theorem only_receive : (m.receive s apdu).only s (only s) = (m.only s).receive s apdu := by
  rw [receive, receive]
  cases Message.ofTag? apdu.tag with
  | none => rfl
  | some message =>
    cases message with
    | ignored => rfl
    | close => exact (Reaction.only_emit rfl).trans (congrArg (Reaction.emit · _) only_close)
    | displayControl => exact only_displayControl apdu.data
    | enquiry => exact only_enquiry apdu.data
    | object kind last => exact only_object kind last apdu.data

theorem spares_receive (h : t ≠ s) : (m.receive t apdu).Spares s (only s) m := by
  rw [receive]
  cases Message.ofTag? apdu.tag with
  | none => exact Reaction.spares_fail rfl
  | some message =>
    cases message with
    | ignored => exact Reaction.spares_done rfl
    | close => exact Reaction.spares_emit (only_close_of_ne h) h
    | displayControl => exact spares_displayControl h apdu.data
    | enquiry => exact spares_enquiry h apdu.data
    | object kind last => exact spares_object h kind last apdu.data

end Mmi

/-! ## All resources of the library -/

namespace HostResource

variable {ω ρ α : Type}

/-- A resource of the library with what it keeps for one session. -/
def only (s : SessionId) : HostResource ρ → HostResource ρ
  | resourceManager m => resourceManager (m.only s)
  | applicationInformation => applicationInformation
  | conditionalAccess => conditionalAccess
  | clock c => clock (c.only s)
  | mmi m => mmi (m.only s)
  | guest id state => guest id state

variable (guests : Guests ω ρ α) {r : HostResource ρ} {c : ResourceCall}

theorem isGuest_call (world : ω) : (r.call guests world c).1.state.isGuest = r.isGuest := by
  cases r <;> cases c <;> rfl

/-- A call on no other session does the same on what is kept for the session. -/
theorem only_call (hr : r.isGuest = false) (hc : c.concerns s = true) (world world' : ω) :
    (r.call guests world c).1.only s (only s) = ((r.only s).call guests world' c).1 := by
  cases c with
  | opened ctx session =>
    obtain rfl : session = s := beq_iff_eq.mp hc
    cases r with
    | resourceManager m => exact Reaction.only_map ResourceManager.only_opened fun _ => rfl
    | applicationInformation =>
      exact Reaction.only_map (k := fun _ => applicationInformation)
        ApplicationInformation.only_opened fun _ => rfl
    | conditionalAccess =>
      exact Reaction.only_map (k := fun _ => conditionalAccess)
        ConditionalAccess.only_opened fun _ => rfl
    | clock c => rfl
    | mmi m => rfl
    | guest k state => cases hr
  | receive ctx session apdu =>
    obtain rfl : session = s := beq_iff_eq.mp hc
    cases r with
    | resourceManager m => exact Reaction.only_map ResourceManager.only_receive fun _ => rfl
    | applicationInformation =>
      exact Reaction.only_map (k := fun _ => applicationInformation)
        ApplicationInformation.only_receive fun _ => rfl
    | conditionalAccess =>
      exact Reaction.only_map (k := fun _ => conditionalAccess)
        ConditionalAccess.only_receive fun _ => rfl
    | clock c => exact Reaction.only_map Clock.only_receive fun _ => rfl
    | mmi m => exact Reaction.only_map Mmi.only_receive fun _ => rfl
    | guest k state => cases hr
  | closed ctx session =>
    obtain rfl : session = s := beq_iff_eq.mp hc
    cases r with
    | resourceManager m =>
      exact congrArg (Reaction.done <| resourceManager ·) ResourceManager.only_closed
    | applicationInformation => rfl
    | conditionalAccess => rfl
    | clock c => exact congrArg (Reaction.done <| clock ·) Clock.only_closed
    | mmi m => exact congrArg (Reaction.done <| mmi ·) Mmi.only_close
    | guest k state => cases hr
  | poll ctx =>
    cases r with
    | resourceManager m => rfl
    | applicationInformation => rfl
    | conditionalAccess => rfl
    | clock c => exact Reaction.only_map Clock.only_poll fun _ => rfl
    | mmi m => rfl
    | guest k state => cases hr

/-- A call on another session does nothing for the session. -/
theorem spares_call (hr : r.isGuest = false) (hc : c.concerns s = false) (world : ω) :
    (r.call guests world c).1.Spares s (only s) r := by
  cases c with
  | opened ctx session =>
    have hne : session ≠ s := ne_of_beq_false hc
    cases r with
    | resourceManager m =>
      exact Reaction.spares_map (ResourceManager.spares_opened hne) fun _ =>
        congrArg resourceManager
    | applicationInformation =>
      exact Reaction.spares_map (ApplicationInformation.spares_opened hne) fun _ _ => rfl
    | conditionalAccess =>
      exact Reaction.spares_map (ConditionalAccess.spares_opened hne) fun _ _ => rfl
    | clock c => exact Reaction.spares_done rfl
    | mmi m => exact Reaction.spares_done rfl
    | guest k state => cases hr
  | receive ctx session apdu =>
    have hne : session ≠ s := ne_of_beq_false hc
    cases r with
    | resourceManager m =>
      exact Reaction.spares_map (ResourceManager.spares_receive hne) fun _ =>
        congrArg resourceManager
    | applicationInformation =>
      exact Reaction.spares_map (ApplicationInformation.spares_receive hne) fun _ _ => rfl
    | conditionalAccess =>
      exact Reaction.spares_map (ConditionalAccess.spares_receive hne) fun _ _ => rfl
    | clock c => exact Reaction.spares_map (Clock.spares_receive hne) fun _ => congrArg clock
    | mmi m => exact Reaction.spares_map (Mmi.spares_receive hne) fun _ => congrArg mmi
    | guest k state => cases hr
  | closed ctx session =>
    have hne : session ≠ s := ne_of_beq_false hc
    cases r with
    | resourceManager m =>
      exact Reaction.spares_done (congrArg resourceManager (ResourceManager.only_closed_of_ne hne))
    | applicationInformation => exact Reaction.spares_done rfl
    | conditionalAccess => exact Reaction.spares_done rfl
    | clock c => exact Reaction.spares_done (congrArg clock (Clock.only_closed_of_ne hne))
    | mmi m => exact Reaction.spares_done (congrArg mmi (Mmi.only_close_of_ne hne))
    | guest k state => cases hr
  | poll ctx => cases hc

/-! ## All calls -/

/-- All that a session sees of a sequence of calls, in order. -/
def observations (s : SessionId) (reactions : List (ResourceCall × Reaction (HostResource ρ))) :
    List Observation :=
  reactions.flatMap fun p => p.2.observed s p.1

/-- A session sees the same of what is kept for it, called without the calls on other sessions. -/
theorem observations_only (hr : r.isGuest = false) (world world' : ω) (calls : List ResourceCall) :
    observations s (r.reactions guests world calls) =
      observations s ((r.only s).reactions guests world' (calls.filter (·.concerns s))) := by
  induction calls generalizing r world world' with
  | nil => rfl
  | cons c calls ih =>
    have hnext := (isGuest_call guests (c := c) world).trans hr
    rw [reactions, observations, List.flatMap_cons, List.filter_cons]
    cases hc : c.concerns s with
    | true =>
      have hcall := only_call guests hr hc world world'
      rw [if_pos rfl, reactions, observations, List.flatMap_cons, ← hcall, Reaction.observed_only]
      exact congrArg _ (ih hnext _ _)
    | false =>
      have hcall := spares_call guests hr hc world
      have hstate : (r.call guests world c).1.state.only s = r.only s :=
        congrArg Reaction.state hcall
      rw [if_neg Bool.false_ne_true, Reaction.observed_of_spares hcall hc, List.nil_append,
        ← hstate]
      exact ih hnext _ _

/-- A session with a resource of the library sees the same units, reports and results, whatever the
calls on the other sessions to it. -/
theorem observations_independent (r : HostResource ρ) (hr : r.isGuest = false) (world : ω)
    (calls : List ResourceCall) (s : SessionId) :
    observations s (r.reactions guests world calls) =
      observations s (r.reactions guests world (calls.filter (·.concerns s))) := by
  rw [observations_only guests hr world world, observations_only guests hr world world (calls.filter _),
    List.filter_filter]
  simp only [Bool.and_self]

/-- Two modules are told the time on schedules of their own; one of them then makes an error and
ends its session. -/
def scheduledCalls : List ResourceCall :=
  [.receive ⟨0, 0, []⟩ ⟨0, 1, 1⟩ ⟨Clock.tagEnquiry, [10]⟩,
    .receive ⟨3000, 3, []⟩ ⟨1, 1, 1⟩ ⟨Clock.tagEnquiry, [5]⟩,
    .poll ⟨9000, 9, []⟩,
    .receive ⟨9500, 9, []⟩ ⟨1, 1, 1⟩ ⟨Clock.tagTime, []⟩,
    .closed ⟨9500, 9, []⟩ ⟨1, 1, 1⟩,
    .poll ⟨10000, 10, []⟩]

/-- The other module is told the time twice, the second time on its schedule. -/
theorem observations_independent_scheduled :
    let clock : HostResource Unit := .clock (.empty none)
    let reactions := clock.reactions CommonInterface.idleGuests ([], [])
    clock.isGuest = false ∧
      observations ⟨0, 1, 1⟩ (reactions scheduledCalls) =
        observations ⟨0, 1, 1⟩ (reactions (scheduledCalls.filter (·.concerns ⟨0, 1, 1⟩))) ∧
      observations ⟨0, 1, 1⟩ (reactions scheduledCalls) =
        [.sent [0x9F, 0x84, 0x41, 5, 0x9E, 0x8B, 0, 0, 0],
          .returned (.receive ⟨0, 0, []⟩ ⟨0, 1, 1⟩ ⟨Clock.tagEnquiry, [10]⟩) none,
          .returned (.poll ⟨9000, 9, []⟩) none,
          .sent [0x9F, 0x84, 0x41, 5, 0x9E, 0x8B, 0, 0, 0x10],
          .returned (.poll ⟨10000, 10, []⟩) none] :=
  ⟨rfl, observations_independent _ _ rfl _ _ _, rfl⟩

end HostResource

end Ci

end DvbHost
