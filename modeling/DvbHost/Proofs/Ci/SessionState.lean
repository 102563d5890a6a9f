import DvbHost.Proofs.Ci.DispatchedEvents
import DvbHost.Proofs.Ci.SessionLifeCycle

/-!
# No state outlives its session

A host keeps state of sessions in four places: the applications attached to sessions, the modules
that the resource manager has made to ask again, the schedules of the clock and the menus that have
come in part. `Tidy` ties them to the table of sessions: all of them belong to open sessions, and
each resource has state of such sessions only as were opened for it, so that the resource that a
session names is the one that has to forget it. Every change of the table keeps this together with
what is told of it.
-/

namespace DvbHost.Ci

set_option autoImplicit false

variable {ω ρ α β κ : Type}

/-! ## What changes of the table tell -/

namespace SessionTable

variable {t t' : SessionTable} {told : List SessionEvent}

/-- Data comes on open sessions, for their resources, and leaves them open. -/
theorem Change.open_of_data (hc : Change t told t') {id : SessionId} {k : ResourceId}
    {octets : Bytes} (h : .data id k octets ∈ told) :
    ∃ s, t'.get? id = some s ∧ s.isOpen = true ∧ s.resource = k := by
  cases hc with
  | data octets active =>
    obtain ⟨rfl, rfl, -⟩ := SessionEvent.data.inj (List.mem_singleton.mp h)
    obtain ⟨s, hs, hphase, hresource⟩ := resourceOf_eq_some active
    refine ⟨s, hs, ?_, hresource⟩
    rw [Session.isOpen, hphase]
    rfl
  | disconnected slot tcid =>
    obtain ⟨number, s, -, -, he⟩ := (mem_farewells t slot tcid _).mp h
    cases he
  | asked resource free => cases h
  | ending found active => cases h
  | withdrawn found notOpen => cases h
  | opened resource free => cases List.mem_singleton.mp h
  | agreed resource found creating => cases List.mem_singleton.mp h
  | refused resource found creating failed => cases List.mem_singleton.mp h
  | closed found wasOpen => cases List.mem_singleton.mp h

theorem hasOpen_of_creating {id : SessionId} {s : Session} (found : t.get? id = some s)
    (creating : s.phase = .creating) : t.hasOpen id = false := by
  rw [hasOpen_of_some found, Session.isOpen, creating]
  rfl

theorem ne_of_isOpen {id id' : SessionId} {s : Session} (hs : t.get? id = some s)
    (ho : s.isOpen = true) (h : t.hasOpen id' = false) : id ≠ id' := by
  rintro rfl
  rw [hasOpen_of_some hs, ho] at h
  cases h

/-- An open session stays open, for the same resource, unless its end is told. -/
theorem Change.closed_or_open (hc : Change t told t') {id : SessionId} {s : Session}
    (hs : t.get? id = some s) (ho : s.isOpen = true) :
    .closed id s.resource ∈ told ∨
      ∃ s', t'.get? id = some s' ∧ s'.isOpen = true ∧ s'.resource = s.resource := by
  cases hc with
  | @asked slot tcid number resource free =>
    have hne := ne_of_isOpen hs ho (hasOpen_of_none (get?_of_allocate t free))
    exact .inr ⟨s, by rw [get?_insert, if_neg hne, hs], ho, rfl⟩
  | @ending id' s' found active =>
    rw [get?_setPhase]
    by_cases hid : id = id'
    · obtain rfl := Option.some.inj (hs.symm.trans (hid ▸ found))
      rw [if_pos hid, found]
      exact .inr ⟨_, rfl, rfl, rfl⟩
    · rw [if_neg hid]
      exact .inr ⟨s, hs, ho, rfl⟩
  | data octets active => exact .inr ⟨s, hs, ho, rfl⟩
  | @opened slot tcid number resource free =>
    have hne := ne_of_isOpen hs ho (hasOpen_of_none (get?_of_allocate t free))
    exact .inr ⟨s, by rw [get?_insert, if_neg hne, hs], ho, rfl⟩
  | @agreed id' s' resource found creating =>
    have hne := ne_of_isOpen hs ho (hasOpen_of_creating found creating)
    exact .inr ⟨s, by rw [get?_setPhase, if_neg hne, hs], ho, rfl⟩
  | @refused id' s' resource status found creating failed =>
    have hne := ne_of_isOpen hs ho (hasOpen_of_creating found creating)
    exact .inr ⟨s, by rw [get?_remove, if_neg hne, hs], ho, rfl⟩
  | @closed id' s' found wasOpen =>
    by_cases hid : id = id'
    · obtain rfl := Option.some.inj (hs.symm.trans (hid ▸ found))
      exact .inl (List.mem_singleton.mpr (by rw [hid]))
    · exact .inr ⟨s, by rw [get?_remove, if_neg hid, hs], ho, rfl⟩
  | @withdrawn id' s' found notOpen =>
    have hne := ne_of_isOpen hs ho ((hasOpen_of_some found).trans notOpen)
    exact .inr ⟨s, by rw [get?_remove, if_neg hne, hs], ho, rfl⟩
  | disconnected slot tcid =>
    by_cases hc : id.slot = slot ∧ id.tcid = tcid
    · obtain ⟨rfl, rfl⟩ := hc
      exact .inl ((mem_farewells t _ _ _).mpr ⟨id.number, s, hs, ho, rfl⟩)
    · exact .inr ⟨s, by rw [get?_removeConnection, if_neg hc, hs], ho, rfl⟩

/-- A session that opens was not open, and nothing else is told. -/
theorem Change.opening_alone (hc : Change t told t') {e : SessionEvent} (he : e ∈ told)
    (hm : e.mark = .opening) : told = [e] ∧ t.hasOpen e.session = false := by
  cases hc with
  | asked resource free => cases he
  | ending found active => cases he
  | withdrawn found notOpen => cases he
  | data octets active =>
    obtain rfl := List.mem_singleton.mp he
    cases hm
  | opened resource free =>
    obtain rfl := List.mem_singleton.mp he
    exact ⟨rfl, hasOpen_of_none (get?_of_allocate t free)⟩
  | agreed resource found creating =>
    obtain rfl := List.mem_singleton.mp he
    exact ⟨rfl, hasOpen_of_creating found creating⟩
  | refused resource found creating failed =>
    obtain rfl := List.mem_singleton.mp he
    cases hm.symm.trans (if_neg failed)
  | closed found wasOpen =>
    obtain rfl := List.mem_singleton.mp he
    cases hm
  | disconnected slot tcid =>
    obtain ⟨number, s, -, -, rfl⟩ := (mem_farewells t slot tcid e).mp he
    cases hm

end SessionTable

open SessionTable

/-! ## The invariant -/

/-- A host has an application or something that a resource keeps for a session. -/
def Remembers (registry : Registry (HostResource ρ)) (applications : KeyedList SessionId α)
    (id : SessionId) : Prop :=
  id ∈ applications.keys ∨ ∃ k, registry.Keeps k id

structure Tidy (t : SessionTable) (registry : Registry (HostResource ρ))
    (applications : KeyedList SessionId α) : Prop where
  attached : ∀ id, (applications.get? id).isSome → t.hasOpen id = true
  kept : ∀ k id, registry.Keeps k id →
    ∃ s, t.get? id = some s ∧ s.isOpen = true ∧ s.resource = k

namespace Tidy

variable {t t' : SessionTable} {registry : Registry (HostResource ρ)}
  {applications : KeyedList SessionId α} {told : List SessionEvent}

theorem new (maxSessions : Nat) :
    Tidy (.new maxSessions) ([] : Registry (HostResource ρ)) ([] : KeyedList SessionId α) where
  attached _ h := nomatch h
  kept k id h := by
    obtain ⟨r, hr, -⟩ := h
    cases hr

theorem hasOpen (h : Tidy t registry applications) {id : SessionId}
    (hid : Remembers registry applications id) : t.hasOpen id = true := by
  rcases hid with hid | ⟨k, hk⟩
  · exact h.attached id (KeyedList.mem_keys_iff.mp hid)
  · obtain ⟨s, hs, ho, -⟩ := h.kept k id hk
    rw [hasOpen_of_some hs, ho]

variable {d d' : Dispatch ω ρ α} {name : α → κ}

/-- A change of the table, and what is told of it. -/
theorem change (h : Tidy t d.registry d.applications) (hc : Change t told t')
    (htold : Dispatch.Told name told d d') : Tidy t' d'.registry d'.applications where
  attached id hid := by
    have hstays : ¬ Dispatch.Closes told id := fun hcloses => by
      have hnone := htold.left id hcloses
      rw [Option.map_eq_none_iff.mp hnone] at hid
      cases hid
    have hbefore : (d.applications.get? id).isSome := by
      rw [← Option.isSome_map, ← htold.stays id hstays, Option.isSome_map]
      exact hid
    obtain ⟨s, hs, ho⟩ := (Option.any_eq_true _ _).mp (h.attached id hbefore)
    rcases hc.closed_or_open hs ho with hclosed | ⟨s', hs', ho', -⟩
    · exact absurd ⟨s.resource, hclosed⟩ hstays
    · rw [hasOpen_of_some hs', ho']
  kept k id hk := by
    rcases htold.keeps k id hk with ⟨hbefore, hnot⟩ | ⟨octets, hdata⟩
    · obtain ⟨s, hs, ho, rfl⟩ := h.kept k id hbefore
      exact (hc.closed_or_open hs ho).resolve_left hnot
    · exact hc.open_of_data hdata

/-- A change of which nothing is told. -/
theorem silent (h : Tidy t registry applications) (hc : Change t [] t') :
    Tidy t' registry applications := by
  let d : Dispatch Unit ρ α := ⟨registry, applications, .empty, .empty, none, ()⟩
  have hd : Tidy t d.registry d.applications := h
  have hnothing : Dispatch.Told (fun _ => ()) [] d d := .nil d
  exact hd.change hc hnothing

/-- What comes after a poll of the sessions has no part in them. -/
theorem works {heard : ω → β} (h : Tidy t d.registry d.applications)
    (hworks : Dispatch.Works heard name (fun _ _ => False) d d') :
    Tidy t d'.registry d'.applications where
  attached id hid := by
    rw [← Option.isSome_map, hworks.names id, Option.isSome_map] at hid
    exact h.attached id hid
  kept k id hk := h.kept k id ((hworks.keeps k id hk).resolve_right fun hf => hf)

/-- Changes in turn. Every event that opens a session meets a host that has nothing of it. -/
theorem changes (guests : Guests ω ρ α) (now : Nat) (unixTime : Int)
    (h : Tidy t d.registry d.applications) (hc : Changes t told t') :
    let handler := Dispatch.handler guests now unixTime
    Tidy t' (handler.after d told).registry (handler.after d told).applications ∧
      ∀ p ∈ handler.meetings d told, p.2.mark = .opening →
        ¬ Remembers p.1.registry p.1.applications p.2.session := by
  intro handler
  induction hc with
  | refl => exact ⟨h, fun p hp => nomatch hp⟩
  | @step t' t'' told told' before hchange ih =>
    obtain ⟨htidy, hmet⟩ := ih
    have htold := Dispatch.told_after now unixTime guests.quiet_trivial told' (handler.after d told)
    rw [handler.after_append, handler.meetings_append]
    refine ⟨htidy.change hchange htold, ?_⟩
    rintro ⟨met, e⟩ hp hm hremembers
    rcases List.mem_append.mp hp with hp | hp
    · exact hmet _ hp hm hremembers
    · obtain ⟨hsingle, hclosed⟩ := hchange.opening_alone (handler.mem_meetings _ _ hp) hm
      rw [hsingle] at hp
      obtain ⟨rfl, -⟩ := Prod.mk.inj (List.mem_singleton.mp hp)
      cases (htidy.hasOpen hremembers).symm.trans hclosed

end Tidy

end DvbHost.Ci
