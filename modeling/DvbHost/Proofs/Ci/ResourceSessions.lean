import DvbHost.Ci.CommonInterface

/-!
# What resources keep for single sessions

Three of the library's resources keep something for a session: that its module has been made to
ask again, the schedule on which it is sent the time, a menu or list that has come in part. It
begins with a unit on that session at the earliest and is gone when the session has ended.
-/

namespace DvbHost.Ci

set_option autoImplicit false

@[simp] theorem Reaction.state_send {σ : Type} (s : σ) (session : SessionId) (tag : Nat)
    (data : Bytes) : (Reaction.send s session tag data).state = s := by
  rw [send]
  cases Apdu.encode tag data <;> rfl

@[simp] theorem Reaction.events_send {σ : Type} (s : σ) (session : SessionId) (tag : Nat)
    (data : Bytes) : (Reaction.send s session tag data).events = [] := by
  rw [send]
  cases Apdu.encode tag data <;> rfl

@[simp] theorem Reaction.state_after {σ : Type} (event : AppEvent) (r : Reaction σ) :
    (r.after event).state = r.state := rfl

/-! ## The single resources -/

variable {session id : SessionId} {apdu : Apdu} {ctx : Context}

namespace ResourceManager

variable {m : ResourceManager}

theorem mem_changed_of_profile {data : Bytes} (h : id ∈ (m.profile session data).state.changed) :
    id = session ∨ id ∈ m.changed := by
  rw [profile] at h
  split at h
  · exact .inr h
  · rw [Reaction.state_after] at h
    split at h
    · exact .inr h
    · rw [Reaction.state_send] at h
      exact List.mem_cons.mp h

theorem mem_changed_of_receive (h : id ∈ (m.receive ctx session apdu).state.changed) :
    id = session ∨ id ∈ m.changed := by
  rw [receive] at h
  split at h
  · rw [Reaction.state_send] at h
    exact .inr h
  · split at h
    · exact mem_changed_of_profile h
    · split at h
      · rw [Reaction.state_send] at h
        exact .inr h
      · exact .inr h

theorem mem_changed_of_closed (h : id ∈ (m.closed session).changed) :
    id ≠ session ∧ id ∈ m.changed := by
  obtain ⟨hm, hne⟩ := List.mem_filter.mp h
  exact ⟨of_decide_eq_true hne, hm⟩

end ResourceManager

namespace Clock

variable {c : Clock}

theorem mem_schedules_of_receive (h : id ∈ (c.receive ctx session apdu).state.schedules.keys) :
    id = session ∨ id ∈ c.schedules.keys := by
  rw [receive] at h
  split at h
  · rw [Reaction.state_send, reschedule] at h
    split at h
    · exact .inr (KeyedList.mem_keys_erase.mp h).2
    · exact KeyedList.mem_keys_put.mp h
  · exact .inr h

theorem mem_schedules_of_closed (h : id ∈ (c.closed session).schedules.keys) :
    id ≠ session ∧ id ∈ c.schedules.keys := KeyedList.mem_keys_erase.mp h

/-- To restart a schedule is to keep it. -/
theorem keys_restart (now : Nat) : (c.restart now).schedules.keys = c.schedules.keys := by
  rw [KeyedList.keys, KeyedList.keys, restart, List.map_map]
  refine List.map_congr_left fun p _ => ?_
  rw [Function.comp_apply]
  split <;> rfl

theorem keys_poll : (c.poll ctx).state.schedules.keys = c.schedules.keys := by
  rw [poll]
  split
  · rfl
  · exact keys_restart ctx.now
  · exact keys_restart ctx.now

end Clock

namespace Mmi

variable {m : Mmi}

theorem mem_chains_of_close (h : id ∈ (m.close session).chains.keys) :
    id ≠ session ∧ id ∈ m.chains.keys := KeyedList.mem_keys_erase.mp h

theorem mem_chains_of_object {kind : ChainedObject} {last : Bool} {data : Bytes}
    (h : id ∈ (m.object session kind last data).state.chains.keys) :
    id = session ∨ id ∈ m.chains.keys := by
  rw [object] at h
  split at h
  · exact .inr (mem_chains_of_close h).2
  · split at h
    · split at h
      · exact .inr (mem_chains_of_close h).2
      · exact .inr (mem_chains_of_close h).2
    · exact KeyedList.mem_keys_put.mp h

theorem mem_chains_of_receive (h : id ∈ (m.receive session apdu).state.chains.keys) :
    id = session ∨ id ∈ m.chains.keys := by
  rw [receive] at h
  split at h
  · exact .inr h
  · exact .inr h
  · exact .inr (mem_chains_of_close h).2
  · rw [displayControl] at h
    split at h
    · rw [Reaction.state_send] at h
      exact .inr h
    · exact .inr h
  · rw [enquiry.eq_def] at h
    split at h
    · exact .inr h
    · exact .inr h
  · exact mem_chains_of_object h

end Mmi

/-! ## All resources of a host -/

namespace HostResource

variable {ω ρ α : Type}

/-- The sessions that a resource of the library keeps something for. -/
def sessions : HostResource ρ → List SessionId
  | resourceManager m => m.changed
  | applicationInformation => []
  | conditionalAccess => []
  | clock c => c.schedules.keys
  | mmi m => m.chains.keys
  | guest _ _ => []

variable {guests : Guests ω ρ α} {r : HostResource ρ} {world : ω}

theorem sessions_opened : (r.opened guests ctx session world).1.state.sessions = r.sessions := by
  cases r with
  | resourceManager m => exact congrArg ResourceManager.changed (Reaction.state_send ..)
  | applicationInformation => rfl
  | conditionalAccess => rfl
  | clock c => rfl
  | mmi m => rfl
  | guest k state => rfl

theorem mem_sessions_of_receive
    (h : id ∈ (r.receive guests ctx session apdu world).1.state.sessions) :
    id = session ∨ id ∈ r.sessions := by
  cases r with
  | resourceManager m => exact ResourceManager.mem_changed_of_receive h
  | applicationInformation => cases h
  | conditionalAccess => cases h
  | clock c => exact Clock.mem_schedules_of_receive h
  | mmi m => exact Mmi.mem_chains_of_receive h
  | guest k state => cases h

theorem mem_sessions_of_closed (h : id ∈ (r.closed guests ctx session world).1.state.sessions) :
    id ≠ session ∧ id ∈ r.sessions := by
  cases r with
  | resourceManager m => exact ResourceManager.mem_changed_of_closed h
  | applicationInformation => cases h
  | conditionalAccess => cases h
  | clock c => exact Clock.mem_schedules_of_closed h
  | mmi m => exact Mmi.mem_chains_of_close h
  | guest k state => cases h

theorem sessions_poll : (r.poll guests ctx world).1.state.sessions = r.sessions := by
  cases r with
  | resourceManager m => rfl
  | applicationInformation => rfl
  | conditionalAccess => rfl
  | clock c => exact Clock.keys_poll
  | mmi m => rfl
  | guest k state => rfl

/-- The resources that come with the library keep nothing to begin with. -/
theorem sessions_of_mem_standard {localOffset : Option Int16} (h : r ∈ standard localOffset) :
    r.sessions = [] := by
  simp only [standard, List.mem_cons, List.not_mem_nil, or_false] at h
  rcases h with rfl | rfl | rfl | rfl | rfl <;> rfl

end HostResource

end DvbHost.Ci
