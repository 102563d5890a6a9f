import DvbHost.Ci.SessionTable
import Std.Data.TreeMap.Lemmas

/-!
# Laws of the session table

`SessionTable.get?` is the view: every operation is described by what it does to the session of an
arbitrary name. No law needs the table to be reachable.
-/

namespace DvbHost.Ci

set_option autoImplicit false

namespace ConnectionSessions

@[simp] theorem sessions_empty (n : UInt16) : empty.sessions[n]? = none :=
  Std.TreeMap.getElem?_emptyc

/-- The search for a number stops at one that is not 0 and that no session has. -/
theorem free_of_freeAfter {c : ConnectionSessions} {fuel : Nat} {n free : UInt16}
    (h : c.freeAfter fuel n = some free) : free ≠ 0 ∧ c.sessions.contains free = false := by
  induction fuel generalizing n with
  | zero => cases h
  | succ fuel ih =>
    rw [freeAfter] at h
    by_cases hn : n + 1 ≠ 0 ∧ !c.sessions.contains (n + 1)
    · rw [if_pos hn] at h
      obtain rfl := Option.some.inj h
      exact ⟨hn.1, by simpa using hn.2⟩
    · rw [if_neg hn] at h
      exact ih h

end ConnectionSessions

/-- A name is its slot, its connection and its number there. -/
theorem SessionId.eq_iff (id id' : SessionId) :
    id' = id ↔ (id'.slot = id.slot ∧ id'.tcid = id.tcid) ∧ id.number = id'.number := by
  obtain ⟨slot, tcid, number⟩ := id
  obtain ⟨slot', tcid', number'⟩ := id'
  simp only [SessionId.mk.injEq]
  constructor
  · rintro ⟨rfl, rfl, rfl⟩
    exact ⟨⟨rfl, rfl⟩, rfl⟩
  · rintro ⟨⟨rfl, rfl⟩, rfl⟩
    exact ⟨rfl, rfl, rfl⟩

namespace SessionTable

variable (t : SessionTable) (id id' : SessionId)

theorem onConnection_put (slot slot' : Nat) (tcid tcid' : UInt8) (c : ConnectionSessions) :
    (t.put slot tcid c).onConnection slot' tcid' =
      if slot' = slot ∧ tcid' = tcid then c else t.onConnection slot' tcid' := by
  rw [onConnection, put, KeyedList.get?_put]
  by_cases h : slot' = slot ∧ tcid' = tcid
  · rw [if_pos h, if_pos (by rw [h.1, h.2])]
    rfl
  · rw [if_neg h, if_neg (by simpa using h)]
    rfl

/-- Writing the sessions of one connection changes no session of another. -/
theorem get?_put (slot : Nat) (tcid : UInt8) (c : ConnectionSessions) :
    (t.put slot tcid c).get? id =
      if id.slot = slot ∧ id.tcid = tcid then c.sessions[id.number]? else t.get? id := by
  rw [get?, onConnection_put]
  split <;> rfl

@[simp] theorem get?_new (maxSessions : Nat) : (new maxSessions).get? id = none :=
  ConnectionSessions.sessions_empty id.number

/-- What a session is after one number of its connection was written. -/
theorem get?_put_insert (last : UInt16) (s : Session) :
    (t.put id.slot id.tcid
      ⟨last, (t.onConnection id.slot id.tcid).sessions.insert id.number s⟩).get? id' =
      if id' = id then some s else t.get? id' := by
  rw [get?_put]
  by_cases hc : id'.slot = id.slot ∧ id'.tcid = id.tcid
  · rw [if_pos hc, Std.TreeMap.getElem?_insert]
    by_cases hn : id.number = id'.number
    · rw [if_pos (Std.compare_eq_iff_eq.mpr hn), if_pos ((id.eq_iff id').mpr ⟨hc, hn⟩)]
    · rw [if_neg (fun h => hn (Std.compare_eq_iff_eq.mp h)),
        if_neg (fun h => hn ((id.eq_iff id').mp h).2), get?, hc.1, hc.2]
  · rw [if_neg hc, if_neg (fun h => hc ((id.eq_iff id').mp h).1)]

@[simp] theorem get?_insert (s : Session) :
    (t.insert id s).get? id' = if id' = id then some s else t.get? id' :=
  get?_put_insert t id id' id.number s

theorem get?_setPhase (phase : SessionPhase) :
    (t.setPhase id phase).get? id' =
      if id' = id then (t.get? id).map ({ · with phase := phase }) else t.get? id' := by
  rw [setPhase]
  cases hs : t.get? id with
  | none =>
    by_cases h : id' = id
    · rw [if_pos h, h, hs]
      rfl
    · rw [if_neg h]
  | some s => exact get?_put_insert t id id' _ _

@[simp] theorem get?_remove :
    (t.remove id).get? id' = if id' = id then none else t.get? id' := by
  rw [remove]
  cases hs : t.get? id with
  | none =>
    by_cases h : id' = id
    · rw [if_pos h, h, hs]
    · rw [if_neg h]
  | some s =>
    change (t.put id.slot id.tcid _).get? id' = _
    rw [get?_put]
    by_cases hc : id'.slot = id.slot ∧ id'.tcid = id.tcid
    · rw [if_pos hc, Std.TreeMap.getElem?_erase]
      by_cases hn : id.number = id'.number
      · rw [if_pos (Std.compare_eq_iff_eq.mpr hn), if_pos ((id.eq_iff id').mpr ⟨hc, hn⟩)]
      · rw [if_neg (fun h => hn (Std.compare_eq_iff_eq.mp h)),
          if_neg (fun h => hn ((id.eq_iff id').mp h).2), get?, hc.1, hc.2]
    · rw [if_neg hc, if_neg (fun h => hc ((id.eq_iff id').mp h).1)]

@[simp] theorem get?_removeConnection (slot : Nat) (tcid : UInt8) :
    (t.removeConnection slot tcid).get? id =
      if id.slot = slot ∧ id.tcid = tcid then none else t.get? id := by
  rw [get?, onConnection, removeConnection, KeyedList.get?_erase]
  by_cases h : id.slot = slot ∧ id.tcid = tcid
  · rw [if_pos h, if_pos (by rw [h.1, h.2])]
    exact ConnectionSessions.sessions_empty id.number
  · rw [if_neg h, if_neg (by simpa using h)]
    rfl

theorem isSome_of_setPhase {t : SessionTable} {id id' : SessionId} {phase : SessionPhase}
    (h : ((t.setPhase id phase).get? id').isSome) : (t.get? id').isSome := by
  rw [get?_setPhase] at h
  split at h
  · next heq =>
    rw [heq]
    simpa using h
  · exact h

theorem isSome_of_remove {t : SessionTable} {id id' : SessionId}
    (h : ((t.remove id).get? id').isSome) : (t.get? id').isSome := by
  rw [get?_remove] at h
  split at h
  · cases h
  · exact h

theorem isSome_of_removeConnection {t : SessionTable} {id : SessionId} {slot : Nat} {tcid : UInt8}
    (h : ((t.removeConnection slot tcid).get? id).isSome) : (t.get? id).isSome := by
  rw [get?_removeConnection] at h
  split at h
  · cases h
  · exact h

/-- A number is given only while there is room, and the search has found it. -/
theorem of_allocate {slot : Nat} {tcid : UInt8} {number : UInt16}
    (h : t.allocate slot tcid = .ok number) :
    t.count < t.capacity ∧ (t.onConnection slot tcid).free? = some number := by
  rw [allocate] at h
  split at h
  · cases h
  · next hroom =>
    split at h
    · next free hfree =>
      obtain rfl := Except.ok.inj h
      exact ⟨Nat.lt_of_not_le hroom, hfree⟩
    · cases h

theorem ne_zero_of_allocate {slot : Nat} {tcid : UInt8} {number : UInt16}
    (h : t.allocate slot tcid = .ok number) : number ≠ 0 :=
  (ConnectionSessions.free_of_freeAfter (t.of_allocate h).2).1

/-- A new number is the number of no session of the connection. -/
theorem get?_of_allocate {slot : Nat} {tcid : UInt8} {number : UInt16}
    (h : t.allocate slot tcid = .ok number) : t.get? ⟨slot, tcid, number⟩ = none :=
  Std.TreeMap.getElem?_eq_none_of_contains_eq_false
    (ConnectionSessions.free_of_freeAfter (t.of_allocate h).2).2

/-- Whether the table has the session as an open one. -/
def hasOpen : Bool := (t.get? id).any Session.isOpen

theorem hasOpen_iff : t.hasOpen id = true ↔
    ∃ s, t.get? id = some s ∧ (s.phase = .active ∨ s.phase = .closing) := by
  simp only [hasOpen, Option.any_eq_true, Session.isOpen, Bool.or_eq_true, beq_iff_eq]

theorem hasOpen_of_get? {t t' : SessionTable} {id : SessionId} (h : t.get? id = t'.get? id) :
    t.hasOpen id = t'.hasOpen id := by
  rw [hasOpen, h, hasOpen]

/-- Only an active session has a resource to talk to. -/
theorem resourceOf_eq_some {t : SessionTable} {id : SessionId} {r : ResourceId}
    (h : t.resourceOf id = some r) : ∃ s, t.get? id = some s ∧ s.phase = .active ∧ s.resource = r := by
  obtain ⟨s, hs, hr⟩ := Option.bind_eq_some_iff.mp h
  by_cases hp : s.phase = .active
  · rw [if_pos hp] at hr
    exact ⟨s, hs, hp, Option.some.inj hr⟩
  · rw [if_neg hp] at hr
    cases hr

/-! ## The ends of a connection's sessions -/

variable (slot : Nat) (tcid : UInt8)

/-- What is told of a session at the end of its connection. -/
theorem mem_farewells (e : SessionEvent) :
    e ∈ t.farewells slot tcid ↔
      ∃ number s, t.get? ⟨slot, tcid, number⟩ = some s ∧ s.isOpen = true ∧
        e = .closed ⟨slot, tcid, number⟩ s.resource := by
  rw [farewells, List.mem_filterMap]
  constructor
  · rintro ⟨⟨number, s⟩, hm, he⟩
    rw [Std.TreeMap.mem_toList_iff_getElem?_eq_some] at hm
    dsimp only at he
    by_cases ho : s.isOpen = true
    · rw [if_pos ho] at he
      exact ⟨number, s, hm, ho, (Option.some.inj he).symm⟩
    · rw [if_neg ho] at he
      cases he
  · rintro ⟨number, s, hs, ho, rfl⟩
    refine ⟨(number, s), Std.TreeMap.mem_toList_iff_getElem?_eq_some.mpr hs, ?_⟩
    exact if_pos ho

/-- No two of the ends are of one session. -/
theorem farewells_pairwise :
    (t.farewells slot tcid).Pairwise fun e e' => e.session ≠ e'.session := by
  refine List.Pairwise.filterMap _ ?_ Std.TreeMap.distinct_keys_toList
  rintro ⟨n, s⟩ ⟨n', s'⟩ hne e he e' he' heq
  dsimp only at he he'
  split at he
  · split at he'
    · obtain rfl := Option.some.inj he
      obtain rfl := Option.some.inj he'
      have hn : n = n' := congrArg SessionId.number heq
      exact hne (Std.compare_eq_iff_eq.mpr hn)
    · cases he'
  · cases he

end SessionTable

end DvbHost.Ci
