import DvbHost.Proofs.Ci.SessionPassages
import DvbHost.Proofs.Episode

/-!
# The life cycle of a session

What a handler is told of one session comes in episodes, and between them at most come refusals. An
episode goes on exactly while the table has the session as an open one. Each change of the table
keeps this, so every run does, and no property of the carrier or of the handler is needed.
-/

namespace DvbHost.Ci

set_option autoImplicit false

open Episode

namespace SessionEvent

/-- The part that an event plays in the life of its session. -/
def mark : SessionEvent → Mark
  | opened .. => .opening
  | created _ _ status => if status = .ok then .opening else .aside
  | data .. => .content
  | closed .. => .closing

/-- The marks of those events that name a session. -/
def marksOf (id : SessionId) (events : List SessionEvent) : List Mark :=
  (events.filter fun e => e.session = id).map mark

variable (id : SessionId)

theorem marksOf_append (es es' : List SessionEvent) :
    marksOf id (es ++ es') = marksOf id es ++ marksOf id es' := by
  rw [marksOf, List.filter_append, List.map_append]
  rfl

theorem marksOf_self (e : SessionEvent) : marksOf e.session [e] = [e.mark] := by
  simp only [marksOf, decide_true, List.filter_cons_of_pos, List.filter_nil, List.map_cons,
    List.map_nil]

theorem marksOf_eq_nil {id : SessionId} {es : List SessionEvent} (h : ∀ e ∈ es, e.session ≠ id) :
    marksOf id es = [] := by
  rw [marksOf, List.filter_eq_nil_iff.mpr fun e he => by simpa using h e he]
  rfl

/-- Among events of different sessions there is one of each at most. -/
theorem filter_of_pairwise {es : List SessionEvent} {e : SessionEvent}
    (h : es.Pairwise fun e e' => e.session ≠ e'.session) (he : e ∈ es) :
    es.filter (fun e' => e'.session = e.session) = [e] := by
  induction es with
  | nil => cases he
  | cons x xs ih =>
    obtain ⟨hx, hxs⟩ := List.pairwise_cons.mp h
    rcases List.mem_cons.mp he with rfl | he
    · have hnone : xs.filter (fun e' => e'.session = e.session) = [] :=
        List.filter_eq_nil_iff.mpr fun e' he' => by simpa using (hx e' he').symm
      rw [List.filter_cons_of_pos (by simp), hnone]
    · rw [List.filter_cons_of_neg (by simpa using hx e he), ih hxs he]

theorem marksOf_of_pairwise {es : List SessionEvent} {e : SessionEvent}
    (h : es.Pairwise fun e e' => e.session ≠ e'.session) (he : e ∈ es) :
    marksOf e.session es = [e.mark] := by
  rw [marksOf, filter_of_pairwise h he]
  rfl

end SessionEvent

open SessionEvent

namespace SessionTable

variable {t t' : SessionTable} {id : SessionId} {told : List SessionEvent}

theorem hasOpen_of_none (h : t.get? id = none) : t.hasOpen id = false := by rw [hasOpen, h]; rfl

theorem hasOpen_of_some {s : Session} (h : t.get? id = some s) : t.hasOpen id = s.isOpen := by
  rw [hasOpen, h]
  rfl

/-- What was told of a session is in order, and an episode of it goes on exactly if the table has
it as an open one. -/
def Accounts (t : SessionTable) (told : List SessionEvent) : Prop :=
  ∀ id, scan (marksOf id told) = some (t.hasOpen id)

theorem accounts_new (maxSessions : Nat) : Accounts (new maxSessions) [] := by
  intro id
  rw [hasOpen_of_none (get?_new id maxSessions)]
  rfl

/-- Whether a session is open may change only along with what is told of it. -/
theorem Accounts.append {told' : List SessionEvent} (h : Accounts t told)
    (hstep : ∀ id, (marksOf id told').foldlM next (t.hasOpen id) = some (t'.hasOpen id)) :
    Accounts t' (told ++ told') := by
  intro id
  rw [marksOf_append, scan_append, h id]
  exact hstep id

/-- Where nothing is told, the same sessions must be open. -/
theorem Accounts.silent (h : Accounts t told) (hsame : ∀ id, t'.hasOpen id = t.hasOpen id) :
    Accounts t' (told ++ []) :=
  h.append fun id => congrArg some (hsame id).symm

/-- Where one event is told, only its session may change, and that must fit. -/
theorem Accounts.concat {e : SessionEvent} (h : Accounts t told)
    (hother : ∀ id, id ≠ e.session → t'.get? id = t.get? id)
    (hself : next (t.hasOpen e.session) e.mark = some (t'.hasOpen e.session)) :
    Accounts t' (told ++ [e]) := by
  refine h.append fun id => ?_
  by_cases he : id = e.session
  · rw [he, marksOf_self, List.foldlM_cons, hself]
    rfl
  · rw [marksOf_eq_nil fun e' he' => by rw [List.mem_singleton.mp he']; exact Ne.symm he,
      hasOpen_of_get? (hother id he)]
    rfl

/-- The sessions of a connection that ends are told to be closed, if they were open. -/
theorem foldlM_farewells (t : SessionTable) (slot : Nat) (tcid : UInt8) (id : SessionId) :
    (marksOf id (t.farewells slot tcid)).foldlM next (t.hasOpen id) =
      some ((t.removeConnection slot tcid).hasOpen id) := by
  have hremoved := get?_removeConnection t id slot tcid
  by_cases hc : id.slot = slot ∧ id.tcid = tcid
  · obtain ⟨rfl, rfl⟩ := hc
    rw [if_pos ⟨rfl, rfl⟩] at hremoved
    rw [hasOpen_of_none hremoved]
    cases hopen : t.hasOpen id with
    | true =>
      obtain ⟨s, hs, ho⟩ := (Option.any_eq_true _ _).mp hopen
      have hmem : SessionEvent.closed id s.resource ∈ t.farewells id.slot id.tcid :=
        (mem_farewells t id.slot id.tcid _).mpr ⟨id.number, s, hs, ho, rfl⟩
      have hmarks : marksOf id (t.farewells id.slot id.tcid) = [.closing] :=
        marksOf_of_pairwise (farewells_pairwise t id.slot id.tcid) hmem
      rw [hmarks]
      rfl
    | false =>
      have hmarks : marksOf id (t.farewells id.slot id.tcid) = [] := by
        refine marksOf_eq_nil fun e he heq => ?_
        obtain ⟨number, s, hs, ho, rfl⟩ := (mem_farewells t id.slot id.tcid e).mp he
        have hfound : t.get? id = some s := by rw [← heq]; exact hs
        rw [hasOpen_of_some hfound, ho] at hopen
        cases hopen
      rw [hmarks]
      rfl
  · rw [if_neg hc] at hremoved
    have hmarks : marksOf id (t.farewells slot tcid) = [] := by
      refine marksOf_eq_nil fun e he heq => hc ?_
      obtain ⟨number, s, hs, ho, rfl⟩ := (mem_farewells t slot tcid e).mp he
      rw [← heq]
      exact ⟨rfl, rfl⟩
    rw [hmarks, hasOpen_of_get? hremoved]
    rfl

/-- Every change keeps the account. -/
theorem Accounts.change {told' : List SessionEvent} (h : Accounts t told)
    (hc : Change t told' t') : Accounts t' (told ++ told') := by
  cases hc with
  | @asked slot tcid number resource free =>
    have hnone := get?_of_allocate t free
    refine h.silent fun id => ?_
    by_cases hid : id = ⟨slot, tcid, number⟩
    · rw [hid, hasOpen_of_none hnone, hasOpen_of_some (s := ⟨resource, .creating⟩) (by simp)]
      rfl
    · exact hasOpen_of_get? (by simp [hid])
  | @ending id s found active =>
    refine h.silent fun id' => ?_
    have hset := get?_setPhase t id id' .closing
    by_cases hid : id' = id
    · rw [if_pos hid, found] at hset
      rw [hasOpen_of_some hset, hid, hasOpen_of_some found, Session.isOpen, Session.isOpen, active]
      rfl
    · exact hasOpen_of_get? (by rw [hset, if_neg hid])
  | @data id resource octets active =>
    obtain ⟨s, hs, hp, -⟩ := resourceOf_eq_some active
    refine h.concat (fun _ _ => rfl) ?_
    have hopen : t.hasOpen id = true := (t.hasOpen_iff id).mpr ⟨s, hs, .inl hp⟩
    change next (t.hasOpen id) .content = some (t.hasOpen id)
    rw [hopen]
    rfl
  | @opened slot tcid number resource free =>
    have hnone := get?_of_allocate t free
    refine h.concat (fun id hid => by rw [get?_insert]; exact if_neg hid) ?_
    change next (t.hasOpen ⟨slot, tcid, number⟩) .opening = _
    rw [hasOpen_of_none hnone, hasOpen_of_some (s := ⟨resource, .active⟩) (by simp [session])]
    rfl
  | @agreed id s resource found creating =>
    have hset := fun id' => get?_setPhase t id id' .active
    refine h.concat (fun id' hid => by rw [hset]; exact if_neg hid) ?_
    have hself := hset id
    rw [if_pos rfl, found] at hself
    change next (t.hasOpen id) .opening = some ((t.setPhase id .active).hasOpen id)
    rw [hasOpen_of_some found, hasOpen_of_some hself, Session.isOpen, creating]
    rfl
  | @refused id s resource status found creating failed =>
    refine h.concat (fun id' hid => by rw [get?_remove]; exact if_neg hid) ?_
    have hmark : (SessionEvent.created id resource status).mark = .aside := if_neg failed
    rw [hmark]
    change next (t.hasOpen id) .aside = some ((t.remove id).hasOpen id)
    rw [hasOpen_of_some found, hasOpen_of_none (by simp), Session.isOpen, creating]
    rfl
  | @closed id s found wasOpen =>
    refine h.concat (fun id' hid => by rw [get?_remove]; exact if_neg hid) ?_
    change next (t.hasOpen id) .closing = some ((t.remove id).hasOpen id)
    rw [hasOpen_of_some found, hasOpen_of_none (by simp), wasOpen]
    rfl
  | @withdrawn id s found notOpen =>
    refine h.silent fun id' => ?_
    by_cases hid : id' = id
    · rw [hid, hasOpen_of_some found, hasOpen_of_none (by simp), notOpen]
    · exact hasOpen_of_get? (by simp [hid])
  | disconnected slot tcid => exact h.append (foldlM_farewells t slot tcid)

end SessionTable

namespace SessionLayer

variable {τ η : Type}

/-- Whatever happens to a session layer, what its handler is told of a session splits into whole
episodes and refusals, and behind them is an unfinished episode exactly if the table has the session
as an active or a closing one. -/
theorem told_in_episodes (transport : τ) (maxSessions : Nat) (h : Handler η) (start : η)
    (os : List (Occasion τ)) (id : SessionId) :
    ∃ unfinished,
      Split (marksOf id (Dialogue.run h.recorded os ⟨new transport maxSessions, start, []⟩).handler.2)
        unfinished ∧
      (unfinished = true ↔
        ∃ s, (Dialogue.run h os ⟨new transport maxSessions, start⟩).layer.table.get? id = some s ∧
          (s.phase = .active ∨ s.phase = .closing)) := by
  obtain ⟨told, htold, hchanges⟩ :=
    Dialogue.run_advances h os ⟨new transport maxSessions, start, []⟩
  have hplain := Dialogue.unrecorded_run h ⟨new transport maxSessions, start, []⟩ os
  rw [Dialogue.unrecorded, Dialogue.unrecorded] at hplain
  rw [← hplain, htold]
  have haccounts := hchanges.invariant (P := SessionTable.Accounts)
    (fun ha hc => ha.change hc) (SessionTable.accounts_new maxSessions)
  exact ⟨_, split_iff_scan.mpr (haccounts id), SessionTable.hasOpen_iff _ id⟩

end SessionLayer

end DvbHost.Ci
