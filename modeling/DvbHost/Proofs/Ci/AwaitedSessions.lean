import DvbHost.Proofs.Ci.SessionPassages

/-!
# Sessions that the host waits for

A session that the host has asked for waits for the module's answer. Until the answer comes nothing
is told of it; the answer is told, whatever it is. But the module can also end the session instead
of answering, or the connection can end, and then the session is gone without a word. So the host
learns of a session that it has asked for exactly if the module has answered.
-/

namespace DvbHost.Ci

set_option autoImplicit false

/-- The event tells that the session was created, was refused, or is closed. -/
def SessionEvent.Settles (id : SessionId) (e : SessionEvent) : Prop :=
  (∃ resource status, e = .created id resource status) ∨ ∃ resource, e = .closed id resource

namespace Cause

variable (id : SessionId)

/-- The module answers the host's wish for the session. -/
def Answers (c : Cause) : Prop :=
  ∃ status resource,
    c = .received id.slot id.tcid (.createSessionResponse status resource id.number)

/-- The module ends the session, or its connection ends. -/
def Ends (c : Cause) : Prop :=
  c = .received id.slot id.tcid (.closeSessionRequest id.number) ∨
    c = .disconnected id.slot id.tcid

end Cause

/-- Whether the handler was told how the session came out. -/
def Passage.Settled (id : SessionId) (ps : List Passage) : Prop :=
  ∃ p ∈ ps, ∃ e ∈ p.told, e.Settles id

/-- Whether the module has answered the wish for the session. -/
def Passage.Answered (id : SessionId) (ps : List Passage) : Prop :=
  ∃ p ∈ ps, p.cause.Answers id

namespace Passage

variable {id : SessionId} {p : Passage} {ps : List Passage}

theorem settled_cons :
    Settled id (p :: ps) ↔ (∃ e ∈ p.told, e.Settles id) ∨ Settled id ps := by
  simp only [Settled, List.mem_cons, or_and_right, exists_or, exists_eq_left]

theorem answered_cons : Answered id (p :: ps) ↔ p.cause.Answers id ∨ Answered id ps := by
  simp only [Answered, List.mem_cons, or_and_right, exists_or, exists_eq_left]

end Passage

theorem SessionEvent.Settles.session {id : SessionId} {e : SessionEvent} (h : e.Settles id) :
    e.session = id := by
  rcases h with ⟨resource, status, rfl⟩ | ⟨resource, rfl⟩ <;> rfl

/-! ## One unit -/

/-- The number of the session that a unit of the module is about. -/
def Spdu.number? : Spdu → Option UInt16
  | sessionNumber number _ | createSessionResponse _ _ number | closeSessionRequest number
  | closeSessionResponse _ number => some number
  | openSessionRequest _ | openSessionResponse .. | createSession .. => none

/-- A unit on a connection is about the session. -/
def Spdu.Names (slot : Nat) (tcid : UInt8) (id : SessionId) (unit : Spdu) : Prop :=
  ∃ number, unit.number? = some number ∧ id = ⟨slot, tcid, number⟩

/-- A unit that is not about a session of the table says nothing of it and leaves it alone. -/
theorem SessionTable.Receives.others {t t' : SessionTable} {slot : Nat} {tcid : UInt8}
    {unit : Spdu} {told : List SessionEvent} {id : SessionId}
    (hr : t.Receives slot tcid unit told t') (hid : (t.get? id).isSome)
    (hnames : ¬ unit.Names slot tcid id) :
    (∀ e ∈ told, e.session ≠ id) ∧ t'.get? id = t.get? id := by
  have hne : ∀ number, unit.number? = some number → id ≠ ⟨slot, tcid, number⟩ :=
    fun number hnumber heq => hnames ⟨number, hnumber, heq⟩
  have silent : told = [] ∧ t' = t → (∀ e ∈ told, e.session ≠ id) ∧ t'.get? id = t.get? id := by
    rintro ⟨rfl, rfl⟩
    exact ⟨nofun, rfl⟩
  cases unit with
  | sessionNumber number octets =>
    rw [Receives] at hr
    split at hr
    · obtain ⟨rfl, rfl⟩ := hr
      exact ⟨List.forall_mem_singleton.mpr (hne number rfl).symm, rfl⟩
    · exact silent hr
  | openSessionRequest requested =>
    rcases hr with hr | ⟨resource, number, free, rfl, rfl⟩
    · exact silent hr
    · have hnew : id ≠ ⟨slot, tcid, number⟩ := by
        rintro rfl
        rw [t.get?_of_allocate free] at hid
        cases hid
      exact ⟨List.forall_mem_singleton.mpr hnew.symm, by rw [get?_insert, if_neg hnew]⟩
  | createSessionResponse status resource number =>
    rw [Receives] at hr
    split at hr
    · obtain ⟨rfl, rfl⟩ := hr
      refine ⟨List.forall_mem_singleton.mpr (hne number rfl).symm, ?_⟩
      split
      · rw [get?_setPhase, if_neg (hne number rfl)]
      · rw [get?_remove, if_neg (hne number rfl)]
    · exact silent hr
  | closeSessionRequest number =>
    rw [Receives] at hr
    split at hr
    · obtain ⟨rfl, rfl⟩ := hr
      refine ⟨?_, by rw [get?_remove, if_neg (hne number rfl)]⟩
      split
      · exact List.forall_mem_singleton.mpr (hne number rfl).symm
      · nofun
    · exact silent hr
  | closeSessionResponse status number =>
    rw [Receives] at hr
    split at hr
    · split at hr
      · obtain ⟨rfl, rfl⟩ := hr
        exact ⟨List.forall_mem_singleton.mpr (hne number rfl).symm,
          by rw [get?_remove, if_neg (hne number rfl)]⟩
      · exact silent hr
    · exact silent hr
  | openSessionResponse status resource number => exact silent hr
  | createSession resource number => exact silent hr

/-! ## One passage -/

namespace SessionTable

variable {t t' : SessionTable} {id id' : SessionId} {s : Session} {told : List SessionEvent}

/-- The host waits for the module's answer. -/
def Awaits (t : SessionTable) (id : SessionId) (s : Session) : Prop :=
  t.get? id = some s ∧ s.phase = .creating

/-- What becomes of a session that is waited for when no answer comes: nothing is told of it, and it
is as it was or gone. -/
structure Waits (t : SessionTable) (c : Cause) (told : List SessionEvent) (t' : SessionTable)
    (id : SessionId) : Prop where
  unanswered : ¬ c.Answers id
  untold : ∀ e ∈ told, e.session ≠ id
  stays : t'.get? id = t.get? id ∨ c.Ends id ∧ t'.get? id = none

namespace Awaits

variable (h : t.Awaits id s)

include h

theorem ne_of_none (hnone : t.get? id' = none) : id ≠ id' := by
  rintro rfl
  rw [h.1] at hnone
  cases hnone

theorem ne_of_phase {s' : Session} (hs : t.get? id' = some s') (hp : s'.phase ≠ .creating) :
    id ≠ id' := by
  rintro rfl
  obtain rfl := Option.some.inj (h.1.symm.trans hs)
  exact hp h.2

theorem ne_of_resourceOf {resource : ResourceId} (hr : t.resourceOf id' = some resource) :
    id ≠ id' := by
  obtain ⟨s', hs, hp, -⟩ := resourceOf_eq_some hr
  exact h.ne_of_phase hs (by rw [hp]; decide)

theorem not_open : s.isOpen = false := by rw [Session.isOpen, h.2]; rfl

end Awaits

theorem Waits.unsettled {c : Cause} (h : t.Waits c told t' id) : ¬ ∃ e ∈ told, e.Settles id :=
  fun ⟨e, he, hs⟩ => h.untold e he hs.session

theorem Waits.of_silent {c : Cause} (unanswered : ¬ c.Answers id) (htold : told = [])
    (ht : t' = t) : t.Waits c told t' id where
  unanswered := unanswered
  untold e he := by rw [htold] at he; cases he
  stays := .inl (by rw [ht])

/-- A unit of the module is the answer, which is told, or the session goes on waiting or is
ended. -/
theorem Receives.awaited {slot : Nat} {tcid : UInt8} {unit : Spdu} (h : t.Awaits id s)
    (hr : t.Receives slot tcid unit told t') :
    ((Cause.received slot tcid unit).Answers id ∧ ∃ e ∈ told, e.Settles id) ∨
      t.Waits (.received slot tcid unit) told t' id := by
  by_cases hnames : unit.Names slot tcid id
  · obtain ⟨number, hnumber, rfl⟩ := hnames
    cases unit with
    | sessionNumber _ octets =>
      obtain rfl := Option.some.inj hnumber
      rw [Receives] at hr
      split at hr
      · next resource hactive => exact absurd rfl (h.ne_of_resourceOf hactive)
      · exact .inr (.of_silent (by rintro ⟨_, _, ⟨⟩⟩) hr.1 hr.2)
    | createSessionResponse status resource _ =>
      obtain rfl := Option.some.inj hnumber
      rw [Receives, if_pos (by rw [h.1, Option.map_some, h.2])] at hr
      obtain ⟨rfl, -⟩ := hr
      exact .inl ⟨⟨status, resource, rfl⟩, _, List.mem_singleton_self _,
        .inl ⟨resource, status, rfl⟩⟩
    | closeSessionRequest _ =>
      obtain rfl := Option.some.inj hnumber
      rw [Receives, h.1] at hr
      obtain ⟨rfl, rfl⟩ := hr
      rw [h.not_open]
      exact .inr ⟨by rintro ⟨_, _, ⟨⟩⟩, List.forall_mem_nil _,
        .inr ⟨.inl rfl, by rw [get?_remove, if_pos rfl]⟩⟩
    | closeSessionResponse status _ =>
      obtain rfl := Option.some.inj hnumber
      rw [Receives, h.1] at hr
      dsimp only at hr
      rw [if_neg (by rw [h.2]; decide)] at hr
      exact .inr (.of_silent (by rintro ⟨_, _, ⟨⟩⟩) hr.1 hr.2)
    | openSessionRequest _ => cases hnumber
    | openSessionResponse _ _ _ => cases hnumber
    | createSession _ _ => cases hnumber
  · obtain ⟨huntold, hsame⟩ := hr.others (Option.isSome_of_eq_some h.1) hnames
    refine .inr ⟨?_, huntold, .inl hsame⟩
    rintro ⟨status, resource, hunit⟩
    cases hunit
    exact hnames ⟨id.number, rfl, rfl⟩

/-- The end of a connection takes the session with it or is no concern of it. -/
theorem Awaits.disconnected (h : t.Awaits id s) (slot : Nat) (tcid : UInt8) :
    t.Waits (.disconnected slot tcid) (t.farewells slot tcid) (t.removeConnection slot tcid)
      id where
  unanswered := nofun
  untold e he heq := by
    obtain ⟨number, s', hs, ho, rfl⟩ := (mem_farewells t slot tcid e).mp he
    obtain rfl : ⟨slot, tcid, number⟩ = id := heq
    obtain rfl := Option.some.inj (h.1.symm.trans hs)
    rw [h.not_open] at ho
    cases ho
  stays := by
    rw [get?_removeConnection]
    by_cases hc : id.slot = slot ∧ id.tcid = tcid
    · rw [if_pos hc, ← hc.1, ← hc.2]
      exact .inr ⟨.inr rfl, rfl⟩
    · rw [if_neg hc]
      exact .inl rfl

/-- Whatever happens is the answer, which is told, or lets the session wait or ends it. -/
theorem Undergoes.awaited {c : Cause} (h : t.Awaits id s) (hc : t.Undergoes c told t') :
    (c.Answers id ∧ ∃ e ∈ told, e.Settles id) ∨ t.Waits c told t' id := by
  cases c with
  | created id' =>
    obtain ⟨rfl, resource, free, rfl⟩ := hc
    have hne := h.ne_of_none (get?_of_allocate t free)
    exact .inr ⟨nofun, nofun, .inl (by rw [get?_insert, if_neg hne])⟩
  | called =>
    obtain ⟨rfl, rfl | ⟨id', s', hs, hp, rfl⟩⟩ := hc
    · exact .inr (.of_silent nofun rfl rfl)
    · have hne := h.ne_of_phase hs (by rw [hp]; decide)
      exact .inr ⟨nofun, nofun, .inl (by rw [get?_setPhase, if_neg hne])⟩
  | received slot tcid unit => exact Receives.awaited h hc
  | disconnected slot tcid =>
    obtain ⟨rfl, rfl⟩ := hc
    exact .inr (h.disconnected slot tcid)

end SessionTable

/-! ## From the wish to the end -/

/-- Up to a passage, the handler has learned of the session exactly if the module has answered; if
it has not, what that passage does ends the session. -/
def Passage.Accounted (id : SessionId) (ps : List Passage) (left : Passage) : Prop :=
  (Settled id ps ↔ Answered id ps) ∧ (¬ Answered id ps → left.cause.Ends id)

namespace Passage

variable {id : SessionId} {p left : Passage} {ps : List Passage}

/-- An answer that is told settles it. -/
theorem accounted_of_answer (h : p.cause.Answers id ∧ ∃ e ∈ p.told, e.Settles id) :
    Accounted id (p :: ps) left := by
  have answered : Answered id (p :: ps) := answered_cons.mpr (.inl h.1)
  exact ⟨iff_of_true (settled_cons.mpr (.inl h.2)) answered, fun hno => absurd answered hno⟩

/-- While the session waits nothing counts. -/
theorem accounted_cons {t : SessionTable} (h : t.Waits p.cause p.told p.after id) :
    Accounted id (p :: ps) left ↔ Accounted id ps left := by
  rw [Accounted, Accounted, settled_cons, answered_cons, or_iff_right h.unsettled,
    or_iff_right h.unanswered]

theorem accounted_nil (h : left.cause.Ends id) : Accounted id [] left :=
  ⟨iff_of_false nofun nofun, fun _ => h⟩

end Passage

namespace Course

variable {t t' : SessionTable} {id : SessionId} {s : Session} {since : List Passage}
  {left : Passage}

/-- A session that is waited for, up to the passage in which it leaves the table. -/
theorem awaited (h : t.Awaits id s) (hc : Course t (since ++ [left]) t')
    (stays : ∀ p ∈ since, p.after.get? id ≠ none) (leaves : left.after.get? id = none) :
    Passage.Accounted id (since ++ [left]) left := by
  induction since generalizing t with
  | nil =>
    cases hc with
    | cons does _ =>
      rcases does.awaited h with hanswer | hwaits
      · exact Passage.accounted_of_answer hanswer
      · have hends : left.cause.Ends id := by
          rcases hwaits.stays with hsame | ⟨hends, -⟩
          · rw [leaves, h.1] at hsame
            cases hsame
          · exact hends
        exact (Passage.accounted_cons hwaits).mpr (Passage.accounted_nil hends)
  | cons p since ih =>
    cases hc with
    | cons does rest =>
      rcases does.awaited h with hanswer | hwaits
      · exact Passage.accounted_of_answer hanswer
      · have hsame : p.after.get? id = some s := by
          rcases hwaits.stays with hsame | ⟨-, hgone⟩
          · exact hsame.trans h.1
          · exact absurd hgone (stays p (List.mem_cons_self ..))
        have hrest := ih ⟨hsame, h.2⟩ rest fun q hq => stays q (List.mem_cons_of_mem _ hq)
        exact (Passage.accounted_cons hwaits).mpr hrest

end Course

namespace SessionLayer

variable {τ η : Type}

/-- Whatever happens to a session layer: if a session that the host has asked for leaves the table,
then up to then the handler was told how the session came out exactly if the module has answered the
wish. If not, the session leaves because the module ends it or its connection ends, and it does so
without a word. -/
theorem asked_settled_iff (transport : τ) (maxSessions : Nat) (h : Handler η) (start : η)
    (os : List (Occasion τ)) {id : SessionId} {past since later : List Passage}
    {asked left : Passage}
    (run : Dialogue.passages h os ⟨new transport maxSessions, start, []⟩ =
      past ++ asked :: since ++ left :: later)
    (created : asked.cause = .created id) (stays : ∀ p ∈ since, p.after.get? id ≠ none)
    (leaves : left.after.get? id = none) :
    (Passage.Settled id (since ++ [left]) ↔ Passage.Answered id (since ++ [left])) ∧
      (¬ Passage.Answered id (since ++ [left]) → left.cause.Ends id) := by
  have hcourse := (Dialogue.run_walks h os ⟨new transport maxSessions, start, []⟩).course
  have hparts : past ++ asked :: since ++ left :: later =
      past ++ (asked :: (since ++ [left]) ++ later) := by
    simp only [List.append_assoc, List.cons_append, List.nil_append]
  rw [run, hparts] at hcourse
  obtain ⟨_, -, hcourse⟩ := hcourse.split
  obtain ⟨_, hcourse, -⟩ := hcourse.split
  cases hcourse with
  | cons does rest =>
    rw [created] at does
    obtain ⟨-, resource, -, hinsert⟩ := does
    have hawaits : asked.after.Awaits id ⟨resource, .creating⟩ :=
      ⟨by rw [hinsert, SessionTable.get?_insert, if_pos rfl], rfl⟩
    exact rest.awaited hawaits stays leaves

/-- A handler that has no resource for anyone. -/
def barren : Handler Unit := ⟨fun _ _ s => (.error .noResource, s), fun _ s => s⟩

/-- The host asks for a session. The carrier takes everything. -/
def wish : Occasion Unit := ⟨⟨fun _ _ _ t => .ok t⟩, (), .create 0 1 ⟨0x00240041⟩⟩

/-- The module refuses the session: it is busy. -/
def refusal : Occasion Unit :=
  ⟨⟨fun _ _ _ t => .ok t⟩, (),
    .poll [.connection 0 1 (.data [0x94, 7, 0xF3, 0, 0x24, 0, 0x41, 0, 1])]⟩

/-- The module ends the session. -/
def withdrawal : Occasion Unit :=
  ⟨⟨fun _ _ _ t => .ok t⟩, (), .poll [.connection 0 1 (.data [0x95, 2, 0, 1])]⟩

theorem asked_settled_iff_refusal :
    ∃ asked left, Dialogue.passages barren [wish, refusal] ⟨new () 8, (), []⟩ = [asked, left] ∧
      left.after.get? ⟨0, 1, 1⟩ = none ∧ Passage.Answered ⟨0, 1, 1⟩ [left] ∧
      Passage.Settled ⟨0, 1, 1⟩ [left] := by
  have hrun : ∃ asked left,
      Dialogue.passages barren [wish, refusal] ⟨new () 8, (), []⟩ = [asked, left] ∧
        asked.cause = .created ⟨0, 1, 1⟩ ∧ left.after.get? ⟨0, 1, 1⟩ = none ∧
        left.cause = .received 0 1 (.createSessionResponse .busy ⟨0x00240041⟩ 1) :=
    ⟨_, _, rfl, rfl, rfl, rfl⟩
  obtain ⟨asked, left, run, created, leaves, cause⟩ := hrun
  have hout := @asked_settled_iff Unit Unit () 8 barren () [wish, refusal] ⟨0, 1, 1⟩ [] [] []
    asked left run created nofun leaves
  have hanswered : Passage.Answered ⟨0, 1, 1⟩ [left] :=
    ⟨left, List.mem_singleton_self _, .busy, ⟨0x00240041⟩, cause⟩
  exact ⟨asked, left, run, leaves, hanswered, hout.1.mpr hanswered⟩

/-- The host asks for a session and the module ends it before it answers: the session is gone and
nothing was told. -/
theorem withdrawal_unsettled :
    ¬ ∀ (id : SessionId) (past since later : List Passage) (asked left : Passage),
      Dialogue.passages barren [wish, withdrawal] ⟨new () 8, (), []⟩ =
        past ++ asked :: since ++ left :: later →
      asked.cause = .created id → (∀ p ∈ since, p.after.get? id ≠ none) →
      left.after.get? id = none → Passage.Settled id (since ++ [left]) := by
  intro hsettled
  have hrun : ∃ asked left,
      Dialogue.passages barren [wish, withdrawal] ⟨new () 8, (), []⟩ = [asked, left] ∧
        asked.cause = .created ⟨0, 1, 1⟩ ∧ left.after.get? ⟨0, 1, 1⟩ = none ∧ left.told = [] :=
    ⟨_, _, rfl, rfl, rfl, rfl⟩
  obtain ⟨asked, left, run, created, leaves, silent⟩ := hrun
  obtain ⟨p, hp, e, he, -⟩ := hsettled ⟨0, 1, 1⟩ [] [] [] asked left run created nofun leaves
  rw [List.mem_singleton.mp hp, silent] at he
  cases he

end SessionLayer

end DvbHost.Ci
