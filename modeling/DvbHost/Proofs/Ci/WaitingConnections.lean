import DvbHost.Proofs.Ci.QueuedData

/-!
# Connections that wait for the module

A connection in creation or deletion leaves this state when the module answers its command, or when
the time for the answer is over. It can do neither if the command is in the queue no longer and no
answer is awaited. This happens in exactly two ways: the command was taken off the queue and could
not be written, or it was written, and what the module sent since is not the answer but stopped the
clock.
-/

namespace DvbHost.Ci

set_option autoImplicit false

namespace Moment

/-- The host asks the module for a connection or for the end of one. -/
def IsCommand (m : Moment) : Prop := m.happening = .begun ∨ m.happening = .ending

/-- A unit goes out to the module. -/
def goesOut (m : Moment) : Bool :=
  match m.happening with
  | .sent _ _ written => written
  | _ => false

end Moment

namespace Connection

/-- The module is to agree to the connection, or to its end. -/
def Waiting (c : Connection) : Prop := c.state = .creation ∨ c.state = .deletion

/-- There is no command to send, and no answer is awaited. -/
def Stranded (c : Connection) : Prop :=
  c.Waiting ∧ c.queue.toList = [] ∧ c.awaiting = none

instance (c : Connection) : Decidable c.Waiting := inferInstanceAs (Decidable (_ ∨ _))

instance (c : Connection) : Decidable c.Stranded := inferInstanceAs (Decidable (_ ∧ _ ∧ _))

/-- Since the last command the connection is in the state that the command put it in; the command
was taken off the queue, and the last that happened is not that a unit went out. -/
def Forsaken (ms : List Moment) : Prop :=
  ∃ past command since last, ms = past ++ command :: (since ++ [last]) ∧ command.IsCommand ∧
    (∀ m ∈ since ++ [last], m.after.state = command.after.state) ∧
    (since ++ [last]).filterMap Moment.offer ≠ [] ∧ last.goesOut = false

variable {tcid : UInt8} {c c' : Connection} {m : Moment} {ms : List Moment}

/-! ## What is in the queue of a connection that waits -/

/-- Only a command makes a connection wait. -/
theorem Step.command_or_steady (step : Step tcid c m) (waiting : m.after.Waiting) :
    m.IsCommand ∨ m.after.state = c.state := by
  cases step using Step.elim with
  | begun idle => exact .inl (.inl rfl)
  | queued units active => exact .inr rfl
  | ending active => exact .inl (.inr rfl)
  | taken t notice after reception =>
    cases reception with
    | agreed tag creating => simp [Waiting] at waiting
    | status tag => exact .inr rfl
    | reset ends silent => simp [Waiting, idle] at waiting
    | kept chain discarding tag goesOn unexpected silent => exact .inr rfl
  | sent reason unit written left after busy turn departed => exact .inr departed.state_eq
  | ended happening ends => simp [Waiting, idle] at waiting

/-- After a command the connection waits, and the unit of the command is all that is queued. -/
theorem Step.queue_of_command (step : Step tcid c m) (command : m.IsCommand)
    (left : c.state = .idle → c.queue.toList = []) :
    m.after.Waiting ∧ ∃ unit, m.after.queue.toList = [unit] := by
  obtain ⟨happening, notice, c'⟩ := m
  rcases command with rfl | rfl
  · cases step with
    | begun idle =>
      refine ⟨.inl rfl, control .createTc tcid none, ?_⟩
      change (c.queue.push _).toList = _
      rw [Queue.toList_push, left idle, List.nil_append]
  · cases step with
    | ending active => exact ⟨.inr rfl, control .deleteTc tcid none, Queue.toList_ofList _⟩

/-- Of the moments in which a connection goes on waiting, those in which a unit goes out start the
clock, and the others stop it. -/
theorem Step.awaiting_of_steady (step : Step tcid c m) (waiting : c.Waiting)
    (steady : m.after.state = c.state) : m.after.awaiting = none ↔ m.goesOut = false := by
  have busy : c.state ≠ .idle ∧ c.state ≠ .active := by
    rcases waiting with h | h <;> rw [h] <;> decide
  cases step using Step.elim with
  | begun idle => exact absurd idle busy.1
  | queued units active => exact absurd active busy.2
  | ending active => exact absurd active busy.2
  | taken t notice after reception =>
    cases reception with
    | agreed tag creating => exact absurd steady.symm busy.2
    | status tag => exact iff_of_true rfl rfl
    | reset ends silent => exact absurd steady.symm busy.1
    | kept chain discarding tag goesOn unexpected silent => exact iff_of_true rfl rfl
  | sent reason unit written left after _ turn departed => exact departed.awaits
  | ended happening ends => exact absurd steady.symm busy.1

/-! ## How it comes about that a connection is stranded -/

/-- A connection that waits does so since its last command. -/
theorem Life.since_command (life : Life tcid .idle ms c) (waiting : c.Waiting) :
    ∃ past command since, ms = past ++ command :: since ∧ command.IsCommand ∧
      ∀ m ∈ command :: since, m.after.state = c.state := by
  refine life.invariant (P := fun ms c => c.Waiting → ∃ past command since,
    ms = past ++ command :: since ∧ command.IsCommand ∧
      ∀ m ∈ command :: since, m.after.state = c.state) ?_ ?_ waiting
  · intro h
    simp [Waiting, idle] at h
  · intro ms c m _ ih step hwaiting
    rcases step.command_or_steady hwaiting with hcommand | hsteady
    · refine ⟨ms, m, [], rfl, hcommand, ?_⟩
      intro m' hm'
      rw [List.mem_singleton.mp hm']
    · have hbefore : c.Waiting := by
        rw [Waiting, ← hsteady]
        exact hwaiting
      obtain ⟨past, command, since, rfl, hcommand, hstays⟩ := ih hbefore
      refine ⟨past, command, since ++ [m], ?_, hcommand, ?_⟩
      · rw [List.append_assoc, List.cons_append]
      · intro m' hm'
        rw [hsteady]
        rw [← List.cons_append] at hm'
        rcases List.mem_append.mp hm' with h | h
        · exact hstays m' h
        · rw [List.mem_singleton.mp h]
          exact hsteady

/-- While a connection waits, its queue is empty if and only if the command was taken off it. -/
theorem Life.queue_of_waiting {past since : List Moment} {command : Moment}
    (life : Life tcid .idle (past ++ command :: since) c) (hcommand : command.IsCommand)
    (stays : ∀ m ∈ since, m.after.state = command.after.state) :
    command.after.Waiting ∧ Life tcid command.after since c ∧
      (c.queue.toList = [] ↔ since.filterMap Moment.offer ≠ []) := by
  obtain ⟨hpast, step, hsince⟩ := life.split_cons
  obtain ⟨hwaiting, unit, hunit⟩ := step.queue_of_command hcommand hpast.queue_of_idle
  have busy : command.after.state ≠ .idle := by
    rcases hwaiting with h | h <;> rw [h] <;> decide
  have inactive : command.after.state ≠ .active := by
    rcases hwaiting with h | h <;> rw [h] <;> decide
  have hqueue := hsince.queue_of_steady busy stays
  rw [hunit, hsince.queued_of_inactive inactive stays] at hqueue
  refine ⟨hwaiting, hsince, ?_⟩
  cases hoffers : since.filterMap Moment.offer with
  | nil =>
    rw [hoffers] at hqueue
    have hunit : c.queue.toList = [unit] := hqueue.symm
    simp [hunit]
  | cons offer offers =>
    rw [hoffers] at hqueue
    have hlength := congrArg List.length hqueue
    simp only [List.length_append, List.length_cons, List.length_nil, List.map_cons] at hlength
    have hnil : c.queue.toList.length = 0 := by omega
    simp [List.length_eq_zero_iff.mp hnil]

/-- While a connection waits, an answer is awaited if and only if the last that happened is that a
unit went out. -/
theorem Life.awaiting_of_waiting {last : Moment} (life : Life tcid c (ms ++ [last]) c')
    (waiting : c.Waiting) (stays : ∀ m ∈ ms ++ [last], m.after.state = c.state) :
    c'.Waiting ∧ (c'.awaiting = none ↔ last.goesOut = false) := by
  obtain ⟨-, step, rfl⟩ := life.of_concat
  have hbefore : (c.afterAll ms).state = c.state :=
    afterAll_state rfl fun m hm => stays m (List.mem_append_left [last] hm)
  have hafter : last.after.state = c.state :=
    stays last (List.mem_append_right ms (List.mem_singleton_self last))
  refine ⟨?_, step.awaiting_of_steady ?_ (hafter.trans hbefore.symm)⟩
  · rw [Waiting, hafter]
    exact waiting
  · rw [Waiting, hbefore]
    exact waiting

/-- A connection is stranded if and only if it is forsaken. -/
theorem Life.stranded_iff_forsaken (life : Life tcid .idle ms c) : c.Stranded ↔ Forsaken ms := by
  constructor
  · rintro ⟨waiting, empty, free⟩
    obtain ⟨past, command, since, rfl, hcommand, hstates⟩ := life.since_command waiting
    have stays : ∀ m ∈ since, m.after.state = command.after.state := by
      intro m hm
      rw [hstates command (List.mem_cons_self ..)]
      exact hstates m (List.mem_cons_of_mem command hm)
    obtain ⟨hwaiting, hsince, hqueue⟩ := life.queue_of_waiting hcommand stays
    have hoffers := hqueue.mp empty
    rcases List.eq_nil_or_concat' since with rfl | ⟨since, last, rfl⟩
    · exact absurd rfl hoffers
    · obtain ⟨-, hawaits⟩ := hsince.awaiting_of_waiting hwaiting stays
      exact ⟨past, command, since, last, rfl, hcommand, stays, hoffers, hawaits.mp free⟩
  · rintro ⟨past, command, since, last, rfl, hcommand, stays, hoffers, hlast⟩
    obtain ⟨hwaiting, hsince, hqueue⟩ := life.queue_of_waiting hcommand stays
    obtain ⟨hwaits, hawaits⟩ := hsince.awaiting_of_waiting hwaiting stays
    exact ⟨hwaits, hqueue.mpr hoffers, hawaits.mpr hlast⟩

end Connection

namespace TransportRun

open TransportLayer

variable {ω : Type}

/-- At any point of any run, a connection that waits has a command to send or awaits an answer, if
and only if it is not forsaken. -/
theorem stranded_iff (link : Link ω) (maxSlots maxConnections : Nat) (world : ω)
    (requests : List Request) (slot : Nat) (tcid : UInt8) :
    (connectionAt (TransportRun.after link requests
      (start maxSlots maxConnections world)).layer.slots slot tcid).Stranded ↔
    Connection.Forsaken (lifeOf link maxSlots maxConnections world requests slot tcid) :=
  (lifeOf_life link maxSlots maxConnections world requests slot tcid).stranded_iff_forsaken

/-- The first connection to a module, long after the time for its first answer is over. -/
def longAfterStart (refuses : Bytes → Bool) (responses : List (Option Bytes)) : Connection :=
  connectionAt (TransportRun.after (refusing refuses)
    [.register 0 0 .standard, .poll 0, .poll 1, .poll 2, .poll 3, .poll 100000]
    (start 1 1 responses)).layer.slots 0 1

/-- It is stranded if the command could not be written, and if all that the module answers is that
it has no data. -/
theorem longAfterStart_stranded :
    (longAfterStart (· = Connection.control .createTc 1 none) []).Stranded ∧
    (longAfterStart (fun _ => false)
      [none, some (Connection.control .sb 1 (some 0))]).Stranded := by
  decide

end TransportRun

end DvbHost.Ci
