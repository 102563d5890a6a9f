import DvbHost.Proofs.Ci.WrittenUnits

/-!
# Taking turns

Host and module take turns on a connection: once a unit went out, the next one goes out only after
the module was heard on the connection, or after the connection was reset. What carries this is that
an answer is awaited from then on until one of the two happens. Answers that a slot gives at once
are out of turn: they are neither awaited nor held back.
-/

namespace DvbHost.Ci

set_option autoImplicit false

/-- A unit of the module that names the connection is taken up, or the connection is reset. -/
def Moment.Frees (tcid : UInt8) (m : Moment) : Prop :=
  (∃ t, m.happening = .taken t ∧ t.tcid = tcid) ∨ m.after = .idle

namespace Connection

variable {tcid : UInt8} {c c' : Connection} {m : Moment} {ms : List Moment}

/-- A unit goes out only while no answer is awaited, and from then on one is. -/
theorem Step.awaiting_of_unitOut (step : Step tcid c m) (out : m.unitOut.isSome = true) :
    c.awaiting = none ∧ m.after.awaiting ≠ none := by
  cases step with
  | sent turn =>
    obtain ⟨-, free, -⟩ := duty_send turn
    exact ⟨free, nofun⟩
  | _ => cases out

/-- As long as an answer is awaited nothing else goes out, and it is awaited until the connection is
freed. -/
theorem Step.awaiting_of_unfreed (step : Step tcid c m) (awaits : c.awaiting ≠ none)
    (unfreed : ¬ m.Frees tcid) : m.after.awaiting ≠ none := by
  cases step using Step.elim with
  | begun idle => exact awaits
  | queued units active => exact awaits
  | ending active => exact awaits
  | taken t notice after reception step =>
    obtain ⟨named, -⟩ := step.reception
    exact absurd (.inl ⟨t, rfl, named⟩) unfreed
  | sent reason unit written left after busy turn departed step =>
    cases written with
    | false =>
      cases step with
      | failed turn =>
        obtain ⟨-, free, -⟩ := duty_send turn
        exact absurd free awaits
    | true => exact (step.awaiting_of_unitOut rfl).2
  | ended happening ends => exact absurd (.inr rfl) unfreed

/-- An answer is awaited until the connection is freed. -/
theorem Life.awaiting_of_unfreed (life : Life tcid c ms c') (awaits : c.awaiting ≠ none)
    (unfreed : ∀ m ∈ ms, ¬ m.Frees tcid) : c'.awaiting ≠ none := by
  induction life with
  | refl c => exact awaits
  | @cons c c' m ms step rest ih =>
    have hm : m.after.awaiting ≠ none :=
      step.awaiting_of_unfreed awaits (unfreed m (List.mem_cons_self ..))
    exact ih hm fun m' hm' => unfreed m' (List.mem_cons_of_mem m hm')

/-- Between two units that go out the connection is freed. -/
theorem Life.freed_between {past between later : List Moment} {first second : Moment}
    (life : Life tcid c (past ++ first :: (between ++ second :: later)) c')
    (out : first.unitOut.isSome = true) (again : second.unitOut.isSome = true) :
    ∃ m ∈ between, m.Frees tcid := by
  obtain ⟨-, hfirst, hrest⟩ := life.split_cons
  obtain ⟨hbetween, hsecond, -⟩ := hrest.split_cons
  by_contra hnone
  have unfreed : ∀ m ∈ between, ¬ m.Frees tcid := fun m hm hfrees => hnone ⟨m, hm, hfrees⟩
  have awaits := hbetween.awaiting_of_unfreed (hfirst.awaiting_of_unitOut out).2 unfreed
  exact awaits (hsecond.awaiting_of_unitOut again).1

end Connection

namespace TransportRun

variable {ω : Type}

/-- Take any two units that go out on a connection of a running layer, each in a turn of the
connection. Between them a unit of the module is taken up that names the connection, or the
connection is reset. -/
theorem halfDuplex (link : Link ω) (maxSlots maxConnections : Nat) (world : ω)
    (requests : List Request) (slot : Nat) (tcid : UInt8) (past between later : List Moment)
    (first second : Moment)
    (stretch : lifeOf link maxSlots maxConnections world requests slot tcid =
      past ++ first :: (between ++ second :: later))
    (out : first.unitOut.isSome = true) (again : second.unitOut.isSome = true) :
    ∃ m ∈ between, m.Frees tcid := by
  have life := lifeOf_life link maxSlots maxConnections world requests slot tcid
  rw [stretch] at life
  exact life.freed_between out again

/-- A connection is asked for, the module agrees, and later the host asks it for data. -/
def askingLife : List Moment :=
  lifeOf (refusing fun _ => false) 1 1 [none, some (Connection.control .createTcReply 1 none)]
    [.register 0 0 .standard, .poll 0, .poll 1, .poll 200] 0 1

theorem halfDuplex_askingLife :
    ∃ command agreement question,
      askingLife = askingLife.take 1 ++ command :: ([agreement] ++ question :: []) ∧
      command.unitOut.isSome = true ∧ question.unitOut.isSome = true ∧
      ∃ m ∈ [agreement], m.Frees 1 := by
  obtain ⟨command, agreement, question, stretch, out, again⟩ : ∃ command agreement question,
      askingLife = askingLife.take 1 ++ command :: ([agreement] ++ question :: []) ∧
      command.unitOut.isSome = true ∧ question.unitOut.isSome = true := ⟨_, _, _, rfl, rfl, rfl⟩
  exact ⟨command, agreement, question, stretch, out, again,
    halfDuplex _ _ _ _ _ _ _ _ _ _ _ _ stretch out again⟩

end TransportRun

end DvbHost.Ci
