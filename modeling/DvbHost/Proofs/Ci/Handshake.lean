import DvbHost.Proofs.Ci.QueuedData

/-!
# The order of a handshake

A connection is asked for with `T_CREATE_T_C` and is open when the module has agreed. The host keeps
this order only as far as the module does: a module that announces data on a connection before it is
asked for it makes the host fetch them first, and one that agrees to a connection before it is asked
for it has it opened.
-/

namespace DvbHost.Ci

set_option autoImplicit false

namespace Moment

/-- The unit that the connection sends in its turn, and whether it was written. -/
def sending (m : Moment) : Option (Bytes × Bool) :=
  match m.happening with
  | .sent _ unit written => some (unit, written)
  | _ => none

/-- What becomes of the word of the module on whether it has data. -/
def announcement (m : Moment) : Option Bool :=
  match m.happening with
  | .taken t =>
    if t.tag = .sb then some (t.dataAvailable == some true)
    else if Connection.endedBy t m.notice then some false
    else none
  | .sent .announced _ _ => some false
  | .timedOut | .gone => some false
  | _ => none

/-- The module agrees to the connection. -/
def Agrees (m : Moment) : Prop := ∃ t, m.happening = .taken t ∧ t.tag = .createTcReply

end Moment

namespace Connection

/-- The last word of the module is that it has data, and the host has not asked for them since. -/
def Announced (ms : List Moment) : Prop :=
  (ms.filterMap Moment.announcement).getLast? = some true

/-- The command was written. -/
def Asked (tcid : UInt8) (ms : List Moment) : Prop :=
  (control .createTc tcid none, true) ∈ ms.filterMap Moment.sending

/-- Until the command is written nothing else is sent, and the connection is opened only after the
command was written. -/
structure Handshake (tcid : UInt8) (episode : List Moment) : Prop where
  first : ∀ before m after p, episode = before ++ m :: after → ¬ Asked tcid before →
    m.sending = some p → p.1 = control .createTc tcid none
  asked : ∀ before m after, episode = before ++ m :: after → m.notice = some .opened →
    Asked tcid before

/-- Until the command is written the module has no data announced when something is sent, and it
agrees to the connection only after the command was written. -/
structure AwaitsCommand (tcid : UInt8) (past episode : List Moment) : Prop where
  quiet : ∀ before m after, episode = before ++ m :: after → ¬ Asked tcid before →
    m.sending.isSome → ¬ Announced (past ++ before)
  patient : ∀ before m after, episode = before ++ m :: after → m.Agrees → Asked tcid before

variable {tcid : UInt8} {c c' : Connection} {m : Moment} {ms : List Moment}

/-! ## What the module has announced -/

theorem Step.dataAvailable_eq (step : Step tcid c m) :
    m.after.dataAvailable = m.announcement.getD c.dataAvailable := by
  cases step using Step.elim with
  | begun idle => rfl
  | queued units active => rfl
  | ending active => rfl
  | taken t notice after reception =>
    rw [Moment.announcement]
    cases reception with
    | agreed tag creating => simp [tag, endedBy]
    | status tag => simp [tag]
    | reset ends silent =>
      have tag : t.tag ≠ .sb := by
        intro tag
        simp [endedBy, tag] at ends
      simp [tag, ends, idle]
    | kept chain discarding tag goesOn unexpected silent => simp [tag, goesOn]
  | sent reason unit written left after busy turn departed =>
    rw [departed.flag_eq]
    cases turn <;> rfl
  | ended happening ends => rcases ends with rfl | rfl <;> rfl

/-- A connection knows of data exactly if they are announced. -/
theorem Life.dataAvailable_iff (life : Life tcid .idle ms c) :
    c.dataAvailable = true ↔ Announced ms := by
  have hlast : c.dataAvailable = (ms.filterMap Moment.announcement).getLast?.getD false := by
    refine life.invariant (P := fun ms c =>
      c.dataAvailable = (ms.filterMap Moment.announcement).getLast?.getD false) rfl ?_
    intro ms c m _ hc step
    rw [step.dataAvailable_eq, List.filterMap_append, hc]
    cases hm : m.announcement <;> simp [hm]
  rw [hlast, Announced]
  cases (ms.filterMap Moment.announcement).getLast? <;> simp

/-! ## Opening -/

/-- A connection is reported as opened only when the module agrees to it. -/
theorem Step.agrees_of_opened (step : Step tcid c m) (opened : m.notice = some .opened) :
    m.Agrees := by
  cases step using Step.elim with
  | begun idle | queued units active | ending active => cases opened
  | taken t notice after reception =>
    refine ⟨t, rfl, ?_⟩
    cases reception with
    | agreed tag creating => exact tag
    | status tag => cases opened
    | reset ends silent => exact absurd opened silent
    | kept chain discarding tag goesOn unexpected silent => exact absurd opened silent
  | sent reason unit written left after busy turn departed => cases opened
  | ended happening ends => exact absurd opened (farewell_ne_opened c)

/-- In its creation a connection is opened as soon as the module agrees to it, whether or not it was
asked for it. -/
theorem Step.opened_of_agrees (step : Step tcid c m) (creating : c.state = .creation)
    (agrees : m.Agrees) : m.notice = some .opened := by
  obtain ⟨happening, notice, c'⟩ := m
  obtain ⟨t, rfl, tag⟩ := agrees
  obtain ⟨-, reception⟩ := step.reception
  cases reception with
  | agreed tag creating => rfl
  | status sb => cases tag.symm.trans sb
  | reset ends silent => simp [endedBy, tag] at ends
  | kept chain discarding sb goesOn unexpected silent => exact absurd creating (unexpected tag)

/-- A connection does not leave its creation but by being opened or reset. -/
theorem Step.creation_of_unopened (step : Step tcid c m) (creating : c.state = .creation)
    (unopened : m.notice ≠ some .opened) (busy : m.after.state ≠ .idle) :
    m.after.state = .creation := by
  cases step using Step.elim with
  | begun idle => rfl
  | queued units active => exact creating
  | ending active => cases active.symm.trans creating
  | taken t notice after reception =>
    cases reception with
    | agreed tag creating => exact absurd rfl unopened
    | status tag => exact creating
    | reset ends silent => exact absurd rfl busy
    | kept chain discarding tag goesOn unexpected silent => exact creating
  | sent reason unit written left after _ turn departed => exact departed.state_eq.trans creating
  | ended happening ends => exact absurd rfl busy

theorem Life.creation_of_unopened (life : Life tcid c ms c') (creating : c.state = .creation)
    (unopened : ∀ m ∈ ms, m.notice ≠ some .opened) (busy : ∀ m ∈ ms, m.after.state ≠ .idle) :
    ∀ m ∈ ms, m.after.state = .creation := by
  induction life with
  | refl c => exact List.forall_mem_nil _
  | @cons c c' m ms step rest ih =>
    have hm : m.after.state = .creation :=
      step.creation_of_unopened creating (unopened m (List.mem_cons_self ..))
        (busy m (List.mem_cons_self ..))
    intro m' hm'
    rcases List.mem_cons.mp hm' with rfl | h
    · exact hm
    · exact ih hm (fun m h => unopened m (List.mem_cons_of_mem _ h))
        (fun m h => busy m (List.mem_cons_of_mem _ h)) m' h

/-! ## The handshake -/

/-- A connection that was just begun has its command in the queue, and nothing else. -/
theorem Life.queue_of_begun (life : Life tcid .idle (ms ++ [m]) c) (begun : m.happening = .begun) :
    c.state = .creation ∧ c.queue.toList = [control .createTc tcid none] := by
  obtain ⟨hpast, step, rfl⟩ := life.of_concat
  obtain ⟨happening, notice, c'⟩ := m
  obtain rfl : happening = .begun := begun
  cases step with
  | begun idle =>
    refine ⟨rfl, ?_⟩
    change ((Connection.idle.afterAll ms).queue.push _).toList = _
    rw [Queue.toList_push, hpast.queue_of_idle idle, List.nil_append]

theorem Asked.append {before after : List Moment} (asked : Asked tcid before) :
    Asked tcid (before ++ after) := by
  rw [Asked, List.filterMap_append]
  exact List.mem_append_left _ asked

/-- If all moments of some kind come after the command was written, so does what follows one. -/
theorem Asked.of_mem {P : Moment → Prop} {before after : List Moment}
    (late : ∀ first m rest, before ++ after = first ++ m :: rest → P m → Asked tcid first)
    (hm : m ∈ before) (hP : P m) : Asked tcid before := by
  obtain ⟨first, rest, rfl⟩ := List.append_of_mem hm
  have asked : Asked tcid first := by
    apply late first m (rest ++ after) _ hP
    rw [List.append_assoc, List.cons_append]
  exact asked.append

/-- In its creation a connection takes units off its queue and puts none there. -/
theorem Life.queue_of_creation (life : Life tcid c ms c') (creating : c.state = .creation)
    (stays : ∀ m ∈ ms, m.after.state = .creation) :
    c.queue.toList = (ms.filterMap Moment.offer).map Prod.fst ++ c'.queue.toList := by
  have busy : c.state ≠ .idle ∧ c.state ≠ .active := by
    rw [creating]
    decide
  have steady : ∀ m ∈ ms, m.after.state = c.state := by
    rw [creating]
    exact stays
  have hqueue := life.queue_of_steady busy.1 steady
  rwa [life.queued_of_inactive busy.2 steady, List.append_nil] at hqueue

section

variable {past episode : List Moment}

/-- If the host keeps the order, the module has kept it. -/
theorem Handshake.awaitsCommand (handshake : Handshake tcid episode)
    (begun : Life tcid .idle past c) (creating : c.state = .creation)
    (life : Life tcid c episode c') (busy : ∀ m ∈ episode, m.after.state ≠ .idle) :
    AwaitsCommand tcid past episode := by
  constructor
  · intro before m after hepisode hunasked hsends hannounced
    subst hepisode
    obtain ⟨hbefore, step, -⟩ := life.split_cons
    have hflag := (begun.trans hbefore).dataAvailable_iff.mpr hannounced
    obtain ⟨p, hp⟩ := Option.isSome_iff_exists.mp hsends
    have hfirst := handshake.first before m after p rfl hunasked hp
    cases step using Step.elim with
    | sent reason unit written left after' _ turn departed =>
      obtain rfl := Option.some.inj hp
      -- With data announced, they are asked for before anything else.
      cases turn with
      | announced flag => simp [control, TpduTag.octet] at hfirst
      | queued flag head => cases flag.symm.trans hflag
      | due flag empty active => cases flag.symm.trans hflag
    | ended happening ends => rcases ends with rfl | rfl <;> cases hp
    | _ => cases hp
  · intro before m after hepisode hagrees
    subst hepisode
    by_cases hopened : ∃ m' ∈ before, m'.notice = some .opened
    · obtain ⟨m', hm', hnotice⟩ := hopened
      exact .of_mem handshake.asked hm' hnotice
    · obtain ⟨hbefore, step, -⟩ := life.split_cons
      have hunopened : ∀ m' ∈ before, m'.notice ≠ some .opened := by
        intro m' hm' hnotice
        exact hopened ⟨m', hm', hnotice⟩
      have hcreating : (c.afterAll before).state = .creation :=
        afterAll_state creating (hbefore.creation_of_unopened creating hunopened
          fun m' hm' => busy m' (List.mem_append_left _ hm'))
      exact handshake.asked before m after rfl (step.opened_of_agrees hcreating hagrees)

/-- If the module keeps the order, the host does. -/
theorem AwaitsCommand.handshake (awaits : AwaitsCommand tcid past episode)
    (begun : Life tcid .idle past c) (creating : c.state = .creation)
    (command : c.queue.toList = [control .createTc tcid none])
    (life : Life tcid c episode c') (busy : ∀ m ∈ episode, m.after.state ≠ .idle) :
    Handshake tcid episode := by
  constructor
  · intro before m after p hepisode hunasked hp
    subst hepisode
    obtain ⟨hbefore, step, -⟩ := life.split_cons
    have hunopened : ∀ m' ∈ before, m'.notice ≠ some .opened := by
      intro m' hm' hnotice
      obtain ⟨d, step'⟩ := hbefore.step_of_mem hm'
      exact hunasked (.of_mem awaits.patient hm' (step'.agrees_of_opened hnotice))
    have hcreation := hbefore.creation_of_unopened creating hunopened
      fun m' hm' => busy m' (List.mem_append_left _ hm')
    have hqueue := hbefore.queue_of_creation creating hcreation
    rw [command] at hqueue
    have hquiet := awaits.quiet before m after rfl hunasked (by rw [hp]; rfl)
    cases step using Step.elim with
    | sent reason unit written left after' _ turn departed =>
      obtain rfl := Option.some.inj hp
      cases turn with
      | announced flag => exact absurd ((begun.trans hbefore).dataAvailable_iff.mp flag) hquiet
      | queued flag head =>
        -- The command was all that was in the queue, so nothing was taken off it before.
        rw [head] at hqueue
        cases htaken : (before.filterMap Moment.offer).map Prod.fst with
        | nil =>
          rw [htaken] at hqueue
          exact (List.cons.inj hqueue).1.symm
        | cons taken others =>
          rw [htaken] at hqueue
          simp at hqueue
      | due flag empty active =>
        have hstate : (c.afterAll before).state = .creation := afterAll_state creating hcreation
        cases active.symm.trans hstate
    | ended happening ends => rcases ends with rfl | rfl <;> cases hp
    | _ => cases hp
  · intro before m after hepisode hopened
    obtain ⟨d, step⟩ := life.step_of_mem (m := m) (by rw [hepisode]; simp)
    exact awaits.patient before m after hepisode (step.agrees_of_opened hopened)

end

end Connection

namespace TransportRun

variable {ω : Type}

/-- Take any connection from when it leaves the idle state, as long as it does not return to it.
Until the command is written it sends nothing else, and it is opened only after the command was
written, if and only if the module keeps to this order too. -/
theorem handshake_iff (link : Link ω) (maxSlots maxConnections : Nat) (world : ω)
    (requests : List Request) (slot : Nat) (tcid : UInt8) (past : List Moment) (start : Moment)
    (episode later : List Moment)
    (stretch : lifeOf link maxSlots maxConnections world requests slot tcid =
      (past ++ [start]) ++ episode ++ later)
    (begun : start.happening = .begun) (busy : ∀ m ∈ episode, m.after.state ≠ .idle) :
    Connection.Handshake tcid episode ↔
      Connection.AwaitsCommand tcid (past ++ [start]) episode := by
  have life := lifeOf_life link maxSlots maxConnections world requests slot tcid
  rw [stretch] at life
  obtain ⟨hbegun, hepisode⟩ := life.split.1.split
  obtain ⟨creating, command⟩ := hbegun.queue_of_begun begun
  constructor
  · intro handshake
    exact handshake.awaitsCommand hbegun creating hepisode busy
  · intro awaits
    exact awaits.handshake hbegun creating command hepisode busy

/-- The first connection to a module that gives these responses in the polls after it was put in. -/
def greetedLife (responses : List (Option Bytes)) : List Moment :=
  lifeOf (refusing fun _ => false) 1 1 responses
    [.register 0 0 .standard, .poll 0, .poll 1, .poll 2] 0 1

/-- The beginning of this connection. -/
def firstBegun : Moment := ⟨.begun, none, Connection.idle.begin 1⟩

/-- What happens if the module agrees when it was asked. -/
def calmLife : List Moment := greetedLife [none, some (Connection.control .createTcReply 1 none)]

theorem handshake_iff_calmLife :
    calmLife = ([] ++ [firstBegun]) ++ calmLife.drop 1 ++ [] ∧ firstBegun.happening = .begun ∧
    (∀ m ∈ calmLife.drop 1, m.after.state ≠ .idle) ∧
    (Connection.Handshake 1 (calmLife.drop 1) ↔
      Connection.AwaitsCommand 1 ([] ++ [firstBegun]) (calmLife.drop 1)) := by
  have stretch : calmLife = ([] ++ [firstBegun]) ++ calmLife.drop 1 ++ [] := rfl
  have busy : ∀ m ∈ calmLife.drop 1, m.after.state ≠ .idle := by decide
  exact ⟨stretch, rfl, busy, handshake_iff _ _ _ _ _ _ _ _ _ _ _ stretch rfl busy⟩

/-- What happens if the module says at once that it has data. -/
def announcingLife : List Moment := greetedLife [some (Connection.control .sb 1 (some 0x80))]

/-- What happens if the module agrees before it is asked. -/
def hastyLife : List Moment := greetedLife [some (Connection.control .createTcReply 1 none)]

/-- The first connection asks for data first, the second is opened without having been asked for. -/
theorem announcingLife_hastyLife_outOfOrder :
    (announcingLife = [firstBegun] ++ announcingLife.drop 1 ∧
      (∀ m ∈ announcingLife.drop 1, m.after.state ≠ .idle) ∧
      ¬ Connection.Handshake 1 (announcingLife.drop 1)) ∧
    (hastyLife = [firstBegun] ++ hastyLife.drop 1 ∧
      (∀ m ∈ hastyLife.drop 1, m.after.state ≠ .idle) ∧
      ¬ Connection.Handshake 1 (hastyLife.drop 1)) := by
  refine ⟨⟨rfl, by decide, ?_⟩, rfl, by decide, ?_⟩
  · intro handshake
    have hfirst := handshake.first ((announcingLife.drop 1).take 1) _ (announcingLife.drop 3)
      (Connection.control .rcv 1 none, true) rfl List.not_mem_nil rfl
    revert hfirst
    decide
  · intro handshake
    have hasked := handshake.asked [] _ (hastyLife.drop 2) rfl rfl
    cases hasked

end TransportRun

end DvbHost.Ci
