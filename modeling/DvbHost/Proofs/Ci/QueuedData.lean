import DvbHost.Proofs.Ci.ConnectionHistory

/-!
# Data that is queued

As long as a connection is active, its queue is first in, first out: what was in it and what was
queued since is what was taken off it, in this order, and what is in it still. A unit that was taken
off reaches the device only if it could be written; one that could not is not put back.
-/

namespace DvbHost.Ci

set_option autoImplicit false

namespace Moment

/-- The units that are queued. -/
def queued (m : Moment) : List Bytes :=
  match m.happening with
  | .queued units => units
  | _ => []

/-- The unit that is taken off the queue, and whether it was written. -/
def offer (m : Moment) : Option (Bytes × Bool) :=
  match m.happening with
  | .sent .queued unit written => some (unit, written)
  | _ => none

end Moment

namespace Connection

/-- Of the units that were queued in some moments those that were taken off the queue again, and
whether they were written. What was in the queue before is taken off it first. -/
def offeredSince (c : Connection) (ms : List Moment) : List (Bytes × Bool) :=
  (ms.filterMap Moment.offer).drop c.queue.toList.length

/-- Of the units that were queued in some moments those that are in the queue still. -/
def queuedSince (c : Connection) (ms : List Moment) : List Bytes :=
  (c.afterAll ms).queue.toList.drop (c.queue.toList.length - (ms.filterMap Moment.offer).length)

/-- What was queued is what was written and what is queued still. -/
def LosesNothing (c : Connection) (ms : List Moment) : Prop :=
  ms.flatMap Moment.queued =
    ((c.offeredSince ms).filter Prod.snd).map Prod.fst ++ c.queuedSince ms

instance (c : Connection) (ms : List Moment) : Decidable (c.LosesNothing ms) :=
  inferInstanceAs (Decidable (_ = _))

variable {tcid : UInt8} {c c' : Connection} {m : Moment} {ms : List Moment}

/-- As long as a connection stays in its state, its queue changes at its ends only. -/
theorem Step.queue_of_steady (step : Step tcid c m) (busy : c.state ≠ .idle)
    (steady : m.after.state = c.state) :
    c.queue.toList ++ m.queued = m.offer.toList.map Prod.fst ++ m.after.queue.toList := by
  cases step using Step.elim with
  | begun idle => exact absurd idle busy
  | queued units active => exact (Queue.toList_append c.queue units).symm
  | ending active => cases steady.trans active
  | taken t notice after reception =>
    cases reception with
    | agreed tag creating => cases steady.trans creating
    | status tag => exact List.append_nil _
    | reset ends silent => exact absurd steady.symm busy
    | kept chain discarding tag goesOn unexpected silent => exact List.append_nil _
  | sent reason unit written left after busy turn departed =>
    rw [departed.queue_eq]
    cases turn with
    | announced flag => exact List.append_nil _
    | queued flag head => exact (List.append_nil _).trans head
    | due flag empty active => exact List.append_nil _
  | ended happening ends => exact absurd steady.symm busy

/-- As long as a connection stays in its state, its queue is first in, first out. -/
theorem Life.queue_of_steady (life : Life tcid c ms c') (busy : c.state ≠ .idle)
    (stays : ∀ m ∈ ms, m.after.state = c.state) :
    c.queue.toList ++ ms.flatMap Moment.queued =
      (ms.filterMap Moment.offer).map Prod.fst ++ c'.queue.toList := by
  induction life with
  | refl c => exact List.append_nil _
  | @cons c c' m ms step rest ih =>
    have hm : m.after.state = c.state := stays m (List.mem_cons_self ..)
    have hms : m.after.queue.toList ++ ms.flatMap Moment.queued =
        (ms.filterMap Moment.offer).map Prod.fst ++ c'.queue.toList := by
      apply ih
      · rw [hm]
        exact busy
      · intro m' hm'
        rw [hm]
        exact stays m' (List.mem_cons_of_mem m hm')
    calc c.queue.toList ++ (m :: ms).flatMap Moment.queued
        = (c.queue.toList ++ m.queued) ++ ms.flatMap Moment.queued := by
          rw [List.flatMap_cons, List.append_assoc]
      _ = m.offer.toList.map Prod.fst ++ (m.after.queue.toList ++ ms.flatMap Moment.queued) := by
          rw [step.queue_of_steady busy hm, List.append_assoc]
      _ = ((m :: ms).filterMap Moment.offer).map Prod.fst ++ c'.queue.toList := by
          rw [hms, List.filterMap_cons, ← List.append_assoc]
          cases m.offer <;> rfl

/-- Data are queued on active connections only. -/
theorem Life.queued_of_inactive (life : Life tcid c ms c') (inactive : c.state ≠ .active)
    (stays : ∀ m ∈ ms, m.after.state = c.state) : ms.flatMap Moment.queued = [] := by
  induction life with
  | refl c => rfl
  | @cons c c' m ms step rest ih =>
    have hm : m.after.state = c.state := stays m (List.mem_cons_self ..)
    have hqueued : m.queued = [] := by
      cases step with
      | queued active cut => exact absurd active inactive
      | _ => rfl
    have hrest : ms.flatMap Moment.queued = [] := by
      apply ih
      · rw [hm]
        exact inactive
      · intro m' hm'
        rw [hm]
        exact stays m' (List.mem_cons_of_mem m hm')
    rw [List.flatMap_cons, hqueued, hrest, List.append_nil]

/-- Nothing is queued on an idle connection. -/
theorem Life.queue_of_idle (life : Life tcid .idle ms c) (idle : c.state = .idle) :
    c.queue.toList = [] := by
  refine life.invariant (P := fun _ c => c.state = .idle → c.queue.toList = []) ?_ ?_ idle
  · intro _
    exact Queue.toList_empty
  · intro ms c m _ hc step hidle
    cases step using Step.elim with
    | begun idle => cases hidle
    | queued units active => cases active.symm.trans hidle
    | ending active => cases hidle
    | taken t notice after reception =>
      cases reception with
      | agreed tag creating => cases hidle
      | status tag => exact hc hidle
      | reset ends silent => exact Queue.toList_empty
      | kept chain discarding tag goesOn unexpected silent => exact hc hidle
    | sent reason unit written left after busy turn departed =>
      exact absurd (departed.state_eq.symm.trans hidle) busy
    | ended happening ends => exact Queue.toList_empty

/-- What was queued in some moments is what was taken off since and what is queued still. -/
theorem Life.queued_eq (life : Life tcid c ms c') (before : c.state = .active)
    (stays : ∀ m ∈ ms, m.after.state = .active) :
    ms.flatMap Moment.queued = (c.offeredSince ms).map Prod.fst ++ c.queuedSince ms := by
  have busy : c.state ≠ .idle := by
    rw [before]
    decide
  have steady : ∀ m ∈ ms, m.after.state = c.state := by
    rw [before]
    exact stays
  have hall := congrArg (List.drop c.queue.toList.length) (life.queue_of_steady busy steady)
  rw [List.drop_left, List.drop_append, List.length_map, ← List.map_drop] at hall
  rw [offeredSince, queuedSince, ← life.eq_afterAll]
  exact hall

/-- Nothing is lost exactly if whatever was taken off the queue was written. -/
theorem Life.losesNothing_iff (life : Life tcid c ms c') (before : c.state = .active)
    (stays : ∀ m ∈ ms, m.after.state = .active) :
    c.LosesNothing ms ↔ ∀ p ∈ c.offeredSince ms, p.2 = true := by
  rw [LosesNothing, life.queued_eq before stays, List.append_left_inj]
  constructor
  · intro hsame
    have hlength := congrArg List.length hsame
    rw [List.length_map, List.length_map] at hlength
    exact List.length_filter_eq_length_iff.mp hlength.symm
  · intro hall
    rw [List.filter_eq_self.mpr hall]

end Connection

namespace TransportRun

variable {ω : Type}

/-- Take any stretch of a run in which a connection is active all the time. What was queued on it in
that time is what was written of it, in order, and what is queued still, if and only if no unit of
it that was taken off the queue met a device that could not write. -/
theorem queued_losesNothing_iff (link : Link ω) (maxSlots maxConnections : Nat) (world : ω)
    (requests : List Request) (slot : Nat) (tcid : UInt8) (past since later : List Moment)
    (stretch : lifeOf link maxSlots maxConnections world requests slot tcid =
      past ++ since ++ later)
    (active : (Connection.idle.afterAll past).state = .active)
    (stays : ∀ m ∈ since, m.after.state = .active) :
    (Connection.idle.afterAll past).LosesNothing since ↔
      ∀ p ∈ (Connection.idle.afterAll past).offeredSince since, p.2 = true := by
  have life := lifeOf_life link maxSlots maxConnections world requests slot tcid
  rw [stretch, List.append_assoc] at life
  exact life.split.2.split.1.losesNothing_iff active stays

/-- A connection is opened, a first message is queued, then a second one. The first is written and
answered, the second cannot be written. -/
def lossyLife : List Moment :=
  lifeOf (refusing (· = [0xA0, 2, 1, 2])) 1 1
    [none, some (Connection.control .createTcReply 1 none), none,
      some (Connection.control .sb 1 (some 0)), none]
    [.register 0 0 .standard, .poll 0, .poll 1, .poll 2, .sendData 0 1 [1], .sendData 0 1 [2],
      .poll 3, .poll 4, .poll 5] 0 1

theorem queued_losesNothing_iff_lossyLife :
    lossyLife = lossyLife.take 4 ++ lossyLife.drop 4 ++ [] ∧
    (Connection.idle.afterAll (lossyLife.take 4)).state = .active ∧
    (∀ m ∈ lossyLife.drop 4, m.after.state = .active) ∧
    ((Connection.idle.afterAll (lossyLife.take 4)).LosesNothing (lossyLife.drop 4) ↔
      ∀ p ∈ (Connection.idle.afterAll (lossyLife.take 4)).offeredSince (lossyLife.drop 4),
        p.2 = true) := by
  have stretch : lossyLife = lossyLife.take 4 ++ lossyLife.drop 4 ++ [] := by
    rw [List.append_nil, List.take_append_drop]
  have active : (Connection.idle.afterAll (lossyLife.take 4)).state = .active := by decide
  have stays : ∀ m ∈ lossyLife.drop 4, m.after.state = .active := by decide
  exact ⟨stretch, active, stays, queued_losesNothing_iff _ _ _ _ _ _ _ _ _ _ stretch active stays⟩

/-- The second message is neither written nor queued any more, and the connection is active. -/
theorem lossyLife_losesSomething :
    (Connection.idle.afterAll (lossyLife.take 4)).state = .active ∧
    (∀ m ∈ lossyLife.drop 4, m.after.state = .active) ∧
    ¬ (Connection.idle.afterAll (lossyLife.take 4)).LosesNothing (lossyLife.drop 4) := by
  decide

end TransportRun

end DvbHost.Ci
