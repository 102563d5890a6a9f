import DvbHost.Ci.Connection
import Mathlib.Data.List.Induction

/-!
# The life of a connection

What a host, a module, a device and the clock do to one connection comes in moments. `Step` says
which moments a connection in a given state can have, by the connection's own operations, and `Life`
puts them in a row. Slots and polls are not mentioned here: that the connections of a running layer
have such lives, and no others, is said elsewhere.
-/

namespace DvbHost.Ci

set_option autoImplicit false

/-- Why a connection has a unit to send in its turn. -/
inductive Reason where
  /-- The module has said that it has data. -/
  | announced
  /-- The unit is the next one in the queue. -/
  | queued
  /-- Nothing is queued, and it is time to ask the module for data. -/
  | due
  deriving DecidableEq

/-- What can happen to a connection. -/
inductive Happening where
  /-- It leaves the idle state. -/
  | begun
  /-- The host queues data, as whole units. -/
  | queued (units : List Bytes)
  /-- The host asks for its end. -/
  | ending
  /-- A unit of the module is taken up. -/
  | taken (unit : Tpdu)
  /-- A unit is given to the device in the connection's turn, and is written or not. -/
  | sent (reason : Reason) (unit : Bytes) (written : Bool)
  /-- The module has not answered in time. -/
  | timedOut
  /-- The module is gone, or the slot. -/
  | gone
  deriving DecidableEq

structure Moment where
  happening : Happening
  /-- What is told of it. -/
  notice : Option Notice
  /-- The connection after it. -/
  after : Connection

namespace Connection

/-- The reason for what is sent next. -/
def reason (c : Connection) : Reason :=
  if c.dataAvailable then .announced else if c.queue.toList.isEmpty then .due else .queued

/-- The moments that a connection can have. -/
inductive Step (tcid : UInt8) (c : Connection) : Moment → Prop
  | begun (idle : c.state = .idle) : Step tcid c ⟨.begun, none, c.begin tcid⟩
  | queued {config : SlotConfig} {data : Bytes} {units : List Bytes} (active : c.state = .active)
      (cut : unitsOf tcid (fragments config.fragmentSize data) = .ok units) :
      Step tcid c ⟨.queued units, none, { c with queue := c.queue.append units }⟩
  | ending (active : c.state = .active) : Step tcid c ⟨.ending, none, c.finish tcid⟩
  | taken (maxSize : Nat) {t : Tpdu} (named : t.tcid = tcid) :
      Step tcid c ⟨.taken t, ({ c with awaiting := none }.receive maxSize t).notice,
        ({ c with awaiting := none }.receive maxSize t).connection⟩
  /-- The module ends the connection, and the reply cannot be written. -/
  | unanswered {t : Tpdu} (named : t.tcid = tcid) (tag : t.tag = .deleteTc) :
      Step tcid c ⟨.taken t, none, .idle⟩
  | sent {config : SlotConfig} {now : Nat} {unit : Bytes} {left : Connection}
      (turn : c.duty config tcid now = .send unit left) :
      Step tcid c ⟨.sent c.reason unit true, none, left.sent now⟩
  | failed {config : SlotConfig} {now : Nat} {unit : Bytes} {left : Connection}
      (turn : c.duty config tcid now = .send unit left) :
      Step tcid c ⟨.sent c.reason unit false, none, left⟩
  | timedOut {config : SlotConfig} {now : Nat} (turn : c.duty config tcid now = .timedOut) :
      Step tcid c ⟨.timedOut, c.farewell, .idle⟩
  | gone : Step tcid c ⟨.gone, c.farewell, .idle⟩

/-- Moments in a row, from one state of a connection to another. -/
inductive Life (tcid : UInt8) : Connection → List Moment → Connection → Prop
  | refl (c : Connection) : Life tcid c [] c
  | cons {c c' : Connection} {m : Moment} {ms : List Moment} (step : Step tcid c m)
      (rest : Life tcid m.after ms c') : Life tcid c (m :: ms) c'

/-- The connection after some moments. -/
def afterAll (c : Connection) (ms : List Moment) : Connection := ms.foldl (fun _ m => m.after) c

theorem afterAll_append (c : Connection) (ms ms' : List Moment) :
    c.afterAll (ms ++ ms') = (c.afterAll ms).afterAll ms' := List.foldl_append

theorem afterAll_concat (c : Connection) (ms : List Moment) (m : Moment) :
    c.afterAll (ms ++ [m]) = m.after := by
  rw [afterAll_append]
  rfl

/-- What every moment leaves the connection in, it is in after them. -/
theorem afterAll_state {c : Connection} {ms : List Moment} {state : ConnectionState}
    (start : c.state = state) (stays : ∀ m ∈ ms, m.after.state = state) :
    (c.afterAll ms).state = state := by
  cases ms using List.reverseRecOn with
  | nil => exact start
  | append_singleton ms m =>
    rw [afterAll_concat]
    exact stays m (List.mem_append_right ms (List.mem_singleton_self m))

namespace Life

variable {tcid : UInt8} {c c' c'' : Connection} {m : Moment} {ms ms' : List Moment}

theorem eq_afterAll (h : Life tcid c ms c') : c' = c.afterAll ms := by
  induction h with
  | refl c => rfl
  | cons _ _ ih => exact ih

theorem one (step : Step tcid c m) : Life tcid c [m] m.after := .cons step (.refl _)

theorem trans (h : Life tcid c ms c') (h' : Life tcid c' ms' c'') :
    Life tcid c (ms ++ ms') c'' := by
  induction h with
  | refl c => exact h'
  | cons step _ ih => exact .cons step (ih h')

theorem split (h : Life tcid c (ms ++ ms') c'') :
    Life tcid c ms (c.afterAll ms) ∧ Life tcid (c.afterAll ms) ms' c'' := by
  induction ms generalizing c with
  | nil => exact ⟨.refl c, h⟩
  | cons m ms ih =>
    cases h with
    | cons step rest =>
      obtain ⟨hms, hms'⟩ := ih rest
      exact ⟨.cons step hms, hms'⟩

/-- A moment comes after the life before it. -/
theorem split_cons (h : Life tcid c (ms ++ m :: ms') c') :
    Life tcid c ms (c.afterAll ms) ∧ Step tcid (c.afterAll ms) m ∧ Life tcid m.after ms' c' := by
  obtain ⟨hms, hm⟩ := h.split
  cases hm with
  | cons step rest => exact ⟨hms, step, rest⟩

theorem of_concat (h : Life tcid c (ms ++ [m]) c') :
    Life tcid c ms (c.afterAll ms) ∧ Step tcid (c.afterAll ms) m ∧ c' = m.after := by
  obtain ⟨hms, step, rest⟩ := h.split_cons
  cases rest
  exact ⟨hms, step, rfl⟩

/-- Every moment of a life is one that some connection can have. -/
theorem step_of_mem (h : Life tcid c ms c') (hm : m ∈ ms) : ∃ d, Step tcid d m := by
  obtain ⟨before, after, rfl⟩ := List.append_of_mem hm
  exact ⟨_, h.split_cons.2.1⟩

/-- What holds at the beginning and is kept by every moment holds all the time. -/
theorem invariant {P : List Moment → Connection → Prop} (start : P [] c)
    (keeps : ∀ {ms c' m}, Life tcid c ms c' → P ms c' → Step tcid c' m → P (ms ++ [m]) m.after)
    (h : Life tcid c ms c') : P ms c' := by
  induction ms using List.reverseRecOn generalizing c' with
  | nil =>
    cases h
    exact start
  | append_singleton ms m ih =>
    obtain ⟨hms, step, rfl⟩ := h.of_concat
    exact keeps hms (ih hms) step

end Life

/-! ## What a unit can do -/

/-- Whether a unit of which `notice` becomes known is the end of a connection. -/
def endedBy (t : Tpdu) (notice : Option Notice) : Bool :=
  match t.tag with
  | .tcError | .deleteTc => true
  | .deleteTcReply => notice == some .closed
  | _ => false

/-- The ways in which a unit of the module can change a connection. -/
inductive Reception (t : Tpdu) (c : Connection) : Option Notice → Connection → Prop
  /-- The module agrees to the connection. -/
  | agreed (tag : t.tag = .createTcReply) (creating : c.state = .creation) :
      Reception t c (some .opened) { c with state := .active }
  /-- The module says whether it has data. -/
  | status (tag : t.tag = .sb) :
      Reception t c none { c with dataAvailable := t.dataAvailable == some true }
  | reset {notice : Option Notice} (ends : endedBy t notice = true)
      (silent : notice ≠ some .opened) : Reception t c notice .idle
  /-- At most the message coming in is changed. -/
  | kept {notice : Option Notice} (chain : Bytes) (discarding : Bool) (tag : t.tag ≠ .sb)
      (goesOn : endedBy t notice = false)
      (unexpected : t.tag = .createTcReply → c.state ≠ .creation) (silent : notice ≠ some .opened) :
      Reception t c notice { c with chain := chain, discarding := discarding }

variable {t : Tpdu} {c left : Connection} {tcid : UInt8}

theorem farewell_ne_opened (c : Connection) : c.farewell ≠ some .opened := by
  rw [farewell]
  split <;> nofun

theorem receiveData_reception (maxSize : Nat) (last : Bool) (data : Bytes)
    (fragment : t.tag = .dataMore ∨ t.tag = .dataLast) :
    Reception t c (c.receiveData maxSize last data).notice
      (c.receiveData maxSize last data).connection := by
  have tag : t.tag ≠ .sb := by rcases fragment with h | h <;> rw [h] <;> decide
  have unexpected : t.tag = .createTcReply → c.state ≠ .creation := by
    rcases fragment with h | h <;> rw [h] <;> nofun
  have goesOn : ∀ notice, endedBy t notice = false := by
    intro notice
    rcases fragment with h | h <;> rw [endedBy, h]
  rw [receiveData]
  split
  · exact .kept c.chain c.discarding tag (goesOn _) unexpected nofun
  · split
    · exact .kept c.chain (!last) tag (goesOn _) unexpected nofun
    · split
      · exact .kept [] (!last) tag (goesOn _) unexpected nofun
      · dsimp only
        split
        · exact .kept [] c.discarding tag (goesOn _) unexpected nofun
        · exact .kept (c.chain ++ data) c.discarding tag (goesOn _) unexpected nofun

theorem receive_reception (maxSize : Nat) (t : Tpdu) (c : Connection) :
    Reception t c (c.receive maxSize t).notice (c.receive maxSize t).connection := by
  have same : t.tag ≠ .sb → endedBy t none = false →
      (t.tag = .createTcReply → c.state ≠ .creation) → Reception t c none c := by
    intro tag goesOn unexpected
    exact .kept c.chain c.discarding tag goesOn unexpected nofun
  rw [receive]
  split
  case h_1 tag =>
    split
    · next creating => exact .agreed tag creating
    · next unexpected =>
      exact same (by rw [tag]; decide) (by rw [endedBy, tag]) fun _ => unexpected
  case h_2 tag =>
    split
    · exact .reset (by rw [endedBy, tag]; rfl) nofun
    · exact same (by rw [tag]; decide) (by rw [endedBy, tag]; rfl) (by rw [tag]; nofun)
  case h_3 tag => exact receiveData_reception maxSize _ t.data (.inl tag)
  case h_4 tag => exact receiveData_reception maxSize _ t.data (.inr tag)
  case h_5 tag => exact .status tag
  case h_6 tag | h_7 tag => exact .reset (by rw [endedBy, tag]) (farewell_ne_opened c)
  case h_8 tag | h_9 tag | h_10 tag | h_11 tag =>
    exact same (by rw [tag]; decide) (by rw [endedBy, tag]) (by rw [tag]; nofun)

/-- Whatever becomes known of it, a unit that is taken up does one of these things. -/
theorem Step.reception {notice : Option Notice} {after : Connection}
    (h : Step tcid c ⟨.taken t, notice, after⟩) :
    t.tcid = tcid ∧ Reception t { c with awaiting := none } notice after := by
  cases h with
  | taken maxSize named => exact ⟨named, receive_reception ..⟩
  | unanswered named tag => exact ⟨named, .reset (by rw [endedBy, tag]) nofun⟩

/-! ## What is sent -/

/-- What a connection sends in its turn, and what is left of it without the unit. -/
inductive Turn (tcid : UInt8) (c : Connection) : Reason → Bytes → Connection → Prop
  | announced (flag : c.dataAvailable = true) :
      Turn tcid c .announced (control .rcv tcid none) { c with dataAvailable := false }
  | queued {unit : Bytes} {queue : Queue Bytes} (flag : c.dataAvailable = false)
      (head : c.queue.toList = unit :: queue.toList) :
      Turn tcid c .queued unit { c with queue := queue }
  | due (flag : c.dataAvailable = false) (empty : c.queue.toList = [])
      (active : c.state = .active) : Turn tcid c .due (control .dataLast tcid none) c

theorem Turn.state_eq {reason : Reason} {unit : Bytes} (h : Turn tcid c reason unit left) :
    left.state = c.state := by cases h <;> rfl

theorem Turn.awaiting_eq {reason : Reason} {unit : Bytes} (h : Turn tcid c reason unit left) :
    left.awaiting = c.awaiting := by cases h <;> rfl

theorem pending_send {config : SlotConfig} {now : Nat} {unit : Bytes}
    (h : c.pending config tcid now = .send unit left) : Turn tcid c c.reason unit left := by
  have hpop := c.queue.map_toList_pop?
  rw [pending] at h
  rw [reason]
  split at h
  · next flag =>
    cases h
    rw [if_pos flag]
    exact .announced flag
  · next flag =>
    have flag : c.dataAvailable = false := Bool.eq_false_iff.mpr flag
    rw [flag, if_neg Bool.false_ne_true]
    split at h
    · next unit' queue hq =>
      cases h
      rw [hq] at hpop
      split at hpop
      · cases hpop
      · have head : c.queue.toList = unit :: queue.toList := (Option.some.inj hpop).symm
        rw [head]
        exact .queued flag head
    · next hq =>
      rw [hq] at hpop
      split at hpop
      · next empty =>
        split at h
        · next due =>
          cases h
          rw [empty]
          exact .due flag empty (beq_iff_eq.mp (Bool.and_eq_true_iff.mp due).1)
        · cases h
      · cases hpop

theorem duty_send {config : SlotConfig} {now : Nat} {unit : Bytes}
    (h : c.duty config tcid now = .send unit left) :
    c.state ≠ .idle ∧ c.awaiting = none ∧ Turn tcid c c.reason unit left := by
  rw [duty] at h
  split at h
  · cases h
  · next busy =>
    split at h
    · split at h <;> cases h
    · next free => exact ⟨busy, free, pending_send h⟩

/-- What `c` is after its turn, of which `left` is what is left without the unit. -/
structure Departed (c left after : Connection) (written : Bool) : Prop where
  state_eq : after.state = c.state
  queue_eq : after.queue = left.queue
  flag_eq : after.dataAvailable = left.dataAvailable
  awaits : after.awaiting = none ↔ written = false

/-- A unit is sent only while none is unanswered. One that is not written is gone all the same. -/
theorem Step.turn {notice : Option Notice} {after : Connection} {reason : Reason} {unit : Bytes}
    {written : Bool} (h : Step tcid c ⟨.sent reason unit written, notice, after⟩) :
    notice = none ∧ c.state ≠ .idle ∧
      ∃ left, Turn tcid c reason unit left ∧ Departed c left after written := by
  cases h with
  | sent turn =>
    obtain ⟨busy, -, turn⟩ := duty_send turn
    refine ⟨rfl, busy, _, turn, turn.state_eq, rfl, rfl, ?_⟩
    constructor <;> nofun
  | failed turn =>
    obtain ⟨busy, free, turn⟩ := duty_send turn
    refine ⟨rfl, busy, _, turn, turn.state_eq, rfl, rfl, ?_⟩
    rw [turn.awaiting_eq, free]
    exact iff_of_true rfl rfl

/-- Every moment is of one of these kinds; `cases step using Step.elim` tells them apart. -/
@[elab_as_elim]
theorem Step.elim {motive : (m : Moment) → Step tcid c m → Prop}
    (begun : ∀ (_ : c.state = .idle) step, motive ⟨.begun, none, c.begin tcid⟩ step)
    (queued : ∀ (units : List Bytes) (_ : c.state = .active) step,
      motive ⟨.queued units, none, { c with queue := c.queue.append units }⟩ step)
    (ending : ∀ (_ : c.state = .active) step, motive ⟨.ending, none, c.finish tcid⟩ step)
    (taken : ∀ (t : Tpdu) (notice : Option Notice) (after : Connection)
      (_ : Reception t { c with awaiting := none } notice after) step,
      motive ⟨.taken t, notice, after⟩ step)
    (sent : ∀ (reason : Reason) (unit : Bytes) (written : Bool) (left after : Connection)
      (_ : c.state ≠ .idle) (_ : Turn tcid c reason unit left) (_ : Departed c left after written)
      step, motive ⟨.sent reason unit written, none, after⟩ step)
    (ended : ∀ (happening : Happening) (_ : happening = .timedOut ∨ happening = .gone) step,
      motive ⟨happening, c.farewell, .idle⟩ step)
    {m : Moment} (step : Step tcid c m) : motive m step := by
  have again := step
  cases again with
  | begun idle => exact begun idle step
  | queued active cut => exact queued _ active step
  | ending active => exact ending active step
  | taken maxSize named => exact taken _ _ _ step.reception.2 step
  | unanswered named tag => exact taken _ _ _ step.reception.2 step
  | sent turn | failed turn =>
    obtain ⟨-, busy, left, turn, departed⟩ := step.turn
    exact sent _ _ _ left _ busy turn departed step
  | timedOut turn => exact ended _ (.inl rfl) step
  | gone => exact ended _ (.inr rfl) step

end Connection

end DvbHost.Ci
