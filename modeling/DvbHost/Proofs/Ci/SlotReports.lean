import DvbHost.Proofs.Ci.Slot
import DvbHost.Proofs.Ci.TransportRun
import DvbHost.Proofs.Episode

/-!
# What is told of the connections of a slot

Every step of a slot at work is compared with what it tells: `Keeps` says that the reports of a
connection go on fitting it. One step does not fit. When a module ends an open connection and the
reply cannot be written, the end is not told. `Advances` puts the steps of a poll together, with the
units that were taken up, so that this one loss can be seen in them.
-/

namespace DvbHost.Ci

set_option autoImplicit false

open Episode TransportEvent

/-- The part that a notice plays in the life of its connection. -/
def Notice.mark : Notice → Mark
  | .opened => .opening
  | .data _ => .content
  | .closed => .closing

/-- The unit ends an open connection, and the reply to it cannot be written. -/
def Meeting.Unanswered {ω : Type} (link : Link ω) (slot : Nat) (tcid : UInt8) (m : Meeting ω) :
    Prop :=
  m.slot = slot ∧ m.unit.tcid = tcid ∧ m.unit.tag = .deleteTc ∧ m.run.slot.hasOpen tcid = true ∧
    ∃ text, (link.write m.run.slot.device m.run.slot.number tcid
      (Connection.control .deleteTcReply tcid none) m.run.world).1 = .error text

/-! ## Accounts -/

/-- The marks fit the connection, or else an end was lost and they never will again: the next
opening, if there is one, comes within an episode. -/
def Accounts (isOpen : Bool) (marks : List Mark) (lost : Prop) : Prop :=
  (¬ lost ∧ scan marks = some isOpen) ∨
    (lost ∧ (scan marks = none ∨ (scan marks = some true ∧ isOpen = false)))

/-- With an end lost, and only then, the marks do not fit. -/
theorem Accounts.scan_iff {isOpen : Bool} {marks : List Mark} {lost : Prop}
    (h : Accounts isOpen marks lost) : scan marks = some isOpen ↔ ¬ lost := by
  rcases h with ⟨hkept, hscan⟩ | ⟨hlost, hscan⟩
  · exact iff_of_true hscan hkept
  · refine iff_of_false ?_ (not_not_intro hlost)
    rcases hscan with hscan | ⟨hscan, rfl⟩
    · rw [hscan]
      exact nofun
    · rw [hscan]
      exact nofun

/-- A step that keeps every account: what is told, whether an end is lost, and whether the
connection is open before and after it. -/
def Keeps (isOpen : Bool) (told : List Notice) (lost : Prop) (isOpen' : Bool) : Prop :=
  ∀ marks before, Accounts isOpen marks before →
    Accounts isOpen' (marks ++ told.map Notice.mark) (before ∨ lost)

namespace Keeps

variable {isOpen isOpen' isOpen'' : Bool} {told told' : List Notice} {lost lost' : Prop}

theorem trans (h : Keeps isOpen told lost isOpen') (h' : Keeps isOpen' told' lost' isOpen'') :
    Keeps isOpen (told ++ told') (lost ∨ lost') isOpen'' := by
  intro marks before ha
  rw [List.map_append, ← List.append_assoc, ← or_assoc]
  exact h' _ _ (h _ _ ha)

/-- Nothing is told and nothing happens. -/
theorem same (isOpen : Bool) (hlost : ¬ lost) : Keeps isOpen [] lost isOpen := by
  intro marks before ha
  rw [List.map_nil, List.append_nil, or_iff_left hlost]
  exact ha

/-- One notice that fits what happens. -/
theorem one {notice : Notice} (hnext : next isOpen notice.mark = some isOpen') (hlost : ¬ lost) :
    Keeps isOpen [notice] lost isOpen' := by
  intro marks before ha
  rw [List.map_singleton, or_iff_left hlost, Accounts, scan_concat]
  rcases ha with ⟨hkept, hscan⟩ | ⟨hbefore, hscan | ⟨hscan, rfl⟩⟩
  · exact .inl ⟨hkept, by rw [hscan]; exact hnext⟩
  · exact .inr ⟨hbefore, .inl (by rw [hscan]; rfl)⟩
  · -- Only an opening fits a connection that is not open, and the marks are within an episode.
    refine .inr ⟨hbefore, .inl ?_⟩
    rw [hscan]
    cases notice with
    | opened => rfl
    | data octets => cases hnext
    | closed => cases hnext

/-- The end of an open connection is not told. -/
theorem dropped (hlost : lost) : Keeps true [] lost false := by
  intro marks before ha
  rw [List.map_nil, List.append_nil]
  refine .inr ⟨.inr hlost, ?_⟩
  rcases ha with ⟨-, hscan⟩ | ⟨-, hscan | ⟨-, habsurd⟩⟩
  · exact .inr ⟨hscan, rfl⟩
  · exact .inl hscan
  · cases habsurd

/-- An open connection stays open, or its end is told, or lost. -/
theorem open_or_closed (h : Keeps true told lost isOpen) (kept : ¬ lost) :
    isOpen = true ∨ Notice.closed ∈ told := by
  have haccounts : Accounts isOpen ([.opening] ++ told.map Notice.mark) (False ∨ lost) :=
    h [.opening] False (.inl ⟨not_false, rfl⟩)
  have hscan := haccounts.scan_iff.mpr (by rwa [false_or])
  cases isOpen with
  | true => exact .inl rfl
  | false =>
    have hmem : Mark.closing ∈ told.map Notice.mark := closing_mem_of_foldlM hscan
    obtain ⟨notice, hnotice, hmark⟩ := List.mem_map.mp hmem
    cases notice with
    | closed => exact .inr hnotice
    | opened | data data => cases hmark

end Keeps

/-- A notice, if there is one, that fits what happens to the connection. -/
def Fitting (isOpen : Bool) (notice : Option Notice) (isOpen' : Bool) : Prop :=
  match notice with
  | none => isOpen' = isOpen
  | some n => next isOpen n.mark = some isOpen'

theorem Fitting.keeps {isOpen isOpen' : Bool} {notice : Option Notice} {lost : Prop}
    (h : Fitting isOpen notice isOpen') (hlost : ¬ lost) :
    Keeps isOpen notice.toList lost isOpen' := by
  cases notice with
  | none =>
    obtain rfl : isOpen' = isOpen := h
    exact .same isOpen' hlost
  | some n => exact .one h hlost

namespace Connection

theorem farewell_fitting (c : Connection) : Fitting c.isOpen c.farewell false := by
  rw [farewell]
  cases c.isOpen <;> rfl

theorem isOpen_of_state {c : Connection} {state : ConnectionState} (h : c.state = state) :
    c.isOpen = (state == .active || state == .deletion) := by rw [isOpen, h]

theorem receiveData_fitting (maxSize : Nat) (last : Bool) (data : Bytes) (c : Connection) :
    Fitting c.isOpen (c.receiveData maxSize last data).notice
      (c.receiveData maxSize last data).connection.isOpen := by
  rw [receiveData]
  split
  · rfl
  · next hactive =>
    have hopen : c.isOpen = true := isOpen_of_state (Decidable.not_not.mp hactive)
    split
    · rfl
    · split
      · rfl
      · dsimp only
        split
        · change next c.isOpen .content = some c.isOpen
          rw [hopen]
          rfl
        · rfl

/-- Whatever a module sends, what is told of it fits what becomes of the connection. -/
theorem receive_fitting (maxSize : Nat) (t : Tpdu) (c : Connection) :
    Fitting c.isOpen (c.receive maxSize t).notice (c.receive maxSize t).connection.isOpen := by
  rw [receive]
  split
  · split
    · next hstate =>
      rw [isOpen_of_state hstate]
      rfl
    · rfl
  · split
    · next hstate =>
      rw [isOpen_of_state hstate]
      rfl
    · rfl
  · exact receiveData_fitting ..
  · exact receiveData_fitting ..
  · rfl
  · exact farewell_fitting c
  · exact farewell_fitting c
  · rfl
  · rfl
  · rfl
  · rfl

end Connection

/-! ## A slot at work -/

/-- An end was lost among the units that were taken up. -/
def Lost {ω : Type} (link : Link ω) (slot : Nat) (tcid : UInt8) (ms : List (Meeting ω)) : Prop :=
  ∃ m ∈ ms, m.Unanswered link slot tcid

theorem not_lost_nil {ω : Type} (link : Link ω) (slot : Nat) (tcid : UInt8) :
    ¬ Lost link slot tcid [] := by
  rintro ⟨m, hm, -⟩
  cases hm

theorem lost_append {ω : Type} (link : Link ω) (slot : Nat) (tcid : UInt8)
    (ms ms' : List (Meeting ω)) :
    Lost link slot tcid (ms ++ ms') ↔ Lost link slot tcid ms ∨ Lost link slot tcid ms' := by
  simp only [Lost, List.mem_append, or_and_right, exists_or]

namespace SlotRun

variable {ω : Type} (link : Link ω) (id : Nat)

theorem report_slot (tcid : UInt8) (notice : Option Notice) (r : SlotRun ω) :
    (r.report id tcid notice).slot = r.slot := by cases notice <;> rfl

theorem report_events (tcid : UInt8) (notice : Option Notice) (r : SlotRun ω) :
    (r.report id tcid notice).events.toList =
      r.events.toList ++ notice.toList.map (connection id tcid) := by
  cases notice with
  | none => exact (List.append_nil _).symm
  | some n => exact Queue.toList_push _ _

/-- What happens between two states of a slot at work, as far as the reports of its connections
are concerned: it has nothing to do with other slots, and every account is kept. -/
structure Advances (r : SlotRun ω) (ms : List (Meeting ω)) (r' : SlotRun ω) : Prop where
  length_eq : r'.slot.connections.length = r.slot.connections.length
  met : ∀ m ∈ ms, m.slot = id
  tells : ∃ es, r'.events.toList = r.events.toList ++ es ∧ (∀ e ∈ es, e.slot = id) ∧
    ∀ tcid, Keeps (r.slot.hasOpen tcid) (noticesOf id tcid es) (Lost link id tcid ms)
      (r'.slot.hasOpen tcid)

namespace Advances

variable {link id} {r r' r'' : SlotRun ω} {ms ms' : List (Meeting ω)}

theorem fits (h : Advances link id r ms r') (hr : r.slot.Fits) : r'.slot.Fits := by
  rw [Slot.Fits, h.length_eq]
  exact hr

theorem trans (h : Advances link id r ms r') (h' : Advances link id r' ms' r'') :
    Advances link id r (ms ++ ms') r'' := by
  obtain ⟨es, hes, hslot, hkeeps⟩ := h.tells
  obtain ⟨es', hes', hslot', hkeeps'⟩ := h'.tells
  refine ⟨h'.length_eq.trans h.length_eq, ?_, es ++ es', ?_, ?_, fun tcid => ?_⟩
  · intro m hm
    rcases List.mem_append.mp hm with hm | hm
    · exact h.met m hm
    · exact h'.met m hm
  · rw [hes', hes, List.append_assoc]
  · intro e he
    rcases List.mem_append.mp he with he | he
    · exact hslot e he
    · exact hslot' e he
  · rw [noticesOf_append, propext (lost_append link id tcid ms ms')]
    exact (hkeeps tcid).trans (hkeeps' tcid)

/-- Nothing is told, and the same connections are open. -/
theorem silent (hlength : r'.slot.connections.length = r.slot.connections.length)
    (hevents : r'.events = r.events) (hopen : ∀ tcid, r'.slot.hasOpen tcid = r.slot.hasOpen tcid)
    (hmet : ∀ m ∈ ms, m.slot = id) (hlost : ∀ tcid, ¬ Lost link id tcid ms) :
    Advances link id r ms r' := by
  refine ⟨hlength, hmet, [], by rw [hevents, List.append_nil], nofun, fun tcid => ?_⟩
  rw [hopen tcid]
  exact .same _ (hlost tcid)

theorem refl (r : SlotRun ω) : Advances link id r [] r :=
  silent rfl rfl (fun _ => rfl) nofun fun tcid => not_lost_nil link id tcid

/-- The connections and the events are the same; the device may have been at work. -/
theorem of_same (hconnections : r'.slot.connections = r.slot.connections)
    (hevents : r'.events = r.events) : Advances link id r [] r' := by
  refine silent (congrArg List.length hconnections) hevents (fun tcid => ?_) nofun fun tcid =>
    not_lost_nil link id tcid
  rw [Slot.hasOpen, Slot.connection?, hconnections]
  rfl

/-- One connection changes, and what is told of it fits. -/
theorem changed {tcid : UInt8} {c c' : Connection} (notice : Option Notice)
    (hc : r.slot.connection? tcid = some c) (hslot : r'.slot = r.slot.put tcid c')
    (hevents : r'.events.toList = r.events.toList ++ notice.toList.map (connection id tcid))
    (hfit : Fitting c.isOpen notice c'.isOpen) (hmet : ∀ m ∈ ms, m.slot = id)
    (hlost : ∀ tcid, ¬ Lost link id tcid ms) : Advances link id r ms r' := by
  refine ⟨by rw [hslot, Slot.length_put], hmet, _, hevents, ?_, fun tcid' => ?_⟩
  · intro e he
    obtain ⟨n, -, rfl⟩ := List.mem_map.mp he
    rfl
  · rw [hslot, noticesOf_map_connection]
    by_cases h : tcid' = tcid
    · rw [h, if_pos rfl, Slot.hasOpen_of_some hc, Slot.hasOpen_put_self hc]
      exact hfit.keeps (hlost tcid)
    · rw [if_neg (Ne.symm h), Slot.hasOpen_put_ne hc h]
      exact .same _ (hlost tcid')

theorem put_report {tcid : UInt8} {c c' : Connection} (notice : Option Notice)
    (hc : r.slot.connection? tcid = some c) (hfit : Fitting c.isOpen notice c'.isOpen)
    (hmet : ∀ m ∈ ms, m.slot = id) (hlost : ∀ tcid, ¬ Lost link id tcid ms) :
    Advances link id r ms ((r.put tcid c').report id tcid notice) :=
  changed notice hc (report_slot ..) (report_events ..) hfit hmet hlost

/-- One connection changes and is as open as it was. -/
theorem put {tcid : UInt8} {c c' : Connection} (hc : r.slot.connection? tcid = some c)
    (hopen : c'.isOpen = c.isOpen) : Advances link id r [] (r.put tcid c') :=
  put_report none hc hopen nofun fun tcid => not_lost_nil link id tcid

/-- A connection that is begun is not open yet. -/
theorem begun {tcid : UInt8} {slot : Slot} (hr : r.slot.Fits)
    (hbegin : r.slot.begin? = some (tcid, slot)) : Advances link id r [] { r with slot := slot } := by
  obtain ⟨c, hc, hidle, rfl⟩ := Slot.of_begin? hr hbegin
  refine put hc ?_
  rw [Connection.isOpen_of_state hidle]
  rfl

/-- The module is gone: the end of every open connection is told. -/
theorem cleared (hr : r.slot.Fits) : Advances link id r [] (r.clear id) := by
  refine ⟨List.length_map .., nofun, r.slot.closing id, Queue.toList_append _ _,
    fun e he => Slot.slot_of_mem_closing he, fun tcid => ?_⟩
  rw [Slot.noticesOf_closing hr]
  change Keeps _ _ _ (r.slot.cleared.hasOpen tcid)
  rw [Slot.hasOpen_cleared]
  cases r.slot.hasOpen tcid with
  | false => exact .same false (not_lost_nil link id tcid)
  | true => exact .one rfl (not_lost_nil link id tcid)

end Advances

theorem write_slot (tcid : UInt8) (unit : Bytes) (r : SlotRun ω) :
    (r.write link tcid unit).1.slot = r.slot := by
  rw [write]
  split <;> rfl

theorem write_events (tcid : UInt8) (unit : Bytes) (r : SlotRun ω) :
    (r.write link tcid unit).1.events = r.events := by
  rw [write]
  split <;> rfl

theorem write_advances (tcid : UInt8) (unit : Bytes) (r : SlotRun ω) :
    Advances link id r [] (r.write link tcid unit).1 :=
  .of_same (congrArg Slot.connections (write_slot link tcid unit r)) (write_events link tcid unit r)

/-- A write fails exactly if the device says so. -/
theorem write_failed_iff (tcid : UInt8) (unit : Bytes) (r : SlotRun ω) :
    (∃ e, (r.write link tcid unit).2 = some e) ↔
      ∃ text, (link.write r.slot.device r.slot.number tcid unit r.world).1 = .error text := by
  rw [write]
  split
  · next world h =>
    rw [h]
    exact iff_of_false nofun nofun
  · next text world h =>
    rw [h]
    exact iff_of_true ⟨_, rfl⟩ ⟨_, rfl⟩

theorem answerRequest_advances (tcid : UInt8) {r : SlotRun ω} (hr : r.slot.Fits) :
    Advances link id r [] (r.answerRequest link tcid).1 := by
  rw [answerRequest]
  split
  · next new slot hbegin =>
    exact (Advances.begun hr hbegin).trans (write_advances link id tcid _ _)
  · exact write_advances link id tcid _ r

theorem slot_of_mem_singleton (r : SlotRun ω) (t : Tpdu) :
    ∀ m ∈ [(⟨id, r, t⟩ : Meeting ω)], m.slot = id := by
  intro m hm
  rw [List.mem_singleton.mp hm]

/-- The end of a connection is told, unless the reply to it fails. -/
theorem answerDelete_advances {t : Tpdu} {r : SlotRun ω} {c : Connection}
    (htag : t.tag = .deleteTc) (hc : r.slot.connection? t.tcid = some c) :
    Advances link id r [⟨id, r, t⟩]
      (r.answerDelete link id t.tcid ⟨.idle, c.farewell, none⟩).1 := by
  have hmet := slot_of_mem_singleton id r t
  have hslot : (((r.put t.tcid .idle).write link t.tcid
      (Connection.control .deleteTcReply t.tcid none)).1).slot = r.slot.put t.tcid .idle :=
    write_slot ..
  have hevents := write_events link t.tcid (Connection.control .deleteTcReply t.tcid none)
    (r.put t.tcid .idle)
  have hfailed := write_failed_iff link t.tcid (Connection.control .deleteTcReply t.tcid none)
    (r.put t.tcid .idle)
  rw [answerDelete]
  generalize (r.put t.tcid .idle).write link t.tcid _ = written at hslot hevents hfailed ⊢
  obtain ⟨w, _ | e⟩ := written
  all_goals dsimp only at hslot hevents hfailed ⊢
  · -- The reply is out, so nothing is lost.
    refine .changed _ hc ((report_slot ..).trans hslot) ?_ (Connection.farewell_fitting c) hmet ?_
    · rw [report_events, hevents]
      rfl
    · rintro tcid ⟨m, hm, -, htcid, -, -, hfail⟩
      obtain rfl := List.mem_singleton.mp hm
      obtain ⟨e, he⟩ := hfailed.mpr (htcid ▸ hfail)
      cases he
  · cases hopen : c.isOpen with
    | false =>
      refine .changed none hc hslot ?_ hopen.symm hmet ?_
      · rw [hevents]
        exact (List.append_nil _).symm
      · rintro tcid ⟨m, hm, -, htcid, -, hwas, -⟩
        obtain rfl := List.mem_singleton.mp hm
        rw [← htcid, Slot.hasOpen_of_some hc, hopen] at hwas
        cases hwas
    | true =>
      refine ⟨by rw [hslot]; exact Slot.length_put, hmet, [], ?_, nofun, fun tcid => ?_⟩
      · rw [hevents]
        exact (List.append_nil _).symm
      · rw [hslot]
        by_cases h : tcid = t.tcid
        · have hlost : Lost link id tcid [⟨id, r, t⟩] :=
            ⟨_, List.mem_singleton_self _, rfl, h.symm, htag,
              h ▸ (Slot.hasOpen_of_some hc).trans hopen, h ▸ hfailed.mp ⟨e, rfl⟩⟩
          rw [h] at hlost ⊢
          rw [Slot.hasOpen_of_some hc, Slot.hasOpen_put_self hc, hopen]
          exact .dropped hlost
        · rw [Slot.hasOpen_put_ne hc h]
          refine .same _ ?_
          rintro ⟨m, hm, -, htcid, -⟩
          obtain rfl := List.mem_singleton.mp hm
          exact h htcid.symm

/-- One unit from a module. -/
theorem handle_advances (t : Tpdu) {r : SlotRun ω} (hr : r.slot.Fits) :
    Advances link id r [⟨id, r, t⟩] (r.handle link id t).1 := by
  have hmet := slot_of_mem_singleton id r t
  rw [handle]
  cases hc : r.slot.connection? t.tcid with
  | none =>
    refine .silent rfl rfl (fun _ => rfl) hmet ?_
    rintro tcid ⟨m, hm, -, htcid, -, hwas, -⟩
    obtain rfl := List.mem_singleton.mp hm
    rw [← htcid, Slot.hasOpen, hc] at hwas
    cases hwas
  | some c =>
    have hfit := Connection.receive_fitting r.slot.config.maxSpduSize t { c with awaiting := none }
    have kept : t.tag ≠ .deleteTc → ∀ tcid, ¬ Lost link id tcid [⟨id, r, t⟩] := by
      rintro hne tcid ⟨m, hm, -, -, htag, -⟩
      obtain rfl := List.mem_singleton.mp hm
      exact hne htag
    dsimp only
    split
    · next htag =>
      rw [Connection.receive, htag]
      exact answerDelete_advances (c := c) link id htag hc
    · next htag =>
      have hput : Advances link id r [⟨id, r, t⟩]
          (r.put t.tcid ({ c with awaiting := none }.receive r.slot.config.maxSpduSize t).connection) := by
        refine .put_report none hc ?_ hmet (kept (by rw [htag]; decide))
        rw [Connection.receive, htag]
        rfl
      exact hput.trans (answerRequest_advances link id t.tcid (hput.fits hr))
    · next hdelete hrequest => exact .put_report _ hc hfit hmet (kept hdelete)

theorem handleAll_advances (ts : List Tpdu) (error : Option CiError) {r : SlotRun ω}
    (hr : r.slot.Fits) :
    Advances link id r (meetingsIn link id ts r) (handleAll link id ts r error).1 := by
  induction ts generalizing r error with
  | nil => exact .refl r
  | cons t ts ih =>
    have ht := handle_advances link id t hr
    rw [handleAll, meetingsIn, ← List.singleton_append]
    generalize r.handle link id t = handled at ht ⊢
    obtain ⟨r', e⟩ := handled
    exact ht.trans (ih (error <|> e) (ht.fits hr))

/-- Errors so far change nothing in what is done. -/
theorem handleAll_fst (ts : List Tpdu) (r : SlotRun ω) (error error' : Option CiError) :
    (handleAll link id ts r error).1 = (handleAll link id ts r error').1 := by
  induction ts generalizing r error error' with
  | nil => rfl
  | cons t ts ih => exact ih ..

theorem receiveWithin_advances (fuel : Nat) (error : Option CiError) {r : SlotRun ω}
    (hr : r.slot.Fits) :
    Advances link id r (meetingsWithin link id fuel r) (receiveWithin link id fuel r error).1 := by
  induction fuel generalizing r error with
  | zero => exact .refl r
  | succ fuel ih =>
    rw [receiveWithin, meetingsWithin]
    rcases link.read r.slot.device r.slot.number r.slot.config.room r.world with
      ⟨text | _ | response, world⟩
    · exact .of_same rfl rfl
    · exact .of_same rfl rfl
    · dsimp only
      have hread : Advances link id r [] { r with world := world } := .of_same rfl rfl
      split
      · exact hread
      · cases Tpdu.readResponse response with
        | error e => exact hread
        | ok units =>
          have hunits := handleAll_advances link id units error (hread.fits hr)
          have hmet := ih (handleAll link id units { r with world := world } error).2
            (hunits.fits (hread.fits hr))
          dsimp only
          rw [handleAll_fst link id units _ none error]
          exact hread.trans (hunits.trans hmet)

theorem receive_advances {r : SlotRun ω} (hr : r.slot.Fits) :
    Advances link id r (r.meetings link id) (r.receive link id).1 :=
  receiveWithin_advances link id _ none hr

/-- What a connection has to send leaves it as open as it is. -/
theorem isOpen_of_duty {config : SlotConfig} {tcid : UInt8} {now : Nat} {c left : Connection}
    {unit : Bytes} (h : c.duty config tcid now = .send unit left) : left.isOpen = c.isOpen := by
  rw [Connection.duty] at h
  split at h
  · cases h
  · split at h
    · split at h <;> cases h
    · rw [Connection.pending] at h
      split at h
      · cases h
        rfl
      · split at h
        · cases h
          rfl
        · split at h
          · cases h
            rfl
          · cases h

theorem sendFrom_advances (now count : Nat) (tcid : UInt8) (error : Option CiError)
    (r : SlotRun ω) : Advances link id r [] (sendFrom link id now count tcid r error).1 := by
  induction count generalizing tcid r error with
  | zero => exact .refl r
  | succ count ih =>
    rw [sendFrom]
    cases hc : r.slot.connection? tcid with
    | none => exact .refl r
    | some c =>
      dsimp only
      cases hduty : c.duty r.slot.config tcid now with
      | nothing => exact ih ..
      | timedOut =>
        have hgone : Advances link id r [] ((r.put tcid .idle).report id tcid c.farewell) :=
          .put_report _ hc (Connection.farewell_fitting c) nofun fun tcid => not_lost_nil link id tcid
        exact hgone.trans (ih ..)
      | send unit left =>
        have hput : Advances link id r [] (r.put tcid left) := .put hc (isOpen_of_duty hduty)
        have hleft : (r.put tcid left).slot.connection? tcid = some left := by
          rw [SlotRun.put, Slot.connection?_put hc, if_pos rfl]
        have hwrite := write_advances link id tcid unit (r.put tcid left)
        have hslot := write_slot link tcid unit (r.put tcid left)
        dsimp only
        generalize (r.put tcid left).write link tcid unit = written at hwrite hslot ⊢
        obtain ⟨w, _ | e⟩ := written
        · have hsent : Advances link id w [] (w.put tcid (left.sent now)) :=
            .put (c := left) (by rw [hslot]; exact hleft) rfl
          exact hput.trans (hwrite.trans (hsent.trans (ih ..)))
        · exact hput.trans hwrite

/-! ## Polls -/

theorem exchange_advances (now : Nat) {r : SlotRun ω} (hr : r.slot.Fits) :
    Advances link id r (r.meetings link id) (r.exchange link id now).1 := by
  have hreceive := receive_advances link id hr
  rw [exchange]
  generalize r.receive link id = received at hreceive ⊢
  obtain ⟨r', _ | e⟩ := received
  · rw [← List.append_nil (r.meetings link id)]
    exact hreceive.trans (sendFrom_advances ..)
  · exact hreceive

theorem greet_advances (r : SlotRun ω) : Advances link id r [] (r.greet link).1 := by
  rw [greet]
  split <;> exact .of_same rfl rfl

theorem start_advances (now : Nat) {r : SlotRun ω} (hr : r.slot.Fits) :
    Advances link id r (r.startMeetings link id) (r.start link id now).1 := by
  rw [start, startMeetings]
  rcases link.linkType r.slot.device r.slot.number r.world with ⟨text | _ | _, world⟩
  · exact .of_same rfl rfl
  · dsimp only
    have hready : Advances link id r []
        { r with world := world, slot := { r.slot with state := .ready } } := .of_same rfl rfl
    cases hbegin : ({ r.slot with state := .ready } : Slot).begin? with
    | none => exact hready
    | some begun =>
      obtain ⟨tcid, slot⟩ := begun
      have hbegun : Advances link id
          { r with world := world, slot := { r.slot with state := .ready } } []
          { r with world := world, slot := slot } := .begun (hready.fits hr) hbegin
      exact hready.trans (hbegun.trans (exchange_advances link id now
        (hbegun.fits (hready.fits hr))))
  · exact .of_same rfl rfl

theorem poll_advances (now : Nat) {r : SlotRun ω} (hr : r.slot.Fits) :
    Advances link id r (r.pollMeetings link id) (r.poll link id now).1 := by
  rw [poll, pollMeetings]
  rcases link.status r.slot.device r.slot.number r.world with ⟨text | status, world⟩
  · exact .of_same rfl rfl
  · dsimp only
    have hstatus : Advances link id r [] { r with world := world } := .of_same rfl rfl
    have hfits := hstatus.fits hr
    cases hstate : r.slot.state <;> cases status
    case empty.missing => exact hstatus
    case empty.initialising | empty.ready => exact hstatus.trans (greet_advances link id _)
    case starting.missing | ready.missing | unsupported.missing =>
      exact hstatus.trans (.cleared hfits)
    case starting.ready => exact hstatus.trans (start_advances link id now hfits)
    case ready.initialising | ready.ready => exact hstatus.trans (exchange_advances link id now hfits)
    case starting.initialising | unsupported.initialising | unsupported.ready => exact hstatus

end SlotRun

end DvbHost.Ci
