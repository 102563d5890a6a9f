import DvbHost.Proofs.Ci.ConnectionHistory

/-!
# When a response is overdue

A connection whose response is overdue is ended by a poll of its slot, and its end is told, unless the
poll does not get that far. `timesOut_iff` gives the exact condition: the receiving half of the poll has
no error, and of the connections that have their turn before, none gives the device a unit that cannot
be written. Otherwise the connection waits on as it is and nothing is told of it.

`overdue_unattended` shows a module that keeps a connection waiting for ever with units that no
connection takes up.
-/

namespace DvbHost.Ci

set_option autoImplicit false

open Connection TransportEvent

variable {ω : Type}

/-! ## Connections that wait -/

/-- In the idle state no response is awaited. -/
theorem Connection.Life.awaiting_of_idle {tcid : UInt8} {c : Connection} {ms : List Moment}
    (life : Life tcid .idle ms c) (idle : c.state = .idle) : c.awaiting = none := by
  refine life.invariant (P := fun _ c => c.state = .idle → c.awaiting = none) (fun _ => rfl) ?_ idle
  intro ms c m _ ih step
  cases step using Step.elim with
  | begun idle => nofun
  | queued units active => exact ih
  | ending active => nofun
  | taken t notice after reception =>
    cases reception with
    | agreed tag creating => nofun
    | status tag | reset ends silent | kept chain discarding tag goesOn unexpected silent =>
      exact fun _ => rfl
  | sent reason unit written left after busy turn departed =>
    exact fun h => absurd (departed.state_eq.symm.trans h) busy
  | ended happening ends => exact fun _ => rfl

/-- The response to what was sent is overdue. -/
structure Connection.Overdue (config : SlotConfig) (now : Nat) (c : Connection) : Prop where
  busy : c.state ≠ .idle
  late : ∃ sent, c.awaiting = some sent ∧ config.responseTimeout ≤ now - sent

theorem Connection.Overdue.duty_eq {config : SlotConfig} {now : Nat} {c : Connection}
    (h : c.Overdue config now) (tcid : UInt8) : c.duty config tcid now = .timedOut := by
  obtain ⟨sent, hawaiting, hlate⟩ := h.late
  rw [duty, if_neg h.busy, hawaiting]
  exact if_pos hlate

/-! ## What is written of one slot -/

namespace Entry

/-- A unit was given to the device in the connection's turn, and could not be written. -/
def Failed (e : Entry) : Prop := ∃ reason unit, e.moment.happening = .sent reason unit false

/-- A unit of the module was taken up. -/
def TakesUp (e : Entry) : Prop := ∃ t, e.moment.happening = .taken t

end Entry

theorem momentsOf_filter (slot : Nat) (tcid : UInt8) (es : List Entry) :
    momentsOf slot tcid (es.filter fun e => e.slot == slot) = momentsOf slot tcid es := by
  rw [momentsOf, momentsOf, List.filterMap_filter]
  congr 1
  funext e
  by_cases h : e.slot = slot <;> simp [h]

theorem mem_of_mem_momentsOf {slot : Nat} {tcid : UInt8} {m : Moment} {es : List Entry}
    (h : m ∈ momentsOf slot tcid es) : ∃ e ∈ es, e.slot = slot ∧ e.tcid = tcid ∧ e.moment = m := by
  obtain ⟨e, he, hm⟩ := List.mem_filterMap.mp h
  split at hm
  · next hof => exact ⟨e, he, hof.1, hof.2, Option.some.inj hm⟩
  · cases hm

/-- Nothing of the kind happens to the connection. -/
theorem momentsOf_eq_nil_of {slot : Nat} {tcid : UInt8} {es : List Entry}
    (h : ∀ e ∈ es, e.slot = slot → e.tcid ≠ tcid) : momentsOf slot tcid es = [] :=
  List.eq_nil_iff_forall_not_mem.mpr fun _ hm => by
    obtain ⟨e, he, hslot, htcid, -⟩ := mem_of_mem_momentsOf hm
    exact h e he hslot htcid

/-- A slot that begins a connection stays what it is. -/
theorem Slot.fixed_of_begin? {s s' : Slot} {tcid : UInt8} (h : s.begin? = some (tcid, s')) :
    (s'.state, s'.config) = (s.state, s.config) := by
  rw [begin?] at h
  split at h
  · cases h
  · obtain ⟨c, -, he⟩ := Option.map_eq_some_iff.mp h
    obtain ⟨-, rfl⟩ := Prod.mk.inj he
    rfl

namespace SlotRun

variable (link : Link ω) (id now : Nat)

/-! ## Receiving -/

theorem answerRequest_config (tcid : UInt8) (r : SlotRun ω) :
    (r.answerRequest link tcid).1.slot.config = r.slot.config := by
  rw [answerRequest]
  split
  · next new slot hbegin =>
    rw [write_slot]
    exact congrArg Prod.snd (Slot.fixed_of_begin? hbegin)
  · rw [write_slot]

theorem handle_config (t : Tpdu) (r : SlotRun ω) :
    (r.handle link id t).1.slot.config = r.slot.config := by
  rw [handle]
  split
  · rfl
  · dsimp only
    split
    · rw [answerDelete]
      split <;> next hwrite =>
        have hslot := congrArg (fun p => p.1.slot) hwrite
        rw [write_slot] at hslot
        first
          | rw [report_slot, ← hslot]; rfl
          | rw [← hslot]; rfl
    · exact answerRequest_config link _ _
    · rw [report_slot]
      rfl

theorem handleAll_config (ts : List Tpdu) (r : SlotRun ω) (error : Option CiError) :
    (handleAll link id ts r error).1.slot.config = r.slot.config := by
  induction ts generalizing r error with
  | nil => rfl
  | cons t ts ih =>
    rw [handleAll]
    exact (ih ..).trans (handle_config link id t r)

theorem receiveWithin_config (fuel : Nat) (r : SlotRun ω) (error : Option CiError) :
    (receiveWithin link id fuel r error).1.slot.config = r.slot.config := by
  induction fuel generalizing r error with
  | zero => rfl
  | succ fuel ih =>
    rw [receiveWithin]
    split
    · rfl
    · rfl
    · dsimp only
      split
      · rfl
      · split
        · rfl
        · exact (ih ..).trans (handleAll_config link id _ _ _)

/-- What is taken up is written as such, and a connection may be begun for it. -/
theorem takes_kinds {t : Tpdu} {r : SlotRun ω} {e : Entry} (h : e ∈ takes link id t r) :
    e.TakesUp ∨ e.moment.happening = .begun := by
  rw [takes] at h
  split at h
  · cases h
  · dsimp only at h
    split at h
    · split at h <;> exact .inl ⟨t, by rw [List.mem_singleton.mp h]⟩
    · rcases List.mem_cons.mp h with rfl | h
      · exact .inl ⟨t, rfl⟩
      · rw [Slot.begins] at h
        split at h
        · cases h
        · exact .inr (by rw [List.mem_singleton.mp h])
    · exact .inl ⟨t, by rw [List.mem_singleton.mp h]⟩

/-- Receiving leaves a busy connection as it is if it takes up no unit. -/
theorem receive_quiet {tcid : UInt8} {c : Connection} {r : SlotRun ω} (hr : r.slot.Fits)
    (hc : r.slot.connection? tcid = some c) (busy : c.state ≠ .idle)
    (silent : ∀ e ∈ takesAll link (r.meetings link id), e.tcid = tcid → ¬e.TakesUp) :
    momentsOf id tcid (takesAll link (r.meetings link id)) = [] ∧
      (r.receive link id).1.slot.connection? tcid = some c := by
  have hrecords := receive_records link id hr
  have hlife := hrecords.lives tcid
  rw [Slot.connectionD_of_some hc] at hlife
  have hnil : momentsOf id tcid (takesAll link (r.meetings link id)) = [] := by
    cases hms : momentsOf id tcid (takesAll link (r.meetings link id)) with
    | nil => rfl
    | cons m ms =>
      -- The first moment of a busy connection would be a beginning, which only idle ones have.
      rw [hms] at hlife
      obtain ⟨e, he, -, htcid, hm⟩ :=
        mem_of_mem_momentsOf (hms ▸ List.mem_cons_self .. : m ∈ momentsOf id tcid _)
      obtain ⟨meeting, -, he'⟩ := List.mem_flatMap.mp he
      have hbegun := (takes_kinds link _ he').resolve_left (silent e he htcid)
      obtain ⟨happening, notice, after⟩ := m
      rw [hm] at hbegun
      obtain rfl : happening = .begun := hbegun
      cases hlife with
      | cons step rest =>
        cases step with
        | begun idle => exact absurd idle busy
  refine ⟨hnil, ?_⟩
  rw [hnil] at hlife
  have hsame : (r.receive link id).1.slot.connectionD tcid = c := hlife.eq_afterAll
  have hlength := hrecords.length_eq
  obtain ⟨h0, hget⟩ := Slot.connection?_eq_some.mp hc
  obtain ⟨hlt, -⟩ := List.getElem?_eq_some_iff.mp hget
  have hsome : (r.receive link id).1.slot.connection? tcid =
      some (r.receive link id).1.slot.connections[tcid.toNat - 1] :=
    Slot.connection?_eq_some.mpr ⟨h0, List.getElem?_eq_getElem (hlength ▸ hlt)⟩
  rw [hsome, ← hsame, Slot.connectionD_of_some hsome]

/-! ## Turns -/

theorem toNat_succ {tcid : UInt8} {count : Nat} (h : tcid.toNat + (count + 2) ≤ 256) :
    (tcid + 1).toNat = tcid.toNat + 1 := by
  rw [UInt8.toNat_add]
  exact Nat.mod_eq_of_lt (by change tcid.toNat + 1 < 256; omega)

/-- Turns are had in the order of the connections. -/
theorem le_of_mem_turnsFrom {count : Nat} {tcid : UInt8} {r : SlotRun ω} {e : Entry}
    (hcount : tcid.toNat + count ≤ 256) (h : e ∈ turnsFrom link id now count tcid r) :
    tcid.toNat ≤ e.tcid.toNat := by
  induction count generalizing tcid r with
  | zero => cases h
  | succ count ih =>
    have hlater : ∀ {r : SlotRun ω}, e ∈ turnsFrom link id now count (tcid + 1) r →
        tcid.toNat ≤ e.tcid.toNat := by
      intro r he
      cases count with
      | zero => cases he
      | succ count =>
        have hnext := toNat_succ hcount
        have hle := ih (by rw [hnext]; omega) he
        omega
    rw [turnsFrom] at h
    split at h
    · cases h
    · split at h
      · exact hlater h
      · rcases List.mem_cons.mp h with rfl | h
        · exact Nat.le_refl _
        · exact hlater h
      · split at h
        · obtain rfl := List.mem_singleton.mp h
          exact Nat.le_refl _
        · rcases List.mem_cons.mp h with rfl | h
          · exact Nat.le_refl _
          · exact hlater h

/-- What is written of turns, one of which is that of connection `tcid`: it times out, unless a unit
of a connection before it could not be written. -/
def Settles (tcid : UInt8) (c : Connection) (es : List Entry) : Prop :=
  ((∃ e ∈ es, e.tcid < tcid ∧ e.Failed) ∧ momentsOf id tcid es = []) ∨
    ((∀ e ∈ es, e.tcid < tcid → ¬e.Failed) ∧
      momentsOf id tcid es = [⟨.timedOut, c.farewell, .idle⟩])

variable {id} in
/-- The turn of another connection, with no failure. -/
theorem Settles.cons {first tcid : UInt8} {c : Connection} {m : Moment} {es : List Entry}
    (hne : first ≠ tcid) (hm : ¬(Entry.mk id first m).Failed) (h : Settles id tcid c es) :
    Settles id tcid c (⟨id, first, m⟩ :: es) := by
  rw [Settles, ← List.singleton_append, momentsOf_append, momentsOf_singleton, if_neg hne,
    List.nil_append]
  rcases h with ⟨⟨e, he, hfailed⟩, hnil⟩ | ⟨hnone, hout⟩
  · exact .inl ⟨⟨e, List.mem_cons_of_mem _ he, hfailed⟩, hnil⟩
  · refine .inr ⟨fun e he hlt => ?_, hout⟩
    rcases List.mem_cons.mp he with rfl | he
    · exact hm
    · exact hnone e he hlt

/-- A connection whose response is overdue times out in its turn, if its turn comes. -/
theorem turnsFrom_overdue {tcid first : UInt8} {c : Connection} {count : Nat} {r : SlotRun ω}
    (hc : r.slot.connection? tcid = some c) (overdue : c.Overdue r.slot.config now)
    (hfirst : first.toNat ≤ tcid.toNat) (hlast : tcid.toNat < first.toNat + count)
    (hpos : first ≠ 0) (hcount : first.toNat + count ≤ 256) :
    Settles id tcid c (turnsFrom link id now count first r) := by
  induction count generalizing first r with
  | zero => omega
  | succ count ih =>
    rw [turnsFrom]
    by_cases heq : first = tcid
    · -- Its turn has come: it times out, and what follows is of connections behind it.
      subst heq
      rw [hc]
      dsimp only
      rw [overdue.duty_eq]
      have hlater : ∀ e ∈ turnsFrom link id now count (first + 1)
          ((r.put first .idle).report id first c.farewell), first.toNat < e.tcid.toNat := by
        intro e he
        cases count with
        | zero => cases he
        | succ count =>
          have hnext := toNat_succ hcount
          have hle := le_of_mem_turnsFrom link id now (by rw [hnext]; omega) he
          omega
      have hnil : momentsOf id first (turnsFrom link id now count (first + 1)
          ((r.put first .idle).report id first c.farewell)) = [] :=
        momentsOf_eq_nil_of fun e he _ h =>
          absurd (hlater e he) (by rw [h]; exact Nat.lt_irrefl _)
      refine .inr ⟨fun e he hlt => ?_, ?_⟩
      · rcases List.mem_cons.mp he with rfl | he
        · exact absurd hlt (Nat.lt_irrefl _)
        · exact absurd hlt (Nat.not_lt.mpr (Nat.le_of_lt (hlater e he)))
      · rw [← List.singleton_append, momentsOf_append, hnil, momentsOf_singleton, if_pos rfl]
        rfl
    · have hlt : first.toNat < tcid.toNat :=
        Nat.lt_of_le_of_ne hfirst fun h => heq (UInt8.toNat_inj.mp h)
      obtain ⟨count, rfl⟩ : ∃ n, count = n + 1 := ⟨count - 1, by omega⟩
      have hnext := toNat_succ hcount
      have hpos' : first + 1 ≠ 0 := fun h => by
        have h0 := congrArg UInt8.toNat h
        rw [hnext] at h0
        exact absurd h0 (Nat.succ_ne_zero _)
      have hrest : ∀ {r' : SlotRun ω}, r'.slot.connection? tcid = some c →
          r'.slot.config = r.slot.config →
          Settles id tcid c (turnsFrom link id now (count + 1) (first + 1) r') :=
        fun hc' hconfig =>
        ih hc' (hconfig ▸ overdue) (by omega) (by omega) hpos' (by omega)
      cases hfound : r.slot.connection? first with
      | none =>
        -- There is no gap before a connection.
        obtain ⟨-, hget⟩ := Slot.connection?_eq_some.mp hc
        obtain ⟨hbound, -⟩ := List.getElem?_eq_some_iff.mp hget
        rw [Slot.connection?, if_neg hpos, List.getElem?_eq_none_iff] at hfound
        omega
      | some d =>
        have hput : ∀ d', (r.slot.put first d').connection? tcid = some c := fun d' => by
          rw [Slot.connection?_put hfound, if_neg (Ne.symm heq), hc]
        dsimp only
        cases d.duty r.slot.config first now with
        | nothing => exact hrest hc rfl
        | timedOut =>
          refine .cons heq (by rintro ⟨_, _, h⟩; cases h) (hrest ?_ ?_)
          · rw [report_slot]
            exact hput _
          · rw [report_slot]
            rfl
        | send unit left =>
          have hslot := write_slot link first unit (r.put first left)
          dsimp only
          generalize (r.put first left).write link first unit = written at hslot ⊢
          obtain ⟨w, _ | e⟩ := written
          · have hw : w.slot = r.slot.put first left := hslot
            refine .cons heq (by rintro ⟨_, _, h⟩; cases h) (hrest ?_ ?_)
            · change (w.slot.put first _).connection? tcid = _
              rw [hw, Slot.put_put]
              exact hput _
            · change (w.slot.put first _).config = _
              rw [hw]
              rfl
          · refine .inl ⟨⟨_, List.mem_singleton_self _, hlt, _, _, rfl⟩, ?_⟩
            rw [momentsOf_singleton, if_neg heq]

/-! ## A poll of a slot -/

/-- A poll of a slot that is ready begins with receiving once its device has said that a module is
there. -/
theorem polls_of_ready {r : SlotRun ω} {status : ModuleState} {world : ω}
    (ready : r.slot.state = .ready) (present : status ≠ .missing)
    (hstatus : link.status r.slot.device r.slot.number r.world = (.ok status, world)) :
    r.polls link id now = { r with world := world }.exchanges link id now := by
  rw [polls, hstatus]
  dsimp only
  rw [ready]
  cases status with
  | missing => exact absurd rfl present
  | initialising | ready => rfl

/-- In a poll that takes up no unit of it, a connection whose response is overdue times out if
nothing fails before. -/
theorem exchanges_overdue {tcid : UInt8} {c : Connection} {r : SlotRun ω} (hr : r.slot.Fits)
    (hc : r.slot.connection? tcid = some c) (overdue : c.Overdue r.slot.config now)
    (silent : ∀ e ∈ r.exchanges link id now, e.tcid = tcid → ¬e.TakesUp) :
    ((r.receive link id).2 ≠ none ∧ momentsOf id tcid (r.exchanges link id now) = []) ∨
      ((r.receive link id).2 = none ∧ Settles id tcid c (r.exchanges link id now)) := by
  obtain ⟨hnil, hkept⟩ := receive_quiet link id hr hc overdue.busy fun e he =>
    silent e (List.mem_append_left _ he)
  have hconfig : (r.receive link id).1.slot.config = r.slot.config := receiveWithin_config ..
  have hlength := (receive_records link id hr).length_eq
  have hkinds : ∀ e ∈ takesAll link (r.meetings link id), ¬e.Failed := by
    rintro e he ⟨reason, unit, hfailed⟩
    obtain ⟨meeting, -, he⟩ := List.mem_flatMap.mp he
    rcases takes_kinds link _ he with ⟨t, htaken⟩ | hbegun
    · rw [htaken] at hfailed
      cases hfailed
    · rw [hbegun] at hfailed
      cases hfailed
  rw [exchanges]
  generalize r.receive link id = received at hkept hconfig hlength ⊢
  obtain ⟨r', _ | e⟩ := received
  · refine .inr ⟨rfl, ?_⟩
    dsimp only at hkept hconfig hlength
    obtain ⟨h0, hget⟩ := Slot.connection?_eq_some.mp hkept
    obtain ⟨hlt, -⟩ := List.getElem?_eq_some_iff.mp hget
    have hpos := Slot.toNat_pos h0
    have hfits : r'.slot.connections.length < 256 := hlength ▸ hr
    have hturns : Settles id tcid c (turnsFrom link id now r'.slot.connections.length 1 r') :=
      turnsFrom_overdue link id now hkept (hconfig ▸ overdue) (by change 1 ≤ _; omega)
        (by change _ < 1 + _; omega) (by decide) (by change 1 + _ ≤ _; omega)
    rw [Settles, momentsOf_append, hnil, List.nil_append]
    rcases hturns with ⟨⟨e, he, hfailed⟩, hout⟩ | ⟨hnone, hout⟩
    · exact .inl ⟨⟨e, List.mem_append_right _ he, hfailed⟩, hout⟩
    · refine .inr ⟨fun e he hlt => ?_, hout⟩
      rcases List.mem_append.mp he with he | he
      · exact hkinds e he
      · exact hnone e he hlt
  · have hfailed : some e ≠ none := Option.some_ne_none e
    refine .inl ⟨hfailed, ?_⟩
    rw [List.append_nil]
    exact hnil

end SlotRun

/-! ## A poll of the layer -/

namespace TransportLayer

/-- What is written of one slot in a sweep over slots is what is written of its own poll. -/
theorem sweeps_filter (link : Link ω) (now base : Nat) {i : Nat} {slots : List (Option Slot)}
    {s : Slot} (sweep : Sweep ω) (hfit : AllFit slots) (hs : slots[i]? = some (some s)) :
    (sweeps link now base slots sweep).filter (fun e => e.slot == base + i) =
      SlotRun.polls link (base + i) now ⟨s, (pollFrom link now base (slots.take i) sweep).2.events,
        (pollFrom link now base (slots.take i) sweep).2.world⟩ := by
  induction slots generalizing base i sweep with
  | nil => cases hs
  | cons slot slots ih =>
    have hrest : AllFit slots := fun s hs => hfit s (List.mem_cons_of_mem _ hs)
    have hlater : ∀ (sweep : Sweep ω), (sweeps link now (base + 1) slots sweep).filter
        (fun e => e.slot == base) = [] := by
      intro sweep
      refine List.filter_eq_nil_iff.mpr fun e he => ?_
      have hle := (pollFrom_records link now (base + 1) sweep hrest).here e he
      rw [beq_iff_eq]
      omega
    cases slot with
    | none =>
      cases i with
      | zero => cases hs
      | succ i =>
        rw [sweeps, show base + (i + 1) = base + 1 + i by omega]
        exact ih (base + 1) sweep hrest hs
    | some slot =>
      have hpoll := SlotRun.poll_records link base now (r := ⟨slot, sweep.events, sweep.world⟩)
        (hfit slot (List.mem_cons_self ..))
      rw [sweeps, List.filter_append]
      cases i with
      | zero =>
        obtain rfl := Option.some.inj (Option.some.inj hs)
        rw [Nat.add_zero, hlater, List.append_nil]
        exact List.filter_eq_self.mpr fun e he => beq_iff_eq.mpr (hpoll.here e he)
      | succ i =>
        have hnil : (SlotRun.polls link base now ⟨slot, sweep.events, sweep.world⟩).filter
            (fun e => e.slot == base + (i + 1)) = [] := by
          refine List.filter_eq_nil_iff.mpr fun e he => ?_
          rw [beq_iff_eq, hpoll.here e he]
          omega
        rw [hnil, List.nil_append, show base + (i + 1) = base + 1 + i by omega]
        exact ih (base + 1) _ hrest hs

/-! ## What is still to be told -/

/-- What is still to be told is of slots that were given up, and no poll has found a module in them
since. -/
def TellsOfGone (l : TransportLayer) : Prop :=
  ∀ e ∈ l.events.toList, ∀ s, l.slot? e.slot = some s → s.state = .empty

variable {l l' : TransportLayer} {slot : Nat}

theorem slot?_putSlot {i j : Nat} (s : Option Slot) (h : i < l.slots.length) :
    (l.putSlot i s).slot? j = if i = j then s else l.slot? j := by
  rw [slot?, putSlot, List.getElem?_set]
  by_cases hij : i = j
  · rw [if_pos hij, if_pos hij, if_pos h]
    rfl
  · rw [if_neg hij, if_neg hij]
    rfl

/-- A slot is changed, but not in what its device says. -/
theorem TellsOfGone.putSlot {s s' : Slot} (h : l.TellsOfGone) (hs : l.slot? slot = some s)
    (hstate : s'.state = s.state) : (l.putSlot slot (some s')).TellsOfGone := by
  obtain ⟨hlt, -⟩ := List.getElem?_eq_some_iff.mp (getElem?_of_slot? hs)
  intro e he found hfound
  rw [slot?_putSlot _ hlt] at hfound
  split at hfound
  · next heq =>
    obtain rfl := Option.some.inj hfound
    exact hstate.trans (h e he s (heq ▸ hs))
  · exact h e he found hfound

theorem TellsOfGone.update {tcid : UInt8} {f : SlotConfig → Connection → Except CiError Connection}
    (h : l.TellsOfGone) (hl : l.update slot tcid f = .ok l') : l'.TellsOfGone := by
  obtain ⟨s, c, c', hs, -, -, rfl⟩ := update_ok hl
  exact h.putSlot hs rfl

theorem TellsOfGone.register {device i : Nat} {number : UInt8} {config : SlotConfig}
    (h : l.TellsOfGone) (hl : l.register device number config = .ok (i, l')) : l'.TellsOfGone := by
  rw [TransportLayer.register] at hl
  split at hl
  · cases hl
  · next j hj =>
    obtain ⟨rfl, rfl⟩ := Prod.mk.inj (Except.ok.inj hl)
    obtain ⟨hlt, -⟩ := List.findIdx?_eq_some_iff_getElem.mp hj
    intro e he found hfound
    rw [slot?_putSlot _ hlt] at hfound
    split at hfound
    · obtain rfl := Option.some.inj hfound
      rfl
    · exact h e he found hfound

theorem TellsOfGone.destroySlot (h : l.TellsOfGone) (hl : l.destroySlot slot = .ok l') :
    l'.TellsOfGone := by
  rw [TransportLayer.destroySlot] at hl
  split at hl
  · cases hl
  · next s hs =>
    obtain rfl := Except.ok.inj hl
    obtain ⟨hlt, -⟩ := List.getElem?_eq_some_iff.mp (getElem?_of_slot? hs)
    intro e he found hfound
    have hput : (l.putSlot slot none).slot? e.slot = some found := hfound
    rw [slot?_putSlot _ hlt] at hput
    split at hput
    · cases hput
    · next hne =>
      have hmem : e ∈ (l.events.append (s.closing slot)).toList := he
      rw [Queue.toList_append] at hmem
      rcases List.mem_append.mp hmem with hmem | hmem
      · exact h e hmem found hput
      · exact absurd (Slot.slot_of_mem_closing hmem).symm hne

theorem TellsOfGone.newConnection {tcid : UInt8} (h : l.TellsOfGone)
    (hl : l.newConnection slot = .ok (tcid, l')) : l'.TellsOfGone := by
  rw [TransportLayer.newConnection] at hl
  split at hl
  · cases hl
  · next s hs =>
    split at hl
    · cases hl
    · split at hl
      · cases hl
      · next hbegin =>
        obtain ⟨-, rfl⟩ := Prod.mk.inj (Except.ok.inj hl)
        exact h.putSlot hs (congrArg Prod.fst (Slot.fixed_of_begin? hbegin))

end TransportLayer

namespace TransportRun

open TransportLayer

theorem tellsOfGone_perform (link : Link ω) {r : TransportRun ω} (h : r.layer.TellsOfGone)
    (request : Request) : (r.perform link request).layer.TellsOfGone := by
  have hsettle : ∀ {α : Type} (outcome : Except CiError α) (layer : α → TransportLayer),
      (∀ a, outcome = .ok a → (layer a).TellsOfGone) →
        (r.settle outcome layer).layer.TellsOfGone := by
    intro α outcome layer hok
    cases outcome with
    | ok a => exact hok a rfl
    | error e => exact h
  cases request with
  | register device number config => exact hsettle _ _ fun a ha => h.register ha
  | destroySlot slot => exact hsettle _ _ fun a ha => h.destroySlot ha
  | newConnection slot => exact hsettle _ _ fun a ha => h.newConnection ha
  | deleteConnection slot tcid => exact hsettle _ _ fun a ha => h.update ha
  | sendData slot tcid data => exact hsettle _ _ fun a ha => h.update ha
  | poll now => exact List.forall_mem_nil _

theorem tellsOfGone_after (link : Link ω) (requests : List Request) {r : TransportRun ω}
    (h : r.layer.TellsOfGone) : (after link requests r).layer.TellsOfGone := by
  induction requests generalizing r with
  | nil => exact h
  | cons request requests ih => exact ih (tellsOfGone_perform link h request)

/-! ## The condition -/

/-- What a poll at `now` hands on to the slot in place `id`. -/
def handedTo (link : Link ω) (now : Nat) (r : TransportRun ω) (id : Nat) : Sweep ω :=
  (pollFrom link now 0 (r.layer.slots.take id) ⟨r.layer.events, r.world, r.layer.lastError⟩).2

/-- A poll at `now` comes to the slot `s` in place `id`, which is ready, and its device says that a
module is there. `run` is the slot at work from then on. -/
structure Attended (link : Link ω) (now : Nat) (r : TransportRun ω) (id : Nat) (s : Slot)
    (run : SlotRun ω) : Prop where
  registered : r.layer.slot? id = some s
  ready : s.state = .ready
  present : ∃ status world, status ≠ .missing ∧
    link.status s.device s.number (r.handedTo link now id).world = (.ok status, world) ∧
    run = ⟨s, (r.handedTo link now id).events, world⟩

/-- The receiving half of the poll has an error, or a connection that has its turn before `tcid`
gives the device a unit that cannot be written. -/
def Hindered (link : Link ω) (now : Nat) (r : TransportRun ω) (id : Nat) (tcid : UInt8)
    (run : SlotRun ω) : Prop :=
  (run.receive link id).2 ≠ none ∨
    ∃ e ∈ r.happens link (.poll now), e.slot = id ∧ e.tcid < tcid ∧ e.Failed

/-- After the poll the connection is idle, and all that the poll tells of it is its end if it was
open. -/
def TimesOut (link : Link ω) (now : Nat) (r : TransportRun ω) (id : Nat) (tcid : UInt8)
    (c : Connection) : Prop :=
  connectionAt (r.layer.poll link now r.world).1.slots id tcid = .idle ∧
    noticesOf id tcid (r.layer.poll link now r.world).2.1 = c.farewell.toList

/-- After the poll the connection is as it was, and the poll tells nothing of it. -/
def WaitsOn (link : Link ω) (now : Nat) (r : TransportRun ω) (id : Nat) (tcid : UInt8)
    (c : Connection) : Prop :=
  connectionAt (r.layer.poll link now r.world).1.slots id tcid = c ∧
    noticesOf id tcid (r.layer.poll link now r.world).2.1 = []

section

variable {link : Link ω} {now id : Nat} {r : TransportRun ω} {es : List Entry} {s : Slot}
  {run : SlotRun ω} {tcid : UInt8} {c : Connection}

variable (link now) in
/-- What a poll makes of a connection of a slot that is ready, and what it tells of it, are what is
written of the connection. -/
theorem Recorded.of_poll (h : Recorded r es) (hgone : r.layer.TellsOfGone)
    (registered : r.layer.slot? id = some s) (ready : s.state = .ready)
    (hc : s.connection? tcid = some c) :
    Life tcid c (momentsOf id tcid (r.happens link (.poll now)))
        (connectionAt (r.layer.poll link now r.world).1.slots id tcid) ∧
      noticesOf id tcid (r.layer.poll link now r.world).2.1 =
        noticesIn (momentsOf id tcid (r.happens link (.poll now))) := by
  have hsweep := pollFrom_records link now 0 ⟨r.layer.events, r.world, r.layer.lastError⟩ h.fit
  obtain ⟨told, htold, -, hnotices⟩ := hsweep.tells
  have hnotice := hnotices id tcid
  have hlife := hsweep.lives id tcid
  rw [Nat.zero_add] at hnotice hlife
  rw [connectionAt_of_slot? registered, Slot.connectionD_of_some hc] at hlife
  have hpending : noticesOf id tcid r.layer.events.toList = [] :=
    noticesOf_eq_nil tcid fun e he heq => by
      have hempty := hgone e he s (heq ▸ registered)
      rw [ready] at hempty
      cases hempty
  refine ⟨hlife, ?_⟩
  change noticesOf id tcid (pollFrom link now 0 r.layer.slots
    ⟨r.layer.events, r.world, r.layer.lastError⟩).2.events.toList = _
  rw [htold, noticesOf_append, hpending, hnotice, List.nil_append]
  rfl

/-- What is written of a slot in the poll is what is written of its exchange with the module. -/
theorem Attended.exchanges_eq (h : Attended link now r id s run) (hfit : AllFit r.layer.slots) :
    (r.happens link (.poll now)).filter (fun e => e.slot == id) = run.exchanges link id now := by
  obtain ⟨status, world, present, hstatus, rfl⟩ := h.present
  have hslot := sweeps_filter link now 0 ⟨r.layer.events, r.world, r.layer.lastError⟩ hfit
    (getElem?_of_slot? h.registered)
  rw [Nat.zero_add, SlotRun.polls_of_ready link id now h.ready present hstatus] at hslot
  exact hslot

theorem Attended.mem_exchanges (h : Attended link now r id s run) (hfit : AllFit r.layer.slots)
    {e : Entry} : e ∈ run.exchanges link id now ↔ e ∈ r.happens link (.poll now) ∧ e.slot = id := by
  rw [← h.exchanges_eq hfit, List.mem_filter, beq_iff_eq]

theorem Attended.slot_eq (h : Attended link now r id s run) : run.slot = s := by
  obtain ⟨_, _, _, _, rfl⟩ := h.present
  rfl

/-- A connection whose response is overdue in a poll that takes up no unit of it. -/
theorem Recorded.timesOut_iff (h : Recorded r es) (hgone : r.layer.TellsOfGone)
    (attended : Attended link now r id s run) (hc : s.connection? tcid = some c)
    (overdue : c.Overdue s.config now)
    (silent : ∀ e ∈ r.happens link (.poll now), e.slot = id → e.tcid = tcid → ¬e.TakesUp) :
    (TimesOut link now r id tcid c ↔ ¬Hindered link now r id tcid run) ∧
      (Hindered link now r id tcid run → WaitsOn link now r id tcid c) := by
  obtain ⟨hlife, htells⟩ := h.of_poll link now hgone attended.registered attended.ready
    hc
  have hmem := fun e => attended.mem_exchanges h.fit (e := e)
  have hmoments : momentsOf id tcid (run.exchanges link id now) =
      momentsOf id tcid (r.happens link (.poll now)) := by
    rw [← attended.exchanges_eq h.fit, momentsOf_filter]
  rw [← hmoments] at hlife htells
  have hwaits : momentsOf id tcid (run.exchanges link id now) = [] →
      WaitsOn link now r id tcid c ∧ ¬TimesOut link now r id tcid c := by
    intro hnil
    rw [hnil] at hlife htells
    have hsame := hlife.eq_afterAll
    refine ⟨⟨hsame, htells⟩, fun hout => overdue.busy ?_⟩
    rw [show c = .idle from hsame.symm.trans hout.1]
    rfl
  have hout : momentsOf id tcid (run.exchanges link id now) = [⟨.timedOut, c.farewell, .idle⟩] →
      TimesOut link now r id tcid c := by
    intro hone
    rw [hone] at hlife htells
    refine ⟨hlife.eq_afterAll, htells.trans ?_⟩
    cases c.farewell <;> rfl
  have hslot := attended.slot_eq
  rcases SlotRun.exchanges_overdue link id now (hslot ▸ fits_of_slot? h.fit attended.registered)
    (hslot ▸ hc) (hslot ▸ overdue) fun e he => silent e ((hmem e).mp he).1 ((hmem e).mp he).2 with
    ⟨hfailed, hnil⟩ | ⟨hreceived, ⟨⟨e, he, hlt, hfailed⟩, hnil⟩ | ⟨hnone, hone⟩⟩
  · obtain ⟨hon, hnot⟩ := hwaits hnil
    exact ⟨iff_of_false hnot fun h => h (.inl hfailed), fun _ => hon⟩
  · obtain ⟨hon, hnot⟩ := hwaits hnil
    have hhindered : Hindered link now r id tcid run :=
      .inr ⟨e, ((hmem e).mp he).1, ((hmem e).mp he).2, hlt, hfailed⟩
    exact ⟨iff_of_false hnot fun h => h hhindered, fun _ => hon⟩
  · have hfree : ¬Hindered link now r id tcid run := by
      rintro (hfailed | ⟨e, he, hid, hlt, hfailed⟩)
      · exact hfailed hreceived
      · exact hnone e ((hmem e).mpr ⟨he, hid⟩) hlt hfailed
    exact ⟨iff_of_true (hout hone) hfree, fun h => absurd h hfree⟩

end

/-- In any run, a poll of a slot with a module that takes up no unit of a connection whose response
is overdue ends it, and tells its end once if it was open, if and only if the poll is not hindered.
If it is, the connection waits on. -/
theorem overdue_timesOut_iff {link : Link ω} {maxSlots maxConnections now id sent : Nat} {world : ω}
    {requests : List Request} {s : Slot} {run : SlotRun ω} {tcid : UInt8} {c : Connection}
    (attended : Attended link now
      (after link requests (start maxSlots maxConnections world)) id s run)
    (hc : s.connection? tcid = some c) (awaiting : c.awaiting = some sent)
    (late : s.config.responseTimeout ≤ now - sent)
    (silent : ∀ e ∈ (after link requests (start maxSlots maxConnections world)).happens link
      (.poll now), e.slot = id → e.tcid = tcid → ¬e.TakesUp) :
    (TimesOut link now (after link requests (start maxSlots maxConnections world)) id tcid c ↔
      ¬Hindered link now (after link requests (start maxSlots maxConnections world)) id tcid run) ∧
    (Hindered link now (after link requests (start maxSlots maxConnections world)) id tcid run →
      WaitsOn link now (after link requests (start maxSlots maxConnections world)) id tcid c) := by
  have hrecorded := recorded_history link maxSlots maxConnections world requests
  have hgone := tellsOfGone_after link requests (r := start maxSlots maxConnections world)
    (List.forall_mem_nil _)
  have hlife := hrecorded.lives id tcid
  rw [connectionAt_of_slot? attended.registered, Slot.connectionD_of_some hc] at hlife
  have overdue : c.Overdue s.config now := by
    refine ⟨fun idle => ?_, sent, awaiting, late⟩
    rw [hlife.awaiting_of_idle idle] at awaiting
    cases awaiting
  exact hrecorded.timesOut_iff hgone attended hc overdue silent

/-! ## A module that does not answer -/

/-- A connection that has asked the module for data at 200. -/
def askedConnection : Connection := ⟨.active, .empty, [], false, some 200, false, some 200⟩

def askedSlot : Slot := ⟨0, 0, .ready, .standard, [askedConnection]⟩

/-- A run of one slot with one connection: its module agrees to the connection and is asked for data.
`rest` is what the module sends afterwards, at each poll. -/
def askedRun (rest : List (Option Bytes)) : TransportRun (List (Option Bytes)) :=
  after (refusing fun _ => false) [.register 0 0 .standard, .poll 0, .poll 1, .poll 2, .poll 200]
    (start 1 1 ([none, some (control .createTcReply 1 none), none] ++ rest))

theorem askedRun_attended (rest : List (Option Bytes)) :
    Attended (refusing fun _ => false) 1300 (askedRun rest) 0 askedSlot
      ⟨askedSlot, .empty, rest⟩ :=
  ⟨rfl, rfl, .ready, rest, nofun, rfl, rfl⟩

/-- A module that is silent is given up. -/
theorem overdue_timesOut_iff_silent :
    Attended (refusing fun _ => false) 1300 (askedRun []) 0 askedSlot ⟨askedSlot, .empty, []⟩ ∧
    askedSlot.connection? 1 = some askedConnection ∧ askedConnection.awaiting = some 200 ∧
    askedSlot.config.responseTimeout ≤ 1300 - 200 ∧
    (∀ e ∈ (askedRun []).happens (refusing fun _ => false) (.poll 1300),
      e.slot = 0 → e.tcid = 1 → ¬e.TakesUp) ∧
    ¬Hindered (refusing fun _ => false) 1300 (askedRun []) 0 1 ⟨askedSlot, .empty, []⟩ ∧
    TimesOut (refusing fun _ => false) 1300 (askedRun []) 0 1 askedConnection := by
  have happens : (askedRun []).happens (refusing fun _ => false) (.poll 1300) =
      [⟨0, 1, .timedOut, some .closed, .idle⟩] := rfl
  have silent : ∀ e ∈ (askedRun []).happens (refusing fun _ => false) (.poll 1300),
      e.slot = 0 → e.tcid = 1 → ¬e.TakesUp := by
    rw [happens]
    rintro e he - - ⟨t, ht⟩
    rw [List.mem_singleton.mp he] at ht
    cases ht
  have free : ¬Hindered (refusing fun _ => false) 1300 (askedRun []) 0 1
      ⟨askedSlot, .empty, []⟩ := by
    rintro (hreceived | ⟨e, he, -, -, reason, unit, hfailed⟩)
    · exact hreceived rfl
    · rw [happens] at he
      rw [List.mem_singleton.mp he] at hfailed
      cases hfailed
  have connected : askedSlot.connection? 1 = some askedConnection := rfl
  have awaiting : askedConnection.awaiting = some 200 := rfl
  have hiff := overdue_timesOut_iff (askedRun_attended []) connected awaiting (by decide) silent
  exact ⟨askedRun_attended [], connected, awaiting, by decide, silent, free, hiff.1.mpr free⟩

/-- A status of a connection that the slot does not have. -/
def strayUnit : Bytes := control .sb 2 (some 0)

/-- At 1300 the response is overdue and no unit of the connection comes, but the unit that does come
keeps the poll from giving the connection its turn. -/
theorem overdue_unattended :
    Attended (refusing fun _ => false) 1300 (askedRun [some strayUnit]) 0 askedSlot
      ⟨askedSlot, .empty, [some strayUnit]⟩ ∧
    askedSlot.connection? 1 = some askedConnection ∧ askedConnection.awaiting = some 200 ∧
    askedSlot.config.responseTimeout ≤ 1300 - 200 ∧
    (∀ e ∈ (askedRun [some strayUnit]).happens (refusing fun _ => false) (.poll 1300),
      e.slot = 0 → e.tcid = 1 → ¬e.TakesUp) ∧
    ¬TimesOut (refusing fun _ => false) 1300 (askedRun [some strayUnit]) 0 1 askedConnection := by
  refine ⟨askedRun_attended _, rfl, rfl, by decide, ?_, ?_⟩
  · have happens : (askedRun [some strayUnit]).happens (refusing fun _ => false) (.poll 1300) = [] :=
      rfl
    rw [happens]
    exact List.forall_mem_nil _
  · rintro ⟨hidle, -⟩
    have hstate := congrArg Connection.state hidle
    have hactive : (connectionAt ((askedRun [some strayUnit]).layer.poll (refusing fun _ => false) 1300
        (askedRun [some strayUnit]).world).1.slots 0 1).state = .active := rfl
    rw [hactive] at hstate
    cases hstate

end TransportRun

end DvbHost.Ci
