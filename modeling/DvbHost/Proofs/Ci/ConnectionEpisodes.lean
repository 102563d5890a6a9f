import DvbHost.Proofs.Ci.SlotReports
import DvbHost.Proofs.Outcome

/-!
# The episodes of a connection

What the polls of a transport layer tell of one connection comes in episodes, and one of them goes
on exactly while the connection is open, unless a module has ended an open connection and the reply
could not be written. `told_in_episodes_iff` says that nothing else goes wrong, whatever the devices
do and whatever is asked for, and that after such a loss the reports never fit again.
-/

namespace DvbHost.Ci

set_option autoImplicit false

open Episode TransportEvent

variable {ω : Type}

namespace TransportLayer

/-- Whether the slot at an index has the connection as an open one. -/
def openAt (slots : List (Option Slot)) (i : Nat) (tcid : UInt8) : Bool :=
  slots[i]?.join.any (·.hasOpen tcid)

/-- All slots can name their connections. -/
def AllFit (slots : List (Option Slot)) : Prop := ∀ s, some s ∈ slots → s.Fits

theorem openAt_set (slots : List (Option Slot)) (i j : Nat) (slot : Option Slot) (tcid : UInt8)
    (h : i < slots.length) :
    openAt (slots.set i slot) j tcid =
      if i = j then slot.any (·.hasOpen tcid) else openAt slots j tcid := by
  rw [openAt, List.getElem?_set]
  by_cases hij : i = j
  · rw [if_pos hij, if_pos hij, if_pos h]
    rfl
  · rw [if_neg hij, if_neg hij]
    rfl

theorem AllFit.set {slots : List (Option Slot)} {slot : Option Slot} (i : Nat)
    (h : AllFit slots) (hslot : ∀ s, slot = some s → s.Fits) : AllFit (slots.set i slot) := by
  intro s hs
  rcases List.mem_or_eq_of_mem_set hs with hs | hs
  · exact h s hs
  · exact hslot s hs.symm

/-! ## A sweep over the slots -/

/-- What a sweep over slots does, if the first of them has index `id`. -/
structure Sweeps (link : Link ω) (id : Nat) (slots slots' : List (Option Slot))
    (events events' : List TransportEvent) (ms : List (Meeting ω)) : Prop where
  fit : AllFit slots'
  met : ∀ m ∈ ms, id ≤ m.slot
  tells : ∃ es, events' = events ++ es ∧ (∀ e ∈ es, id ≤ e.slot) ∧
    ∀ i tcid, Keeps (openAt slots i tcid) (noticesOf (id + i) tcid es)
      (Lost link (id + i) tcid ms) (openAt slots' i tcid)

/-- The slots behind the first do not matter to it, nor does the first to them. -/
theorem Sweeps.cons {link : Link ω} {id : Nat} {slot slot' : Option Slot}
    {slots slots' : List (Option Slot)} {events events' : List TransportEvent}
    {ms' : List (Meeting ω)} (es : List TransportEvent) (ms : List (Meeting ω)) (hfit : ∀ s, slot' = some s → s.Fits)
    (hmet : ∀ m ∈ ms, m.slot = id) (hslot : ∀ e ∈ es, e.slot = id)
    (hkeeps : ∀ tcid, Keeps (slot.any (·.hasOpen tcid)) (noticesOf id tcid es)
      (Lost link id tcid ms) (slot'.any (·.hasOpen tcid)))
    (hrest : Sweeps link (id + 1) slots slots' (events ++ es) events' ms') :
    Sweeps link id (slot :: slots) (slot' :: slots') events events' (ms ++ ms') := by
  obtain ⟨es', hes', hslot', hkeeps'⟩ := hrest.tells
  refine ⟨?_, ?_, es ++ es', by rw [hes', List.append_assoc], ?_, ?_⟩
  · intro s hs
    rcases List.mem_cons.mp hs with hs | hs
    · exact hfit s hs.symm
    · exact hrest.fit s hs
  · intro m hm
    rcases List.mem_append.mp hm with hm | hm
    · exact Nat.le_of_eq (hmet m hm).symm
    · exact Nat.le_of_succ_le (hrest.met m hm)
  · intro e he
    rcases List.mem_append.mp he with he | he
    · exact Nat.le_of_eq (hslot e he).symm
    · exact Nat.le_of_succ_le (hslot' e he)
  · rintro (_ | i) tcid
    · have hnotices : noticesOf id tcid es' = [] :=
        noticesOf_eq_nil tcid fun e he => Nat.ne_of_gt (hslot' e he)
      have hlost : ¬ Lost link id tcid ms' := by
        rintro ⟨m, hm, hid, -⟩
        exact Nat.ne_of_gt (hrest.met m hm) hid
      rw [Nat.add_zero, noticesOf_append, hnotices, List.append_nil,
        propext (lost_append link id tcid ms ms'), or_iff_left hlost]
      exact hkeeps tcid
    · have hne : id ≠ id + 1 + i := by omega
      have hnotices : noticesOf (id + 1 + i) tcid es = [] :=
        noticesOf_eq_nil tcid fun e he => by rw [hslot e he]; exact hne
      have hlost : ¬ Lost link (id + 1 + i) tcid ms := by
        rintro ⟨m, hm, hid, -⟩
        exact hne ((hmet m hm).symm.trans hid)
      rw [show id + (i + 1) = id + 1 + i by omega, noticesOf_append, hnotices, List.nil_append,
        propext (lost_append link _ tcid ms ms'), or_iff_right hlost]
      exact hkeeps' i tcid

/-- To poll a slot is to poll it at work. -/
theorem pollSlot_eq (link : Link ω) (now id : Nat) (slot : Slot) (s : Sweep ω) :
    (pollSlot link now id slot s).1 =
        (SlotRun.poll link id now ⟨slot, s.events, s.world⟩).1.slot ∧
      (pollSlot link now id slot s).2.events =
        (SlotRun.poll link id now ⟨slot, s.events, s.world⟩).1.events := by
  rw [pollSlot]
  split <;> next h => rw [h]; exact ⟨rfl, rfl⟩

theorem pollFrom_sweeps (link : Link ω) (now : Nat) (id : Nat) {slots : List (Option Slot)}
    (s : Sweep ω) (hfit : AllFit slots) :
    Sweeps link id slots (pollFrom link now id slots s).1 s.events.toList
      (pollFrom link now id slots s).2.events.toList (meetingsFrom link now id slots s) := by
  induction slots generalizing id s with
  | nil =>
    refine ⟨hfit, nofun, [], (List.append_nil _).symm, nofun, fun i tcid => ?_⟩
    exact .same _ (not_lost_nil link (id + i) tcid)
  | cons slot slots ih =>
    have hrest : AllFit slots := fun s hs => hfit s (List.mem_cons_of_mem _ hs)
    cases slot with
    | none =>
      refine .cons [] [] nofun nofun nofun
        (fun tcid => .same _ (not_lost_nil link id tcid)) ?_
      rw [List.append_nil]
      exact ih (id + 1) s hrest
    | some slot =>
      have hslot : slot.Fits := hfit slot (List.mem_cons_self ..)
      have hpoll := SlotRun.poll_advances link id now (r := ⟨slot, s.events, s.world⟩) hslot
      have hpolled := pollSlot_eq link now id slot s
      obtain ⟨es, hes, hslots, hkeeps⟩ := hpoll.tells
      rw [pollFrom, meetingsFrom]
      refine .cons es _ ?_ hpoll.met hslots ?_ ?_
      · rintro s' hs'
        obtain rfl := Option.some.inj hs'
        rw [hpolled.1]
        exact hpoll.fits hslot
      · intro tcid
        dsimp only [Option.any_some]
        rw [hpolled.1]
        exact hkeeps tcid
      · have hevents : s.events.toList ++ es = (pollSlot link now id slot s).2.events.toList := by
          rw [hpolled.2]
          exact hes.symm
        rw [hevents]
        exact ih (id + 1) _ hrest

/-! ## Requests -/

/-- What a request does that is granted. -/
structure Grants (l l' : TransportLayer) : Prop where
  few : l'.maxConnections = l.maxConnections
  fit : AllFit l'.slots
  tells : ∃ es, l'.events.toList = l.events.toList ++ es ∧
    ∀ slot tcid, Keeps (openAt l.slots slot tcid) (noticesOf slot tcid es) False
      (openAt l'.slots slot tcid)

variable {l l' : TransportLayer} {slot : Nat} {s s' : Slot}

theorem getElem?_of_slot? (h : l.slot? slot = some s) : l.slots[slot]? = some (some s) := by
  rw [slot?] at h
  cases hs : l.slots[slot]? with
  | none => rw [hs] at h; cases h
  | some s' => rw [hs] at h; rw [show s' = some s from h]

theorem fits_of_slot? (hfit : AllFit l.slots) (h : l.slot? slot = some s) : s.Fits :=
  hfit s (List.mem_of_getElem? (getElem?_of_slot? h))

/-- One slot changes and has the same connections open. -/
theorem openAt_putSlot (hs : l.slot? slot = some s)
    (hopen : ∀ tcid, s'.hasOpen tcid = s.hasOpen tcid) (slot' : Nat) (tcid : UInt8) :
    openAt (l.putSlot slot (some s')).slots slot' tcid = openAt l.slots slot' tcid := by
  have hget := getElem?_of_slot? hs
  obtain ⟨hlt, -⟩ := List.getElem?_eq_some_iff.mp hget
  rw [TransportLayer.putSlot, openAt_set _ _ _ _ _ hlt]
  split
  · next h =>
    rw [← h, openAt, hget]
    exact hopen tcid
  · rfl

theorem AllFit.putSlot (hfit : AllFit l.slots) (hs : l.slot? slot = some s)
    (hlength : s'.connections.length = s.connections.length) :
    AllFit (l.putSlot slot (some s')).slots := by
  refine hfit.set slot ?_
  rintro t ht
  obtain rfl := Option.some.inj ht
  rw [Slot.Fits, hlength]
  exact fits_of_slot? hfit hs

theorem Grants.putSlot (hfit : AllFit l.slots) (hs : l.slot? slot = some s)
    (hlength : s'.connections.length = s.connections.length)
    (hopen : ∀ tcid, s'.hasOpen tcid = s.hasOpen tcid) : Grants l (l.putSlot slot (some s')) := by
  refine ⟨rfl, hfit.putSlot hs hlength, [], (List.append_nil _).symm, fun slot' tcid => ?_⟩
  rw [openAt_putSlot hs hopen]
  exact .same _ not_false

theorem register_grants {device i : Nat} {number : UInt8} {config : SlotConfig}
    (hfew : l.maxConnections ≤ 254) (hfit : AllFit l.slots)
    (h : l.register device number config = .ok (i, l')) : Grants l l' := by
  rw [register] at h
  split at h
  · cases h
  · next j hj =>
    obtain ⟨rfl, rfl⟩ := Prod.mk.inj (Except.ok.inj h)
    obtain ⟨hlt, hnone, -⟩ := List.findIdx?_eq_some_iff_getElem.mp hj
    refine ⟨rfl, hfit.set j ?_, [], (List.append_nil _).symm, fun slot' tcid => ?_⟩
    · rintro s hs
      obtain rfl := Option.some.inj hs
      rw [Slot.Fits, Slot.new, List.length_replicate]
      omega
    · have hsame : openAt (l.slots.set j (some (.new device number config l.maxConnections)))
          slot' tcid = openAt l.slots slot' tcid := by
        rw [openAt_set _ _ _ _ _ hlt]
        split
        · next h =>
          rw [← h, openAt, List.getElem?_eq_getElem hlt, Option.isNone_iff_eq_none.mp hnone]
          exact Slot.hasOpen_new ..
        · rfl
      change Keeps _ _ _ (openAt (l.slots.set j _) slot' tcid)
      rw [hsame]
      exact .same _ not_false

theorem destroySlot_grants (hfit : AllFit l.slots) (h : l.destroySlot slot = .ok l') :
    Grants l l' := by
  rw [destroySlot] at h
  split at h
  · cases h
  · next s hs =>
    obtain rfl := Except.ok.inj h
    have hget := getElem?_of_slot? hs
    obtain ⟨hlt, -⟩ := List.getElem?_eq_some_iff.mp hget
    refine ⟨rfl, hfit.set slot nofun, s.closing slot, Queue.toList_append _ _,
      fun slot' tcid => ?_⟩
    change Keeps _ _ _ (openAt (l.slots.set slot none) slot' tcid)
    rw [openAt_set _ _ _ _ _ hlt]
    split
    · next heq =>
      rw [← heq, openAt, hget, Slot.noticesOf_closing (fits_of_slot? hfit hs)]
      change Keeps (s.hasOpen tcid) _ _ false
      cases s.hasOpen tcid with
      | false => exact .same false not_false
      | true => exact .one rfl not_false
    · next hne =>
      rw [noticesOf_eq_nil tcid fun e he => by rw [Slot.slot_of_mem_closing he]; exact hne]
      exact .same _ not_false

theorem newConnection_grants {tcid : UInt8} (hfit : AllFit l.slots)
    (h : l.newConnection slot = .ok (tcid, l')) : Grants l l' := by
  rw [newConnection] at h
  split at h
  · cases h
  · next s hs =>
    split at h
    · cases h
    · split at h
      · cases h
      · next new s' hbegin =>
        obtain ⟨rfl, rfl⟩ := Prod.mk.inj (Except.ok.inj h)
        obtain ⟨c, hc, hidle, rfl⟩ := Slot.of_begin? (fits_of_slot? hfit hs) hbegin
        have hbegun : (c.begin new).isOpen = c.isOpen := by
          rw [Connection.isOpen_of_state hidle]
          rfl
        exact .putSlot hfit hs Slot.length_put fun tcid => Slot.hasOpen_put_of_isOpen hc hbegun tcid

/-- A request to one connection that it grants. -/
theorem update_ok {tcid : UInt8} {f : SlotConfig → Connection → Except CiError Connection}
    (h : l.update slot tcid f = .ok l') : ∃ s c c', l.slot? slot = some s ∧
      s.connection? tcid = some c ∧ f s.config c = .ok c' ∧
      l' = l.putSlot slot (some (s.put tcid c')) := by
  rw [update] at h
  split at h
  · cases h
  · next s hs =>
    split at h
    · cases h
    · next c hc =>
      cases hfc : f s.config c with
      | error e => rw [hfc] at h; cases h
      | ok c' =>
        rw [hfc] at h
        exact ⟨s, c, c', hs, hc, hfc, (Except.ok.inj h).symm⟩

theorem update_grants {tcid : UInt8} {f : SlotConfig → Connection → Except CiError Connection}
    (hf : ∀ config c c', f config c = .ok c' → c'.isOpen = c.isOpen) (hfit : AllFit l.slots)
    (h : l.update slot tcid f = .ok l') : Grants l l' := by
  obtain ⟨s, c, c', hs, hc, hfc, rfl⟩ := update_ok h
  exact .putSlot hfit hs Slot.length_put fun tcid' =>
    Slot.hasOpen_put_of_isOpen hc (hf _ _ _ hfc) tcid'

theorem deleteConnection_grants {tcid : UInt8} (hfit : AllFit l.slots)
    (h : l.deleteConnection slot tcid = .ok l') : Grants l l' := by
  refine update_grants (fun config c c' hc => ?_) hfit h
  split at hc
  · cases hc
  · next hactive =>
    obtain rfl := Except.ok.inj hc
    rw [Connection.isOpen_of_state (Decidable.not_not.mp hactive)]
    rfl

theorem sendData_grants {tcid : UInt8} {data : Bytes} (hfit : AllFit l.slots)
    (h : l.sendData slot tcid data = .ok l') : Grants l l' := by
  refine update_grants (fun config c c' hc => ?_) hfit h
  obtain ⟨-, hc⟩ := Outcome.ok_of_check hc
  obtain ⟨units, -, hc⟩ := Outcome.ok_of_bind hc
  obtain rfl := Except.ok.inj hc
  rfl

end TransportLayer

/-! ## Runs -/

namespace TransportRun

open TransportLayer

variable (link : Link ω)

/-- What has been told of each connection, or is to be told by the next poll, is accounted for. -/
structure Accounted (r : TransportRun ω) : Prop where
  few : r.layer.maxConnections ≤ 254
  fit : AllFit r.layer.slots
  accounts : ∀ slot tcid, Accounts (openAt r.layer.slots slot tcid)
    ((noticesOf slot tcid (r.told ++ r.layer.events.toList)).map Notice.mark)
    (Lost link slot tcid r.met)

variable {link}

theorem start_accounted (link : Link ω) (maxSlots maxConnections : Nat) (world : ω) :
    Accounted link (start maxSlots maxConnections world) := by
  have hnone : ∀ i : Nat, (List.replicate maxSlots (none : Option Slot))[i]?.join = none := by
    intro i
    rw [List.getElem?_replicate]
    split <;> rfl
  refine ⟨Nat.min_le_right .., fun s hs => ?_, fun slot tcid => .inl ⟨not_lost_nil link slot tcid, ?_⟩⟩
  · cases List.eq_of_mem_replicate hs
  · change scan [] = some (openAt (List.replicate maxSlots none) slot tcid)
    rw [openAt, hnone]
    rfl

theorem Accounted.grant {r : TransportRun ω} {l : TransportLayer} (h : Accounted link r)
    (hl : Grants r.layer l) : Accounted link { r with layer := l } := by
  obtain ⟨es, hes, hkeeps⟩ := hl.tells
  refine ⟨hl.few ▸ h.few, hl.fit, fun slot tcid => ?_⟩
  have ha := hkeeps slot tcid _ _ (h.accounts slot tcid)
  rw [← List.map_append, ← noticesOf_append, List.append_assoc, ← hes, or_false] at ha
  exact ha

theorem Accounted.settle {α : Type} {r : TransportRun ω} {outcome : Except CiError α}
    {layer : α → TransportLayer} (h : Accounted link r)
    (hl : ∀ a, outcome = .ok a → Grants r.layer (layer a)) :
    Accounted link (r.settle outcome layer) := by
  cases outcome with
  | error e => exact h
  | ok a => exact h.grant (hl a rfl)

theorem Accounted.poll {r : TransportRun ω} (h : Accounted link r) (now : Nat) :
    Accounted link (r.perform link (.poll now)) := by
  have hsweeps := pollFrom_sweeps link now 0 ⟨r.layer.events, r.world, r.layer.lastError⟩ h.fit
  obtain ⟨es, hes, -, hkeeps⟩ := hsweeps.tells
  refine ⟨h.few, hsweeps.fit, fun slot tcid => ?_⟩
  have hkeep := hkeeps slot tcid
  rw [Nat.zero_add] at hkeep
  have ha := hkeep _ _ (h.accounts slot tcid)
  rw [← List.map_append, ← noticesOf_append, List.append_assoc, ← hes,
    ← propext (lost_append link slot tcid ..)] at ha
  change Accounts _ ((noticesOf slot tcid (_ ++ [])).map Notice.mark) _
  rw [List.append_nil]
  exact ha

theorem Accounted.perform {r : TransportRun ω} (h : Accounted link r) (request : Request) :
    Accounted link (r.perform link request) := by
  cases request with
  | register device number config =>
    exact h.settle fun a ha => register_grants h.few h.fit ha
  | destroySlot slot => exact h.settle fun a ha => destroySlot_grants h.fit ha
  | newConnection slot => exact h.settle fun a ha => newConnection_grants h.fit ha
  | deleteConnection slot tcid => exact h.settle fun a ha => deleteConnection_grants h.fit ha
  | sendData slot tcid data => exact h.settle fun a ha => sendData_grants h.fit ha
  | poll now => exact h.poll now

theorem Accounted.after {r : TransportRun ω} (h : Accounted link r) (requests : List Request) :
    Accounted link (r.after link requests) := by
  induction requests generalizing r with
  | nil => exact h
  | cons request requests ih => exact ih (h.perform request)

theorem connectionState_iff_openAt (l : TransportLayer) (slot : Nat) (tcid : UInt8) :
    (l.connectionState slot tcid = some .active ∨ l.connectionState slot tcid = some .deletion) ↔
      openAt l.slots slot tcid = true := by
  rw [connectionState, slot?, openAt]
  cases l.slots[slot]?.join with
  | none => simp
  | some s =>
    rw [Option.bind_some, Option.any_some, Slot.hasOpen]
    cases s.connection? tcid with
    | none => simp
    | some c =>
      rw [Option.map_some, Option.any_some, Connection.isOpen]
      simp only [Option.some.injEq, Bool.or_eq_true, beq_iff_eq]

/-- What the polls have told of a connection splits into whole episodes and, exactly if the
connection is active or in deletion, an unfinished one behind them. -/
def InEpisodes (r : TransportRun ω) (slot : Nat) (tcid : UInt8) : Prop :=
  ∃ unfinished, Split ((noticesOf slot tcid r.told).map Notice.mark) unfinished ∧
    (unfinished = true ↔ r.layer.connectionState slot tcid = some .active ∨
      r.layer.connectionState slot tcid = some .deletion)

theorem inEpisodes_iff_scan (r : TransportRun ω) (slot : Nat) (tcid : UInt8) :
    r.InEpisodes slot tcid ↔
      scan ((noticesOf slot tcid r.told).map Notice.mark) =
        some (openAt r.layer.slots slot tcid) := by
  rw [InEpisodes, connectionState_iff_openAt]
  constructor
  · rintro ⟨unfinished, hsplit, hopen⟩
    rw [split_iff_scan.mp hsplit, Bool.eq_iff_iff.mpr hopen]
  · intro hscan
    exact ⟨_, split_iff_scan.mpr hscan, Iff.rfl⟩

/-- Whatever the devices do and whatever is asked for: after every poll, what was told of a
connection is in episodes as long as no module has ended the connection while it was open with a
reply that could not be written, and never again after that. -/
theorem told_in_episodes_iff (link : Link ω) (maxSlots maxConnections : Nat) (world : ω)
    (requests : List Request) (now : Nat) (slot : Nat) (tcid : UInt8) :
    (after link (requests ++ [.poll now]) (start maxSlots maxConnections world)).InEpisodes
        slot tcid ↔
      ¬ ∃ m ∈ (after link (requests ++ [.poll now]) (start maxSlots maxConnections world)).met,
        m.Unanswered link slot tcid := by
  have haccounted := (start_accounted link maxSlots maxConnections world).after
    (requests ++ [.poll now])
  have hevents : (after link (requests ++ [.poll now])
      (start maxSlots maxConnections world)).layer.events.toList = [] := by
    rw [after, List.foldl_append]
    rfl
  generalize after link (requests ++ [.poll now]) (start maxSlots maxConnections world) = r
    at haccounted hevents ⊢
  have haccounts := haccounted.accounts slot tcid
  rw [hevents, List.append_nil] at haccounts
  rw [inEpisodes_iff_scan]
  exact haccounts.scan_iff

/-- A device with one module that is always ready. It gives out one response for each poll, and
cannot write a reply to the end of connection 1. -/
def deafDevice : Link (List (Option Bytes)) where
  reset _ _ w := (.ok (), w)
  status _ _ w := (.ok .ready, w)
  linkType _ _ w := (.ok .packets, w)
  read _ _ _ w := (.ok w.head?.join, w.tail)
  write _ _ _ unit w :=
    if unit = Connection.control .deleteTcReply 1 none then (.error "no reply", w) else (.ok (), w)
  burst _ _ _ := 1

/-- Its module is greeted, agrees to its first connection and ends it. -/
def deafRun : TransportRun (List (Option Bytes)) :=
  after deafDevice ([.register 0 0 .standard, .poll 0, .poll 1, .poll 2] ++ [.poll 3])
    (start 1 2 [none, some (Connection.control .createTcReply 1 none),
      some (Connection.control .deleteTc 1 none)])

/-- The connection is idle in the end, and all that was told of it is its opening. -/
theorem deafRun_not_inEpisodes : ¬ deafRun.InEpisodes 0 1 := by
  rw [inEpisodes_iff_scan]
  decide

end TransportRun

end DvbHost.Ci
