import DvbHost.Proofs.Ci.TakenUnits

/-!
# Fragments that come in

A module sends a message as fragments, of which the last is marked. `Gathered` compares a connection
with the fragments that came in since the last message was complete: it has them in its chain, or has
given them up as too long. Every unit of the module keeps that, and nothing that happens between two
units touches it.
-/

namespace DvbHost.Ci

set_option autoImplicit false

open Connection TransportEvent

variable {ω : Type}

/-! ## One connection -/

namespace Tpdu

/-- The last fragment of a message. -/
def isLast (t : Tpdu) : Bool := t.tag == .dataLast

def isFragment (t : Tpdu) : Bool := t.tag == .dataMore || t.isLast

/-- What has come in of a message after a unit, if it was `whole` before. -/
def gather (whole : Bytes) (t : Tpdu) : Bytes :=
  match t.tag with
  | .dataMore => whole ++ t.data
  | .dataLast => []
  | _ => whole

end Tpdu

namespace Connection

variable {maxSize : Nat} {whole : Bytes} {c : Connection}

/-- What has come in of a message is held, or was given up because it is too long. -/
def Gathered (maxSize : Nat) (whole : Bytes) (c : Connection) : Prop :=
  if whole.length ≤ maxSize then c.chain = whole ∧ c.discarding = false
  else c.chain = [] ∧ c.discarding = true

/-- What is told of a message when its last fragment has come in. -/
def delivery (maxSize : Nat) (whole : Bytes) : List Notice :=
  if 1 ≤ whole.length ∧ whole.length ≤ maxSize then [.data whole] else []

/-- The error of a fragment: the message is too long with it, and was not too long before. -/
def excess (maxSize : Nat) (whole data : Bytes) : Option CiError :=
  if whole.length ≤ maxSize ∧ maxSize < (whole ++ data).length then
    some (.protocolViolation .dataTooLong)
  else none

theorem gathered_of_le (h : whole.length ≤ maxSize) :
    c.Gathered maxSize whole ↔ c.chain = whole ∧ c.discarding = false := iff_of_eq (if_pos h)

theorem gathered_of_lt (h : maxSize < whole.length) :
    c.Gathered maxSize whole ↔ c.chain = [] ∧ c.discarding = true :=
  iff_of_eq (if_neg (Nat.not_le.mpr h))

theorem gathered_nil : c.Gathered maxSize [] ↔ c.chain = [] ∧ c.discarding = false :=
  gathered_of_le (Nat.zero_le maxSize)

theorem Gathered.congr {c' : Connection} (h : c.Gathered maxSize whole) (chain : c'.chain = c.chain)
    (discarding : c'.discarding = c.discarding) : c'.Gathered maxSize whole := by
  rw [Gathered, chain, discarding]
  exact h

/-- A fragment of a message: the message is told exactly with its last one, and its error comes
exactly with the one that makes it too long. -/
theorem Gathered.receiveData (h : c.Gathered maxSize whole) (active : c.state = .active)
    (last : Bool) (data : Bytes) :
    (c.receiveData maxSize last data).notice.toList =
        (if last then delivery maxSize (whole ++ data) else []) ∧
      (c.receiveData maxSize last data).error = excess maxSize whole data ∧
      (c.receiveData maxSize last data).connection.Gathered maxSize
        (if last then [] else whole ++ data) := by
  have hlength : (whole ++ data).length = whole.length + data.length := List.length_append
  rw [Connection.receiveData, if_neg (not_not_intro active)]
  by_cases hheld : whole.length ≤ maxSize
  · obtain ⟨hchain, hkept⟩ := (gathered_of_le hheld).mp h
    rw [if_neg (by rw [hkept]; exact Bool.false_ne_true), hchain]
    by_cases hlong : whole.length + data.length > maxSize
    · have hexcess : excess maxSize whole data = some (.protocolViolation .dataTooLong) :=
        if_pos ⟨hheld, by omega⟩
      have hnothing : delivery maxSize (whole ++ data) = [] := if_neg (by omega)
      rw [if_pos hlong, hexcess, hnothing]
      cases last with
      | false => exact ⟨rfl, rfl, (gathered_of_lt (hlength ▸ hlong)).mpr ⟨rfl, rfl⟩⟩
      | true => exact ⟨rfl, rfl, gathered_nil.mpr ⟨rfl, rfl⟩⟩
    · have hexcess : excess maxSize whole data = none := if_neg (by omega)
      rw [if_neg hlong, hexcess]
      cases last with
      | false =>
        have hfits : (whole ++ data).length ≤ maxSize := by omega
        exact ⟨rfl, rfl, (gathered_of_le hfits).mpr ⟨rfl, hkept⟩⟩
      | true =>
        cases hwhole : whole ++ data with
        | nil => exact ⟨rfl, rfl, gathered_nil.mpr ⟨rfl, hkept⟩⟩
        | cons b bs =>
          rw [hwhole] at hlength
          have hdelivery : delivery maxSize (b :: bs) = [.data (b :: bs)] :=
            if_pos ⟨Nat.succ_pos _, by omega⟩
          exact ⟨hdelivery.symm, rfl, gathered_nil.mpr ⟨rfl, hkept⟩⟩
  · obtain ⟨hchain, hgiven⟩ := (gathered_of_lt (Nat.not_le.mp hheld)).mp h
    have hexcess : excess maxSize whole data = none := if_neg (by omega)
    have hnothing : delivery maxSize (whole ++ data) = [] := if_neg (by omega)
    rw [if_pos hgiven, hexcess, hnothing]
    cases last with
    | false =>
      have hlong : maxSize < (whole ++ data).length := by omega
      exact ⟨rfl, rfl, (gathered_of_lt hlong).mpr ⟨hchain, rfl⟩⟩
    | true => exact ⟨rfl, rfl, gathered_nil.mpr ⟨hchain, rfl⟩⟩

/-- Before it is opened, a connection has nothing of a message. -/
def Fresh (c : Connection) : Prop :=
  c.state = .idle ∨ c.state = .creation → c.chain = [] ∧ c.discarding = false

theorem receiveData_of_inactive (inactive : c.state ≠ .active) (last : Bool) (data : Bytes) :
    c.receiveData maxSize last data = ⟨c, none, some .badConnection⟩ := if_pos inactive

theorem receiveData_state (last : Bool) (data : Bytes) :
    (c.receiveData maxSize last data).connection.state = c.state := by
  rw [receiveData]
  split
  · rfl
  · split
    · rfl
    · split
      · rfl
      · dsimp only
        split <;> rfl

theorem Fresh.receive (h : c.Fresh) (maxSize : Nat) (t : Tpdu) :
    (c.receive maxSize t).connection.Fresh := by
  have hdata : ∀ last, (c.receiveData maxSize last t.data).connection.Fresh := by
    intro last hstate
    rw [receiveData_state] at hstate
    have inactive : c.state ≠ .active := by
      rcases hstate with hstate | hstate <;> rw [hstate] <;> decide
    rw [receiveData_of_inactive inactive]
    exact h hstate
  rw [Connection.receive]
  split
  · split
    · rintro (⟨⟨⟩⟩ | ⟨⟨⟩⟩)
    · exact h
  · split
    · exact fun _ => ⟨rfl, rfl⟩
    · exact h
  · exact hdata _
  · exact hdata _
  · exact h
  · exact fun _ => ⟨rfl, rfl⟩
  · exact fun _ => ⟨rfl, rfl⟩
  · exact h
  · exact h
  · exact h
  · exact h

/-- A unit that makes a connection active is the one that opens it. -/
theorem receive_opens {t : Tpdu} (inactive : c.state ≠ .active)
    (active : (c.receive maxSize t).connection.state = .active) :
    t.tag = .createTcReply ∧ c.state = .creation ∧
      (c.receive maxSize t).connection.chain = c.chain ∧
      (c.receive maxSize t).connection.discarding = c.discarding := by
  have reception := receive_reception maxSize t c
  generalize (c.receive maxSize t).connection = after at active reception ⊢
  generalize (c.receive maxSize t).notice = notice at reception
  cases reception with
  | agreed tag creating => exact ⟨tag, creating, rfl, rfl⟩
  | status tag => exact absurd active inactive
  | reset ends silent => cases active
  | kept chain discarding tag goesOn unexpected silent => exact absurd active inactive

/-- A unit that is no fragment, if the connection stays active with it. -/
theorem receive_of_not_fragment {t : Tpdu} (other : t.isFragment = false) (active : c.state = .active)
    (stays : (c.receive maxSize t).connection.state = .active) :
    (c.receive maxSize t).connection.chain = c.chain ∧
      (c.receive maxSize t).connection.discarding = c.discarding ∧
      (c.receive maxSize t).notice = none := by
  have hcreation : c.state ≠ .creation := by rw [active]; decide
  have hdeletion : c.state ≠ .deletion := by rw [active]; decide
  revert stays
  rw [receive, if_neg hcreation, if_neg hdeletion]
  cases htag : t.tag
  case dataMore | dataLast => simp [Tpdu.isFragment, Tpdu.isLast, htag] at other
  case tcError | deleteTc => rintro ⟨⟩
  all_goals exact fun _ => ⟨rfl, rfl, rfl⟩

theorem receive_fragment {t : Tpdu} (fragment : t.isFragment = true) :
    c.receive maxSize t = c.receiveData maxSize t.isLast t.data := by
  rw [receive, Tpdu.isLast]
  cases htag : t.tag
  case dataMore | dataLast => rfl
  all_goals simp [Tpdu.isFragment, Tpdu.isLast, htag] at fragment

/-- Nothing but units of the module touches a message that is coming in. -/
theorem Step.kept {tcid : UInt8} {m : Moment} (step : Step tcid c m) (untaken : m.Untaken) :
    (c.Fresh → m.after.Fresh) ∧ (m.after.state = .active →
      c.state = .active ∧ m.after.chain = c.chain ∧ m.after.discarding = c.discarding) := by
  have hsame : ∀ d : Connection, d.state = c.state → d.chain = c.chain →
      d.discarding = c.discarding → (c.Fresh → d.Fresh) ∧ (d.state = .active →
        c.state = .active ∧ d.chain = c.chain ∧ d.discarding = c.discarding) := by
    intro d hstate hchain hdiscarding
    rw [Fresh, Fresh, hstate, hchain, hdiscarding]
    exact ⟨fun h => h, fun h => ⟨h, rfl, rfl⟩⟩
  cases step with
  | begun idle => exact ⟨fun h _ => h (.inl idle), nofun⟩
  | queued active cut => exact hsame _ rfl rfl rfl
  | ending active => exact ⟨nofun, nofun⟩
  | taken maxSize named | unanswered named tag => exact absurd rfl (untaken _)
  | sent turn | failed turn =>
    obtain ⟨-, -, turn⟩ := duty_send turn
    generalize c.reason = reason at turn
    cases turn <;> exact hsame _ rfl rfl rfl
  | timedOut turn | gone => exact ⟨fun _ _ => ⟨rfl, rfl⟩, nofun⟩

end Connection

/-! ## One unit -/

namespace Meeting

variable (link : Link ω) {m : Meeting ω} {tcid : UInt8}

/-- A unit of another connection does not touch a connection that is active after it. -/
theorem leaves_eq_finds (fits : m.run.slot.Fits) (other : m.unit.tcid ≠ tcid)
    (active : (m.leaves link tcid).state = .active) : m.leaves link tcid = m.finds tcid := by
  rcases leaves_of_ne link fits other with hsame | ⟨-, hbegun⟩
  · exact hsame
  · rw [hbegun] at active
    cases active

/-- A unit leaves its own connection as what it makes of it, if the connection is active then. -/
theorem leaves_eq_outcome (fits : m.run.slot.Fits) (has : m.run.slot.Has m.unit.tcid)
    (active : (m.leaves link m.unit.tcid).state = .active) :
    m.leaves link m.unit.tcid = (m.run.outcome m.unit).connection := by
  rcases leaves_self link fits has with hleaves | ⟨-, hbegun⟩
  · exact hleaves
  · rw [hbegun] at active
    cases active

theorem leaves_fresh (fits : m.run.slot.Fits) (h : (m.finds tcid).Fresh) :
    (m.leaves link tcid).Fresh := by
  have hbegun : ∀ {c : Connection}, c.state = .idle → c.Fresh → (c.begin tcid).Fresh :=
    fun hidle hfresh _ => hfresh (.inl hidle)
  by_cases htcid : m.unit.tcid = tcid
  · subst htcid
    rcases m.run.slot.connection?_or_has m.unit.tcid with ⟨hnone, -⟩ | has
    · rwa [leaves_of_not_has link hnone]
    · have houtcome : (m.run.outcome m.unit).connection.Fresh :=
        Fresh.receive (c := { m.finds m.unit.tcid with awaiting := none }) h _ _
      rcases leaves_self link fits has with hleaves | ⟨hidle, hleaves⟩
      · rwa [hleaves]
      · rw [hleaves]
        exact hbegun hidle houtcome
  · rcases leaves_of_ne link fits htcid with hleaves | ⟨hidle, hleaves⟩
    · rwa [hleaves]
    · rw [hleaves]
      exact hbegun hidle h

/-- The unit opens the connection. -/
structure Opens (m : Meeting ω) (tcid : UInt8) : Prop where
  named : m.unit.tcid = tcid
  reply : m.unit.tag = .createTcReply
  creating : (m.finds tcid).state = .creation

/-- Only a unit that opens a connection makes it active. -/
theorem opens_of_active (fits : m.run.slot.Fits) (inactive : (m.finds tcid).state ≠ .active)
    (active : (m.leaves link tcid).state = .active) :
    m.Opens tcid ∧ (m.leaves link tcid).chain = (m.finds tcid).chain ∧
      (m.leaves link tcid).discarding = (m.finds tcid).discarding := by
  by_cases htcid : m.unit.tcid = tcid
  · subst htcid
    rcases m.run.slot.connection?_or_has m.unit.tcid with ⟨hnone, -⟩ | has
    · rw [leaves_of_not_has link hnone] at active
      exact absurd active inactive
    · have hleaves := leaves_eq_outcome link fits has active
      rw [hleaves] at active ⊢
      obtain ⟨reply, creating, kept⟩ :=
        receive_opens (c := { m.finds m.unit.tcid with awaiting := none }) inactive active
      exact ⟨⟨rfl, reply, creating⟩, kept⟩
  · rw [leaves_eq_finds link fits htcid active] at active
    exact absurd active inactive

/-- The connection is active when the unit comes, and after it. -/
structure Stays (link : Link ω) (m : Meeting ω) (tcid : UInt8) : Prop where
  finds : (m.finds tcid).state = .active
  leaves : (m.leaves link tcid).state = .active

/-- A fragment is not answered at once. -/
theorem left_of_fragment (has : m.run.slot.Has m.unit.tcid) (fragment : m.unit.isFragment = true) :
    m.leaves link m.unit.tcid = (m.run.outcome m.unit).connection ∧
      m.told link = (m.run.outcome m.unit).notice.toList.map (connection m.slot m.unit.tcid) ∧
      m.error link = (m.run.outcome m.unit).error := by
  have hdelete : m.unit.tag ≠ .deleteTc := by
    intro htag
    simp [Tpdu.isFragment, Tpdu.isLast, htag] at fragment
  have hrequest : m.unit.tag ≠ .requestTc := by
    intro htag
    simp [Tpdu.isFragment, Tpdu.isLast, htag] at fragment
  have hhandle := SlotRun.handle_unanswered link m.slot has hdelete hrequest
  refine ⟨?_, told_eq link ?_, congrArg Prod.snd hhandle⟩
  · rw [leaves, left, hhandle, SlotRun.report_slot]
    exact (Slot.connectionD_put has _).trans (if_pos rfl)
  · rw [left, hhandle]
    exact SlotRun.report_events ..

theorem stays_of_fragment (named : m.unit.tcid = tcid) (active : (m.finds tcid).state = .active)
    (fragment : m.unit.isFragment = true) : m.Stays link tcid := by
  subst named
  refine ⟨active, ?_⟩
  rw [(left_of_fragment link (Slot.has_of_active active) fragment).1, SlotRun.outcome,
    receive_fragment fragment, receiveData_state]
  exact active

variable {maxSize : Nat} {whole : Bytes}

/-- What is told at a unit of a connection that has gathered `whole` before. -/
def Delivers (link : Link ω) (m : Meeting ω) (tcid : UInt8) (maxSize : Nat) (whole : Bytes) : Prop :=
  noticesOf m.slot tcid (m.told link) =
    if m.unit.isLast then delivery maxSize (whole ++ m.unit.data) else []

/-- A fragment on an active connection. -/
theorem gathered_of_fragment (active : (m.finds tcid).state = .active) (named : m.unit.tcid = tcid)
    (fragment : m.unit.isFragment = true)
    (h : (m.finds tcid).Gathered m.run.slot.config.maxSpduSize whole) :
    (m.leaves link tcid).Gathered m.run.slot.config.maxSpduSize (m.unit.gather whole) ∧
      m.Delivers link tcid m.run.slot.config.maxSpduSize whole ∧
      m.error link = excess m.run.slot.config.maxSpduSize whole m.unit.data := by
  subst named
  obtain ⟨hleaves, htold, herror⟩ :=
    left_of_fragment link (Slot.has_of_active active) fragment
  have hheld : ({ m.finds m.unit.tcid with awaiting := none } : Connection).Gathered
      m.run.slot.config.maxSpduSize whole := h.congr rfl rfl
  obtain ⟨hnotice, hexcess, hgathered⟩ :=
    hheld.receiveData active m.unit.isLast m.unit.data
  have houtcome : m.run.outcome m.unit =
      { m.finds m.unit.tcid with awaiting := none }.receiveData m.run.slot.config.maxSpduSize
        m.unit.isLast m.unit.data := receive_fragment fragment
  rw [← houtcome] at hnotice hexcess hgathered
  have hgather : m.unit.gather whole =
      if m.unit.isLast then [] else whole ++ m.unit.data := by
    rw [Tpdu.gather, Tpdu.isLast]
    cases htag : m.unit.tag
    case dataMore | dataLast => rfl
    all_goals simp [Tpdu.isFragment, Tpdu.isLast, htag] at fragment
  refine ⟨?_, ?_, herror.trans hexcess⟩
  · rw [hleaves, hgather]
    exact hgathered
  · rw [Delivers, htold, noticesOf_map_connection, if_pos rfl, hnotice]

/-- A unit that is no fragment, of a connection that stays active. -/
theorem gathered_of_other (fits : m.run.slot.Fits) (stays : m.Stays link tcid)
    (named : m.unit.tcid = tcid) (other : m.unit.isFragment = false)
    (h : (m.finds tcid).Gathered maxSize whole) :
    (m.leaves link tcid).Gathered maxSize (m.unit.gather whole) ∧
      m.Delivers link tcid maxSize whole := by
  subst named
  have hleaves := leaves_eq_outcome link fits (Slot.has_of_active stays.finds) stays.leaves
  have hactive := stays.leaves
  rw [hleaves] at hactive
  obtain ⟨hchain, hdiscarding, hnotice⟩ :=
    receive_of_not_fragment (c := { m.finds m.unit.tcid with awaiting := none }) other
      stays.finds hactive
  have hlast : m.unit.isLast = false := (Bool.or_eq_false_iff.mp other).2
  have hgather : m.unit.gather whole = whole := by
    rw [Tpdu.gather]
    cases htag : m.unit.tag
    case dataMore | dataLast => simp [Tpdu.isFragment, Tpdu.isLast, htag] at other
    all_goals rfl
  constructor
  · rw [hleaves, hgather]
    exact h.congr hchain hdiscarding
  · obtain ⟨notices, hown, htold⟩ := m.exists_told link
    have hnone : notices = [] := List.eq_nil_iff_forall_not_mem.mpr fun n hn => by
      cases hnotice.symm.trans (hown n hn)
    rw [Delivers, hlast, htold, hnone]
    rfl

/-- A unit of a connection that stays active. -/
theorem gathered_of_stays (fits : m.run.slot.Fits) (stays : m.Stays link tcid)
    (named : m.unit.tcid = tcid)
    (h : (m.finds tcid).Gathered m.run.slot.config.maxSpduSize whole) :
    (m.leaves link tcid).Gathered m.run.slot.config.maxSpduSize (m.unit.gather whole) ∧
      m.Delivers link tcid m.run.slot.config.maxSpduSize whole := by
  cases hfragment : m.unit.isFragment with
  | true =>
    obtain ⟨hgathered, hdelivers, -⟩ := gathered_of_fragment link stays.finds named hfragment h
    exact ⟨hgathered, hdelivers⟩
  | false => exact gathered_of_other link fits stays named hfragment h

end Meeting

/-! ## The units of a run -/

/-- What has come in of a message on a connection after some units of a slot. -/
def gatheredIn (tcid : UInt8) (ms : List (Meeting ω)) : Bytes :=
  ms.foldl (fun whole m => if m.unit.tcid = tcid then m.unit.gather whole else whole) []

theorem gatheredIn_concat (tcid : UInt8) (ms : List (Meeting ω)) (m : Meeting ω) :
    gatheredIn tcid (ms ++ [m]) =
      if m.unit.tcid = tcid then m.unit.gather (gatheredIn tcid ms) else gatheredIn tcid ms :=
  List.foldl_concat ..

/-- The connection was opened by one of the units and has been active since; of what has come in
since then, it has gathered the message that is not complete. -/
structure Gathers (link : Link ω) (tcid : UInt8) (s : Slot) (opening : Meeting ω)
    (since : List (Meeting ω)) : Prop where
  opens : opening.Opens tcid
  stays : ∀ m ∈ since, m.unit.tcid = tcid → m.Stays link tcid
  config : opening.run.slot.config = s.config
  gathered : (s.connectionD tcid).Gathered s.config.maxSpduSize (gatheredIn tcid since)

/-- A connection that is active gathers what comes in, and one that is not opened has nothing. -/
structure Gathering (link : Link ω) (tcid : UInt8) (before : List (Meeting ω)) (s : Slot) :
    Prop where
  fresh : (s.connectionD tcid).Fresh
  gathers : (s.connectionD tcid).state = .active →
    ∃ past opening since, before = past ++ opening :: since ∧ Gathers link tcid s opening since

theorem Gathering.kept {link : Link ω} {tcid : UInt8} {before : List (Meeting ω)} {s s' : Slot}
    (h : Gathering link tcid before s) (config : s'.config = s.config)
    (fresh : (s'.connectionD tcid).Fresh)
    (kept : (s'.connectionD tcid).state = .active → (s.connectionD tcid).state = .active ∧
      (s'.connectionD tcid).chain = (s.connectionD tcid).chain ∧
      (s'.connectionD tcid).discarding = (s.connectionD tcid).discarding) :
    Gathering link tcid before s' := by
  refine ⟨fresh, fun hactive => ?_⟩
  obtain ⟨hwas, hchain, hdiscarding⟩ := kept hactive
  obtain ⟨past, opening, since, hsplit, hgathers⟩ := h.gathers hwas
  refine ⟨past, opening, since, hsplit, hgathers.opens, hgathers.stays,
    hgathers.config.trans config.symm, ?_⟩
  rw [config]
  exact hgathers.gathered.congr hchain hdiscarding

/-- A unit is taken up. -/
theorem Gathering.taken {link : Link ω} {tcid : UInt8} {before : List (Meeting ω)} {m : Meeting ω}
    (h : Gathering link tcid before m.run.slot) (fits : m.run.slot.Fits) :
    Gathering link tcid (before ++ [m]) (m.left link).slot := by
  have hconfig : (m.left link).slot.config = m.run.slot.config :=
    SlotRun.handle_config link m.slot m.unit m.run
  refine ⟨Meeting.leaves_fresh link fits h.fresh, fun hactive => ?_⟩
  by_cases hwas : (m.finds tcid).state = .active
  · obtain ⟨past, opening, since, rfl, hgathers⟩ := h.gathers hwas
    have hgathered : (m.leaves link tcid).Gathered m.run.slot.config.maxSpduSize
        (gatheredIn tcid (since ++ [m])) := by
      rw [gatheredIn_concat]
      split
      · next hnamed =>
        exact (Meeting.gathered_of_stays link fits ⟨hwas, hactive⟩ hnamed hgathers.gathered).1
      · next hother =>
        rw [Meeting.leaves_eq_finds link fits hother hactive]
        exact hgathers.gathered
    refine ⟨past, opening, since ++ [m], by rw [List.append_assoc, List.cons_append],
      hgathers.opens, fun m' hm' hnamed => ?_, hgathers.config.trans hconfig.symm,
      by rwa [hconfig]⟩
    rcases List.mem_append.mp hm' with hm' | hm'
    · exact hgathers.stays m' hm' hnamed
    · obtain rfl := List.mem_singleton.mp hm'
      exact ⟨hwas, hactive⟩
  · -- The connection is opened, so nothing of a message is left from before.
    obtain ⟨hopens, hchain, hdiscarding⟩ := Meeting.opens_of_active link fits hwas hactive
    obtain ⟨hnone, hkept⟩ := h.fresh (.inr hopens.creating)
    exact ⟨before, m, [], rfl, hopens, List.forall_mem_nil _, hconfig.symm,
      gathered_nil.mpr ⟨hchain.trans hnone, hdiscarding.trans hkept⟩⟩

theorem gathering_invariant (link : Link ω) (id : Nat) (tcid : UInt8) :
    SlotInvariant link id (Gathering link tcid) := by
  refine ⟨fun before device number config n _ => ?_, fun {before r ms r'} fits move h => ?_⟩
  · have hidle := Slot.connectionD_new device number config n tcid
    refine ⟨?_, fun hactive => ?_⟩
    · rw [hidle]
      exact fun _ => ⟨rfl, rfl⟩
    · rw [hidle] at hactive
      cases hactive
  · cases move with
    | still connections config events =>
      have hsame : r'.slot.connectionD tcid = r.slot.connectionD tcid := by
        rw [Slot.connectionD, Slot.connection?, connections]
        rfl
      rw [List.append_nil]
      exact h.kept config (hsame ▸ h.fresh) fun hactive => ⟨hsame ▸ hactive, by rw [hsame], by rw [hsame]⟩
    | @changed _ tcid' c m found step untaken slot events =>
      obtain ⟨hfresh, hkept⟩ := step.kept untaken
      have hafter : r'.slot.connectionD tcid =
          if tcid = tcid' then m.after else r.slot.connectionD tcid := by
        rw [slot]
        exact Slot.connectionD_put found tcid
      rw [List.append_nil]
      by_cases htcid : tcid = tcid'
      · rw [if_pos htcid] at hafter
        have hbefore : r.slot.connectionD tcid = c := by
          rw [htcid]
          exact Slot.connectionD_of_some found
        refine h.kept (by rw [slot]; rfl) ?_ ?_
        · rw [hafter]
          exact hfresh (hbefore ▸ h.fresh)
        · rw [hafter, hbefore]
          exact hkept
      · rw [if_neg htcid] at hafter
        refine h.kept (by rw [slot]; rfl) (hafter ▸ h.fresh) ?_
        rw [hafter]
        exact fun hactive => ⟨hactive, rfl, rfl⟩
    | cleared =>
      have hidle : (r.clear id).slot.connectionD tcid = .idle := Slot.connectionD_cleared tcid
      rw [List.append_nil]
      refine h.kept rfl ?_ ?_
      · rw [hidle]
        exact fun _ => ⟨rfl, rfl⟩
      · rw [hidle]
        rintro ⟨⟩
    | taken t => exact Gathering.taken (m := ⟨id, r, t⟩) h fits

end DvbHost.Ci
