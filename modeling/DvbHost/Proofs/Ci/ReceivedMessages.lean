import DvbHost.Proofs.Ci.GatheredFragments

/-!
# Messages that come in fragments

In a run of a transport layer, every message that a module sends on a connection is told as a whole or
not at all, whatever went wrong with the messages before. An active connection has gathered what came
in since the last fragment of a message; a message is told, or its error comes, by what is gathered
when a fragment comes.
-/

namespace DvbHost.Ci

set_option autoImplicit false

open Connection TransportEvent

variable {ω : Type} {slot : Nat} {tcid : UInt8}

/-! ## Groups of fragments -/

/-- The fragments on a connection. -/
def fragmentsOf (slot : Nat) (tcid : UInt8) (ms : List (Meeting ω)) : List (Meeting ω) :=
  ms.filter fun m => m.names slot tcid && m.unit.isFragment

def octetsOf (ms : List (Meeting ω)) : Bytes := ms.flatMap fun m => m.unit.data

theorem octetsOf_concat (ms : List (Meeting ω)) (m : Meeting ω) :
    octetsOf (ms ++ [m]) = octetsOf ms ++ m.unit.data := by
  rw [octetsOf, List.flatMap_append, List.flatMap_singleton]
  rfl

theorem fragmentsOf_append (ms ms' : List (Meeting ω)) :
    fragmentsOf slot tcid (ms ++ ms') = fragmentsOf slot tcid ms ++ fragmentsOf slot tcid ms' :=
  List.filter_append ..

theorem fragmentsOf_singleton (m : Meeting ω) :
    fragmentsOf slot tcid [m] = if m.names slot tcid && m.unit.isFragment then [m] else [] := by
  rw [fragmentsOf, List.filter_singleton, Bool.cond_eq_ite]

theorem Meeting.names_iff {m : Meeting ω} :
    m.names slot tcid = true ↔ m.slot = slot ∧ m.unit.tcid = tcid := by
  rw [names, Bool.and_eq_true, beq_iff_eq, beq_iff_eq]

/-- What has come in of a message changes with the fragments on its connection only. -/
theorem gatheredIn_metBy_concat (ms : List (Meeting ω)) (m : Meeting ω) :
    gatheredIn tcid (metBy slot (ms ++ [m])) =
      if m.names slot tcid && m.unit.isFragment then
        if m.unit.isLast then [] else gatheredIn tcid (metBy slot ms) ++ m.unit.data
      else gatheredIn tcid (metBy slot ms) := by
  rw [metBy_append]
  by_cases hslot : m.slot = slot
  · rw [metBy_eq_self (List.forall_mem_singleton.mpr hslot), gatheredIn_concat]
    by_cases htcid : m.unit.tcid = tcid
    · rw [if_pos htcid, Meeting.names_iff.mpr ⟨hslot, htcid⟩, Bool.true_and, Tpdu.isFragment,
        Tpdu.isLast, Tpdu.gather]
      cases m.unit.tag <;> rfl
    · have hother : m.names slot tcid = false :=
        Bool.eq_false_iff.mpr fun h => htcid (Meeting.names_iff.mp h).2
      rw [if_neg htcid, hother]
      rfl
  · have hother : m.names slot tcid = false :=
      Bool.eq_false_iff.mpr fun h => hslot (Meeting.names_iff.mp h).1
    rw [metBy_eq_nil (List.forall_mem_singleton.mpr hslot), List.append_nil, hother]
    rfl

/-- Behind the last fragment of a message nothing has come in. -/
theorem gatheredIn_of_complete {ms : List (Meeting ω)}
    (complete : ∀ m ∈ (fragmentsOf slot tcid ms).getLast?, m.unit.isLast = true) :
    gatheredIn tcid (metBy slot ms) = [] := by
  induction ms using List.reverseRecOn with
  | nil => rfl
  | append_singleton ms m ih =>
    rw [fragmentsOf_append, fragmentsOf_singleton] at complete
    rw [gatheredIn_metBy_concat]
    split
    · next hfragment =>
      rw [if_pos hfragment, List.getLast?_concat] at complete
      rw [if_pos (complete m rfl)]
    · next hother =>
      rw [if_neg hother, List.append_nil] at complete
      exact ih complete

/-- Fragments that are not the last ones add up. -/
theorem gatheredIn_of_mores {before ms : List (Meeting ω)}
    (mores : ∀ m ∈ fragmentsOf slot tcid ms, m.unit.isLast = false) :
    gatheredIn tcid (metBy slot (before ++ ms)) =
      gatheredIn tcid (metBy slot before) ++ octetsOf (fragmentsOf slot tcid ms) := by
  induction ms using List.reverseRecOn with
  | nil =>
    rw [List.append_nil]
    exact (List.append_nil _).symm
  | append_singleton ms m ih =>
    rw [fragmentsOf_append, fragmentsOf_singleton] at mores ⊢
    have hms := ih fun m hm => mores m (List.mem_append_left _ hm)
    rw [← List.append_assoc, gatheredIn_metBy_concat]
    split
    · next hfragment =>
      rw [if_pos hfragment] at mores
      have hmore := mores m (List.mem_append_right _ (List.mem_singleton_self m))
      rw [hmore, if_neg Bool.false_ne_true, octetsOf_concat, hms, List.append_assoc]
    · rw [List.append_nil]
      exact hms

/-- The errors of fragments are one in all, if the message is too long. -/
theorem excess_append (maxSize : Nat) (whole data : Bytes) :
    (if maxSize < whole.length then [CiError.protocolViolation .dataTooLong] else []) ++
        (excess maxSize whole data).toList =
      if maxSize < (whole ++ data).length then [.protocolViolation .dataTooLong] else [] := by
  rw [excess, List.length_append]
  by_cases hwas : maxSize < whole.length
  · rw [if_pos hwas, if_neg (by omega), if_pos (by omega)]
    rfl
  · rw [if_neg hwas]
    by_cases hlong : maxSize < whole.length + data.length
    · rw [if_pos ⟨Nat.not_lt.mp hwas, hlong⟩, if_pos hlong]
      rfl
    · rw [if_neg (by omega), if_neg hlong]
      rfl

theorem noticesOf_flatMap_eq_nil {ms : List (Meeting ω)} {told : Meeting ω → List TransportEvent}
    (h : ∀ m ∈ ms, noticesOf slot tcid (told m) = []) :
    noticesOf slot tcid (ms.flatMap told) = [] := by
  induction ms with
  | nil => rfl
  | cons m ms ih =>
    rw [List.flatMap_cons, noticesOf_append, h m (List.mem_cons_self ..),
      ih fun m' hm' => h m' (List.mem_cons_of_mem m hm')]
    rfl

/-- A stretch of a run in which a connection is opened and then active whenever a unit comes on it. -/
structure ActiveStretch (met : List (Meeting ω)) (slot : Nat) (tcid : UInt8)
    (past : List (Meeting ω)) (opening : Meeting ω) (since later : List (Meeting ω)) : Prop where
  split : met = past ++ opening :: since ++ later
  here : opening.slot = slot
  opens : opening.Opens tcid
  active : ∀ m ∈ since, m.names slot tcid = true → (m.finds tcid).state = .active

/-- Behind `before`, the fragments in `between` and the unit `last` are a message that is complete. -/
structure Group (slot : Nat) (tcid : UInt8) (before between : List (Meeting ω)) (last : Meeting ω) :
    Prop where
  complete : ∀ m ∈ (fragmentsOf slot tcid before).getLast?, m.unit.tag = .dataLast
  mores : ∀ m ∈ fragmentsOf slot tcid between, m.unit.tag = .dataMore
  named : last.names slot tcid = true
  last : last.unit.tag = .dataLast

namespace Group

variable {before between : List (Meeting ω)} {last : Meeting ω}

theorem isLast (group : Group slot tcid before between last) : last.unit.isLast = true := by
  rw [Tpdu.isLast, group.last]
  rfl

theorem isFragment (group : Group slot tcid before between last) :
    last.unit.isFragment = true := by
  rw [Tpdu.isFragment, group.isLast, Bool.or_true]

theorem not_isLast (group : Group slot tcid before between last) :
    ∀ m ∈ fragmentsOf slot tcid between, m.unit.isLast = false := by
  intro m hm
  rw [Tpdu.isLast, group.mores m hm]
  rfl

/-- A message starts with nothing gathered. -/
theorem gathered_before (group : Group slot tcid before between last) :
    gatheredIn tcid (metBy slot before) = [] :=
  gatheredIn_of_complete fun m hm => beq_iff_eq.mpr (group.complete m hm)

theorem gathered_between (group : Group slot tcid before between last) :
    gatheredIn tcid (metBy slot (before ++ between)) = octetsOf (fragmentsOf slot tcid between) := by
  rw [gatheredIn_of_mores group.not_isLast, group.gathered_before, List.nil_append]

theorem fragments (group : Group slot tcid before between last) :
    fragmentsOf slot tcid (between ++ [last]) = fragmentsOf slot tcid between ++ [last] := by
  rw [fragmentsOf_append, fragmentsOf_singleton, group.named, group.isFragment]
  rfl

theorem octets (group : Group slot tcid before between last) :
    octetsOf (fragmentsOf slot tcid (between ++ [last])) =
      octetsOf (fragmentsOf slot tcid between) ++ last.unit.data := by
  rw [group.fragments, octetsOf_concat]

end Group

/-- A connection that has been active since it was opened was opened once. -/
theorem opening_unique {past past' since since' : List (Meeting ω)} {m m' : Meeting ω}
    (h : past ++ m :: since = past' ++ m' :: since') (opens : m.Opens tcid)
    (opens' : m'.Opens tcid)
    (active : ∀ u ∈ since, u.unit.tcid = tcid → (u.finds tcid).state = .active)
    (active' : ∀ u ∈ since', u.unit.tcid = tcid → (u.finds tcid).state = .active) :
    m = m' ∧ since = since' := by
  have habsurd : ∀ {u : Meeting ω}, u.Opens tcid → (u.finds tcid).state ≠ .active := by
    intro u hopens hactive
    cases hopens.creating.symm.trans hactive
  rcases List.append_eq_append_iff.mp h with ⟨more, -, hmore⟩ | ⟨more, -, hmore⟩
  · cases more with
    | nil => exact List.cons.inj hmore
    | cons u more =>
      obtain ⟨-, rfl⟩ := List.cons.inj hmore
      exact absurd (active m' (by simp) opens'.named) (habsurd opens')
  · cases more with
    | nil =>
      obtain ⟨rfl, rfl⟩ := List.cons.inj hmore
      exact ⟨rfl, rfl⟩
    | cons u more =>
      obtain ⟨-, rfl⟩ := List.cons.inj hmore
      exact absurd (active' m (by simp) opens.named) (habsurd opens)

/-! ## Runs -/

namespace TransportRun

variable {link : Link ω} {r : TransportRun ω} {past since later before between after : List (Meeting ω)}
  {opening m last : Meeting ω}

/-- What a unit of the connection finds in such a stretch. -/
theorem gathers_at (upheld : SlotInvariant.Upheld slot (Gathering link tcid) r)
    (stretch : ActiveStretch r.met slot tcid past opening since later)
    (split : since = before ++ m :: after) (named : m.names slot tcid = true) :
    m.run.slot.Fits ∧ Gathers link tcid m.run.slot opening (metBy slot before) := by
  have hmem : ∀ u ∈ before ++ [m], u ∈ since := by
    intro u hu
    rw [split, List.append_cons]
    exact List.mem_append_left after hu
  have hmet := upheld.met
  rw [stretch.split, split, show past ++ opening :: (before ++ m :: after) ++ later =
    (past ++ opening :: before) ++ [m] ++ (after ++ later) by simp, metBy_append, metBy_append,
    metBy_eq_self (List.forall_mem_singleton.mpr (Meeting.names_iff.mp named).1),
    List.append_assoc, List.singleton_append] at hmet
  obtain ⟨hfits, hgathering⟩ := hmet.at_split
  obtain ⟨past', opening', since', hsplit, hgathers⟩ :=
    hgathering.gathers (stretch.active m (hmem m (by simp)) named)
  refine ⟨hfits, ?_⟩
  rw [List.nil_append, metBy_append, ← List.singleton_append, metBy_append,
    metBy_eq_self (List.forall_mem_singleton.mpr stretch.here)] at hsplit
  obtain ⟨rfl, rfl⟩ := opening_unique hsplit stretch.opens hgathers.opens
    (fun u hu htcid => by
      obtain ⟨hbefore, hslot⟩ := List.mem_filter.mp hu
      exact stretch.active u (hmem u (List.mem_append_left _ hbefore))
        (Meeting.names_iff.mpr ⟨beq_iff_eq.mp hslot, htcid⟩))
    fun u hu htcid => (hgathers.stays u hu htcid).finds
  exact hgathers

/-- A unit of the connection, with what has come in before it. -/
theorem delivers_at (upheld : SlotInvariant.Upheld slot (Gathering link tcid) r)
    (stretch : ActiveStretch r.met slot tcid past opening since later)
    (split : since = before ++ m :: after) (named : m.names slot tcid = true)
    (stays : m.Stays link tcid) :
    m.Delivers link tcid opening.run.slot.config.maxSpduSize
      (gatheredIn tcid (metBy slot before)) := by
  obtain ⟨hfits, hgathers⟩ := gathers_at upheld stretch split named
  rw [hgathers.config]
  exact (Meeting.gathered_of_stays link hfits stays (Meeting.names_iff.mp named).2 hgathers.gathered).2

/-- A fragment, with what has come in before it. -/
theorem fragment_at (upheld : SlotInvariant.Upheld slot (Gathering link tcid) r)
    (stretch : ActiveStretch r.met slot tcid past opening since later)
    (split : since = before ++ m :: after) (named : m.names slot tcid = true)
    (fragment : m.unit.isFragment = true) :
    m.Stays link tcid ∧ m.error link = excess opening.run.slot.config.maxSpduSize
      (gatheredIn tcid (metBy slot before)) m.unit.data := by
  obtain ⟨-, hgathers⟩ := gathers_at upheld stretch split named
  have hmem : m ∈ since := by
    rw [split]
    exact List.mem_append_right _ (List.mem_cons_self ..)
  have htcid := (Meeting.names_iff.mp named).2
  have hactive := stretch.active m hmem named
  rw [hgathers.config]
  exact ⟨Meeting.stays_of_fragment link htcid hactive fragment,
    (Meeting.gathered_of_fragment link hactive htcid fragment hgathers.gathered).2.2⟩

/-- Before the last fragment nothing is told of the connection. -/
theorem told_between (upheld : SlotInvariant.Upheld slot (Gathering link tcid) r)
    (stretch : ActiveStretch r.met slot tcid past opening since later)
    (split : since = before ++ (between ++ [last]) ++ after)
    (group : Group slot tcid before between last) :
    noticesOf slot tcid (between.flatMap (Meeting.told link)) = [] := by
  have hsplit : since = (before ++ between) ++ last :: after := by
    rw [split]
    simp
  obtain ⟨-, hlast⟩ := gathers_at upheld stretch hsplit group.named
  refine noticesOf_flatMap_eq_nil fun m hmem => ?_
  cases hnamed : m.names slot tcid with
  | false => exact Meeting.noticesOf_told_of_not_names link hnamed
  | true =>
    obtain ⟨first, rest, rfl⟩ := List.append_of_mem hmem
    obtain ⟨hslot, htcid⟩ := Meeting.names_iff.mp hnamed
    have hstays : m.Stays link tcid := by
      refine hlast.stays m (List.mem_filter.mpr ⟨?_, beq_iff_eq.mpr hslot⟩) htcid
      exact List.mem_append_right _ hmem
    have hm : since = (before ++ first) ++ m :: (rest ++ [last] ++ after) := by
      rw [split]
      simp
    have hdelivers := delivers_at upheld stretch hm hnamed hstays
    have hmore : m.unit.isLast = false := by
      cases hfragment : m.unit.isFragment with
      | false => exact (Bool.or_eq_false_iff.mp hfragment).2
      | true =>
        have hfound : m ∈ fragmentsOf slot tcid (first ++ m :: rest) :=
          List.mem_filter.mpr ⟨hmem, by rw [hnamed, hfragment]; rfl⟩
        exact group.not_isLast m hfound
    rw [Meeting.Delivers, hslot, hmore] at hdelivers
    exact hdelivers

/-- The errors of the fragments of a message so far. -/
theorem errors_of_mores (upheld : SlotInvariant.Upheld slot (Gathering link tcid) r)
    (stretch : ActiveStretch r.met slot tcid past opening since later)
    (split : since = before ++ between ++ after)
    (complete : gatheredIn tcid (metBy slot before) = [])
    (mores : ∀ m ∈ fragmentsOf slot tcid between, m.unit.isLast = false) :
    (fragmentsOf slot tcid between).filterMap (Meeting.error link) =
      if opening.run.slot.config.maxSpduSize < (octetsOf (fragmentsOf slot tcid between)).length
      then [.protocolViolation .dataTooLong] else [] := by
  induction between using List.reverseRecOn generalizing after with
  | nil => exact (if_neg (Nat.not_lt_zero _)).symm
  | append_singleton between m ih =>
    rw [fragmentsOf_append, fragmentsOf_singleton] at mores ⊢
    have hbetween : ∀ u ∈ fragmentsOf slot tcid between, u.unit.isLast = false :=
      fun u hu => mores u (List.mem_append_left _ hu)
    have hsplit : since = before ++ between ++ m :: after := by
      rw [split]
      simp
    have herrors := ih hsplit hbetween
    split
    · next hfragment =>
      obtain ⟨hnamed, hfragment⟩ := Bool.and_eq_true_iff.mp hfragment
      have herror := (fragment_at upheld stretch hsplit hnamed hfragment).2
      rw [gatheredIn_of_mores hbetween, complete, List.nil_append] at herror
      rw [List.filterMap_append, herrors, octetsOf_concat, ← excess_append, ← herror]
      congr 1
    · rw [List.append_nil]
      exact herrors

/-- Take a message, from behind the one before it to its last fragment, on a connection that was
opened in a run and has been active since. Whatever else is taken up in between, on this connection
or others, and whatever the host and the clock do: the message is told once and as a whole if it is
neither empty nor too long, and not at all if it is; and its fragments make one error if it is too
long, and none if it is not. Nothing of this depends on the messages before. -/
theorem message_told_once (link : Link ω) (maxSlots maxConnections : Nat) (world : ω)
    (requests : List Request) (slot : Nat) (tcid : UInt8)
    (past since later before between behind : List (Meeting ω)) (opening last : Meeting ω)
    (stretch : ActiveStretch
      (TransportRun.after link requests (start maxSlots maxConnections world)).met slot tcid past
      opening since later)
    (split : since = before ++ (between ++ [last]) ++ behind)
    (group : Group slot tcid before between last) :
    let run := TransportRun.after link requests (start maxSlots maxConnections world)
    let maxSize := opening.run.slot.config.maxSpduSize
    let whole := octetsOf (fragmentsOf slot tcid (between ++ [last]))
    noticesOf slot tcid ((between ++ [last]).flatMap (Meeting.told link)) =
        delivery maxSize whole ∧
      (fragmentsOf slot tcid (between ++ [last])).filterMap (Meeting.error link) =
        (if maxSize < whole.length then [.protocolViolation .dataTooLong] else []) ∧
      messagesOf slot tcid (run.told ++ run.layer.events.toList) =
        messagesOf slot tcid ((past ++ opening :: before).flatMap (Meeting.told link)) ++
          (delivery maxSize whole).filterMap Notice.data? ++
          messagesOf slot tcid ((behind ++ later).flatMap (Meeting.told link)) := by
  intro run maxSize whole
  have upheld : SlotInvariant.Upheld slot (Gathering link tcid) run :=
    (gathering_invariant link slot tcid).upheld maxSlots maxConnections world requests
  have hsplit : since = (before ++ between) ++ last :: behind := by
    rw [split]
    simp
  obtain ⟨hstays, herror⟩ := fragment_at upheld stretch hsplit group.named group.isFragment
  have htold : noticesOf slot tcid ((between ++ [last]).flatMap (Meeting.told link)) =
      delivery maxSize whole := by
    have hdelivers := delivers_at upheld stretch hsplit group.named hstays
    rw [Meeting.Delivers, (Meeting.names_iff.mp group.named).1, group.isLast,
      group.gathered_between, ← group.octets] at hdelivers
    rw [List.flatMap_append, noticesOf_append, told_between upheld stretch split group,
      List.flatMap_singleton]
    exact hdelivers
  refine ⟨htold, ?_, ?_⟩
  · have herrors := errors_of_mores upheld stretch hsplit group.gathered_before group.not_isLast
    have hwhole : whole = octetsOf (fragmentsOf slot tcid between) ++ last.unit.data := group.octets
    rw [group.gathered_between] at herror
    rw [group.fragments, List.filterMap_append, herrors, hwhole, ← excess_append, ← herror]
    congr 1
  · have hmet : run.met = (past ++ opening :: before) ++ (between ++ [last]) ++ (behind ++ later) := by
      rw [stretch.split, split]
      simp
    rw [tellsMessages_after link maxSlots maxConnections world requests slot tcid, hmet,
      List.flatMap_append, List.flatMap_append, messagesOf_append, messagesOf_append]
    congr 2
    exact congrArg (List.filterMap Notice.data?) htold

/-- A module that sends two messages on its connection, of which the first is too long. -/
def fragmentedRun : TransportRun (List (Option Bytes)) :=
  TransportRun.after (refusing fun _ => false)
    [.register 0 0 ⟨1000, 100, 4096, 3⟩, .poll 0, .poll 1, .poll 2, .poll 3, .poll 4]
    (start 1 1 [none, some (control .createTcReply 1 none),
      some [0xA1, 3, 1, 10, 11, 0xA0, 3, 1, 12, 13],
      some [0xA1, 2, 1, 14, 0x80, 2, 1, 0x80, 0xA0, 3, 1, 15, 16]])

theorem message_told_once_fragmentedRun :
    ∃ (opening : Meeting (List (Option Bytes))) (before between : List (Meeting (List (Option Bytes))))
      (last : Meeting (List (Option Bytes))),
      ActiveStretch fragmentedRun.met 0 1 [] opening (before ++ (between ++ [last]) ++ []) [] ∧
      Group 0 1 before between last ∧
      noticesOf 0 1 ((between ++ [last]).flatMap (Meeting.told (refusing fun _ => false))) =
        [.data [14, 15, 16]] := by
  obtain ⟨opening, before, between, last, stretch, group, hwhole⟩ :
      ∃ (opening : Meeting (List (Option Bytes)))
        (before between : List (Meeting (List (Option Bytes))))
        (last : Meeting (List (Option Bytes))),
        ActiveStretch fragmentedRun.met 0 1 [] opening (before ++ (between ++ [last]) ++ []) [] ∧
        Group 0 1 before between last ∧
        delivery opening.run.slot.config.maxSpduSize (octetsOf (fragmentsOf 0 1 (between ++ [last]))) =
          [.data [14, 15, 16]] :=
    ⟨_, [_, _], [_, _], _, ⟨rfl, rfl, ⟨rfl, rfl, rfl⟩, by decide⟩, ⟨by decide, by decide, rfl, rfl⟩, rfl⟩
  refine ⟨opening, before, between, last, stretch, group, ?_⟩
  rw [← hwhole]
  exact (message_told_once _ _ _ _ _ _ _ _ _ _ _ _ _ _ _ stretch rfl group).1

end TransportRun

end DvbHost.Ci
