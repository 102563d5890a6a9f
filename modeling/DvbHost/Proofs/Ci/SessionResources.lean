import DvbHost.Proofs.Ci.AwaitedSessions
import DvbHost.Proofs.Ci.SessionLifeCycle

/-!
# The resource of a session

Each episode of a session should be of one resource: all that is told of it names the resource that
the table has. What a passage does to a session that is open is a `Turn`, and turns keep an episode
to its resource (`Episodes.turn`). Only one event can name another resource: the module's agreement
to a session that the host has asked for is told with the resource in the answer, and the table
keeps the one that was asked for. `one_resource_iff` says that there is no other way.
-/

namespace DvbHost.Ci

set_option autoImplicit false

open Episode

/-! ## What is told of one session -/

namespace SessionEvent

/-- The resource that an event names. -/
def resource : SessionEvent → ResourceId
  | opened _ r | created _ r _ | data _ r _ | closed _ r => r

/-- The events that name a session. -/
def naming (id : SessionId) (events : List SessionEvent) : List SessionEvent :=
  events.filter fun e => e.session = id

/-- All events name one resource. -/
def Of (resource : ResourceId) (events : List SessionEvent) : Prop :=
  ∀ e ∈ events, e.resource = resource

/-- A refusal, or an episode of one resource from its opening to its closing. -/
def Part (events : List SessionEvent) : Prop :=
  events.map mark = [.aside] ∨ (∃ n, events.map mark = whole n) ∧ ∃ resource, Of resource events

variable (id : SessionId)

theorem naming_append (es es' : List SessionEvent) :
    naming id (es ++ es') = naming id es ++ naming id es' := List.filter_append ..

theorem naming_self (e : SessionEvent) : naming e.session [e] = [e] :=
  List.filter_cons_of_pos (by simp)

theorem naming_eq_nil {id : SessionId} {es : List SessionEvent} (h : ∀ e ∈ es, e.session ≠ id) :
    naming id es = [] := List.filter_eq_nil_iff.mpr fun e he => by simpa using h e he

end SessionEvent

open SessionEvent

namespace SessionTable

/-- What was told of a session comes in parts, behind which at most an episode goes on. While the
session is active, the one that goes on is of the resource that the table has. -/
def OneResource (t : SessionTable) (id : SessionId) (told : List SessionEvent) : Prop :=
  ∃ (parts : List (List SessionEvent)) (tail : List SessionEvent),
    naming id told = parts.flatten ++ tail ∧ (∀ p ∈ parts, Part p) ∧
    (tail = [] ∨ (∃ n, tail.map mark = begun n) ∧ ∃ resource, Of resource tail) ∧
    ∀ resource, t.resourceOf id = some resource → tail ≠ [] ∧ Of resource tail

end SessionTable

namespace Passage

/-- If the module agrees in this passage to a session that the host has asked for, it names the
resource that was asked for. -/
def Echoes (id : SessionId) (p : Passage) : Prop :=
  ∀ resource s,
    p.cause = .received id.slot id.tcid (.createSessionResponse .ok resource id.number) →
    p.before.get? id = some s → s.phase = .creating → resource = s.resource

end Passage

/-! ## One passage -/

namespace SessionTable

variable {t t' : SessionTable} {id : SessionId} {told : List SessionEvent} {s : Session}

/-- The resource of a session that has been reported as opened and not as closed. -/
def held (t : SessionTable) (id : SessionId) : Option ResourceId :=
  (t.get? id).bind fun s => if s.isOpen then some s.resource else none

theorem held_of_none (h : t.get? id = none) : t.held id = none := by rw [held, h]; rfl

theorem held_of_open (h : t.get? id = some s) (ho : s.isOpen = true) :
    t.held id = some s.resource := by
  rw [held, h, Option.bind_some, if_pos ho]

theorem held_of_not_open (h : t.get? id = some s) (ho : s.isOpen = false) : t.held id = none := by
  rw [held, h, Option.bind_some, ho]
  rfl

theorem held_of_resourceOf {resource : ResourceId} (h : t.resourceOf id = some resource) :
    t.held id = some resource := by
  obtain ⟨s, hs, hp, rfl⟩ := resourceOf_eq_some h
  exact held_of_open hs (by rw [Session.isOpen, hp]; rfl)

theorem held_congr (h : t'.get? id = t.get? id) : t'.held id = t.held id := by rw [held, h, held]

/-- What becomes of a session's resource while it is open, and what is told of it. -/
inductive Turn : Option ResourceId → List SessionEvent → Option ResourceId → Prop
  | quiet (held : Option ResourceId) : Turn held [] held
  | opening {e : SessionEvent} (mark : e.mark = .opening) : Turn none [e] (some e.resource)
  | content {e : SessionEvent} (mark : e.mark = .content) :
      Turn (some e.resource) [e] (some e.resource)
  | closing {e : SessionEvent} (mark : e.mark = .closing) : Turn (some e.resource) [e] none
  | aside {e : SessionEvent} (mark : e.mark = .aside) : Turn none [e] none

theorem Turn.silent (h : t'.held id = t.held id) :
    Turn (t.held id) (naming id []) (t'.held id) := by
  rw [h]
  exact .quiet _

/-- Where one event is told, only its session may change. -/
theorem Turn.single {e : SessionEvent} (hother : id ≠ e.session → t'.get? id = t.get? id)
    (hself : id = e.session → Turn (t.held e.session) [e] (t'.held e.session)) :
    Turn (t.held id) (naming id [e]) (t'.held id) := by
  by_cases hid : id = e.session
  · have hturn := hself hid
    rwa [hid, naming_self]
  · rw [naming_eq_nil (List.forall_mem_singleton.mpr (Ne.symm hid)), held_congr (hother hid)]
    exact .quiet _

/-- The end of a connection closes those of its sessions that are open. -/
theorem turn_farewells (t : SessionTable) (slot : Nat) (tcid : UInt8) (id : SessionId) :
    Turn (t.held id) (naming id (t.farewells slot tcid))
      ((t.removeConnection slot tcid).held id) := by
  have hremoved := get?_removeConnection t id slot tcid
  by_cases hc : id.slot = slot ∧ id.tcid = tcid
  · obtain ⟨rfl, rfl⟩ := hc
    rw [if_pos ⟨rfl, rfl⟩] at hremoved
    rw [held_of_none hremoved]
    -- The session leaves; it has one farewell if it was open, and none if not.
    by_cases hopen : ∃ s, t.get? id = some s ∧ s.isOpen = true
    · obtain ⟨s, hs, ho⟩ := hopen
      have hmem : SessionEvent.closed id s.resource ∈ t.farewells id.slot id.tcid :=
        (mem_farewells t id.slot id.tcid _).mpr ⟨id.number, s, hs, ho, rfl⟩
      have hone : naming id (t.farewells id.slot id.tcid) = [.closed id s.resource] :=
        filter_of_pairwise (farewells_pairwise t id.slot id.tcid) hmem
      rw [hone, held_of_open hs ho]
      exact .closing (e := .closed id s.resource) rfl
    · have hnone : naming id (t.farewells id.slot id.tcid) = [] := by
        refine naming_eq_nil fun e he heq => hopen ?_
        obtain ⟨number, s, hs, ho, rfl⟩ := (mem_farewells t id.slot id.tcid e).mp he
        exact ⟨s, heq ▸ hs, ho⟩
      have hheld : t.held id = none := by
        cases hs : t.get? id with
        | none => exact held_of_none hs
        | some s => exact held_of_not_open hs (Bool.not_eq_true _ ▸ fun ho => hopen ⟨s, hs, ho⟩)
      rw [hnone, hheld]
      exact .quiet none
  · rw [if_neg hc] at hremoved
    have hnone : naming id (t.farewells slot tcid) = [] := by
      refine naming_eq_nil fun e he heq => hc ?_
      obtain ⟨number, s, hs, ho, rfl⟩ := (mem_farewells t slot tcid e).mp he
      rw [← heq]
      exact ⟨rfl, rfl⟩
    rw [hnone, held_congr hremoved]
    exact .quiet _

/-- A change is a turn of every session, if the answer to a wish names what was wished for. -/
theorem Change.turn (hc : Change t told t') (id : SessionId)
    (echoes : ∀ resource s, .created id resource .ok ∈ told → t.get? id = some s →
      s.phase = .creating → resource = s.resource) :
    Turn (t.held id) (naming id told) (t'.held id) := by
  cases hc with
  | @asked slot tcid number resource free =>
    have hnone := get?_of_allocate t free
    refine .silent ?_
    by_cases hid : id = ⟨slot, tcid, number⟩
    · rw [hid, held_of_none hnone]
      exact held_of_not_open (s := ⟨resource, .creating⟩) (by simp) rfl
    · exact held_congr (by simp [hid])
  | @ending id' s found active =>
    refine .silent ?_
    by_cases hid : id = id'
    · subst hid
      have hset := get?_setPhase t id id .closing
      rw [if_pos rfl, found] at hset
      rw [held_of_open found (by rw [Session.isOpen, active]; rfl)]
      exact held_of_open (s := ⟨s.resource, .closing⟩) hset rfl
    · exact held_congr (by rw [get?_setPhase, if_neg hid])
  | @data id' resource octets active =>
    refine .single (fun _ => rfl) fun _ => ?_
    change Turn (t.held id') _ (t.held id')
    rw [held_of_resourceOf active]
    exact .content (e := .data id' resource octets) rfl
  | @opened slot tcid number resource free =>
    have hnone := get?_of_allocate t free
    refine .single (fun hid => by rw [get?_insert]; exact if_neg hid) fun _ => ?_
    have hafter : (t.insert ⟨slot, tcid, number⟩ ⟨resource, .active⟩).held ⟨slot, tcid, number⟩ =
        some resource := held_of_open (s := ⟨resource, .active⟩) (by simp) rfl
    change Turn (t.held ⟨slot, tcid, number⟩) _ (SessionTable.held _ ⟨slot, tcid, number⟩)
    rw [held_of_none hnone, hafter]
    exact .opening (e := .opened ⟨slot, tcid, number⟩ resource) rfl
  | @agreed id' s resource found creating =>
    -- Here alone the event and the table have their resources from different sides.
    refine .single (fun hid => by rw [get?_setPhase]; exact if_neg hid) fun hid => ?_
    obtain rfl : id = id' := hid
    obtain rfl := echoes resource s (List.mem_singleton_self _) found creating
    have hset := get?_setPhase t id id .active
    rw [if_pos rfl, found] at hset
    change Turn (t.held id) _ ((t.setPhase id .active).held id)
    rw [held_of_not_open found (by rw [Session.isOpen, creating]; rfl), held_of_open hset rfl]
    exact .opening (e := .created id s.resource .ok) rfl
  | @refused id' s resource status found creating failed =>
    refine .single (fun hid => by rw [get?_remove]; exact if_neg hid) fun _ => ?_
    have hmark : (SessionEvent.created id' resource status).mark = .aside := if_neg failed
    change Turn (t.held id') _ ((t.remove id').held id')
    rw [held_of_not_open found (by rw [Session.isOpen, creating]; rfl), held_of_none (by simp)]
    exact .aside hmark
  | @closed id' s found wasOpen =>
    refine .single (fun hid => by rw [get?_remove]; exact if_neg hid) fun _ => ?_
    change Turn (t.held id') _ ((t.remove id').held id')
    rw [held_of_open found wasOpen, held_of_none (by simp)]
    exact .closing (e := .closed id' s.resource) rfl
  | @withdrawn id' s found notOpen =>
    refine .silent ?_
    by_cases hid : id = id'
    · rw [hid, held_of_not_open found notOpen, held_of_none (by simp)]
    · exact held_congr (by simp [hid])
  | disconnected slot tcid => exact turn_farewells t slot tcid id

/-- An answer to the host's wish is told only when the module gives it. -/
theorem Undergoes.answer_of_created {c : Cause} {resource : ResourceId} {status : SessionStatus}
    (h : t.Undergoes c told t') (hcreated : .created id resource status ∈ told) :
    c = .received id.slot id.tcid (.createSessionResponse status resource id.number) := by
  have told_ne : told ≠ [] := List.ne_nil_of_mem hcreated
  cases c with
  | created id' => exact absurd h.1 told_ne
  | called => exact absurd h.1 told_ne
  | disconnected slot tcid =>
    rw [h.1, mem_farewells] at hcreated
    obtain ⟨_, _, _, _, ⟨⟩⟩ := hcreated
  | received slot tcid unit =>
    cases unit with
    | sessionNumber number octets =>
      rw [Undergoes, Receives] at h
      split at h
      · rw [h.1, List.mem_singleton] at hcreated
        cases hcreated
      · exact absurd h.1 told_ne
    | openSessionRequest requested =>
      rcases h with h | ⟨_, _, _, h, _⟩
      · exact absurd h.1 told_ne
      · rw [h, List.mem_singleton] at hcreated
        cases hcreated
    | createSessionResponse status' resource' number =>
      rw [Undergoes, Receives] at h
      split at h
      · rw [h.1, List.mem_singleton] at hcreated
        cases hcreated
        rfl
      · exact absurd h.1 told_ne
    | closeSessionRequest number =>
      rw [Undergoes, Receives] at h
      split at h
      · split at h
        · rw [h.1, List.mem_singleton] at hcreated
          cases hcreated
        · exact absurd h.1 told_ne
      · exact absurd h.1 told_ne
    | closeSessionResponse _ number =>
      rw [Undergoes, Receives] at h
      split at h
      · split at h
        · rw [h.1, List.mem_singleton] at hcreated
          cases hcreated
        · exact absurd h.1 told_ne
      · exact absurd h.1 told_ne
    | openSessionResponse _ _ _ => exact absurd h.1 told_ne
    | createSession _ _ => exact absurd h.1 told_ne

end SessionTable

namespace Passage

variable {id : SessionId} {p : Passage}

/-- A passage is a turn of every session whose answer, if it comes in it, echoes the wish. -/
theorem turn (does : p.before.Undergoes p.cause p.told p.after) (echoes : p.Echoes id) :
    SessionTable.Turn (p.before.held id) (naming id p.told) (p.after.held id) := by
  rcases does.change with ⟨htold, hsame⟩ | hchange
  · rw [htold, hsame]
    exact .quiet _
  · exact hchange.turn id fun resource s hcreated =>
      echoes resource s (does.answer_of_created hcreated)

end Passage

/-! ## All passages -/

namespace SessionTable

variable {held held' : Option ResourceId} {es told : List SessionEvent}

/-- What was told of a session whose resource is held while it is open: the episode that goes on is
of that resource. -/
def Episodes (held : Option ResourceId) (es : List SessionEvent) : Prop :=
  ∃ (parts : List (List SessionEvent)) (tail : List SessionEvent),
    es = parts.flatten ++ tail ∧ (∀ p ∈ parts, Part p) ∧
    match held with
    | none => tail = []
    | some resource => (∃ n, tail.map mark = begun n) ∧ Of resource tail

/-- A part that has come to its end. -/
theorem Episodes.finish {parts : List (List SessionEvent)} {last : List SessionEvent}
    (hparts : ∀ p ∈ parts, Part p) (hlast : Part last) :
    Episodes none (parts.flatten ++ last) :=
  ⟨parts ++ [last], [], by simp, fun p hp => (List.mem_append.mp hp).elim (hparts p) fun hp =>
    List.mem_singleton.mp hp ▸ hlast, rfl⟩

theorem of_concat {resource : ResourceId} {e : SessionEvent} (h : Of resource es)
    (he : e.resource = resource) : Of resource (es ++ [e]) :=
  List.forall_mem_append.mpr ⟨h, List.forall_mem_singleton.mpr he⟩

/-- A turn begins an episode, goes on with it in the resource that it has, or ends it. -/
theorem Episodes.turn (h : Episodes held es) (turn : Turn held told held') :
    Episodes held' (es ++ told) := by
  obtain ⟨parts, tail, rfl, hparts, htail⟩ := h
  rw [List.append_assoc]
  cases turn with
  | quiet =>
    rw [List.append_nil]
    exact ⟨parts, tail, rfl, hparts, htail⟩
  | @opening e mark =>
    obtain rfl : tail = [] := htail
    exact ⟨parts, [e], rfl, hparts, ⟨0, by simp [mark, begun]⟩, List.forall_mem_singleton.mpr rfl⟩
  | @content e mark =>
    obtain ⟨⟨n, hmarks⟩, hof⟩ : (∃ n, tail.map _ = begun n) ∧ Of e.resource tail := htail
    refine ⟨parts, tail ++ [e], rfl, hparts, ⟨n + 1, ?_⟩, of_concat hof rfl⟩
    rw [List.map_append, hmarks, List.map_singleton, mark, begun, begun, List.replicate_succ',
      List.cons_append]
  | @closing e mark =>
    obtain ⟨⟨n, hmarks⟩, hof⟩ : (∃ n, tail.map _ = begun n) ∧ Of e.resource tail := htail
    refine Episodes.finish hparts (.inr ⟨⟨n, ?_⟩, e.resource, of_concat hof rfl⟩)
    rw [List.map_append, hmarks, List.map_singleton, mark, whole]
  | @aside e mark =>
    obtain rfl : tail = [] := htail
    exact Episodes.finish hparts (.inl (by simp [mark]))

theorem Episodes.oneResource {t : SessionTable} {id : SessionId}
    (h : Episodes (t.held id) (naming id told)) : t.OneResource id told := by
  obtain ⟨parts, tail, htold, hparts, htail⟩ := h
  refine ⟨parts, tail, htold, hparts, ?_, fun resource hactive => ?_⟩
  · cases hheld : t.held id with
    | none =>
      rw [hheld] at htail
      exact .inl htail
    | some resource =>
      rw [hheld] at htail
      exact .inr ⟨htail.1, resource, htail.2⟩
  · rw [held_of_resourceOf hactive] at htail
    obtain ⟨⟨n, hmarks⟩, hof⟩ := htail
    exact ⟨fun hnil => by simp [hnil, begun] at hmarks, hof⟩

end SessionTable

namespace Course

variable {t t' : SessionTable} {id : SessionId} {ps before : List Passage} {p : Passage}

theorem eq_of_nil (h : Course t [] t') : t' = t := by
  cases h
  rfl

theorem eq_after (h : Course t (before ++ [p]) t') : t' = p.after := by
  generalize hps : before ++ [p] = ps at h
  induction h generalizing before with
  | nil => simp at hps
  | @cons q ps _ _ rest ih =>
    cases before with
    | nil =>
      obtain ⟨rfl, rfl⟩ := List.cons.inj hps
      exact rest.eq_of_nil
    | cons _ before => exact ih (List.cons.inj hps).2

theorem does (h : Course t ps t') (hp : p ∈ ps) :
    p.before.Undergoes p.cause p.told p.after := by
  induction h with
  | nil => cases hp
  | cons does _ ih =>
    rcases List.mem_cons.mp hp with rfl | hp
    · exact does
    · exact ih hp

/-- Passages whose answers echo the wishes keep every episode to its resource. -/
theorem episodes (h : Course t ps t') (echoes : ∀ p ∈ ps, p.Echoes id) {es : List SessionEvent}
    (start : SessionTable.Episodes (t.held id) es) :
    SessionTable.Episodes (t'.held id) (es ++ naming id (ps.flatMap Passage.told)) := by
  induction h generalizing es with
  | nil => simpa [naming] using start
  | @cons p ps t does _ ih =>
    rw [List.flatMap_cons, naming_append, ← List.append_assoc]
    exact ih (fun q hq => echoes q (List.mem_cons_of_mem _ hq))
      (start.turn (p.turn does (echoes p (List.mem_cons_self ..))))

end Course

/-- An agreement that is told of a session with another resource than the table has is seen while
the session is active. -/
theorem Passage.echoes_of_oneResource {id : SessionId} {p : Passage} {told : List SessionEvent}
    (does : p.before.Undergoes p.cause p.told p.after)
    (h : p.after.OneResource id (told ++ p.told)) : p.Echoes id := by
  intro resource s cause found creating
  rw [cause] at does
  obtain ⟨htold, hafter⟩ : p.told = [.created id resource .ok] ∧
      p.after = p.before.setPhase id .active := by
    rw [SessionTable.Undergoes, SessionTable.Receives,
      if_pos (by rw [found, Option.map_some, creating])] at does
    exact does
  have hset := SessionTable.get?_setPhase p.before id id .active
  rw [if_pos rfl, found] at hset
  have hactive : p.after.resourceOf id = some s.resource := by
    rw [hafter, SessionTable.resourceOf, hset]
    rfl
  -- The session is active, so what goes on is not empty and ends with the agreement.
  obtain ⟨parts, tail, heq, -, -, hof⟩ := h
  obtain ⟨hne, hof⟩ := hof s.resource hactive
  have hself : naming id [.created id resource .ok] = [.created id resource .ok] :=
    naming_self (.created id resource .ok)
  rw [naming_append, htold, hself] at heq
  have hlast : tail.getLast hne = .created id resource .ok := by
    have hright := congrArg List.getLast? heq
    rw [List.getLast?_concat, List.getLast?_append, List.getLast?_eq_some_getLast hne,
      Option.some_or] at hright
    exact (Option.some.inj hright).symm
  exact hof _ (hlast ▸ List.getLast_mem hne)

namespace SessionLayer

variable {τ η : Type}

/-- Whatever happens to a session layer, at every moment all that was told of a session in one
episode names one resource, the one that the table has while the session is active, exactly if each
time the module agrees to the session it names the resource that was asked for. -/
theorem one_resource_iff (transport : τ) (maxSessions : Nat) (h : Handler η) (start : η)
    (os : List (Occasion τ)) (id : SessionId) :
    (∀ before p later,
      Dialogue.passages h os ⟨new transport maxSessions, start, []⟩ = before ++ p :: later →
      p.after.OneResource id ((before ++ [p]).flatMap Passage.told)) ↔
    ∀ p ∈ Dialogue.passages h os ⟨new transport maxSessions, start, []⟩, p.Echoes id := by
  have hcourse := (Dialogue.run_walks h os ⟨new transport maxSessions, start, []⟩).course
  generalize Dialogue.passages h os ⟨new transport maxSessions, start, []⟩ = ps at hcourse ⊢
  constructor
  · intro hone p hp
    obtain ⟨before, later, rfl⟩ := List.append_of_mem hp
    have hthere := hone before p later rfl
    rw [List.flatMap_append, List.flatMap_singleton] at hthere
    exact Passage.echoes_of_oneResource (hcourse.does hp) hthere
  · rintro hechoes before p later rfl
    rw [List.append_cons] at hcourse hechoes
    obtain ⟨t, hcourse, -⟩ := hcourse.split
    obtain rfl := hcourse.eq_after
    have hempty : SessionTable.held (new transport maxSessions).table id = none :=
      SessionTable.held_of_none (SessionTable.get?_new id maxSessions)
    have hstart : SessionTable.Episodes ((new transport maxSessions).table.held id) [] :=
      hempty ▸ ⟨[], [], rfl, nofun, rfl⟩
    exact (hcourse.episodes (fun q hq => hechoes q (List.mem_append_left _ hq)) hstart).oneResource

/-- The module agrees to the session that the host asked for, and names another resource. -/
def misnomer : Occasion Unit :=
  ⟨⟨fun _ _ _ t => .ok t⟩, (),
    .poll [.connection 0 1 (.data [0x94, 7, 0, 0, 0x40, 0, 0x41, 0, 1])]⟩

/-- The session is told as one of the MMI resource; the table has it as one of date and time. -/
theorem misnomer_told :
    ¬ ∀ (id : SessionId) (before later : List Passage) (p : Passage),
      Dialogue.passages barren [wish, misnomer] ⟨new () 8, (), []⟩ = before ++ p :: later →
      p.after.OneResource id ((before ++ [p]).flatMap Passage.told) := by
  intro hone
  have hrun : ∃ asked agreed,
      Dialogue.passages barren [wish, misnomer] ⟨new () 8, (), []⟩ = [asked, agreed] ∧
        agreed.after.resourceOf ⟨0, 1, 1⟩ = some ⟨0x00240041⟩ ∧
        naming ⟨0, 1, 1⟩ ([asked, agreed].flatMap Passage.told) =
          [.created ⟨0, 1, 1⟩ ⟨0x00400041⟩ .ok] := ⟨_, _, rfl, rfl, rfl⟩
  obtain ⟨asked, agreed, run, active, told⟩ := hrun
  obtain ⟨parts, tail, heq, -, -, hof⟩ := hone ⟨0, 1, 1⟩ [asked] [] agreed run
  obtain ⟨hne, hof⟩ := hof _ active
  rw [List.singleton_append, told, eq_comm, List.append_eq_singleton_iff] at heq
  rcases heq with ⟨-, rfl⟩ | ⟨-, rfl⟩
  · exact absurd (hof _ (List.mem_singleton_self _)) (by decide)
  · exact hne rfl

end SessionLayer

end DvbHost.Ci
