import DvbHost.Proofs.Ci.IndependentSessions
import DvbHost.Proofs.Ci.ResourceSessions
import Mathlib.Data.List.Chain
import Mathlib.Data.List.DropRight

/-!
# Menus and lists in fragments

A menu or list comes in fragments, of which the last has a tag of its own. Which fragments belong
to it is said of the calls alone: those of its kind since the last fragment that ended one, or since
the dialogue or the session ended (`announced`). Which of them the host has kept is followed piece
by piece (`gather`), and each piece keeps the two together (`Follows.next`). They are the same
exactly if no fragment of the other kind came in between, and `object_told` says what is told in
either case.
-/

namespace DvbHost.Ci

set_option autoImplicit false

namespace Mmi

/-! ## The fragments of a session -/

/-- What a call on a session is to its menus and lists. -/
inductive Piece where
  | fragment (kind : ChainedObject) (last : Bool) (data : Bytes)
  /-- The dialogue ends, or the session. -/
  | ending

namespace Piece

/-- The kind of the object that the piece is a fragment of. -/
def kind? : Piece → Option ChainedObject
  | fragment kind _ _ => some kind
  | ending => none

/-- The kind of the object that goes on after the piece. -/
def unfinished : Piece → Option ChainedObject
  | fragment kind false _ => some kind
  | _ => none

/-- An object that goes on after the one piece goes on in the other. -/
def Precedes (p q : Piece) : Prop := p.unfinished = none ∨ p.unfinished = q.kind?

instance (p q : Piece) : Decidable (p.Precedes q) := by
  unfold Precedes
  infer_instance

/-- After such a piece nothing that came before belongs to an object of the kind. -/
def ends (kind : ChainedObject) : Piece → Bool
  | fragment kind' last _ => last && kind' = kind
  | ending => true

/-- The data of a fragment of an object of the kind. -/
def dataOf (kind : ChainedObject) : Piece → Option Bytes
  | fragment kind' _ data => if kind' = kind then some data else none
  | ending => none

end Piece

open Piece

end Mmi

/-- What the call is to the menus and lists of a session. -/
def ResourceCall.piece? (s : SessionId) : ResourceCall → Option Mmi.Piece
  | .receive _ t apdu =>
    if t = s then
      match Mmi.Message.ofTag? apdu.tag with
      | some (.object kind last) => some (.fragment kind last apdu.data)
      | some .close => some .ending
      | _ => none
    else none
  | .closed _ t => if t = s then some .ending else none
  | .opened .. => none
  | .poll _ => none

namespace Mmi

open Piece

def pieces (s : SessionId) (calls : List ResourceCall) : List Piece :=
  calls.filterMap (·.piece? s)

/-- The pieces since the last one that ends an object of the kind. -/
def window (kind : ChainedObject) (past : List Piece) : List Piece :=
  past.rtakeWhile fun p => !p.ends kind

/-- The fragments of the object of the kind that goes on. -/
def announced (kind : ChainedObject) (past : List Piece) : List Bytes :=
  (window kind past).filterMap (·.dataOf kind)

/-- No object is interrupted by one of the other kind. -/
def Unbroken (ps : List Piece) : Prop := ps.IsChain Precedes

instance (ps : List Piece) : Decidable (Unbroken ps) := by
  unfold Unbroken
  infer_instance

variable {kind : ChainedObject} {past : List Piece} {p : Piece} {data : Bytes} {last : Bool}

theorem window_of_ends (h : p.ends kind = true) : window kind (past ++ [p]) = [] :=
  List.rtakeWhile_concat_neg _ _ _ (by simp [h])

theorem window_concat (h : p.ends kind = false) :
    window kind (past ++ [p]) = window kind past ++ [p] :=
  List.rtakeWhile_concat_pos _ _ _ (by simp [h])

theorem announced_of_ends (h : p.ends kind = true) : announced kind (past ++ [p]) = [] := by
  rw [announced, window_of_ends h]
  rfl

theorem announced_concat (h : p.ends kind = false) :
    announced kind (past ++ [p]) = announced kind past ++ (p.dataOf kind).toList := by
  rw [announced, window_concat h, List.filterMap_append, announced]
  cases hp : p.dataOf kind <;> simp [hp]

theorem unbroken_singleton (p : Piece) : Unbroken [p] := List.isChain_singleton _

theorem Unbroken.init {ps : List Piece} (h : Unbroken (ps ++ [p])) : Unbroken ps :=
  (List.isChain_append.mp h).1

/-- Behind a piece another one can stand that takes up what goes on. -/
theorem unbroken_concat_concat {ps : List Piece} {q : Piece} :
    Unbroken (ps ++ [p] ++ [q]) ↔ Unbroken (ps ++ [p]) ∧ p.Precedes q := by
  rw [Unbroken, Unbroken, List.isChain_append]
  simp

/-- A fragment of the kind that does not end its object is not the last. -/
theorem of_ends_self {kind' : ChainedObject} (h : kind' = kind)
    (hends : (fragment kind' last data).ends kind = false) : kind' = kind ∧ last = false := by
  rw [ends, decide_eq_true h, Bool.and_true] at hends
  exact ⟨h, hends⟩

/-! ## The fragments that are kept -/

/-- The object that goes on, if any, with its fragments. -/
abbrev Pending := Option (ChainedObject × List Bytes)

/-- The fragments that a fragment of the kind is joined to. -/
def chainFor (kind : ChainedObject) : Pending → Option (List Bytes)
  | none => some []
  | some (begun, chain) => if begun = kind then some chain else none

/-- The fragments that are kept of an object of the kind. -/
def kept (kind : ChainedObject) (g : Pending) : List Bytes := (chainFor kind g).getD []

/-- What goes on after a piece. An object of the other kind is dropped, and the piece with it. -/
def gather (g : Pending) : Piece → Pending
  | fragment kind last data =>
    if last then none else (chainFor kind g).map fun chain => (kind, chain ++ [data])
  | ending => none

/-- What has been kept, against what came. -/
structure Follows (kind : ChainedObject) (past : List Piece) (g : Pending) : Prop where
  /-- An object that goes on has a fragment. -/
  begun : ∀ kind' chain, g = some (kind', chain) → chain ≠ []
  suffix : kept kind g <:+ announced kind past
  kept_eq_iff : kept kind g = announced kind past ↔ Unbroken (window kind past)
  /-- Exactly the fragments of what goes on do not interrupt it. -/
  goes_on : Unbroken (window kind past) → ∀ kind' last data,
    Unbroken (window kind past ++ [fragment kind' last data]) ↔ (chainFor kind' g).isSome

variable {g : Pending}

theorem follows_nil (kind : ChainedObject) : Follows kind [] none :=
  ⟨nofun, List.suffix_refl _, iff_of_true rfl List.isChain_nil, fun _ _ _ _ =>
    iff_of_true (unbroken_singleton _) rfl⟩

theorem gather_of_ends (h : p.ends kind = true) : gather g p = none := by
  cases p with
  | ending => rfl
  | fragment kind' last data =>
    obtain ⟨rfl, -⟩ := (Bool.and_eq_true _ _).mp h
    rfl

/-- After a piece that ends objects of the kind all begins anew. -/
theorem follows_of_ends (h : p.ends kind = true) : Follows kind (past ++ [p]) (gather g p) := by
  have hstart := follows_nil kind
  rw [gather_of_ends h]
  refine ⟨hstart.begun, ?_, ?_, ?_⟩
  · rw [announced_of_ends h]
    exact hstart.suffix
  · rw [announced_of_ends h, window_of_ends h]
    exact hstart.kept_eq_iff
  · rw [window_of_ends h]
    exact hstart.goes_on

/-- A fragment of another kind leaves nothing of the kind. -/
theorem kept_gather_of_ne {kind' : ChainedObject} (h : kind' ≠ kind) :
    kept kind (gather g (fragment kind' last data)) = [] := by
  rw [gather]
  split_ifs
  · rfl
  · cases chainFor kind' g with
    | none => rfl
    | some chain => rw [Option.map_some, kept, chainFor, if_neg h, Option.getD_none]

/-- While an object of another kind can go on, nothing of the kind is kept. -/
theorem kept_of_chainFor {kind' : ChainedObject} {chain : List Bytes} (h : kind' ≠ kind)
    (hchain : chainFor kind' g = some chain) : kept kind g = [] := by
  cases g with
  | none => rfl
  | some object =>
    obtain ⟨begun, bodies⟩ := object
    rw [chainFor] at hchain
    split_ifs at hchain with hbegun
    rw [kept, chainFor, if_neg (hbegun ▸ h), Option.getD_none]

theorem kept_gather_self {chain : List Bytes} (hchain : chainFor kind g = some chain) :
    kept kind (gather g (fragment kind false data)) = kept kind g ++ [data] := by
  rw [gather, hchain, if_neg Bool.false_ne_true, Option.map_some, kept, chainFor, if_pos rfl, kept,
    hchain, Option.getD_some, Option.getD_some]

theorem eq_some_of_chainFor (h : chainFor kind g = none) :
    ∃ begun chain, g = some (begun, chain) ∧ begun ≠ kind := by
  cases g with
  | none => cases h
  | some object =>
    obtain ⟨begun, chain⟩ := object
    rw [chainFor] at h
    split_ifs at h with hbegun
    exact ⟨begun, chain, rfl, hbegun⟩

theorem eq_of_ne_of_ne {a b c : ChainedObject} (hab : a ≠ b) (hcb : c ≠ b) : a = c := by
  cases a <;> cases b <;> cases c <;> first | rfl | contradiction

/-- Where a fragment interrupts an object, one of the two is of the kind. -/
theorem Follows.announced_ne_nil {kind' : ChainedObject} (h : Follows kind past g)
    (hends : (fragment kind' last data).ends kind = false) (hchain : chainFor kind' g = none) :
    announced kind (past ++ [fragment kind' last data]) ≠ [] := by
  rw [announced_concat hends]
  by_cases hkind : kind' = kind
  · rw [dataOf, if_pos hkind]
    exact List.append_ne_nil_of_right_ne_nil _ (List.cons_ne_nil _ _)
  · obtain ⟨begun, chain, hg, hbegun⟩ := eq_some_of_chainFor hchain
    obtain rfl : begun = kind := eq_of_ne_of_ne hbegun (Ne.symm hkind)
    have hkept : kept begun g = chain := by rw [hg, kept, chainFor, if_pos rfl, Option.getD_some]
    have hpast : announced begun past ≠ [] := fun hnil =>
      h.begun begun chain hg (hkept.symm.trans (List.suffix_nil.mp (hnil ▸ h.suffix)))
    exact List.append_ne_nil_of_left_ne_nil hpast _

/-- A fragment that interrupts an object of the other kind is dropped with what was kept. -/
theorem Follows.interrupted {kind' : ChainedObject} (h : Follows kind past g)
    (hends : (fragment kind' last data).ends kind = false) (hchain : chainFor kind' g = none) :
    Follows kind (past ++ [fragment kind' last data]) (gather g (fragment kind' last data)) := by
  have hgather : gather g (fragment kind' last data) = none := by
    rw [gather, hchain, Option.map_none, ite_self]
  have hbroken : ¬Unbroken (window kind (past ++ [fragment kind' last data])) := fun hun => by
    rw [window_concat hends] at hun
    have hgoes := (h.goes_on hun.init kind' last data).mp hun
    rw [hchain] at hgoes
    cases hgoes
  rw [hgather]
  -- Nothing is kept from here on until the kind begins anew; something was announced.
  exact ⟨nofun, List.nil_suffix, iff_of_false (h.announced_ne_nil hends hchain).symm hbroken,
    fun hun => absurd hun hbroken⟩

/-- A fragment that interrupts nothing is joined to what was kept of its kind. -/
theorem Follows.joined {kind' : ChainedObject} {chain : List Bytes} (h : Follows kind past g)
    (hends : (fragment kind' last data).ends kind = false)
    (hchain : chainFor kind' g = some chain) :
    Follows kind (past ++ [fragment kind' last data]) (gather g (fragment kind' last data)) := by
  have hunbroken : Unbroken (window kind (past ++ [fragment kind' last data])) ↔
      Unbroken (window kind past) := by
    rw [window_concat hends]
    exact ⟨Unbroken.init, fun hun =>
      (h.goes_on hun kind' last data).mpr (by rw [hchain, Option.isSome_some])⟩
  have hgather : gather g (fragment kind' last data) =
      if last then none else some (kind', chain ++ [data]) := by
    rw [gather, hchain, Option.map_some]
  refine ⟨fun begun bodies hbegun => ?_, ?_, ?_, fun hun begun last' data' => ?_⟩
  · rw [hgather] at hbegun
    split_ifs at hbegun
    obtain ⟨-, rfl⟩ := hbegun
    exact List.append_ne_nil_of_right_ne_nil _ (List.cons_ne_nil _ _)
  · by_cases hkind : kind' = kind
    · obtain ⟨rfl, rfl⟩ := of_ends_self hkind hends
      obtain ⟨dropped, hdropped⟩ := h.suffix
      rw [kept_gather_self hchain, announced_concat hends, dataOf, if_pos rfl]
      exact ⟨dropped, by rw [← hdropped, List.append_assoc, Option.toList_some]⟩
    · rw [kept_gather_of_ne hkind]
      exact List.nil_suffix
  · rw [hunbroken, ← h.kept_eq_iff, announced_concat hends]
    by_cases hkind : kind' = kind
    · obtain ⟨rfl, rfl⟩ := of_ends_self hkind hends
      rw [kept_gather_self hchain, dataOf, if_pos rfl, Option.toList_some,
        List.append_cancel_right_eq]
    · rw [kept_gather_of_ne hkind, kept_of_chainFor hkind hchain, dataOf, if_neg hkind,
        Option.toList_none, List.append_nil]
  · -- What goes on behind the fragment is of its kind, or nothing if it is the last.
    rw [window_concat hends] at hun ⊢
    rw [unbroken_concat_concat, and_iff_right hun, hgather, Precedes]
    cases last with
    | true => simp [unfinished, chainFor]
    | false =>
      by_cases hbegun : kind' = begun <;> simp [unfinished, chainFor, kind?, hbegun]

theorem Follows.next (h : Follows kind past g) (p : Piece) :
    Follows kind (past ++ [p]) (gather g p) := by
  cases hends : p.ends kind with
  | true => exact follows_of_ends hends
  | false =>
    cases p with
    | ending => cases hends
    | fragment kind' last data =>
      cases hchain : chainFor kind' g with
      | none => exact h.interrupted hends hchain
      | some chain => exact h.joined hends hchain

theorem Follows.suffix_of_chainFor {chain : List Bytes} (h : Follows kind past g)
    (hchain : chainFor kind g = some chain) : chain <:+ announced kind past := by
  have hsuffix := h.suffix
  rwa [kept, hchain, Option.getD_some] at hsuffix

/-- A fragment finds all that belongs to it exactly if nothing was interrupted. -/
theorem Follows.unbroken_iff (h : Follows kind past g) (last : Bool) (data : Bytes) :
    Unbroken (window kind past ++ [fragment kind last data]) ↔
      chainFor kind g = some (announced kind past) := by
  constructor
  · intro hun
    obtain ⟨chain, hchain⟩ :=
      Option.isSome_iff_exists.mp ((h.goes_on hun.init kind last data).mp hun)
    rw [← h.kept_eq_iff.mpr hun.init, kept, hchain, Option.getD_some]
  · intro hchain
    have hwindow : Unbroken (window kind past) :=
      h.kept_eq_iff.mp (by rw [kept, hchain, Option.getD_some])
    exact (h.goes_on hwindow kind last data).mpr (by rw [hchain, Option.isSome_some])

/-- What goes on after all the pieces. -/
def gathered (past : List Piece) : Pending := past.foldl gather none

theorem follows_gathered (kind : ChainedObject) (past : List Piece) :
    Follows kind past (gathered past) := by
  induction past using List.reverseRecOn with
  | nil => exact follows_nil kind
  | append_singleton past p ih =>
    rw [gathered, List.foldl_append]
    exact ih.next p

/-! ## What is kept and told at a call -/

/-- What a call does. -/
def called (m : Mmi) : ResourceCall → Reaction Mmi
  | .receive _ t apdu => m.receive t apdu
  | .closed _ t => .done (m.closed t)
  | .opened .. => .done m
  | .poll _ => .done m

/-- The octets of the fragments that go on are those that the session's chain has. -/
def Keeps (m : Mmi) (s : SessionId) (g : Pending) : Prop :=
  m.chains.get? s = g.map fun object => (object.1, object.2.flatten)

variable {m m' : Mmi} {s : SessionId} {menu : Menu}

theorem Keeps.of_only (h : m.Keeps s g) (hsame : m'.only s = m.only s) : m'.Keeps s g := by
  rw [Keeps, ← KeyedList.get?_only, show m'.chains.only s = m.chains.only s from
    congrArg Mmi.chains hsame, KeyedList.get?_only]
  exact h

theorem keeps_close (m : Mmi) (s : SessionId) : (m.close s).Keeps s none := by
  rw [Keeps, close, KeyedList.get?_erase, if_pos rfl, Option.map_none]

theorem joined_of_keeps (h : m.Keeps s g) :
    m.joined s kind data =
      (chainFor kind g).elim (.error (.protocolViolation .interleavedObject)) fun chain =>
        .ok (chain.flatten ++ data) := by
  rw [joined, h]
  cases g with
  | none => rfl
  | some object =>
    obtain ⟨begun, chain⟩ := object
    rw [Option.map_some, chainFor]
    dsimp only
    split_ifs <;> rfl

/-- A fragment is joined to what is kept, and at the last one the whole is read and told. -/
theorem keeps_object (h : m.Keeps s g) (kind : ChainedObject) (last : Bool) (data : Bytes) :
    (m.object s kind last data).state.Keeps s (gather g (fragment kind last data)) := by
  rw [object, joined_of_keeps h, gather]
  cases chainFor kind g with
  | none =>
    rw [Option.map_none, ite_self]
    exact keeps_close m s
  | some chain =>
    rw [Option.elim_some]
    dsimp only
    split_ifs
    · cases Menu.read (chain.flatten ++ data) <;> exact keeps_close m s
    · rw [Reaction.done, Keeps, KeyedList.get?_put, if_pos rfl]
      simp

theorem event_inj {kind' : ChainedObject} {menu' : Menu} :
    kind.event menu = kind'.event menu' ↔ kind = kind' ∧ menu = menu' := by
  cases kind <;> cases kind' <;> simp [ChainedObject.event]

theorem mem_events_object (h : m.Keeps s g) {kind' : ChainedObject} :
    .mmi s (kind.event menu) ∈ (m.object s kind' last data).events ↔
      (kind' = kind ∧ last = true) ∧
        ∃ chain, chainFor kind g = some chain ∧ Menu.read (chain.flatten ++ data) = .ok menu := by
  have hnot {p : Prop} : (AppEvent.mmi s (kind.event menu) ∈ [] ↔ p) ↔ ¬p :=
    ⟨fun hp hq => List.not_mem_nil (hp.mpr hq), fun hq => iff_of_false List.not_mem_nil hq⟩
  rw [object, joined_of_keeps h]
  cases hchain : chainFor kind' g with
  | none =>
    refine hnot.mpr ?_
    rintro ⟨⟨rfl, -⟩, chain, hsome, -⟩
    rw [hchain] at hsome
    cases hsome
  | some chain =>
    rw [Option.elim_some]
    cases last with
    | false => exact hnot.mpr fun hlast => Bool.false_ne_true hlast.1.2
    | true =>
      dsimp only
      rw [if_pos rfl]
      cases hread : Menu.read (chain.flatten ++ data) with
      | error e =>
        refine hnot.mpr ?_
        rintro ⟨⟨rfl, -⟩, chain', hsome, hok⟩
        obtain rfl : chain = chain' := Option.some.inj (hchain.symm.trans hsome)
        rw [hread] at hok
        cases hok
      | ok menu' =>
        dsimp only
        rw [Reaction.emit, List.mem_singleton, AppEvent.mmi.injEq, event_inj, eq_self, true_and]
        constructor
        · rintro ⟨rfl, rfl⟩
          exact ⟨⟨rfl, rfl⟩, chain, hchain, hread⟩
        · rintro ⟨⟨rfl, -⟩, chain', hsome, hok⟩
          obtain rfl : chain = chain' := Option.some.inj (hchain.symm.trans hsome)
          exact ⟨rfl, (Except.ok.inj (hread.symm.trans hok)).symm⟩

/-- No menu or list of the session is told. -/
def TellsNone (s : SessionId) (r : Reaction Mmi) : Prop :=
  ∀ (kind : ChainedObject) (menu : Menu), .mmi s (kind.event menu) ∉ r.events

theorem tellsNone_of_nil {r : Reaction Mmi} (h : r.events = []) : TellsNone s r :=
  fun _ _ => h ▸ List.not_mem_nil

theorem tellsNone_emit {event : AppEvent}
    (h : ∀ (kind : ChainedObject) (menu : Menu), event ≠ .mmi s (kind.event menu)) :
    TellsNone s (.emit m event) :=
  fun kind menu hmem => h kind menu (List.mem_singleton.mp hmem).symm

/-- A call leaves a session's objects alone, ends them, or brings a fragment. -/
theorem called_cases (m : Mmi) (s : SessionId) (c : ResourceCall) :
    (c.piece? s = none ∧ (m.called c).state.only s = m.only s ∧ TellsNone s (m.called c)) ∨
      (c.piece? s = some .ending ∧ (m.called c).state.only s = (m.close s).only s ∧
        TellsNone s (m.called c)) ∨
      ∃ kind last data, c.piece? s = some (.fragment kind last data) ∧
        m.called c = m.object s kind last data := by
  cases c with
  | opened ctx t => exact .inl ⟨rfl, rfl, tellsNone_of_nil rfl⟩
  | poll ctx => exact .inl ⟨rfl, rfl, tellsNone_of_nil rfl⟩
  | closed ctx t =>
    by_cases ht : t = s
    · subst ht
      exact .inr (.inl ⟨if_pos rfl, rfl, tellsNone_of_nil rfl⟩)
    · exact .inl ⟨if_neg ht, only_close_of_ne ht, tellsNone_of_nil rfl⟩
  | receive ctx t apdu =>
    rw [ResourceCall.piece?]
    by_cases ht : t = s
    · subst ht
      rw [if_pos rfl, called, receive]
      cases Message.ofTag? apdu.tag with
      | none => exact .inl ⟨rfl, rfl, tellsNone_of_nil rfl⟩
      | some message =>
        cases message with
        | close =>
          refine .inr (.inl ⟨rfl, rfl, tellsNone_emit fun kind menu heq => ?_⟩)
          cases kind <;> cases heq
        | displayControl =>
          refine .inl ⟨rfl, ?_⟩
          rw [displayControl]
          cases displayReply apdu.data with
          | error e => exact ⟨rfl, tellsNone_of_nil rfl⟩
          | ok reply =>
            exact ⟨by rw [Reaction.state_send], tellsNone_of_nil (Reaction.events_send ..)⟩
        | enquiry =>
          refine .inl ⟨rfl, ?_⟩
          dsimp only
          rw [enquiry.eq_def]
          split
          · refine ⟨rfl, tellsNone_emit fun kind menu heq => ?_⟩
            cases kind <;> cases heq
          · exact ⟨rfl, tellsNone_of_nil rfl⟩
        | object kind last => exact .inr (.inr ⟨kind, last, apdu.data, rfl, rfl⟩)
        | ignored => exact .inl ⟨rfl, rfl, tellsNone_of_nil rfl⟩
    · have hspared : (m.receive t apdu).Spares s (only s) m := spares_receive ht
      refine .inl ⟨if_neg ht, congrArg Reaction.state hspared, fun kind menu hmem => ?_⟩
      exact List.filter_eq_nil_iff.mp (congrArg Reaction.events hspared) _ hmem
        (beq_self_eq_true s)

/-- What goes on of a session's objects after a call. -/
theorem keeps_called (h : m.Keeps s g) (c : ResourceCall) :
    (m.called c).state.Keeps s ((c.piece? s).elim g (gather g)) := by
  obtain ⟨hpiece, hstate, -⟩ | ⟨hpiece, hstate, -⟩ | ⟨kind, last, data, hpiece, hcalled⟩ :=
    m.called_cases s c
  · rw [hpiece]
    exact h.of_only hstate
  · rw [hpiece]
    exact (m.keeps_close s).of_only hstate
  · rw [hpiece, hcalled]
    exact keeps_object h kind last data

/-- Menus and lists are told at their last fragments only. -/
theorem mem_events_called (h : m.Keeps s g) (c : ResourceCall) :
    .mmi s (kind.event menu) ∈ (m.called c).events ↔
      ∃ data, c.piece? s = some (.fragment kind true data) ∧
        ∃ chain, chainFor kind g = some chain ∧ Menu.read (chain.flatten ++ data) = .ok menu := by
  obtain ⟨hpiece, -, hnone⟩ | ⟨hpiece, -, hnone⟩ | ⟨kind', last, data, hpiece, hcalled⟩ :=
    m.called_cases s c
  · refine iff_of_false (hnone kind menu) ?_
    rintro ⟨data, hdata, -⟩
    cases hpiece.symm.trans hdata
  · refine iff_of_false (hnone kind menu) ?_
    rintro ⟨data, hdata, -⟩
    cases hpiece.symm.trans hdata
  · rw [hcalled, mem_events_object h]
    constructor
    · rintro ⟨⟨rfl, rfl⟩, hwhole⟩
      exact ⟨data, hpiece, hwhole⟩
    · rintro ⟨data', hdata', hwhole⟩
      cases hpiece.symm.trans hdata'
      exact ⟨⟨rfl, rfl⟩, hwhole⟩

end Mmi

/-! ## All calls -/

namespace HostResource

open Mmi Piece

variable {ω ρ α : Type} (guests : Guests ω ρ α) {m : Mmi} {g : Pending} {s : SessionId}
  {c : ResourceCall} {r : Reaction (HostResource ρ)}

theorem call_mmi (m : Mmi) (world : ω) (c : ResourceCall) :
    ((mmi m : HostResource ρ).call guests world c).1 = (m.called c).map mmi := by
  cases c <;> rfl

theorem reactions_cons (r : HostResource ρ) (world : ω) (c : ResourceCall)
    (calls : List ResourceCall) :
    r.reactions guests world (c :: calls) =
      (c, (r.call guests world c).1) ::
        (r.call guests world c).1.state.reactions guests (r.call guests world c).2 calls := rfl

/-- At each call of a run the resource keeps what came in the calls before. -/
theorem keeps_reactions (h : m.Keeps s g) {world : ω} {calls : List ResourceCall}
    {before later : List (ResourceCall × Reaction (HostResource ρ))}
    (run : (mmi m).reactions guests world calls = before ++ (c, r) :: later) :
    ∃ m' : Mmi, m'.Keeps s ((pieces s (before.map Prod.fst)).foldl gather g) ∧
      r.events = (m'.called c).events := by
  induction before generalizing m g world calls with
  | nil =>
    cases calls with
    | nil => cases run
    | cons c' calls =>
      rw [reactions_cons, call_mmi] at run
      obtain ⟨hhead, -⟩ := List.cons.inj run
      obtain ⟨rfl, rfl⟩ := Prod.mk.inj hhead
      exact ⟨m, h, rfl⟩
  | cons b before ih =>
    cases calls with
    | nil => cases run
    | cons c' calls =>
      rw [reactions_cons, call_mmi] at run
      obtain ⟨rfl, hrest⟩ := List.cons.inj run
      obtain ⟨m', hkeeps, hevents⟩ := ih (keeps_called h c') hrest
      refine ⟨m', ?_, hevents⟩
      rw [List.map_cons, pieces, List.filterMap_cons]
      cases hpiece : c'.piece? s with
      | none =>
        rw [hpiece] at hkeeps
        exact hkeeps
      | some p =>
        rw [hpiece] at hkeeps
        exact hkeeps

/-- In every sequence of calls a menu or list is told at a last fragment of its kind only. If no
object was interrupted since the last fragment that ended one of the kind, or since the dialogue or
the session ended, it is told exactly if all fragments of the kind since then state one together,
and is that. If one was interrupted, it is what the fragments state that were kept, and some are
missing from them. -/
theorem object_told (world : ω) (calls : List ResourceCall)
    (before later : List (ResourceCall × Reaction (HostResource ρ))) (c : ResourceCall)
    (r : Reaction (HostResource ρ)) (s : SessionId) (kind : ChainedObject) (menu : Menu)
    (run : (mmi .empty).reactions guests world calls = before ++ (c, r) :: later) :
    (.mmi s (kind.event menu) ∈ r.events →
      ∃ data, c.piece? s = some (.fragment kind true data)) ∧
    ∀ data, c.piece? s = some (.fragment kind true data) →
      let past := pieces s (before.map Prod.fst)
      (Unbroken (window kind past ++ [.fragment kind true data]) →
        (.mmi s (kind.event menu) ∈ r.events ↔
          Menu.read ((announced kind past).flatten ++ data) = .ok menu)) ∧
      (¬Unbroken (window kind past ++ [.fragment kind true data]) →
        (.mmi s (kind.event menu) ∈ r.events ↔
          ∃ chain, chainFor kind (gathered past) = some chain ∧
            chain <:+ announced kind past ∧ chain ≠ announced kind past ∧
            Menu.read (chain.flatten ++ data) = .ok menu)) := by
  have hempty : Mmi.empty.Keeps s none := rfl
  obtain ⟨m, hkeeps, hevents⟩ := keeps_reactions guests hempty run
  have hfollows := follows_gathered kind (pieces s (before.map Prod.fst))
  rw [hevents, mem_events_called hkeeps c]
  refine ⟨fun ⟨data, hdata, _⟩ => ⟨data, hdata⟩, fun data hdata => ?_⟩
  refine ⟨fun hun => ?_, fun hbroken => ?_⟩
  · have hchain := (hfollows.unbroken_iff true data).mp hun
    constructor
    · rintro ⟨data', hdata', chain, hchain', hread⟩
      cases hdata.symm.trans hdata'
      cases hchain.symm.trans hchain'
      exact hread
    · exact fun hread => ⟨data, hdata, _, hchain, hread⟩
  · constructor
    · rintro ⟨data', hdata', chain, hchain, hread⟩
      cases hdata.symm.trans hdata'
      refine ⟨chain, hchain, hfollows.suffix_of_chainFor hchain, fun heq => hbroken ?_, hread⟩
      exact (hfollows.unbroken_iff true data).mpr (heq ▸ hchain)
    · rintro ⟨chain, hchain, -, -, hread⟩
      exact ⟨data, hdata, chain, hchain, hread⟩

/-- A call with a unit on the first session. -/
def incoming (tag : Nat) (data : Bytes) : ResourceCall := .receive ⟨0, 0, []⟩ ⟨0, 1, 1⟩ ⟨tag, data⟩

/-- Three empty texts. -/
def emptyTexts : Bytes := [0x9F, 0x88, 3, 0, 0x9F, 0x88, 3, 0, 0x9F, 0x88, 3, 0]

/-- A menu in two fragments is told as a whole. -/
theorem object_told_menu :
    ∃ before r, (mmi .empty : HostResource Unit).reactions CommonInterface.idleGuests ([], [])
        [incoming 0x9F880A [0xFF], incoming 0x9F8809 emptyTexts] =
          before ++ [(incoming 0x9F8809 emptyTexts, r)] ∧
      Unbroken (window .menu (pieces ⟨0, 1, 1⟩ (before.map Prod.fst)) ++
        [.fragment .menu true emptyTexts]) ∧
      .mmi ⟨0, 1, 1⟩ (.menu ⟨"", "", "", []⟩) ∈ r.events := by
  have hrun : ∃ before r, (mmi .empty : HostResource Unit).reactions CommonInterface.idleGuests
      ([], []) [incoming 0x9F880A [0xFF], incoming 0x9F8809 emptyTexts] =
        before ++ [(incoming 0x9F8809 emptyTexts, r)] ∧
      pieces ⟨0, 1, 1⟩ (before.map Prod.fst) = [.fragment .menu false [0xFF]] := ⟨[_], _, rfl, rfl⟩
  obtain ⟨before, r, run, past⟩ := hrun
  have hun : Unbroken (window .menu (pieces ⟨0, 1, 1⟩ (before.map Prod.fst)) ++
      [.fragment .menu true emptyTexts]) := by
    rw [past]
    decide
  have hread : Menu.read ((announced .menu (pieces ⟨0, 1, 1⟩ (before.map Prod.fst))).flatten ++
      emptyTexts) = .ok ⟨"", "", "", []⟩ := by
    rw [past]
    decide
  have hout := (object_told CommonInterface.idleGuests ([], []) _ before [] _ r ⟨0, 1, 1⟩ .menu
    ⟨"", "", "", []⟩ run).2 emptyTexts rfl
  exact ⟨before, r, run, hun, (hout.1 hun).mpr hread⟩

/-- After a fragment of a list in between, the last fragment of a menu is told without the first. -/
theorem interrupted_menu_told :
    ¬ ∀ (before later : List (ResourceCall × Reaction (HostResource Unit))) (c : ResourceCall)
        (r : Reaction (HostResource Unit)) (kind : ChainedObject) (menu : Menu),
      (mmi .empty).reactions CommonInterface.idleGuests ([], [])
        [incoming 0x9F880A [0], incoming 0x9F880D [0], incoming 0x9F8809 (0xFF :: emptyTexts)] =
          before ++ (c, r) :: later →
      .mmi ⟨0, 1, 1⟩ (kind.event menu) ∈ r.events →
      ∃ data, c.piece? ⟨0, 1, 1⟩ = some (.fragment kind true data) ∧
        Menu.read ((announced kind (pieces ⟨0, 1, 1⟩ (before.map Prod.fst))).flatten ++ data) =
          .ok menu := by
  intro hwhole
  have hrun : ∃ before r, (mmi .empty : HostResource Unit).reactions CommonInterface.idleGuests
      ([], []) [incoming 0x9F880A [0], incoming 0x9F880D [0],
        incoming 0x9F8809 (0xFF :: emptyTexts)] =
          before ++ [(incoming 0x9F8809 (0xFF :: emptyTexts), r)] ∧
      pieces ⟨0, 1, 1⟩ (before.map Prod.fst) =
        [.fragment .menu false [0], .fragment .list false [0]] ∧
      r.events = [.mmi ⟨0, 1, 1⟩ (.menu ⟨"", "", "", []⟩)] := ⟨[_, _], _, rfl, rfl, by rfl⟩
  obtain ⟨before, r, run, past, told⟩ := hrun
  obtain ⟨data, hdata, hread⟩ := hwhole before [] _ r .menu ⟨"", "", "", []⟩ run
    (told ▸ List.mem_singleton_self _)
  cases hdata
  rw [past] at hread
  revert hread
  decide

end HostResource

end DvbHost.Ci
