import DvbHost.Ci.Slot
import Mathlib.Data.List.Basic

/-!
# Laws of slots

`Slot.connection?` is the view: every operation is described by what it does to an arbitrary
connection. Connections are numbered by octets from 1, so a slot can name all of its connections
only if there are fewer than 256 of them; `Slot.Fits` says so where it matters.
-/

namespace DvbHost.Ci

set_option autoImplicit false

namespace TransportEvent

/-- The slot that an event is about. -/
def slot : TransportEvent → Nat
  | connection slot _ _ => slot
  | slotClosed slot => slot

/-- What events tell of one connection. -/
def noticesOf (slot : Nat) (tcid : UInt8) (events : List TransportEvent) : List Notice :=
  events.filterMap fun
    | connection slot' tcid' notice => if slot' = slot ∧ tcid' = tcid then some notice else none
    | slotClosed _ => none

variable (slot' : Nat) (tcid : UInt8)

theorem noticesOf_append (es es' : List TransportEvent) :
    noticesOf slot' tcid (es ++ es') = noticesOf slot' tcid es ++ noticesOf slot' tcid es' :=
  List.filterMap_append

theorem noticesOf_eq_nil {slot' : Nat} {es : List TransportEvent}
    (h : ∀ e ∈ es, e.slot ≠ slot') : noticesOf slot' tcid es = [] := by
  refine List.filterMap_eq_nil_iff.mpr fun e he => ?_
  cases e with
  | connection s t n => exact if_neg fun hc => h _ he hc.1
  | slotClosed s => rfl

theorem mem_noticesOf {slot' : Nat} {tcid : UInt8} {n : Notice} {es : List TransportEvent} :
    n ∈ noticesOf slot' tcid es ↔ connection slot' tcid n ∈ es := by
  rw [noticesOf, List.mem_filterMap]
  constructor
  · rintro ⟨e, he, hn⟩
    cases e with
    | slotClosed s => cases hn
    | connection s t n' =>
      dsimp only at hn
      split at hn
      · next heq =>
        obtain ⟨rfl, rfl⟩ := heq
        obtain rfl := Option.some.inj hn
        exact he
      · cases hn
  · intro he
    exact ⟨_, he, if_pos ⟨rfl, rfl⟩⟩

/-- What is told of one connection at once. -/
theorem noticesOf_map_connection (tcid' : UInt8) (notices : List Notice) :
    noticesOf slot' tcid (notices.map (connection slot' tcid')) =
      if tcid' = tcid then notices else [] := by
  rw [noticesOf, List.filterMap_map]
  by_cases h : tcid' = tcid
  · simp only [Function.comp_def, h, and_self, if_true, List.filterMap_some]
  · simp only [Function.comp_def, h, and_false, if_false, List.filterMap_none]

end TransportEvent

open TransportEvent

namespace Slot

variable {s s' : Slot} {tcid tcid' : UInt8} {c c' : Connection}

/-- Every connection of the slot has a number. -/
def Fits (s : Slot) : Prop := s.connections.length < 256

theorem connection?_eq_some :
    s.connection? tcid = some c ↔ tcid ≠ 0 ∧ s.connections[tcid.toNat - 1]? = some c := by
  rw [connection?]
  by_cases h : tcid = 0
  · simp [h]
  · simp [h]

theorem toNat_pos (h : tcid ≠ 0) : 0 < tcid.toNat :=
  Nat.pos_of_ne_zero fun h0 => h (UInt8.toNat_inj.mp h0)

/-- Writing a connection that is there changes no other. -/
theorem connection?_put (h : s.connection? tcid = some c) :
    (s.put tcid c').connection? tcid' = if tcid' = tcid then some c' else s.connection? tcid' := by
  obtain ⟨h0, hc⟩ := connection?_eq_some.mp h
  obtain ⟨hlt, -⟩ := List.getElem?_eq_some_iff.mp hc
  by_cases he : tcid' = tcid
  · rw [if_pos he, he, connection?_eq_some]
    exact ⟨h0, by rw [put, List.getElem?_set_self hlt]⟩
  · rw [if_neg he, connection?, connection?]
    by_cases h0' : tcid' = 0
    · rw [if_pos h0', if_pos h0']
    · have hne : tcid.toNat - 1 ≠ tcid'.toNat - 1 := by
        intro hsub
        have hpos := toNat_pos h0
        have hpos' := toNat_pos h0'
        exact he (UInt8.toNat_inj.mp (by omega))
      rw [if_neg h0', if_neg h0', put, List.getElem?_set_ne hne]

theorem length_put : (s.put tcid c).connections.length = s.connections.length :=
  List.length_set

/-- A connection that is begun was there and idle. -/
theorem of_begin? (fits : s.Fits) (h : s.begin? = some (tcid, s')) :
    ∃ c, s.connection? tcid = some c ∧ c.state = .idle ∧ s' = s.put tcid (c.begin tcid) := by
  rw [begin?] at h
  split at h
  · cases h
  · next i hi =>
    obtain ⟨hlt, hidle, -⟩ := List.findIdx?_eq_some_iff_getElem.mp hi
    obtain ⟨c, hc, he⟩ := Option.map_eq_some_iff.mp h
    obtain ⟨rfl, rfl⟩ := Prod.mk.inj he
    have hnat : (UInt8.ofNat (i + 1)).toNat = i + 1 := by
      rw [UInt8.toNat_ofNat']
      exact Nat.mod_eq_of_lt (by rw [Fits] at fits; omega)
    obtain ⟨-, hget⟩ := connection?_eq_some.mp hc
    rw [hnat, Nat.add_sub_cancel, List.getElem?_eq_getElem hlt] at hget
    obtain rfl := Option.some.inj hget
    exact ⟨_, hc, by simpa using hidle, rfl⟩

theorem connection?_cleared : s.cleared.connection? tcid = (s.connection? tcid).map fun _ => .idle := by
  rw [connection?, connection?, cleared, List.getElem?_map]
  split <;> rfl

/-- Whether the slot has the connection as an open one. -/
def hasOpen (s : Slot) (tcid : UInt8) : Bool := (s.connection? tcid).any Connection.isOpen

theorem hasOpen_of_some (h : s.connection? tcid = some c) : s.hasOpen tcid = c.isOpen := by
  rw [hasOpen, h]
  rfl

theorem hasOpen_of_connection? (h : s.connection? tcid = s'.connection? tcid) :
    s.hasOpen tcid = s'.hasOpen tcid := by
  rw [hasOpen, h, hasOpen]

theorem hasOpen_put_self (h : s.connection? tcid = some c) :
    (s.put tcid c').hasOpen tcid = c'.isOpen :=
  hasOpen_of_some (by rw [connection?_put h, if_pos rfl])

theorem hasOpen_put_ne (h : s.connection? tcid = some c) (hne : tcid' ≠ tcid) :
    (s.put tcid c').hasOpen tcid' = s.hasOpen tcid' :=
  hasOpen_of_connection? (by rw [connection?_put h, if_neg hne])

theorem hasOpen_put_of_isOpen (h : s.connection? tcid = some c) (hopen : c'.isOpen = c.isOpen)
    (tcid' : UInt8) : (s.put tcid c').hasOpen tcid' = s.hasOpen tcid' := by
  by_cases he : tcid' = tcid
  · rw [he, hasOpen_put_self h, hasOpen_of_some h, hopen]
  · exact hasOpen_put_ne h he

theorem hasOpen_cleared : s.cleared.hasOpen tcid = false := by
  rw [hasOpen, connection?_cleared]
  cases s.connection? tcid <;> rfl

theorem hasOpen_new (device : Nat) (number : UInt8) (config : SlotConfig) (n : Nat) :
    (new device number config n).hasOpen tcid = false := by
  cases h : (new device number config n).connection? tcid with
  | none => rw [hasOpen, h]; rfl
  | some c =>
    obtain ⟨-, hc⟩ := connection?_eq_some.mp h
    have hidle : c = .idle := List.eq_of_mem_replicate (List.mem_of_getElem? hc)
    rw [hasOpen_of_some h, hidle]
    rfl

/-! ## The end of all connections -/

/-- What is found of one connection in a list that goes through connections numbered from `first`
on. -/
theorem found_from {β : Type} (listed : Nat → List Connection → List β) (found : Connection → List β)
    (hnil : ∀ n, listed n [] = [])
    (hcons : ∀ n c cs, listed n (c :: cs) =
      (if UInt8.ofNat n = tcid then found c else []) ++ listed (n + 1) cs)
    {first : Nat} {cs : List Connection} (fits : first + cs.length ≤ 256) :
    listed first cs =
      if first ≤ tcid.toNat then (cs[tcid.toNat - first]?.map found).getD [] else [] := by
  induction cs generalizing first with
  | nil => simp [hnil]
  | cons c cs ih =>
    rw [List.length_cons] at fits
    have hnat : (UInt8.ofNat first).toNat = first := by
      rw [UInt8.toNat_ofNat']
      exact Nat.mod_eq_of_lt (by omega)
    have hself : UInt8.ofNat first = tcid ↔ first = tcid.toNat := by
      rw [← UInt8.toNat_inj, hnat]
    rw [hcons, ih (by omega)]
    rcases Nat.lt_trichotomy first tcid.toNat with hlt | heq | hgt
    · rw [if_neg (fun h => absurd (hself.mp h) (by omega)), if_pos (by omega : first + 1 ≤ _),
        if_pos (by omega : first ≤ _), List.nil_append,
        show tcid.toNat - first = tcid.toNat - (first + 1) + 1 by omega, List.getElem?_cons_succ]
    · rw [if_pos (hself.mpr heq), if_neg (by omega : ¬ first + 1 ≤ _), if_pos (by omega : first ≤ _),
        List.append_nil, heq, Nat.sub_self, List.getElem?_cons_zero]
      rfl
    · rw [if_neg (fun h => absurd (hself.mp h) (by omega)), if_neg (by omega : ¬ first + 1 ≤ _),
        if_neg (by omega : ¬ first ≤ _)]
      rfl

/-- What is found of one connection in a list that goes through all of a slot. -/
theorem found_of_fits {β : Type} (fits : s.Fits) (listed : Nat → List Connection → List β)
    (found : Connection → List β) (hnil : ∀ n, listed n [] = [])
    (hcons : ∀ n c cs, listed n (c :: cs) =
      (if UInt8.ofNat n = tcid then found c else []) ++ listed (n + 1) cs) :
    listed 1 s.connections = ((s.connection? tcid).map found).getD [] := by
  rw [Fits] at fits
  rw [found_from listed found hnil hcons (by omega), connection?]
  by_cases h0 : tcid = 0
  · rw [if_pos h0, h0]
    rfl
  · have hpos := toNat_pos h0
    rw [if_neg h0, if_pos (by omega)]

/-- At the end of a slot every open connection is told to be closed, once. -/
theorem noticesOf_closing (fits : s.Fits) (slot : Nat) :
    noticesOf slot tcid (s.closing slot) = if s.hasOpen tcid then [.closed] else [] := by
  have hfarewells : noticesOf slot tcid (farewells slot 1 s.connections) =
      ((s.connection? tcid).map fun c => c.farewell.toList).getD [] := by
    apply found_of_fits fits (fun n cs => noticesOf slot tcid (farewells slot n cs))
    · exact fun n => rfl
    · intro n c cs
      rw [farewells, noticesOf_append, noticesOf_map_connection]
  have hlast : noticesOf slot tcid [slotClosed slot] = [] := rfl
  rw [closing, noticesOf_append, hfarewells, hlast, List.append_nil, hasOpen]
  cases s.connection? tcid with
  | none => rfl
  | some c =>
    change c.farewell.toList = if c.isOpen then [.closed] else []
    rw [Connection.farewell]
    split <;> rfl

theorem slot_of_mem_farewells {slot first : Nat} {cs : List Connection} {e : TransportEvent}
    (h : e ∈ farewells slot first cs) : e.slot = slot := by
  induction cs generalizing first with
  | nil => cases h
  | cons c cs ih =>
    rw [farewells] at h
    rcases List.mem_append.mp h with h | h
    · obtain ⟨n, -, rfl⟩ := List.mem_map.mp h
      rfl
    · exact ih h

theorem slot_of_mem_closing {slot : Nat} {e : TransportEvent} (h : e ∈ s.closing slot) :
    e.slot = slot := by
  rcases List.mem_append.mp h with h | h
  · exact slot_of_mem_farewells h
  · rw [List.mem_singleton.mp h]
    rfl

end Slot

end DvbHost.Ci
