import DvbHost.Proofs.Ci.SessionPassages
import Mathlib.Data.List.Nodup
import Mathlib.Data.List.Perm.Subperm

/-!
# How many sessions there are

The table keeps a count beside its sessions. `SessionTable.Tallied` says that the two agree and that
the count is within its bound, and every change keeps this. There are at most 65534 sessions, but
65535 numbers that can be given. So while there is room some number is free, and the search for one
ends wherever it begins.
-/

namespace DvbHost

set_option autoImplicit false

/-! ## Sums over keyed lists -/

namespace KeyedList

variable {κ ν : Type} [DecidableEq κ] (f : ν → Nat) (l : KeyedList κ ν) (k : κ) (v : ν)

/-- The sum of a size of the values. -/
def total : KeyedList κ ν → Nat
  | [] => 0
  | (_, v) :: l => f v + total l

/-- The size of the value of a key, 0 if it has none. -/
def sizeAt : Nat := ((l.get? k).map f).getD 0

omit [DecidableEq κ] in
theorem total_cons (k' : κ) (v : ν) : total f ((k', v) :: l) = f v + total f l := rfl

theorem sizeAt_cons (k' : κ) (v : ν) :
    sizeAt f ((k', v) :: l) k = if k = k' then f v else l.sizeAt f k := by
  rw [sizeAt, get?]
  split <;> rfl

theorem total_put : (l.put k v).total f + l.sizeAt f k = l.total f + f v := by
  induction l with
  | nil => simp [put, total, sizeAt, get?]
  | cons p l ih =>
    obtain ⟨k', v'⟩ := p
    rw [put, sizeAt_cons, total_cons]
    split
    · rw [total_cons]
      omega
    · rw [total_cons]
      omega

variable {l k}

theorem sizeAt_of_notMem (h : k ∉ l.keys) : l.sizeAt f k = 0 := by
  rw [mem_keys_iff, Option.not_isSome_iff_eq_none] at h
  rw [sizeAt, h]
  rfl

theorem total_erase (h : l.keys.Nodup) : (l.erase k).total f + l.sizeAt f k = l.total f := by
  induction l with
  | nil => rfl
  | cons p l ih =>
    obtain ⟨k', v'⟩ := p
    obtain ⟨hk', hl⟩ := List.nodup_cons.mp h
    have htail := ih hl
    rw [erase, sizeAt_cons, total_cons]
    split
    · next heq =>
      have hnone : sizeAt f l k = 0 := sizeAt_of_notMem f (heq ▸ hk')
      omega
    · rw [total_cons]
      omega

theorem nodup_keys_put (h : l.keys.Nodup) : (l.put k v).keys.Nodup := by
  induction l with
  | nil => exact List.pairwise_singleton ..
  | cons p l ih =>
    obtain ⟨k', v'⟩ := p
    obtain ⟨hk', hl⟩ := List.nodup_cons.mp h
    rw [put]
    split
    · next heq => exact heq ▸ h
    · next hne =>
      refine List.nodup_cons.mpr ⟨fun hmem => ?_, ih hl⟩
      rcases mem_keys_put.mp hmem with heq | hmem
      · exact hne heq.symm
      · exact hk' hmem

theorem nodup_keys_erase (h : l.keys.Nodup) : (l.erase k).keys.Nodup := by
  induction l with
  | nil => exact h
  | cons p l ih =>
    obtain ⟨k', v'⟩ := p
    obtain ⟨hk', hl⟩ := List.nodup_cons.mp h
    rw [erase]
    split
    · exact ih hl
    · exact List.nodup_cons.mpr ⟨fun hmem => hk' (mem_keys_erase.mp hmem).2, ih hl⟩

end KeyedList

namespace Ci

/-! ## The search for a number -/

namespace ConnectionSessions

variable {c : ConnectionSessions} {n : UInt16}

/-- A search that ends goes on just as far with any greater bound, and not at all with a smaller
one. -/
theorem freeAfter_of_some {fuel : Nat} {free : UInt16} (h : c.freeAfter fuel n = some free) :
    ∃ k < fuel, free = n + 1 + .ofNat k ∧
      ∀ fuel, c.freeAfter fuel n = if k < fuel then some free else none := by
  induction fuel generalizing n with
  | zero => cases h
  | succ fuel ih =>
    rw [freeAfter] at h
    by_cases hn : n + 1 ≠ 0 ∧ !c.sessions.contains (n + 1)
    · rw [if_pos hn] at h
      obtain rfl := Option.some.inj h
      refine ⟨0, Nat.succ_pos _, (UInt16.add_zero _).symm, fun fuel => ?_⟩
      cases fuel with
      | zero => rfl
      | succ fuel => rw [freeAfter, if_pos hn, if_pos (Nat.succ_pos _)]
    · rw [if_neg hn] at h
      obtain ⟨k, hk, hfree, hall⟩ := ih h
      refine ⟨k + 1, Nat.succ_lt_succ hk, ?_, fun fuel => ?_⟩
      · rw [hfree, UInt16.ofNat_add]
        grind
      · cases fuel with
        | zero => rfl
        | succ fuel =>
          rw [freeAfter, if_neg hn, hall]
          simp only [Nat.succ_lt_succ_iff]

/-- A search that has not ended has met only numbers that cannot be given. -/
theorem taken_of_freeAfter {fuel : Nat} (h : c.freeAfter fuel n = none) :
    ∀ k < fuel, n + 1 + .ofNat k = 0 ∨ c.sessions.contains (n + 1 + .ofNat k) = true := by
  induction fuel generalizing n with
  | zero => nofun
  | succ fuel ih =>
    rw [freeAfter] at h
    by_cases hn : n + 1 ≠ 0 ∧ !c.sessions.contains (n + 1)
    · rw [if_pos hn] at h
      cases h
    · rw [if_neg hn] at h
      intro k hk
      cases k with
      | zero =>
        rw [show n + 1 + UInt16.ofNat 0 = n + 1 from UInt16.add_zero _]
        by_cases hzero : n + 1 = 0
        · exact .inl hzero
        · exact .inr (by simpa [hzero] using hn)
      | succ k =>
        have hshift : n + 1 + UInt16.ofNat (k + 1) = n + 1 + 1 + UInt16.ofNat k := by
          rw [UInt16.ofNat_add]
          grind
        rw [hshift]
        exact ih h k (Nat.lt_of_succ_lt_succ hk)

/-- The numbers that can be given. -/
def numbers : List UInt16 := (List.range 65535).map fun i => .ofNat (i + 1)

theorem nodup_numbers : numbers.Nodup := by
  refine List.Nodup.map_on ?_ List.nodup_range
  intro i hi j hj heq
  rw [List.mem_range] at hi hj
  have hnat := congrArg UInt16.toNat heq
  rw [UInt16.toNat_ofNat', UInt16.toNat_ofNat', Nat.mod_eq_of_lt (by omega),
    Nat.mod_eq_of_lt (by omega)] at hnat
  omega

theorem ne_zero_of_mem_numbers {m : UInt16} (h : m ∈ numbers) : m ≠ 0 := by
  obtain ⟨i, hi, rfl⟩ := List.mem_map.mp h
  rw [List.mem_range] at hi
  intro hzero
  have hnat := congrArg UInt16.toNat hzero
  rw [UInt16.toNat_ofNat', Nat.mod_eq_of_lt (by omega)] at hnat
  exact absurd hnat (Nat.succ_ne_zero i)

/-- While a connection has less sessions than there are numbers, a search for a free one ends. -/
theorem exists_free (h : c.sessions.size < 65535) (n : UInt16) :
    ∃ free, c.freeAfter 65536 n = some free := by
  cases hfree : c.freeAfter 65536 n with
  | some free => exact ⟨free, rfl⟩
  | none =>
    have htaken := taken_of_freeAfter hfree
    have hall : numbers ⊆ c.sessions.keys := by
      intro m hm
      have hplace : n + 1 + UInt16.ofNat (m - n - 1).toNat = m := by
        rw [UInt16.ofNat_toNat]
        grind
      have hmet := htaken (m - n - 1).toNat (UInt16.toNat_lt _)
      rw [hplace] at hmet
      exact Std.TreeMap.mem_keys.mpr
        (Std.TreeMap.contains_iff_mem.mp (hmet.resolve_left (ne_zero_of_mem_numbers hm)))
    have hlength := (List.subperm_of_subset nodup_numbers hall).length_le
    rw [Std.TreeMap.length_keys, numbers, List.length_map, List.length_range] at hlength
    omega

/-- A session has a place in the count. -/
theorem size_pos_of_isSome {m : UInt16} (h : (c.sessions[m]?).isSome) : 0 < c.sessions.size := by
  rw [← Std.TreeMap.length_keys]
  exact List.length_pos_of_mem
    (Std.TreeMap.mem_keys.mpr (Std.TreeMap.mem_iff_isSome_getElem?.mpr h))

end ConnectionSessions

/-! ## The count -/

namespace SessionTable

/-- The sessions over all connections. -/
def entries (t : SessionTable) : Nat := t.connections.total (·.sessions.size)

variable {t t' : SessionTable} {maxSessions : Nat}

theorem sizeAt_connections (t : SessionTable) (slot : Nat) (tcid : UInt8) :
    t.connections.sizeAt (·.sessions.size) (slot, tcid) =
      (t.onConnection slot tcid).sessions.size := by
  rw [KeyedList.sizeAt, onConnection]
  cases t.connections.get? (slot, tcid) with
  | none => exact Std.TreeMap.size_emptyc.symm
  | some c => rfl

/-- The count is right and within bounds, and no session has the number 0. -/
structure Tallied (maxSessions : Nat) (t : SessionTable) : Prop where
  capacity : t.capacity = min maxSessions 65534
  keys : t.connections.keys.Nodup
  count : t.count = t.entries
  bounded : t.count ≤ t.capacity
  nonzero : ∀ id, (t.get? id).isSome → id.number ≠ 0

namespace Tallied

theorem new (maxSessions : Nat) : (SessionTable.new maxSessions).Tallied maxSessions where
  capacity := rfl
  keys := .nil
  count := rfl
  bounded := Nat.zero_le _
  nonzero id h := by rw [get?_new] at h; cases h

variable (h : t.Tallied maxSessions)

include h

theorem size_le_count (slot : Nat) (tcid : UInt8) :
    (t.onConnection slot tcid).sessions.size ≤ t.count := by
  have herase := KeyedList.total_erase (k := (slot, tcid)) (·.sessions.size) h.keys
  rw [sizeAt_connections] at herase
  rw [h.count, entries, ← herase]
  exact Nat.le_add_left ..

theorem count_pos {id : SessionId} (hid : (t.get? id).isSome) : 0 < t.count :=
  Nat.lt_of_lt_of_le (ConnectionSessions.size_pos_of_isSome hid) (h.size_le_count id.slot id.tcid)

/-- The sessions of one connection are written, and the count changes as their number does. -/
theorem put {slot : Nat} {tcid : UInt8} {c : ConnectionSessions} (count : Nat)
    (hcount : count + (t.onConnection slot tcid).sessions.size = t.count + c.sessions.size)
    (hroom : count ≤ t.capacity)
    (hnonzero : ∀ id, ((t.put slot tcid c).get? id).isSome → id.number ≠ 0) :
    Tallied maxSessions { t.put slot tcid c with count := count } where
  capacity := h.capacity
  keys := KeyedList.nodup_keys_put c h.keys
  count := by
    have hput := KeyedList.total_put (·.sessions.size) t.connections (slot, tcid) c
    rw [sizeAt_connections] at hput
    have htotal : t.count = t.connections.total (·.sessions.size) := h.count
    change count = (t.connections.put (slot, tcid) c).total (·.sessions.size)
    omega
  bounded := hroom
  nonzero := hnonzero

theorem insert {slot : Nat} {tcid : UInt8} {number : UInt16} (s : Session)
    (free : t.allocate slot tcid = .ok number) :
    (t.insert ⟨slot, tcid, number⟩ s).Tallied maxSessions := by
  obtain ⟨hroom, hfree⟩ := t.of_allocate free
  have hnew := (ConnectionSessions.free_of_freeAfter hfree).2
  refine h.put (t.count + 1) ?_ hroom fun id hid => ?_
  · rw [Std.TreeMap.size_insert, hnew, if_neg Bool.false_ne_true]
    omega
  · change ((t.insert ⟨slot, tcid, number⟩ s).get? id).isSome at hid
    rw [get?_insert] at hid
    split at hid
    · next heq =>
      rw [heq]
      exact t.ne_zero_of_allocate free
    · exact h.nonzero id hid

theorem setPhase (id : SessionId) (phase : SessionPhase) :
    (t.setPhase id phase).Tallied maxSessions := by
  have hnonzero : ∀ id', ((t.setPhase id phase).get? id').isSome → id'.number ≠ 0 :=
    fun id' hid => h.nonzero id' (isSome_of_setPhase hid)
  rw [SessionTable.setPhase] at hnonzero ⊢
  cases hs : t.get? id with
  | none => exact h
  | some s =>
    rw [hs] at hnonzero
    refine h.put t.count ?_ h.bounded hnonzero
    have hthere : (t.onConnection id.slot id.tcid).sessions.contains id.number := by
      rw [Std.TreeMap.contains_eq_isSome_getElem?]
      exact Option.isSome_of_eq_some hs
    rw [Std.TreeMap.size_insert, if_pos hthere]

theorem remove (id : SessionId) : (t.remove id).Tallied maxSessions := by
  have hnonzero : ∀ id', ((t.remove id).get? id').isSome → id'.number ≠ 0 :=
    fun id' hid => h.nonzero id' (isSome_of_remove hid)
  rw [SessionTable.remove] at hnonzero ⊢
  cases hs : t.get? id with
  | none => exact h
  | some s =>
    rw [hs] at hnonzero
    have hid : (t.get? id).isSome := Option.isSome_of_eq_some hs
    refine h.put (t.count - 1) ?_ (Nat.le_trans (Nat.sub_le ..) h.bounded) hnonzero
    have hthere : (t.onConnection id.slot id.tcid).sessions.contains id.number := by
      rw [Std.TreeMap.contains_eq_isSome_getElem?]
      exact hid
    have hpos := h.count_pos hid
    have hsize := ConnectionSessions.size_pos_of_isSome hid
    rw [Std.TreeMap.size_erase, if_pos hthere]
    omega

theorem removeConnection (slot : Nat) (tcid : UInt8) :
    (t.removeConnection slot tcid).Tallied maxSessions where
  capacity := h.capacity
  keys := KeyedList.nodup_keys_erase h.keys
  count := by
    have herase := KeyedList.total_erase (k := (slot, tcid)) (·.sessions.size) h.keys
    rw [sizeAt_connections] at herase
    have htotal : t.count = t.connections.total (·.sessions.size) := h.count
    change t.count - (t.onConnection slot tcid).sessions.size =
      (t.connections.erase (slot, tcid)).total (·.sessions.size)
    omega
  bounded := Nat.le_trans (Nat.sub_le ..) h.bounded
  nonzero id hid := h.nonzero id (isSome_of_removeConnection hid)

/-- Every change keeps the count right. -/
theorem change {told : List SessionEvent} (hc : Change t told t') : t'.Tallied maxSessions := by
  cases hc with
  | asked resource free => exact h.insert _ free
  | ending found active => exact h.setPhase _ _
  | data octets active => exact h
  | opened resource free => exact h.insert _ free
  | agreed resource found creating => exact h.setPhase _ _
  | refused resource found creating failed => exact h.remove _
  | closed found wasOpen => exact h.remove _
  | withdrawn found notOpen => exact h.remove _
  | disconnected slot tcid => exact h.removeConnection slot tcid

theorem changes {told : List SessionEvent} (hc : Changes t told t') : t'.Tallied maxSessions :=
  @Changes.invariant (fun t _ => t.Tallied maxSessions) (fun h hc => h.change hc) t t' [] told hc h

/-! ## Giving out numbers -/

/-- While there is room, a search for a number of a connection ends wherever it begins, and what it
finds is free. -/
theorem search (hroom : t.count < t.capacity) (slot : Nat) (tcid : UInt8) (n : UInt16) :
    ∃ k < 65536, ∃ free, free = n + 1 + .ofNat k ∧ free ≠ 0 ∧ t.get? ⟨slot, tcid, free⟩ = none ∧
      ∀ fuel, (t.onConnection slot tcid).freeAfter fuel n =
        if k < fuel then some free else none := by
  have hfew : (t.onConnection slot tcid).sessions.size < 65535 := by
    have hsize := h.size_le_count slot tcid
    have hcapacity := h.capacity
    omega
  obtain ⟨free, hfree⟩ := ConnectionSessions.exists_free hfew n
  obtain ⟨k, hk, hplace, hall⟩ := ConnectionSessions.freeAfter_of_some hfree
  obtain ⟨hzero, hunused⟩ := ConnectionSessions.free_of_freeAfter hfree
  exact ⟨k, hk, free, hplace, hzero,
    Std.TreeMap.getElem?_eq_none_of_contains_eq_false hunused, hall⟩

/-- A number is refused exactly if there is no room. -/
theorem allocate_error_iff (slot : Nat) (tcid : UInt8) (e : CiError) :
    t.allocate slot tcid = .error e ↔ e = .tooManySessions ∧ t.capacity ≤ t.count := by
  rw [allocate]
  by_cases hfull : t.capacity ≤ t.count
  · rw [if_pos hfull, Except.error.injEq]
    exact ⟨fun he => ⟨he.symm, hfull⟩, fun he => he.1.symm⟩
  · obtain ⟨k, hk, free, -, -, -, hall⟩ :=
      h.search (Nat.lt_of_not_le hfull) slot tcid (t.onConnection slot tcid).last
    have hfree : (t.onConnection slot tcid).free? = some free := (hall 65536).trans (if_pos hk)
    rw [if_neg hfull, hfree]
    exact iff_of_false (by rintro ⟨⟩) fun he => hfull he.2

end Tallied

end SessionTable

/-! ## Whole runs -/

theorem Course.tallied {t t' : SessionTable} {ps : List Passage} {maxSessions : Nat}
    (hc : Course t ps t') (h : t.Tallied maxSessions) :
    ∀ reached ∈ t :: ps.map Passage.after, reached.Tallied maxSessions := by
  induction hc with
  | nil t =>
    intro reached hr
    rwa [List.mem_singleton.mp hr]
  | cons does rest ih =>
    intro reached hr
    rcases List.mem_cons.mp hr with rfl | hr
    · exact h
    · exact ih (h.changes does.changes) reached hr

/-- All tables that a run goes through. -/
def Dialogue.tables {τ η : Type} (h : Handler η) (os : List (Occasion τ))
    (d : Dialogue τ (η × List SessionEvent)) : List SessionTable :=
  d.layer.table :: (d.passages h os).map Passage.after

namespace SessionLayer

variable {τ η : Type}

/-- Whatever happens to a session layer: the count is at every time the number of sessions over all
connections, at most the bound, and never less than what is taken from it; no session has the number
0. So while there is room, the search for a number ends within 65536 steps wherever it begins, and
ends at one that is not 0 and that no session of the connection has. A number is refused exactly if
there is no room. -/
theorem sessions_counted (transport : τ) (maxSessions : Nat) (h : Handler η) (start : η)
    (os : List (Occasion τ)) {t : SessionTable}
    (reached : t ∈ Dialogue.tables h os ⟨new transport maxSessions, start, []⟩) :
    t.capacity = min maxSessions 65534 ∧ t.connections.keys.Nodup ∧ t.count = t.entries ∧
    t.count ≤ t.capacity ∧
    (∀ id, (t.get? id).isSome → id.number ≠ 0 ∧ 1 ≤ t.count) ∧
    ∀ slot tcid,
      (t.onConnection slot tcid).sessions.size ≤ t.count ∧
      (∀ e, t.allocate slot tcid = .error e ↔ e = .tooManySessions ∧ t.capacity ≤ t.count) ∧
      (∀ number, t.allocate slot tcid = .ok number →
        number ≠ 0 ∧ t.get? ⟨slot, tcid, number⟩ = none) ∧
      (t.count < t.capacity → ∀ n, ∃ k < 65536, ∃ free,
        free = n + 1 + .ofNat k ∧ free ≠ 0 ∧ t.get? ⟨slot, tcid, free⟩ = none ∧
        ∀ fuel, (t.onConnection slot tcid).freeAfter fuel n =
          if k < fuel then some free else none) := by
  have htallied : t.Tallied maxSessions :=
    (Dialogue.run_walks h os ⟨new transport maxSessions, start, []⟩).course.tallied
      (.new maxSessions) t reached
  refine ⟨htallied.capacity, htallied.keys, htallied.count, htallied.bounded,
    fun id hid => ⟨htallied.nonzero id hid, htallied.count_pos hid⟩, fun slot tcid => ?_⟩
  exact ⟨htallied.size_le_count slot tcid, htallied.allocate_error_iff slot tcid,
    fun number hnumber => ⟨t.ne_zero_of_allocate hnumber, t.get?_of_allocate hnumber⟩,
    fun hroom n => htallied.search hroom slot tcid n⟩

/-- The host asks twice for a session where two are allowed. The carrier takes everything. -/
def crowdedRun : List SessionTable :=
  Dialogue.tables ⟨fun _ _ s => (.error .busy, s), fun _ s => s⟩
    [⟨⟨fun _ _ _ t => .ok t⟩, (), .create 0 1 ⟨0x00240041⟩⟩,
      ⟨⟨fun _ _ _ t => .ok t⟩, (), .create 0 1 ⟨0x00240041⟩⟩] ⟨new () 2, (), []⟩

/-- After the first request there is room, and a search from the last number goes on from 0. -/
theorem sessions_counted_crowdedRun :
    ∃ t ∈ crowdedRun, t.count = 1 ∧ t.entries = 1 ∧
      ∃ k < 65536, ∃ free, free = 0xFFFF + 1 + .ofNat k ∧ free ≠ 0 ∧
        t.get? ⟨0, 1, free⟩ = none := by
  have hrun : ∃ t₀ t₁ t₂, crowdedRun = [t₀, t₁, t₂] ∧ t₁.count = 1 ∧ t₁.capacity = 2 :=
    ⟨_, _, _, rfl, rfl, rfl⟩
  obtain ⟨t₀, t, t₂, hrun, hcount, hcapacity⟩ := hrun
  have hmem : t ∈ crowdedRun := by simp [hrun]
  obtain ⟨-, -, hentries, -, -, hallocate⟩ := sessions_counted () 2 _ () _ hmem
  obtain ⟨k, hk, free, hplace, hzero, hfree, -⟩ :=
    (hallocate 0 1).2.2.2 (by rw [hcount, hcapacity]; decide) 0xFFFF
  exact ⟨t, hmem, hcount, hentries.symm.trans hcount, k, hk, free, hplace, hzero, hfree⟩

end SessionLayer

end Ci

end DvbHost
