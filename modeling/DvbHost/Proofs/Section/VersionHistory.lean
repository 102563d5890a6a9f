import Mathlib.Data.List.Induction
import DvbHost.Proofs.Section.Framing
import DvbHost.Section.Versions
import DvbHost.Table.Program

/-!
# What a store of versions knows

A store is a list of versions for each subtable, made anew when the number of its sections changes.
What has not been read is marked in the list by an octet that is no version: a parsed section has a
version of five bits (`Section.Parsed.version_lt`), so it is never taken for the mark
(`Section.Parsed.version_ne_unread`).

`Recorded` says of the operations that were done, without a store, that a section has been read in a
version and that nothing has undone it since. One step keeps the two together
(`knows_apply`), so after every run the store knows exactly what is recorded, and a read is answered
by that alone (`read_after`).
-/

namespace DvbHost

set_option autoImplicit false

/-- One version of one section of a subtable. -/
structure SectionVersion where
  key : SubtableKey
  number : UInt8
  lastNumber : UInt8
  version : UInt8

theorem SectionVersion.eq_iff {p q : SectionVersion} (hkey : q.key = p.key)
    (hlast : q.lastNumber = p.lastNumber) :
    q = p ↔ q.number = p.number ∧ q.version = p.version := by
  obtain ⟨key, number, lastNumber, version⟩ := q
  rw [mk.injEq]
  exact ⟨fun h => ⟨h.2.1, h.2.2.2⟩, fun h => ⟨hkey, h.1, hlast, h.2⟩⟩

namespace Section

/-- The short form has no versions. -/
def version? (s : Section) : Option SectionVersion :=
  s.extended.map fun h => ⟨(s.tableId, h.extension), h.info.number, h.info.lastNumber, h.info.version⟩

/-- The section was read from octets. -/
def Parsed (s : Section) : Prop :=
  ∃ (bs : Bytes) (verifyCrc : Bool) (n : Nat), ofBytes bs verifyCrc = .ok (s, n)

theorem Parsed.version_lt {s : Section} {p : SectionVersion} (parsed : s.Parsed)
    (h : s.version? = some p) : p.version.toNat < 32 := by
  obtain ⟨bs, verifyCrc, n, hread⟩ := parsed
  obtain ⟨tableId, b1, b2, tail, rest, -, -, -, -, -, form⟩ := ofBytes_form hread
  cases form with
  | @extended e1 e2 v number lastNumber data crc form hcrc verified =>
    obtain rfl := Option.some.inj h
    change (Octet.field 1 5 v).toNat < 32
    rw [Octet.field, UInt8.toNat_ofNat', bits_eq]
    omega
  | checked form id hcrc verified => cases h
  | plain form id => cases h

/-- The version of a parsed section is never the mark of a section that was not read. -/
theorem Parsed.version_ne_unread {s : Section} {p : SectionVersion} (parsed : s.Parsed)
    (h : s.version? = some p) : p.version ≠ VersionStore.unread := by
  intro hmark
  have hlt := parsed.version_lt h
  rw [hmark] at hlt
  exact absurd hlt (by decide)

end Section

namespace VersionStore

/-! ## Operations and what is recorded of them -/

inductive Operation where
  | read {α : Type} (f : TableFormat α) (s : Section)
  | unset (s : Section)
  | clear

def apply (v : VersionStore) : Operation → VersionStore
  | .read f s => (v.read f s).1
  | .unset s => v.unset s
  | .clear => empty

/-- The store after operations on an empty one. -/
def after (ops : List Operation) : VersionStore := ops.foldl apply empty

/-- What happened in an operation. -/
inductive Event where
  /-- A section was to be read, as a table of whatever kind. -/
  | read (s : Section) (succeeded : Bool)
  | unset (s : Section)
  | clear

def event (v : VersionStore) : Operation → Event
  | .read f s => .read s (v.read f s).2.isOk
  | .unset s => .unset s
  | .clear => .clear

def trace : VersionStore → List Operation → List Event
  | _, [] => []
  | v, op :: ops => v.event op :: trace (v.apply op) ops

/-- What happened in operations on an empty store. -/
def history (ops : List Operation) : List Event := trace empty ops

namespace Event

/-- The section was read in that version. -/
def Reads (p : SectionVersion) : Event → Prop
  | .read s succeeded => succeeded = true ∧ s.version? = some p
  | .unset _ | .clear => False

/-- All is forgotten, the section is, or its subtable has another number of sections; or the section
was read in another version. -/
def Undoes (p : SectionVersion) : Event → Prop
  | .read s succeeded => ∃ q, s.version? = some q ∧ q.key = p.key ∧ q.number ≤ q.lastNumber ∧
      (q.lastNumber ≠ p.lastNumber ∨
        succeeded = true ∧ q.number = p.number ∧ q.version ≠ p.version)
  | .unset s => ∃ q, s.version? = some q ∧ q.key = p.key ∧ q.number = p.number
  | .clear => True

end Event

/-- The section has been read in that version, and nothing has undone it since. -/
def Recorded (events : List Event) (p : SectionVersion) : Prop :=
  ∃ before e later, events = before ++ e :: later ∧ e.Reads p ∧ ∀ e' ∈ later, ¬e'.Undoes p

theorem not_recorded_nil (p : SectionVersion) : ¬Recorded [] p := by
  rintro ⟨before, e, later, h, -⟩
  exact absurd h.symm (List.append_ne_nil_of_right_ne_nil before (List.cons_ne_nil e later))

theorem recorded_concat {events : List Event} {e : Event} {p : SectionVersion} :
    Recorded (events ++ [e]) p ↔ e.Reads p ∨ Recorded events p ∧ ¬e.Undoes p := by
  constructor
  · rintro ⟨before, e', later, h, hreads, hlater⟩
    rcases List.eq_nil_or_concat later with rfl | ⟨later, last, rfl⟩
    · obtain ⟨-, hlast⟩ := List.append_inj' h rfl
      obtain rfl := (List.cons.inj hlast).1
      exact .inl hreads
    · rw [List.concat_eq_append] at h hlater
      rw [← List.cons_append, ← List.append_assoc] at h
      obtain ⟨rfl, hlast⟩ := List.append_inj' h rfl
      obtain rfl := (List.cons.inj hlast).1
      exact .inr ⟨⟨before, e', later, rfl, hreads,
        fun x hx => hlater x (List.mem_append_left _ hx)⟩,
        hlater _ (List.mem_append_right _ (List.mem_singleton_self _))⟩
  · rintro (hreads | ⟨⟨before, e', later, rfl, hreads, hlater⟩, hundoes⟩)
    · exact ⟨events, e, [], rfl, hreads, nofun⟩
    · refine ⟨before, e', later ++ [e], by rw [List.append_assoc, List.cons_append], hreads, ?_⟩
      intro x hx
      rcases List.mem_append.mp hx with hx | hx
      · exact hlater x hx
      · rw [List.mem_singleton.mp hx]
        exact hundoes

/-! ## One step -/

/-- The store has that version of the section. -/
def Knows (v : VersionStore) (p : SectionVersion) : Prop :=
  (v.versions p.key (p.lastNumber.toNat + 1))[p.number.toNat]? = some p.version

theorem length_versions (v : VersionStore) (key : SubtableKey) (count : Nat) :
    (v.versions key count).length = count := by
  rw [versions]
  split
  · assumption
  · exact List.length_replicate

theorem versions_congr {v w : VersionStore} {key : SubtableKey}
    (h : v.subtables.get? key = w.subtables.get? key) (count : Nat) :
    v.versions key count = w.versions key count := by
  rw [versions, versions, h]

theorem getElem?_replicate_unread {count i : Nat} {version : UInt8} (hversion : version ≠ unread) :
    (List.replicate count unread)[i]? ≠ some version := by
  intro h
  have hmem := List.mem_of_getElem? h
  exact hversion (List.eq_of_mem_replicate hmem)

theorem not_knows_empty {p : SectionVersion} (hversion : p.version ≠ unread) : ¬empty.Knows p :=
  getElem?_replicate_unread hversion

/-- What a read makes of the versions of a subtable, and its answer. -/
def readVersions {α : Type} (known : List UInt8) (f : TableFormat α) (s : Section)
    (p : SectionVersion) : List UInt8 × Except SiError (Option α) :=
  if known[p.number.toNat]? = some p.version then (known, .ok none)
  else
    match f.read s with
    | .ok t => (known.set p.number.toNat p.version, .ok (some t))
    | .error e => (known, .error e)

variable {α : Type} {v : VersionStore} {f : TableFormat α} {s : Section} {p q : SectionVersion}

theorem read_of_short (h : s.version? = none) : v.read f s = (v, (f.read s).map some) := by
  rw [Section.version?, Option.map_eq_none_iff] at h
  rw [read, h]

theorem read_of_beyond (h : s.version? = some p) (hnumber : p.lastNumber < p.number) :
    v.read f s = (v, .error (.invalidValue "section_number")) := by
  obtain ⟨e, he, rfl⟩ := Option.map_eq_some_iff.mp h
  rw [read, he]
  exact if_pos (Nat.succ_le_of_lt (UInt8.lt_iff_toNat_lt.mp hnumber))

theorem read_of_within (h : s.version? = some p) (hnumber : p.number ≤ p.lastNumber) :
    v.read f s =
      (⟨v.subtables.put p.key (readVersions (v.versions p.key (p.lastNumber.toNat + 1)) f s p).1⟩,
        (readVersions (v.versions p.key (p.lastNumber.toNat + 1)) f s p).2) := by
  obtain ⟨e, he, rfl⟩ := Option.map_eq_some_iff.mp h
  have hle := UInt8.le_iff_toNat_le.mp hnumber
  rw [read, he, readVersions]
  dsimp only at hle ⊢
  rw [if_neg (by omega)]
  split
  · rfl
  · cases f.read s <;> rfl

/-- A read stores nothing, or its section has a number in range. -/
theorem read_leaves_or_within (f : TableFormat α) (s : Section) :
    (∀ v : VersionStore, (v.read f s).1 = v) ∨
      ∃ q, s.version? = some q ∧ q.number ≤ q.lastNumber := by
  cases hq : s.version? with
  | none => exact .inl fun v => by rw [read_of_short hq]
  | some q =>
    by_cases hnumber : q.number ≤ q.lastNumber
    · exact .inr ⟨q, rfl, hnumber⟩
    · exact .inl fun v => by rw [read_of_beyond hq (UInt8.not_le.mp hnumber)]

/-- A read with a number in range makes anew the list of its own subtable only. -/
theorem get?_read (h : s.version? = some q) (hnumber : q.number ≤ q.lastNumber)
    (key : SubtableKey) :
    (v.read f s).1.subtables.get? key =
      if key = q.key then
        some (readVersions (v.versions q.key (q.lastNumber.toNat + 1)) f s q).1
      else v.subtables.get? key := by
  rw [read_of_within h hnumber, KeyedList.get?_put]

theorem unset_of_short (h : s.version? = none) : v.unset s = v := by
  rw [Section.version?, Option.map_eq_none_iff] at h
  rw [unset, h]

/-- For a number the subtable does not have nothing is set. -/
theorem get?_unset (h : s.version? = some q) (key : SubtableKey) :
    (v.unset s).subtables.get? key =
      if key = q.key then (v.subtables.get? key).map (·.set q.number.toNat unread)
      else v.subtables.get? key := by
  obtain ⟨e, he, rfl⟩ := Option.map_eq_some_iff.mp h
  rw [unset, he]
  dsimp only
  cases hget : v.subtables.get? (s.tableId, e.extension) with
  | none =>
    dsimp only
    split
    · next hkey => rw [hkey, hget, Option.map_none]
    · rfl
  | some l =>
    dsimp only
    rw [KeyedList.get?_put]
    split
    · next hkey => rw [hkey, hget, Option.map_some]
    · rfl

theorem length_readVersions (known : List UInt8) (f : TableFormat α) (s : Section)
    (p : SectionVersion) : (readVersions known f s p).1.length = known.length := by
  rw [readVersions]
  split
  · rfl
  · cases f.read s
    · rfl
    · exact List.length_set

/-- After a read the versions of the subtable are those of as many sections as it then has. -/
theorem versions_read (h : s.version? = some q) (hnumber : q.number ≤ q.lastNumber)
    (key : SubtableKey) (count : Nat) :
    (v.read f s).1.versions key count =
      if key = q.key then
        if q.lastNumber.toNat + 1 = count then (readVersions (v.versions q.key count) f s q).1
        else List.replicate count unread
      else v.versions key count := by
  rw [versions, get?_read h hnumber]
  by_cases hkey : key = q.key
  · rw [if_pos hkey, if_pos hkey, Option.getD_some, length_readVersions, length_versions]
    by_cases hcount : q.lastNumber.toNat + 1 = count
    · rw [if_pos hcount, if_pos hcount, hcount]
    · rw [if_neg hcount, if_neg hcount]
  · rw [if_neg hkey, if_neg hkey, versions]

theorem versions_unset (h : s.version? = some q) (key : SubtableKey) (count : Nat) :
    (v.unset s).versions key count =
      if key = q.key then (v.versions key count).set q.number.toNat unread
      else v.versions key count := by
  rw [versions, get?_unset h, versions]
  by_cases hkey : key = q.key
  · have hset : ((v.subtables.get? key).map (·.set q.number.toNat unread)).getD [] =
        ((v.subtables.get? key).getD []).set q.number.toNat unread := by
      cases v.subtables.get? key <;> rfl
    rw [if_pos hkey, if_pos hkey, hset, List.length_set]
    split
    · rfl
    · exact List.set_replicate_self.symm
  · rw [if_neg hkey, if_neg hkey]

/-- A read that succeeds leaves its own version of its section and touches no other; one that fails
leaves the versions as they are. -/
theorem getElem?_readVersions {known : List UInt8} {number version : UInt8}
    (hlength : q.number.toNat < known.length) :
    (readVersions known f s q).1[number.toNat]? = some version ↔
      ((readVersions known f s q).2.isOk = true ∧ q.number = number ∧ q.version = version) ∨
      (known[number.toNat]? = some version ∧
        ¬((readVersions known f s q).2.isOk = true ∧ q.number = number ∧ q.version ≠ version)) := by
  by_cases hnumber : q.number = number
  · subst hnumber
    rw [readVersions]
    split
    · next hknown =>
      rw [hknown]
      simp only [Except.isOk, Except.toBool, Option.some.injEq, true_and, not_not, ne_eq, and_self,
        or_self]
    · cases f.read s with
      | ok t =>
        rw [List.getElem?_set_self hlength]
        simp only [Except.isOk, Except.toBool, Option.some.injEq, true_and, not_not, ne_eq]
        exact ⟨.inl, fun h => h.elim id And.right⟩
      | error e =>
        simp only [Except.isOk, Except.toBool, Bool.false_eq_true, false_and, not_false_eq_true,
          and_true, false_or]
  · have hsame : (readVersions known f s q).1[number.toNat]? = known[number.toNat]? := by
      rw [readVersions]
      split
      · rfl
      · cases f.read s with
        | ok t => exact List.getElem?_set_ne fun h => hnumber (UInt8.toNat_inj.mp h)
        | error e => rfl
    rw [hsame]
    simp only [hnumber, false_and, and_false, not_false_eq_true, and_true, false_or]

/-- If a read with a number in range succeeds, its version of the section is known and no other is. A
subtable that had another number of sections is forgotten even if it fails. -/
theorem knows_read_within (hversion : p.version ≠ unread) (h : s.version? = some q)
    (hnumber : q.number ≤ q.lastNumber) :
    (v.read f s).1.Knows p ↔
      (v.read f s).2.isOk = true ∧ q = p ∨
      v.Knows p ∧ ¬(q.key = p.key ∧ (q.lastNumber ≠ p.lastNumber ∨
        (v.read f s).2.isOk = true ∧ q.number = p.number ∧ q.version ≠ p.version)) := by
  rw [Knows, versions_read h hnumber, Knows]
  by_cases hkey : q.key = p.key
  · rw [if_pos hkey.symm]
    by_cases hlast : q.lastNumber = p.lastNumber
    · have hlength : q.number.toNat < (v.versions q.key (p.lastNumber.toNat + 1)).length := by
        rw [length_versions, ← hlast]
        exact Nat.lt_succ_of_le (UInt8.le_iff_toNat_le.mp hnumber)
      have hsame := SectionVersion.eq_iff hkey hlast
      rw [if_pos (by rw [hlast]), getElem?_readVersions hlength, read_of_within h hnumber, hlast]
      simp only [hsame, hkey, true_and, ne_eq, not_true_eq_false, false_or]
    · have hother : q ≠ p := fun heq => hlast (heq ▸ rfl)
      rw [if_neg fun hcount => hlast (UInt8.toNat_inj.mp (Nat.succ.inj hcount))]
      simp only [getElem?_replicate_unread hversion, hother, hkey, hlast, ne_eq, not_false_eq_true, true_or,
        and_self, not_true_eq_false, and_false, or_self]
  · have hother : q ≠ p := fun heq => hkey (heq ▸ rfl)
    rw [if_neg (Ne.symm hkey)]
    simp only [hother, hkey, and_false, false_and, not_false_eq_true, and_true, false_or]

theorem knows_read (hversion : p.version ≠ unread) : (v.read f s).1.Knows p ↔
    (v.event (.read f s)).Reads p ∨ v.Knows p ∧ ¬(v.event (.read f s)).Undoes p := by
  simp only [event, Event.Reads, Event.Undoes]
  cases hq : s.version? with
  | none => simp only [read_of_short hq, reduceCtorEq, and_false, false_and, exists_false,
      not_false_eq_true, and_true, false_or]
  | some q =>
    simp only [Option.some.injEq, exists_eq_left']
    by_cases hnumber : q.number ≤ q.lastNumber
    · rw [knows_read_within hversion hq hnumber]
      simp only [hnumber, true_and]
    · simp only [read_of_beyond hq (UInt8.not_le.mp hnumber), hnumber, Except.isOk, Except.toBool,
        Bool.false_eq_true, false_and, and_false, not_false_eq_true, and_true, false_or]

theorem knows_unset (hversion : p.version ≠ unread) :
    (v.unset s).Knows p ↔ v.Knows p ∧ ¬(v.event (.unset s)).Undoes p := by
  simp only [event, Event.Undoes]
  cases hq : s.version? with
  | none => simp only [unset_of_short hq, reduceCtorEq, false_and, exists_false, not_false_eq_true,
      and_true]
  | some q =>
    simp only [Option.some.injEq, exists_eq_left']
    rw [Knows, versions_unset hq, Knows]
    by_cases hkey : p.key = q.key
    · rw [if_pos hkey]
      by_cases hnumber : q.number = p.number
      · simp only [hnumber, hkey, and_self, not_true_eq_false, and_false, iff_false]
        rw [List.getElem?_set, if_pos rfl]
        split
        · exact fun h => hversion (Option.some.inj h).symm
        · exact nofun
      · rw [List.getElem?_set_ne fun h => hnumber (UInt8.toNat_inj.mp h)]
        simp only [hnumber, and_false, not_false_eq_true, and_true]
    · simp only [if_neg hkey, Ne.symm hkey, false_and, not_false_eq_true, and_true]

/-- A store knows a version after an operation that read it, and else if it did before and the
operation has not undone it. Whatever sections the operation is on, only the version asked for must
not be the mark of what was not read. -/
theorem knows_apply (v : VersionStore) (op : Operation) (hversion : p.version ≠ unread) :
    (v.apply op).Knows p ↔
      (v.event op).Reads p ∨ v.Knows p ∧ ¬(v.event op).Undoes p := by
  cases op with
  | read f s => exact knows_read hversion
  | unset s => exact (knows_unset hversion).trans (or_iff_right id).symm
  | clear =>
    simp only [apply, event, Event.Reads, Event.Undoes, not_knows_empty hversion, not_true_eq_false,
      and_false, or_self]

/-! ## Runs -/

theorem trace_concat (v : VersionStore) (ops : List Operation) (op : Operation) :
    trace v (ops ++ [op]) = trace v ops ++ [(ops.foldl apply v).event op] := by
  induction ops generalizing v with
  | nil => rfl
  | cons first ops ih => rw [List.cons_append, trace, trace, ih, List.cons_append, List.foldl_cons]

theorem history_concat (ops : List Operation) (op : Operation) :
    history (ops ++ [op]) = history ops ++ [(after ops).event op] := trace_concat empty ops op

theorem after_concat (ops : List Operation) (op : Operation) :
    after (ops ++ [op]) = (after ops).apply op := List.foldl_append

/-- After every run the store knows what has been recorded. -/
theorem knows_after (ops : List Operation) (hversion : p.version ≠ unread) :
    (after ops).Knows p ↔ Recorded (history ops) p := by
  induction ops using List.reverseRecOn with
  | nil => exact iff_of_false (not_knows_empty hversion) (not_recorded_nil p)
  | append_singleton ops op ih =>
    rw [after_concat, history_concat, knows_apply _ op hversion, recorded_concat, ih]

/-! ## Answers -/

theorem answer_of_known (h : s.version? = some p) (hnumber : p.number ≤ p.lastNumber)
    (hknown : v.Knows p) : (v.read f s).2 = .ok none := by
  rw [Knows] at hknown
  rw [read_of_within h hnumber, readVersions, if_pos hknown]

theorem answer_of_unknown (h : s.version? = some p) (hnumber : p.number ≤ p.lastNumber)
    (hknown : ¬v.Knows p) : (v.read f s).2 = (f.read s).map some := by
  rw [Knows] at hknown
  rw [read_of_within h hnumber, readVersions, if_neg hknown]
  cases f.read s <;> rfl

theorem answer_eq_none_iff (h : s.version? = some p) (hnumber : p.number ≤ p.lastNumber) :
    (v.read f s).2 = .ok none ↔ v.Knows p := by
  refine ⟨fun hanswer => ?_, answer_of_known h hnumber⟩
  by_contra hknown
  rw [answer_of_unknown h hnumber hknown] at hanswer
  cases hread : f.read s with
  | ok t =>
    rw [hread] at hanswer
    cases Except.ok.inj hanswer
  | error e =>
    rw [hread] at hanswer
    cases hanswer

/-- The answer depends on what the store has of the section's own subtable. -/
theorem answer_congr {w : VersionStore} (h : s.version? = some p)
    (hsame : v.subtables.get? p.key = w.subtables.get? p.key) :
    (v.read f s).2 = (w.read f s).2 := by
  by_cases hnumber : p.number ≤ p.lastNumber
  · rw [read_of_within h hnumber, read_of_within h hnumber, versions_congr hsame]
  · have hlt := UInt8.not_le.mp hnumber
    rw [read_of_beyond h hlt, read_of_beyond h hlt]

/-! ## Operations on other subtables -/

/-- The operation is on sections of that subtable, or on everything. -/
def Operation.concerns (key : SubtableKey) : Operation → Bool
  | .read _ s | .unset s => s.version?.any (·.key == key)
  | .clear => true

theorem key_ne_of_not_any {key : SubtableKey} (h : ¬s.version?.any (·.key == key) = true)
    (hq : s.version? = some q) : key ≠ q.key := by
  rintro rfl
  rw [hq, Option.any_some] at h
  exact h (beq_self_eq_true _)

/-- An operation leaves the lists of other subtables as they are. -/
theorem get?_apply_of_not_concerns {key : SubtableKey} {op : Operation}
    (h : ¬op.concerns key = true) : (v.apply op).subtables.get? key = v.subtables.get? key := by
  cases op with
  | read f s =>
    rw [apply]
    rcases read_leaves_or_within f s with hleaves | ⟨q, hq, hnumber⟩
    · rw [hleaves]
    · rw [get?_read hq hnumber, if_neg (key_ne_of_not_any h hq)]
  | unset s =>
    rw [apply]
    cases hq : s.version? with
    | none => rw [unset_of_short hq]
    | some q => rw [get?_unset hq, if_neg (key_ne_of_not_any h hq)]
  | clear => exact absurd rfl h

/-- What an operation makes of the list of a subtable depends on nothing else that is stored. -/
theorem get?_apply_congr {key : SubtableKey} {w : VersionStore} (op : Operation)
    (h : v.subtables.get? key = w.subtables.get? key) :
    (v.apply op).subtables.get? key = (w.apply op).subtables.get? key := by
  cases op with
  | read f s =>
    rw [apply, apply]
    rcases read_leaves_or_within f s with hleaves | ⟨q, hq, hnumber⟩
    · rw [hleaves, hleaves, h]
    · rw [get?_read hq hnumber, get?_read hq hnumber]
      split
      · next hkey => rw [versions_congr (hkey ▸ h)]
      · exact h
  | unset s =>
    rw [apply, apply]
    cases hq : s.version? with
    | none => rw [unset_of_short hq, unset_of_short hq, h]
    | some q => rw [get?_unset hq, get?_unset hq, h]
  | clear => rfl

theorem get?_foldl_filter (key : SubtableKey) (ops : List Operation) {w : VersionStore}
    (h : v.subtables.get? key = w.subtables.get? key) :
    (ops.foldl apply v).subtables.get? key =
      ((ops.filter (·.concerns key)).foldl apply w).subtables.get? key := by
  induction ops generalizing v w with
  | nil => exact h
  | cons op ops ih =>
    rw [List.filter_cons]
    split
    · exact ih (get?_apply_congr op h)
    · next hop => exact ih ((get?_apply_of_not_concerns hop).trans h)

/-! ## The law of the store -/

/-- After any operations the read of a parsed section answers that there is nothing new exactly if
the version of the section is recorded, and else what reading the table gives. For this only the
section itself must be parsed: a version of eight bits could be the mark of what was not read, and
would pass for one that was. Operations on other subtables have no part in an answer. A section with
a number beyond the last is refused, and one of the short form is always read; neither changes the
store. -/
theorem read_after (ops : List Operation) (f : TableFormat α) (s : Section) :
    (∀ p, s.Parsed → s.version? = some p → p.number ≤ p.lastNumber →
      (((after ops).read f s).2 = .ok none ↔ Recorded (history ops) p) ∧
      (¬Recorded (history ops) p → ((after ops).read f s).2 = (f.read s).map some)) ∧
    (∀ p, s.version? = some p →
      ((after ops).read f s).2 = ((after (ops.filter (·.concerns p.key))).read f s).2) ∧
    (∀ p, s.version? = some p → p.lastNumber < p.number →
      (after ops).read f s = (after ops, .error (.invalidValue "section_number"))) ∧
    (s.version? = none → (after ops).read f s = (after ops, (f.read s).map some)) := by
  refine ⟨fun p parsed h hnumber => ?_,
    fun p h => answer_congr h (get?_foldl_filter p.key ops rfl), fun p => read_of_beyond,
    read_of_short⟩
  have hknows := knows_after ops (parsed.version_ne_unread h)
  constructor
  · rw [answer_eq_none_iff h hnumber, hknows]
  · exact fun hrecorded => answer_of_unknown h hnumber fun hknown => hrecorded (hknows.mp hknown)

/-- Program 1 with its map on PID 0x100, in one section of that version. -/
def oneProgramSection (version : UInt8) : Section where
  tableId := 0x00
  privateIndicator := false
  extended := some ⟨1, ⟨version, true, 0, 0⟩⟩
  data := [0x00, 0x01, 0xE1, 0x00]
  crc32 := some 0

/-- The octets of the section, with a checksum that is not looked at. -/
def oneProgramOctets (version : UInt8) : Bytes :=
  [0x00, 0xB0, 0x0D, 0x00, 0x01, 0xC1 + 2 * version, 0x00, 0x00, 0x00, 0x01, 0xE1, 0x00, 0x00, 0x00,
    0x00, 0x00]

/-- A table is known once it has been read, though its section cannot be read as another one, until
it is unset. -/
theorem read_after_pat :
    Section.ofBytes (oneProgramOctets 1) false = .ok (oneProgramSection 1, 16) ∧
      Section.ofBytes (oneProgramOctets 2) false = .ok (oneProgramSection 2, 16) ∧
      (oneProgramSection 1).version? = some ⟨(0x00, 1), 0, 0, 1⟩ ∧
      ((after [.read Pat.format (oneProgramSection 1), .read Cat.format (oneProgramSection 2)]).read
        Pat.format (oneProgramSection 1)).2 = .ok none ∧
      ((after [.read Pat.format (oneProgramSection 1), .unset (oneProgramSection 2)]).read
        Pat.format (oneProgramSection 1)).2 = (Pat.format.read (oneProgramSection 1)).map some := by
  have hoctets : Section.ofBytes (oneProgramOctets 1) false = .ok (oneProgramSection 1, 16) := by
    decide +kernel
  have parsed : (oneProgramSection 1).Parsed := ⟨_, _, _, hoctets⟩
  have hread : (empty.read Pat.format (oneProgramSection 1)).2.isOk = true := by decide +kernel
  refine ⟨hoctets, by decide +kernel, rfl,
    ((read_after _ Pat.format _).1 ⟨(0x00, 1), 0, 0, 1⟩ parsed rfl (by decide)).1.mpr ?_,
    ((read_after _ Pat.format _).1 ⟨(0x00, 1), 0, 0, 1⟩ parsed rfl (by decide)).2 ?_⟩
  · refine ⟨[], _, _, rfl, ⟨hread, rfl⟩, fun e he => ?_⟩
    rw [List.mem_singleton.mp he]
    rintro ⟨q, hq, -, -, hlast | ⟨hfailed, -⟩⟩
    · cases Option.some.inj hq
      exact hlast rfl
    · revert hfailed
      decide +kernel
  · rw [← List.singleton_append, history_concat, recorded_concat]
    rintro (hreads | ⟨-, hundoes⟩)
    · exact hreads
    · exact hundoes ⟨_, rfl, rfl, rfl⟩

end VersionStore

end DvbHost
