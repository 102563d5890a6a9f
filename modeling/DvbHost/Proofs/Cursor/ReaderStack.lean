import DvbHost.Proofs.Cursor.Taken

/-!
# A stack of readers

A reader can cut off a part of what it holds for a reader of its own, and then waits below it until
it is finished. A run of such readers keeps, besides the octets that each of them holds, the places
that these have in the input. `Reader.Sound` is the law of one reader: what it consumed and what it
passed on stand one after the other from the beginning of its range up to the octets that it still
holds. Every range but that of the input was passed on by a reader, each to one. So every octet of
the input is in one place: one reader consumed it, or one holds it (`octets_conserved`).
-/

namespace DvbHost

set_option autoImplicit false

namespace ReaderStack

/-! ## Requests -/

/-- What is asked of the reader on top of a stack. -/
inductive Request
  | peek
  | u8 | u16 | u24 | u32 | u48
  | length12
  /-- All octets that are left, which stay. -/
  | unread
  /-- So many octets, as a string or as an array of that size. -/
  | octets (n : Nat)
  /-- So many octets, for a reader of their own. -/
  | part (n : Nat)
  | loop
  | loopOf (n : Nat)
  | rest
  | finish

inductive Value
  | number (n : Nat)
  | octets (bs : Bytes)
  | loop (l : DescriptorLoop)
  | done
  deriving DecidableEq

def Request.cursor : Request → Cursor Value
  | .peek => do return .number (← Cursor.peek).toNat
  | .u8 => do return .number (← Cursor.u8).toNat
  | .u16 => do return .number (← Cursor.u16).toNat
  | .u24 => do return .number (← Cursor.u24).toNat
  | .u32 => do return .number (← Cursor.u32).toNat
  | .u48 => do return .number (← Cursor.u48).toNat
  | .length12 => do return .number (← Cursor.length12)
  | .unread => do return .octets (← Cursor.unread)
  | .octets n | .part n => do return .octets (← Cursor.bytes n)
  | .loop => do return .loop (← DescriptorLoop.read)
  | .loopOf n => do return .loop (← DescriptorLoop.ofLength n)
  | .rest => do return .octets (← Cursor.rest)
  | .finish => do Cursor.finish; return .done

/-- How many octets are taken, if that does not depend on them. -/
def Request.width? : Request → Option Nat
  | .u8 => some 1
  | .u16 | .length12 => some 2
  | .u24 => some 3
  | .u32 => some 4
  | .u48 => some 6
  | .octets n | .part n => some n
  | _ => none

/-! ## Readers and their places -/

/-- Places of the input from one up to another. -/
structure Span where
  start : Nat
  stop : Nat
  deriving DecidableEq

def Span.places (s : Span) : List Nat := List.range' s.start (s.stop - s.start)

def Span.octets (s : Span) (input : Bytes) : Bytes := (input.take s.stop).drop s.start

/-- Octets that a reader no longer holds. -/
structure Use where
  span : Span
  /-- Whether a reader of their own was made for them. -/
  passed : Bool
  deriving DecidableEq

structure Reader where
  /-- What it was made for. -/
  range : Span
  /-- What it consumed and what it passed on, in order. -/
  uses : List Use
  held : Bytes
  deriving DecidableEq

namespace Reader

/-- The place of the first octet that it still holds. -/
def position (r : Reader) : Nat := r.range.stop - r.held.length

def left (r : Reader) : Span := ⟨r.position, r.range.stop⟩

/-- The spans that it passed on. -/
def passed (r : Reader) : List Span := (r.uses.filter Use.passed).map Use.span

/-- The places of the octets that it consumed itself. -/
def consumed (r : Reader) : List Nat := (r.uses.filter (!·.passed)).flatMap (·.span.places)

/-- The places that it goes past when it keeps these octets only. -/
def skipped (r : Reader) (kept : Bytes) : Span := ⟨r.position, r.range.stop - kept.length⟩

def keep (r : Reader) (kept : Bytes) (passed : Bool) : Reader :=
  { r with uses := r.uses ++ [⟨r.skipped kept, passed⟩], held := kept }

end Reader

/-- What comes of a request. -/
structure Outcome where
  answer : Except SiError Value
  /-- The readers in the place of the one that was asked. -/
  top : List Reader
  gone : List Reader

def Reader.serve (r : Reader) (q : Request) : Outcome :=
  match q, q.cursor r.held with
  | .finish, (answer, _) => ⟨answer, [], [r]⟩
  | .part _, (.ok (.octets part), kept) =>
    ⟨.ok (.octets part), [⟨r.skipped kept, [], part⟩, r.keep kept true], []⟩
  | _, (answer, kept) => ⟨answer, [r.keep kept false], []⟩

structure Progress where
  /-- The innermost reader first. -/
  stack : List Reader
  finished : List Reader
  answers : List (Except SiError Value)

namespace Progress

def readers (p : Progress) : List Reader := p.stack ++ p.finished

def next (p : Progress) (q : Request) : Progress :=
  match p.stack with
  | [] => p
  | r :: below =>
    let o := r.serve q
    ⟨o.top ++ below, o.gone ++ p.finished, p.answers ++ [o.answer]⟩

end Progress

def run (input : Bytes) (requests : List Request) : Progress :=
  requests.foldl Progress.next ⟨[⟨⟨0, input.length⟩, [], input⟩], [], []⟩

/-! ## What a reader takes -/

variable {q : Request} {r : Reader} {below : List Reader} {input taken kept : Bytes}

namespace Request

theorem stays (h : q = .peek ∨ q = .unread ∨ q = .finish) (s : Bytes) : (q.cursor s).2 = s := by
  obtain rfl | rfl | rfl := h <;> cases s <;> rfl

theorem accounts (h : ¬ (q = .peek ∨ q = .unread ∨ q = .finish)) : q.cursor.Accounts := by
  cases q with
  | peek => exact absurd (.inl rfl) h
  | unread => exact absurd (.inr (.inl rfl)) h
  | finish => exact absurd (.inr (.inr rfl)) h
  | u8 => exact Cursor.accounts_u8.map _
  | u16 => exact ((Cursor.accounts_bytes 2).map _).map _
  | u24 => exact ((Cursor.accounts_bytes 3).map _).map _
  | u32 => exact ((Cursor.accounts_bytes 4).map _).map _
  | u48 => exact ((Cursor.accounts_bytes 6).map _).map _
  | length12 => exact (((Cursor.accounts_bytes 2).map _).map _).map _
  | octets n | part n => exact (Cursor.accounts_bytes n).map _
  | loop => exact DescriptorLoop.accounts_read.map _
  | loopOf n => exact (DescriptorLoop.accounts_ofLength n).map _
  | rest => exact Cursor.accounts_rest.map _

/-- A loop behind its length is the only request that can lack octets when it has taken some. -/
theorem retains (h : q ≠ .loop) : q.cursor.Retains := by
  cases q with
  | loop => exact absurd rfl h
  | peek | unread | finish => exact fun s _ => stays (by simp) s
  | u8 => exact Cursor.retains_u8.map _
  | u16 => exact ((Cursor.retains_bytes 2).map _).map _
  | u24 => exact ((Cursor.retains_bytes 3).map _).map _
  | u32 => exact ((Cursor.retains_bytes 4).map _).map _
  | u48 => exact ((Cursor.retains_bytes 6).map _).map _
  | length12 => exact (((Cursor.retains_bytes 2).map _).map _).map _
  | octets n | part n => exact (Cursor.retains_bytes n).map _
  | loopOf n => exact (DescriptorLoop.retains_ofLength n).map _
  | rest => exact fun _ h => nomatch h

/-- Behind its length a loop can lack octets, and those of the length are gone. -/
example : loop.cursor [0xF0, 0x04, 0x0A] = (.error .truncatedData, [0x0A]) := rfl

theorem takes {width : Nat} (h : q.width? = some width) : q.cursor.Takes width := by
  cases q <;> cases h
  case u8 => exact Cursor.takes_u8.map _
  case u16 => exact Cursor.takes_u16.map _
  case u24 => exact ((Cursor.takes_bytes 3).map _).map _
  case u32 => exact ((Cursor.takes_bytes 4).map _).map _
  case u48 => exact ((Cursor.takes_bytes 6).map _).map _
  case length12 => exact (Cursor.takes_u16.map _).map _
  case octets => exact (Cursor.takes_bytes width).map _
  case part => exact (Cursor.takes_bytes width).map _

theorem front (q : Request) (s : Bytes) : ∃ taken, s = taken ++ (q.cursor s).2 := by
  by_cases h : q = .peek ∨ q = .unread ∨ q = .finish
  · exact ⟨[], (stays h s).symm⟩
  · obtain ⟨taken, hs, -⟩ := accounts h s
    exact ⟨taken, hs⟩

theorem part_of_le {n : Nat} {s : Bytes} (h : n ≤ s.length) :
    (part n).cursor s = (.ok (.octets (s.take n)), s.drop n) :=
  Cursor.bind_ok (Cursor.bytes_of_le h)

theorem part_of_lt {n : Nat} {s : Bytes} (h : s.length < n) :
    (part n).cursor s = (.error .truncatedData, s) :=
  Cursor.bind_error (Cursor.bytes_of_lt h)

theorem finish_cursor (s : Bytes) : (finish.cursor s).1 = .ok .done ↔ s = [] := by
  cases s with
  | nil => exact iff_of_true rfl rfl
  | cons b s => exact iff_of_false nofun nofun

end Request

/-! ## What comes of a request -/

/-- A reader keeps the octets behind those that it takes, or a reader of their own is made for
these, or the reader is gone. -/
inductive Step (r : Reader) : Request → Outcome → Prop
  | keep {q : Request} (hpart : ∀ n, q = .part n → r.held.length < n) (hfinish : q ≠ .finish) :
      Step r q ⟨(q.cursor r.held).1, [r.keep (q.cursor r.held).2 false], []⟩
  | part {n : Nat} (h : n ≤ r.held.length) :
      Step r (.part n) ⟨.ok (.octets (r.held.take n)),
        [⟨r.skipped (r.held.drop n), [], r.held.take n⟩, r.keep (r.held.drop n) true], []⟩
  | finish : Step r .finish ⟨(Request.finish.cursor r.held).1, [], [r]⟩

theorem Reader.step (r : Reader) (q : Request) : Step r q (r.serve q) := by
  cases q with
  | finish => exact .finish
  | part n =>
    by_cases h : n ≤ r.held.length
    · simp only [serve, Request.part_of_le h]
      exact .part h
    · have hlt : r.held.length < n := Nat.not_le.mp h
      have hkeep := Step.keep (r := r) (q := .part n) (fun _ hq => Request.part.inj hq ▸ hlt) nofun
      rw [Request.part_of_lt hlt] at hkeep
      simp only [serve, Request.part_of_lt hlt]
      exact hkeep
  | _ => exact .keep nofun nofun

namespace Step

variable {o : Outcome}

theorem answer (h : Step r q o) : o.answer = (q.cursor r.held).1 := by
  cases h with
  | keep => rfl
  | part h => rw [Request.part_of_le h]
  | finish => rfl

theorem truncated (h : Step r q o) (hloop : q ≠ .loop)
    (hanswer : (q.cursor r.held).1 = .error .truncatedData) : o.top = [r.keep r.held false] := by
  cases h with
  | keep => rw [Request.retains hloop r.held hanswer]
  | part h =>
    rw [Request.part_of_le h] at hanswer
    cases hanswer
  | finish => cases hheld : r.held <;> rw [hheld] at hanswer <;> cases hanswer

theorem looked (h : Step r q o) (hq : q = .peek ∨ q = .unread) : o.top = [r.keep r.held false] := by
  have hstays := Request.stays (hq.imp_right .inl) r.held
  cases h with
  | keep => rw [hstays]
  | part | finish => obtain hq | hq := hq <;> cases hq

theorem remains (h : Step r q o) (hq : q ≠ .finish) :
    ∃ first passed, o.top = first ++ [r.keep (q.cursor r.held).2 passed] ∧
      (passed = true → ∃ n, q = .part n) := by
  cases h with
  | keep => exact ⟨[], false, rfl, nofun⟩
  | @part n h =>
    rw [Request.part_of_le h]
    exact ⟨[_], true, rfl, fun _ => ⟨n, rfl⟩⟩
  | finish => exact absurd rfl hq

theorem part_top {n : Nat} (h : Step r (.part n) o) (hn : n ≤ r.held.length) :
    o.top = [⟨r.skipped (r.held.drop n), [], r.held.take n⟩, r.keep (r.held.drop n) true] := by
  cases h with
  | keep hpart => exact absurd hn (Nat.not_le.mpr (hpart n rfl))
  | part => rfl

end Step

theorem Progress.next_eq {p : Progress} (h : p.stack = r :: below) (q : Request) :
    p.next q = ⟨(r.serve q).top ++ below, (r.serve q).gone ++ p.finished,
      p.answers ++ [(r.serve q).answer]⟩ := by
  rw [next, h]

/-! ## Spans one after the other -/

/-- The spans fill the places from one to another, one after the other. -/
def Tiles : (start : Nat) → List Span → (stop : Nat) → Prop
  | start, [], stop => start = stop
  | start, s :: spans, stop => s.start = start ∧ s.start ≤ s.stop ∧ Tiles s.stop spans stop

variable {start mid stop : Nat} {spans : List Span}

theorem Tiles.concat (h : Tiles start spans mid) (hstop : mid ≤ stop) :
    Tiles start (spans ++ [⟨mid, stop⟩]) stop := by
  induction spans generalizing start with
  | nil => exact ⟨h.symm, hstop, rfl⟩
  | cons s spans ih => exact ⟨h.1, h.2.1, ih h.2.2⟩

theorem Tiles.le (h : Tiles start spans stop) : start ≤ stop := by
  induction spans generalizing start with
  | nil => exact Nat.le_of_eq h
  | cons s spans ih => exact h.1 ▸ h.2.1.trans (ih h.2.2)

theorem Span.places_append (hmid : start ≤ mid) (hstop : mid ≤ stop) :
    places ⟨start, mid⟩ ++ places ⟨mid, stop⟩ = places ⟨start, stop⟩ := by
  obtain ⟨m, rfl⟩ := Nat.exists_eq_add_of_le hmid
  obtain ⟨n, rfl⟩ := Nat.exists_eq_add_of_le hstop
  have hlength : start + m + n - start = m + n := by omega
  simp only [places, Nat.add_sub_cancel_left, hlength, List.range'_append_1]

theorem Tiles.places (h : Tiles start spans stop) :
    spans.flatMap Span.places = Span.places ⟨start, stop⟩ := by
  induction spans generalizing start with
  | nil =>
    obtain rfl := h
    simp [Span.places]
  | cons s spans ih =>
    obtain ⟨rfl, hle, hnext⟩ := h
    rw [List.flatMap_cons, ih hnext]
    exact Span.places_append hle hnext.le

theorem Span.octets_eq (start stop : Nat) (input : Bytes) :
    octets ⟨start, stop⟩ input = (input.drop start).take (stop - start) := List.drop_take ..

theorem Span.length_octets (hstop : stop ≤ input.length) :
    (octets ⟨start, stop⟩ input).length = stop - start := by
  rw [octets, List.length_drop, List.length_take, Nat.min_eq_left hstop]

/-- The octets at the front of a span are those of its front. -/
theorem Span.octets_front (hstop : stop ≤ input.length)
    (h : octets ⟨start, stop⟩ input = taken ++ kept) :
    octets ⟨start, stop - kept.length⟩ input = taken := by
  have hlength := congrArg List.length h
  rw [length_octets hstop, List.length_append] at hlength
  have hfront : stop - kept.length - start = taken.length := by omega
  calc octets ⟨start, stop - kept.length⟩ input
      = ((input.drop start).take (stop - start)).take taken.length := by
        rw [octets_eq, hfront, List.take_take, Nat.min_eq_left (by omega)]
    _ = taken := by rw [← octets_eq, h, List.take_left]

/-- The octets behind those are those of its end. -/
theorem Span.octets_behind (hstart : start ≤ stop) (hstop : stop ≤ input.length)
    (h : octets ⟨start, stop⟩ input = taken ++ kept) :
    octets ⟨stop - kept.length, stop⟩ input = kept := by
  have hlength := congrArg List.length h
  rw [length_octets hstop, List.length_append] at hlength
  have hbehind : stop - kept.length = start + taken.length := by omega
  calc octets ⟨stop - kept.length, stop⟩ input
      = (octets ⟨start, stop⟩ input).drop taken.length := by
        rw [octets, octets, List.drop_drop, hbehind]
    _ = kept := by rw [h, List.drop_left]

/-! ## The law of a reader -/

/-- What a reader took fills the beginning of its range, and what it holds is the rest of it. -/
structure Reader.Sound (input : Bytes) (r : Reader) : Prop where
  inside : r.range.stop ≤ input.length
  tiles : Tiles r.range.start (r.uses.map Use.span) r.position
  held : r.held = r.left.octets input

namespace Reader

theorem position_le (r : Reader) : r.position ≤ r.range.stop := Nat.sub_le ..

theorem position_le_of_append (h : r.held = taken ++ kept) :
    r.position ≤ r.range.stop - kept.length := by
  rw [position, h, List.length_append]
  omega

theorem Sound.keep (hr : r.Sound input) (h : r.held = taken ++ kept) (passed : Bool) :
    (r.keep kept passed).Sound input where
  inside := hr.inside
  tiles := by
    rw [Reader.keep, List.map_append]
    exact hr.tiles.concat (position_le_of_append h)
  held := (Span.octets_behind r.position_le hr.inside (hr.held.symm.trans h)).symm

theorem Sound.part (hr : r.Sound input) (h : r.held = taken ++ kept) :
    Sound input ⟨r.skipped kept, [], taken⟩ := by
  have hposition : position ⟨r.skipped kept, [], taken⟩ = r.position := by
    simp only [position, skipped, h, List.length_append]
    omega
  refine ⟨(Nat.sub_le ..).trans hr.inside, hposition.symm, ?_⟩
  rw [left, hposition]
  exact (Span.octets_front hr.inside (hr.held.symm.trans h)).symm

theorem passed_keep_false (r : Reader) (kept : Bytes) :
    (r.keep kept false).passed = r.passed := by
  simp [passed, keep]

theorem passed_keep_true (r : Reader) (kept : Bytes) :
    (r.keep kept true).passed = r.passed ++ [r.skipped kept] := by
  simp [passed, keep]

/-- The places of the range, by what became of them. -/
theorem Sound.places (hr : r.Sound input) :
    r.range.places.Perm (r.passed.flatMap Span.places ++ (r.consumed ++ r.left.places)) := by
  have htaken : (r.uses.flatMap (·.span.places)).Perm
      (r.passed.flatMap Span.places ++ r.consumed) := by
    rw [passed, List.flatMap_map, consumed, ← List.flatMap_append]
    exact (List.filter_append_perm Use.passed r.uses).symm.flatMap_right _
  have hrange : r.range.places = r.uses.flatMap (·.span.places) ++ r.left.places := by
    rw [← List.flatMap_map (f := Use.span), hr.tiles.places]
    exact (Span.places_append hr.tiles.le r.position_le).symm
  rw [hrange, ← List.append_assoc]
  exact htaken.append_right _

end Reader

/-- What is asked of a reader keeps its law, and gives one to the reader that is made. -/
theorem Step.sound {o : Outcome} (h : Step r q o) (hr : r.Sound input) :
    ∀ r' ∈ o.top ++ o.gone, r'.Sound input := by
  cases h with
  | keep =>
    obtain ⟨taken, hheld⟩ := q.front r.held
    exact List.forall_mem_singleton.mpr (hr.keep hheld false)
  | @part n =>
    have hheld : r.held = r.held.take n ++ r.held.drop n := (List.take_append_drop n r.held).symm
    exact List.forall_mem_cons.mpr
      ⟨hr.part hheld, List.forall_mem_singleton.mpr (hr.keep hheld true)⟩
  | finish => exact List.forall_mem_singleton.mpr hr

/-- The span that is passed on is the range of a new reader. -/
theorem Step.ranges {o : Outcome} (h : Step r q o) :
    ∃ new, ((o.top ++ o.gone).map Reader.range).Perm (r.range :: new) ∧
      (o.top ++ o.gone).flatMap Reader.passed = r.passed ++ new := by
  cases h with
  | keep =>
    refine ⟨[], .refl _, ?_⟩
    rw [List.append_nil, List.append_nil, List.flatMap_singleton, Reader.passed_keep_false]
  | @part n =>
    refine ⟨[r.skipped (r.held.drop n)], .swap .., ?_⟩
    rw [List.append_nil, List.flatMap_cons, List.flatMap_singleton, Reader.passed_keep_true]
    rfl
  | finish =>
    refine ⟨[], .refl _, ?_⟩
    rw [List.append_nil, List.nil_append, List.flatMap_singleton]

/-! ## The law of a stack -/

/-- Every reader obeys its law, and for each span that one of them passed on there is one reader;
besides these there is the one that was made for the input. -/
structure Progress.Sound (input : Bytes) (p : Progress) : Prop where
  readers : ∀ r ∈ p.readers, r.Sound input
  ranges : (p.readers.map Reader.range).Perm
    (⟨0, input.length⟩ :: p.readers.flatMap Reader.passed)

namespace Progress

variable {p : Progress}

theorem readers_perm (top gone below finished : List Reader)
    (answers : List (Except SiError Value)) :
    (readers ⟨top ++ below, gone ++ finished, answers⟩).Perm
      (top ++ gone ++ (below ++ finished)) := by
  rw [readers, List.append_assoc, List.append_assoc]
  exact (List.perm_append_comm_assoc below gone finished).append_left top

theorem sound_initial (input : Bytes) : (run input []).Sound input where
  readers := by
    refine List.forall_mem_singleton.mpr ⟨Nat.le_refl _, ?_, ?_⟩
    · exact (Nat.sub_self _).symm
    · simp [Reader.left, Reader.position, Span.octets]
  ranges := .refl _

/-- New spans, among the ranges and among what was passed on. -/
theorem perm_of_new {whole range : Span} {ranges others passed passedByOthers new : List Span}
    (h : (range :: others).Perm (whole :: (passed ++ passedByOthers)))
    (hnew : ranges.Perm (range :: new)) :
    (ranges ++ others).Perm (whole :: (passed ++ (new ++ passedByOthers))) :=
  calc (ranges ++ others).Perm (range :: new ++ others) := hnew.append_right others
    List.Perm _ (new ++ (range :: others)) := List.perm_middle.symm
    List.Perm _ (new ++ (whole :: (passed ++ passedByOthers))) := h.append_left new
    List.Perm _ (whole :: (new ++ (passed ++ passedByOthers))) := List.perm_middle
    List.Perm _ (whole :: (passed ++ (new ++ passedByOthers))) :=
      (List.perm_append_comm_assoc ..).cons whole

theorem Sound.next (hp : p.Sound input) (q : Request) : (p.next q).Sound input := by
  cases hstack : p.stack with
  | nil =>
    have hsame : p.next q = p := by rw [Progress.next, hstack]
    rwa [hsame]
  | cons r below =>
    obtain ⟨hreaders, hranges⟩ := hp
    rw [Progress.readers, hstack, List.cons_append] at hreaders hranges
    obtain ⟨hr, hothers⟩ := List.forall_mem_cons.mp hreaders
    have hstep := r.step q
    obtain ⟨new, hnew, hpassed⟩ := hstep.ranges
    rw [next_eq hstack]
    -- the readers are those that come of the request and the others, in another order
    have hperm := readers_perm (r.serve q).top (r.serve q).gone below p.finished
      (p.answers ++ [(r.serve q).answer])
    refine ⟨fun r' hr' => ?_, ?_⟩
    · obtain hr' | hr' := List.mem_append.mp (hperm.mem_iff.mp hr')
      · exact hstep.sound hr r' hr'
      · exact hothers r' hr'
    · refine (hperm.map _).trans (.trans ?_ ((hperm.flatMap_right _).symm.cons _))
      rw [List.map_append, List.flatMap_append, hpassed, List.append_assoc]
      exact perm_of_new hranges hnew

end Progress

theorem run_concat (input : Bytes) (requests : List Request) (q : Request) :
    run input (requests ++ [q]) = (run input requests).next q := List.foldl_concat ..

/-- Whatever is asked, the readers obey their law. -/
theorem sound_run (input : Bytes) (requests : List Request) : (run input requests).Sound input := by
  induction requests using List.reverseRecOn with
  | nil => exact Progress.sound_initial input
  | append_singleton requests q ih =>
    rw [run_concat]
    exact ih.next q

/-- Every place of the input is in one reader: it consumed the octet there, or it holds it. -/
theorem Progress.Sound.places {p : Progress} (hp : p.Sound input) :
    (p.readers.flatMap fun r => r.consumed ++ r.left.places).Perm (List.range input.length) := by
  have hwhole : Span.places ⟨0, input.length⟩ = List.range input.length :=
    List.range_eq_range'.symm
  have hreaders : (p.readers.flatMap fun r => r.range.places).Perm
      ((p.readers.flatMap Reader.passed).flatMap Span.places ++
        p.readers.flatMap fun r => r.consumed ++ r.left.places) := by
    rw [List.flatMap_assoc]
    exact (List.Perm.flatMap_left _ fun r hr => (hp.readers r hr).places).trans
      (List.flatMap_append_perm ..).symm
  have hranges : (p.readers.flatMap fun r => r.range.places).Perm
      (List.range input.length ++ (p.readers.flatMap Reader.passed).flatMap Span.places) := by
    rw [← List.flatMap_map (f := Reader.range), ← hwhole]
    exact hp.ranges.flatMap_right _
  -- what was passed on is on both sides
  exact (List.perm_append_left_iff _).mp
    ((hreaders.symm.trans hranges).trans List.perm_append_comm)

theorem Progress.Sound.consumed_nodup {p : Progress} (hp : p.Sound input) :
    (p.readers.flatMap Reader.consumed).Nodup := by
  have hall := (List.flatMap_append_perm p.readers Reader.consumed (·.left.places)).trans hp.places
  exact (hall.nodup_iff.mpr List.nodup_range).of_append_left

/-! ## Conservation -/

/-- A part is cut off from the front of what is held. -/
theorem Reader.Sound.skipped_drop (hr : r.Sound input) {n : Nat} (h : n ≤ r.held.length) :
    r.skipped (r.held.drop n) = ⟨r.position, r.position + n⟩ := by
  have hlength := congrArg List.length hr.held
  rw [left, Span.length_octets hr.inside, position] at hlength
  have hstop : r.range.stop - (r.held.length - n) = r.range.stop - r.held.length + n := by omega
  rw [skipped, List.length_drop, position, hstop]

/-- What comes of what is asked of a reader that stands on others. -/
structure Served (input : Bytes) (r : Reader) (below : List Reader) (q : Request)
    (p p' : Progress) : Prop where
  /-- The answer depends on nothing but what the reader still holds of its range. -/
  answer : p'.answers = p.answers ++ [(q.cursor (r.left.octets input)).1]
  /-- The readers below stay as they are, and so do those that are finished. -/
  others : ∃ top gone, p'.stack = top ++ below ∧ p'.finished = gone ++ p.finished
  truncated : q ≠ .loop → (q.cursor r.held).1 = .error .truncatedData →
    ∃ r', p'.stack = r' :: below ∧ r'.range = r.range ∧ r'.held = r.held
  looked : q = .peek ∨ q = .unread →
    ∃ r', p'.stack = r' :: below ∧ r'.range = r.range ∧ r'.held = r.held
  /-- The octets that are taken are those that the answer is made of. -/
  taken : ¬ (q = .peek ∨ q = .unread ∨ q = .finish) →
    ∃ top r' u, p'.stack = top ++ r' :: below ∧ r'.range = r.range ∧ r'.uses = r.uses ++ [u] ∧
      (u.passed = true → ∃ n, q = .part n) ∧
      q.cursor (u.span.octets input) = ((q.cursor r.held).1, [])
  /-- So many octets are read exactly if so many are left. -/
  fixed : ∀ width, q.width? = some width →
    (r.held.length < width ∧ (q.cursor r.held).1 = .error .truncatedData) ∨
    (width ≤ r.held.length ∧ ∃ v, q.cursor r.held = (.ok v, r.held.drop width))
  part : ∀ n, q = .part n → n ≤ r.held.length →
    ∃ r', p'.stack = ⟨⟨r.position, r.position + n⟩, [], r.held.take n⟩ :: r' :: below ∧
      r'.range = r.range ∧ r'.held = r.held.drop n ∧
      r'.uses = r.uses ++ [⟨⟨r.position, r.position + n⟩, true⟩]
  finish : q = .finish → p'.stack = below ∧ p'.finished = r :: p.finished ∧
    ((q.cursor r.held).1 = .ok .done ↔ r.held = [])

theorem served {p : Progress} (hp : p.Sound input) (hstack : p.stack = r :: below) (q : Request) :
    Served input r below q p (p.next q) := by
  have hmem : r ∈ p.readers := by
    rw [Progress.readers, hstack]
    exact List.mem_cons_self
  have hr := hp.readers r hmem
  have hstep := r.step q
  rw [Progress.next_eq hstack]
  constructor
  case answer => rw [hstep.answer, ← hr.held]
  case others => exact ⟨_, _, rfl, rfl⟩
  case truncated =>
    intro hloop h
    exact ⟨_, congrArg (· ++ below) (hstep.truncated hloop h), rfl, rfl⟩
  case looked =>
    intro h
    exact ⟨_, congrArg (· ++ below) (hstep.looked h), rfl, rfl⟩
  case taken =>
    intro h
    obtain ⟨first, passed, htop, hpassed⟩ := hstep.remains fun hq => h (.inr (.inr hq))
    obtain ⟨taken, hheld, hanswer⟩ := Request.accounts h r.held
    have hspan : (r.skipped (q.cursor r.held).2).octets input = taken :=
      Span.octets_front hr.inside (hr.held.symm.trans hheld)
    refine ⟨first, r.keep (q.cursor r.held).2 passed, ⟨r.skipped _, passed⟩, ?_, rfl, rfl,
      hpassed, ?_⟩
    · rw [htop, List.append_assoc]
      rfl
    · rw [hspan]
      exact hanswer
  case fixed =>
    intro width hwidth
    by_cases h : width ≤ r.held.length
    · exact .inr ⟨h, (Request.takes hwidth).takes r.held h⟩
    · have hlt : r.held.length < width := Nat.not_le.mp h
      obtain ⟨rest, hrest⟩ := (Request.takes hwidth).needs r.held hlt
      exact .inl ⟨hlt, congrArg Prod.fst hrest⟩
  case part =>
    rintro n rfl h
    refine ⟨r.keep (r.held.drop n) true, ?_, rfl, rfl, ?_⟩
    · rw [hstep.part_top h, hr.skipped_drop h]
      rfl
    · rw [Reader.keep, hr.skipped_drop h]
  case finish =>
    rintro rfl
    exact ⟨rfl, rfl, Request.finish_cursor r.held⟩

/-- Whatever is asked of a stack of readers over some octets: what each of them took fills the
beginning of its range, and what it holds is the rest; each range but the first was passed on by one
reader, and for one only; each octet was consumed once or is held, by one reader. A reader answers
from the rest of its range, and from the octets that it takes if it takes any; where octets are
missing it takes none, unless they are missing behind the length of a descriptor loop; a part is cut
off from the front of the rest; and a reader finishes well exactly if the rest is empty. -/
theorem octets_conserved (input : Bytes) (requests : List Request) :
    let p := run input requests
    p.Sound input ∧
    (p.readers.flatMap fun r => r.consumed ++ r.left.places).Perm (List.range input.length) ∧
    (p.readers.flatMap Reader.consumed).Nodup ∧
    ∀ r below, p.stack = r :: below → ∀ q,
      Served input r below q p (run input (requests ++ [q])) := by
  intro p
  have hp : p.Sound input := sound_run input requests
  refine ⟨hp, hp.places, hp.consumed_nodup, fun r below hstack q => ?_⟩
  rw [run_concat]
  exact served hp hstack q

/-- A length, the two octets that it announces, and one behind them. -/
def announced : Bytes := [0xF0, 0x02, 0xAA, 0xBB, 0xCC]

/-- A part that is used up: for more it lacks octets and stays as it is, and it finishes well. -/
theorem octets_conserved_usedPart :
    ∃ r below, (run announced [.length12, .part 2, .u16]).stack = r :: below ∧
      r.range = ⟨2, 4⟩ ∧ r.left = ⟨4, 4⟩ ∧
      (∃ r', (run announced [.length12, .part 2, .u16, .u8]).stack = r' :: below ∧
        r'.range = ⟨2, 4⟩ ∧ r'.held = []) ∧
      (run announced [.length12, .part 2, .u16, .finish]).stack = below ∧
      (Request.finish.cursor r.held).1 = .ok .done := by
  have hserved := (octets_conserved announced [.length12, .part 2, .u16]).2.2.2 _ _ rfl
  refine ⟨_, _, rfl, rfl, rfl, (hserved .u8).truncated nofun rfl, ?_⟩
  obtain ⟨hbelow, -, hdone⟩ := (hserved .finish).finish rfl
  exact ⟨hbelow, hdone.mpr rfl⟩

/-- What became of each octet, when the octet behind the part is read in turn. -/
example :
    (run announced [.length12, .part 2, .u16, .u8, .finish, .rest]).readers =
      [⟨⟨0, 5⟩, [⟨⟨0, 2⟩, false⟩, ⟨⟨2, 4⟩, true⟩, ⟨⟨4, 5⟩, false⟩], []⟩,
        ⟨⟨2, 4⟩, [⟨⟨2, 4⟩, false⟩, ⟨⟨4, 4⟩, false⟩], []⟩] := by
  decide

end ReaderStack

end DvbHost
