import DvbHost.Ci.CaPmt
import DvbHost.Proofs.Layout.Field
import DvbHost.Proofs.Outcome

/-!
# Requests to descramble

What a CA_PMT says is said here without its octets: a place in the list, a program with its version,
and for the program and each of its streams either nothing or a command with descriptors. `Written`
is the layout of such a request, and octets are the layout of one request at most, because a reader
takes it from them (`exhausts`). A program map is written as the request that `requested` gives,
unless a level of it is `Overfull`.
-/

namespace DvbHost.Ci.CaPmt

set_option autoImplicit false

open BitFields Cursor

/-! ## Requests and their layout -/

/-- A command with descriptors, or nothing. -/
abbrev Level := Option (UInt8 × DescriptorLoop)

structure StreamRequest where
  streamType : StreamType
  pid : Pid
  level : Level

structure Request where
  place : UInt8
  programNumber : UInt16
  version : Nat
  current : Bool
  program : Level
  streams : List StreamRequest

/-- No octets for nothing, else the command and the descriptors. -/
def InfoWritten : Layout Level := fun info level =>
  match level with
  | none => info = []
  | some (command, l) => info = command :: l.toBytes

/-- A level behind its length of 12 bits. -/
def LevelWritten : Layout Level := fun bs level =>
  ∃ info, Measured 4 12 bs info ∧ InfoWritten info level

def StreamWritten : Layout StreamRequest := fun bs s =>
  ∃ pid level, bs = [s.streamType.code] ++ pid ++ level ∧ Pid.Written pid s.pid ∧
    LevelWritten level s.level

/-- The place, the number, the version and its flag below two bits, the level of the program, and
streams to the end. -/
def Written : Layout Request := fun bs r =>
  ∃ reserved version level streams,
    bs = [r.place] ++ Bytes.ofUInt16 r.programNumber ++ version ++ level ++ streams ∧
    Packed [(2, reserved), (5, r.version), (1, r.current.toNat)] version ∧
    LevelWritten level r.program ∧ Many StreamWritten streams r.streams

/-! ## A reader -/

def infoOf : Bytes → Except SiError Level
  | [] => .ok none
  | command :: tail => (DescriptorLoop.ofBytes tail).map fun l => some (command, l)

def readLevel : Cursor Level := do
  let n ← length12
  lift (infoOf (← bytes n))

def readStream : Cursor StreamRequest := do
  let streamType ← StreamType.read
  let pid ← Pid.read
  return ⟨streamType, pid, ← readLevel⟩

def readRequest : Cursor Request := do
  let place ← u8
  let programNumber ← u16
  let version ← u8
  let program ← readLevel
  return ⟨place, programNumber, bits 1 5 version.toNat, Octet.flag 0 version, program,
    ← untilEnd readStream⟩

theorem infoOf_eq_ok (info : Bytes) (level : Level) :
    infoOf info = .ok level ↔ InfoWritten info level := by
  cases info with
  | nil =>
    rw [infoOf, Except.ok.injEq]
    cases level with
    | none => exact iff_of_true rfl rfl
    | some p => exact iff_of_false nofun nofun
  | cons command tail =>
    have hloop := DescriptorLoop.ofBytes_eq_ok tail
    rw [infoOf]
    cases level with
    | none =>
      refine iff_of_false (fun h => ?_) nofun
      obtain ⟨l, -, hl⟩ := Outcome.ok_of_map h
      cases hl
    | some p =>
      obtain ⟨command', l⟩ := p
      rw [InfoWritten, List.cons.injEq, ← hloop]
      constructor
      · intro h
        obtain ⟨l', hl', hsome⟩ := Outcome.ok_of_map h
        cases hsome
        exact ⟨rfl, hl'⟩
      · rintro ⟨rfl, hl⟩
        rw [hl]
        rfl

theorem parses_level : Parses readLevel LevelWritten :=
  parses_length12 fun n =>
    (parses_part infoOf_eq_ok (parses_bytes n)).congr fun bs level => by
      constructor
      · rintro ⟨info, ⟨hlength, rfl⟩, hinfo⟩
        exact ⟨hlength, hinfo⟩
      · rintro ⟨hlength, hinfo⟩
        exact ⟨bs, ⟨hlength, rfl⟩, hinfo⟩

theorem parses_stream : Parses readStream StreamWritten := by
  have htype := parses_u8.map StreamType.mk
  refine (htype.bind fun _ => Pid.parses.bind fun _ => parses_level.map _).congr
    fun bs s => ⟨?_, ?_⟩
  · rintro ⟨_, _, ⟨code, rfl, rfl⟩, _, rfl, _, pid, hpid, level, rfl, _, hlevel, rfl⟩
    exact ⟨pid, level, rfl, hpid, hlevel⟩
  · rintro ⟨pid, level, rfl, hpid, hlevel⟩
    exact ⟨s.streamType, _, ⟨_, rfl, rfl⟩, _, rfl, s.pid, pid, hpid, level, rfl, _, hlevel, rfl⟩

theorem StreamWritten.ne_nil (bs : Bytes) (s : StreamRequest) (h : StreamWritten bs s) :
    bs ≠ [] := by
  obtain ⟨pid, level, rfl, _⟩ := h
  exact List.cons_ne_nil _ _

theorem version_iff {bs : Bytes} {version : Nat} {current : Bool} :
    (∃ reserved, Packed [(2, reserved), (5, version), (1, current.toNat)] bs) ↔
      ∃ b : UInt8, bs = [b] ∧ version = bits 1 5 b.toNat ∧ current = Octet.flag 0 b := by
  have hvalues (reserved : Nat) (b : UInt8) :
      [reserved, version, current.toNat] = values [2, 5, 1] b.toNat ↔
        reserved = bits 6 2 b.toNat ∧ version = bits 1 5 b.toNat ∧ current = Octet.flag 0 b := by
    change [reserved, version, current.toNat] =
      [bits 6 2 b.toNat, bits 1 5 b.toNat, bits 0 1 b.toNat] ↔ _
    rw [List.cons.injEq, List.cons.injEq, List.cons.injEq, eq_self, and_true, flag_eq_bits_iff]
    rfl
  constructor
  · rintro ⟨reserved, hbs⟩
    obtain ⟨b, rfl, hb⟩ := (packed_octet rfl).mp hbs
    exact ⟨b, rfl, ((hvalues reserved b).mp hb).2⟩
  · rintro ⟨b, rfl, hb⟩
    exact ⟨bits 6 2 b.toNat, (packed_octet rfl).mpr ⟨b, rfl, (hvalues _ b).mpr ⟨rfl, hb⟩⟩⟩

/-- The reader takes exactly the layouts of requests. -/
theorem exhausts : Exhausts readRequest Written := by
  have hstreams := parses_stream.untilEnd StreamWritten.ne_nil
  refine (parses_u8.bindAll fun _ => parses_u16.bindAll fun _ => parses_u8.bindAll fun _ =>
    parses_level.bindAll fun _ => hstreams.map _).congr fun bs r => ⟨?_, ?_⟩
  · rintro ⟨place, _, rfl, _, rfl, number, _, rfl, _, rfl, b, _, rfl, _, rfl, program, level,
      hlevel, streams, rfl, _, hmany, rfl⟩
    obtain ⟨reserved, hversion⟩ := version_iff.mpr ⟨b, rfl, rfl, rfl⟩
    exact ⟨reserved, [b], level, streams, by simp, hversion, hlevel, hmany⟩
  · obtain ⟨place, number, version, current, program, entries⟩ := r
    rintro ⟨reserved, _, level, streams, rfl, hversion, hlevel, hmany⟩
    obtain ⟨b, rfl, rfl, rfl⟩ := version_iff.mp ⟨reserved, hversion⟩
    exact ⟨place, _, rfl, _, by simp, number, _, rfl, _, rfl, b, _, rfl, _, rfl, program, level,
      hlevel, streams, rfl, _, hmany, rfl⟩

/-- Octets say one thing. -/
theorem Written.unique {bs : Bytes} {r r' : Request} (h : Written bs r) (h' : Written bs r') :
    r = r' := by
  have hrun := exhausts.run_eq_ok_iff.mpr h
  rw [exhausts.run_eq_ok_iff.mpr h'] at hrun
  exact (Except.ok.inj hrun).symm

/-! ## The request of a program map -/

/-- The conditional access descriptors of a level, in order. -/
def accessOf (l : DescriptorLoop) : DescriptorLoop := ⟨l.items.filter fun d => d.tag = 0x09⟩

/-- The octets that descriptors take. -/
def size (l : DescriptorLoop) : Nat := (l.items.map fun d => 2 + d.data.length).sum

def requestedLevel (command : CaCommand) (l : DescriptorLoop) : Level :=
  if (accessOf l).items = [] then none else some (command.code, accessOf l)

def requestedStream (command : CaCommand) (s : PmtStream) : StreamRequest :=
  ⟨s.streamType, s.pid, requestedLevel command s.descriptors⟩

/-- What a module is to be told of a program. -/
def requested (t : Pmt) (place : ListManagement) (command : CaCommand) : Request where
  place := place.code
  programNumber := t.programNumber
  version := t.info.version.toNat % 32
  current := t.info.current
  program := requestedLevel command t.descriptors
  streams := t.streams.map (requestedStream command)

theorem length_toBytes (l : DescriptorLoop) : l.toBytes.length = size l := by
  rw [DescriptorLoop.toBytes, List.length_flatMap, size]
  refine congrArg List.sum (List.map_congr_left fun d _ => ?_)
  rw [RawDescriptor.toBytes, List.length_cons, List.length_cons]
  omega

/-- The outcome of writing what may be refused for an overfull level. -/
def WrittenUnless {α : Type} (refused : Prop) (x : Except CiError α) (P : α → Prop) : Prop :=
  (refused ∧ x = .error .lengthMismatch) ∨ (¬refused ∧ ∃ a, x = .ok a ∧ P a)

namespace WrittenUnless

variable {α β : Type} {x : Except CiError α} {f : α → Except CiError β} {P : α → Prop}
  {Q : β → Prop} {refused refused' : Prop}

theorem bind (hx : WrittenUnless refused x P) (hf : ∀ a, P a → WrittenUnless refused' (f a) Q) :
    WrittenUnless (refused ∨ refused') (x >>= f) Q := by
  obtain ⟨h, rfl⟩ | ⟨h, a, rfl, ha⟩ := hx
  · exact .inl ⟨.inl h, rfl⟩
  · obtain ⟨h', hrefused⟩ | ⟨h', hwritten⟩ := hf a ha
    · exact .inl ⟨.inr h', hrefused⟩
    · exact .inr ⟨not_or.mpr ⟨h, h'⟩, hwritten⟩

theorem map {g : α → β} (hx : WrittenUnless refused x P) (hg : ∀ a, P a → Q (g a)) :
    WrittenUnless refused (x >>= fun a => .ok (g a)) Q := by
  obtain ⟨h, rfl⟩ | ⟨h, a, rfl, ha⟩ := hx
  · exact .inl ⟨h, rfl⟩
  · exact .inr ⟨h, g a, rfl, hg a ha⟩

/-- Entries that are written one after the other. -/
theorem mapM {write : α → Except CiError Bytes} {L : Layout β} {g : α → β} {refuses : α → Prop}
    (h : ∀ a, WrittenUnless (refuses a) (write a) fun bs => L bs (g a)) (as : List α) :
    WrittenUnless (∃ a ∈ as, refuses a) (as.mapM write) fun bss =>
      Many L bss.flatten (as.map g) := by
  induction as with
  | nil => exact .inr ⟨nofun, [], rfl, many_nil.mpr rfl⟩
  | cons a as ih =>
    rw [List.mapM_cons, List.exists_mem_cons_iff]
    refine (h a).bind fun bs hbs => ih.map fun bss hbss => ?_
    exact many_cons.mpr ⟨bs, bss.flatten, List.flatten_cons, hbs, hbss⟩

end WrittenUnless

end DvbHost.Ci.CaPmt
