import DvbHost.Descriptor.Event
import DvbHost.Descriptor.Service
import DvbHost.Proofs.Cursor

/-!
# Descriptors that are written

A text that is longer than its length can say is cut where it is written, and nothing is reported
there. What saves the descriptor is the length of its body, which is only known when all of it
stands in the buffer: a cut text alone makes the body too long, so a descriptor is written with whole
texts or taken back (`texts_never_cut`).
-/

namespace DvbHost

set_option autoImplicit false

open Cursor

theorem Language.reads (l : Language) : Reads read l.toBytes l :=
  (reads_u8 l.first).bind ((reads_u8 l.second).bind ((reads_u8 l.third).map _))

namespace Descriptor

/-! ## In the buffer -/

/-- A text put behind what stands in a buffer. -/
def putText (t : DvbText) (buffer : Bytes) : Bytes :=
  let octets := t.bytes.take (min t.bytes.length 0xFF)
  buffer ++ [UInt8.ofNat octets.length] ++ octets

/-- The tag and a length of zero, and behind them what `put` puts there. Then the length is set, or
all of it is taken back. -/
def writeInPlace (tag : UInt8) (put : Bytes → Bytes) (buffer : Bytes) :
    Except SiError Unit × Bytes :=
  let start := buffer.length
  let written := put (buffer ++ [tag, 0])
  let length := written.length - start - 2
  if length < 256 then (.ok (), written.set (start + 1) (UInt8.ofNat length))
  else (.error (.invalidValue "descriptor_length"), written.take start)

def Service.writeInPlace (d : Service) (buffer : Bytes) : Except SiError Unit × Bytes :=
  Descriptor.writeInPlace 0x48
    (fun body => putText d.name (putText d.provider (body ++ [d.serviceType.code]))) buffer

def ShortEvent.writeInPlace (d : ShortEvent) (buffer : Bytes) : Except SiError Unit × Bytes :=
  Descriptor.writeInPlace 0x4D
    (fun body => putText d.text (putText d.name (body ++ d.language.toBytes))) buffer

theorem putText_eq (t : DvbText) (buffer : Bytes) : putText t buffer = buffer ++ textField t := by
  have hcut : t.bytes.take (min t.bytes.length 0xFF) = t.bytes.take 0xFF := by
    rw [Nat.min_comm, ← List.take_take, List.take_length]
  rw [putText, textField, hcut, List.append_assoc]
  rfl

/-- What is put behind a buffer is written there, or the buffer is as it was. -/
theorem writeInPlace_eq {put : Bytes → Bytes} {body : Bytes} (hput : ∀ bs, put bs = bs ++ body)
    (tag : UInt8) (buffer : Bytes) :
    writeInPlace tag put buffer = writeBehind buffer tag body := by
  have hlength : (buffer ++ [tag, 0] ++ body).length - buffer.length - 2 = body.length := by
    simp only [List.length_append, List.length_cons, List.length_nil]
    omega
  have hset : (buffer ++ [tag, 0] ++ body).set (buffer.length + 1) (UInt8.ofNat body.length) =
      buffer ++ tag :: UInt8.ofNat body.length :: body := by
    have hplace : buffer.length + 1 - buffer.length = 1 := by omega
    rw [List.append_assoc, List.set_append_right _ _ (Nat.le_succ _), hplace]
    rfl
  have htake : (buffer ++ [tag, 0] ++ body).take buffer.length = buffer := by
    rw [List.append_assoc, List.take_left]
  simp only [writeInPlace, writeBehind, hput, hlength, hset, htake]

/-- A head and two texts that are put one after the other. -/
theorem writeInPlace_texts (tag : UInt8) (head : Bytes) (a b : DvbText) (buffer : Bytes) :
    writeInPlace tag (fun body => putText b (putText a (body ++ head))) buffer =
      writeBehind buffer tag (head ++ (textField a ++ textField b)) := by
  apply writeInPlace_eq
  intro bs
  rw [putText_eq, putText_eq, List.append_assoc, List.append_assoc]

theorem Service.writeInPlace_eq (d : Service) (buffer : Bytes) :
    d.writeInPlace buffer = d.write buffer :=
  writeInPlace_texts 0x48 [d.serviceType.code] d.provider d.name buffer

theorem ShortEvent.writeInPlace_eq (d : ShortEvent) (buffer : Bytes) :
    d.writeInPlace buffer = d.write buffer :=
  writeInPlace_texts 0x4D d.language.toBytes d.name d.text buffer

/-! ## Whole texts -/

variable {α β : Type}

/-- The outcome of writing a descriptor behind a buffer, where `size` octets are all that it says.
They are all there and are read as the descriptor, or they are too many and nothing is written. -/
def Stored (format : DescriptorFormat α) (d : α) (size : Nat) (buffer : Bytes)
    (outcome : Except SiError Unit × Bytes) : Prop :=
  (size ≤ 255 ∧ ∃ (n : UInt8) (body : Bytes), n.toNat = body.length ∧ body.length = size ∧
    format.read body = .ok d ∧ outcome = (.ok (), buffer ++ [format.tag, n] ++ body)) ∨
  (255 < size ∧ outcome = (.error (.invalidValue "descriptor_length"), buffer))

theorem length_textField (t : DvbText) :
    (textField t).length = 1 + min 0xFF t.bytes.length := by
  rw [textField, List.length_cons, List.length_take, Nat.add_comm]

/-- A text that is not cut is read back. -/
theorem reads_textField {t : DvbText} (h : t.bytes.length ≤ 0xFF) :
    Reads DvbText.counted (textField t) t := by
  have hlength : (UInt8.ofNat t.bytes.length).toNat = t.bytes.length :=
    UInt8.toNat_ofNat_of_lt' (Nat.lt_succ_of_le h)
  have hbytes := reads_bytes t.bytes
  rw [← hlength] at hbytes
  have hcounted := ((reads_u8 _).bind (f := fun n => bytes n.toNat) hbytes).map DvbText.mk
  rwa [textField, List.take_of_length_le h]

/-- A body of a head and two texts. If it is no longer than a descriptor may be, then neither text
is cut, and if a text is cut, it is longer. -/
theorem stored_texts {head : Bytes} {p : Cursor β} {x : β} (hhead : Reads p head x)
    (make : β → DvbText → DvbText → α) (a b : DvbText) (tag : UInt8) (buffer : Bytes) :
    Stored
      ⟨tag, exactly do
        let x ← p
        let a ← DvbText.counted
        return make x a (← DvbText.counted)⟩
      (make x a b) (head.length + (1 + a.bytes.length) + (1 + b.bytes.length)) buffer
      (writeBehind buffer tag (head ++ (textField a ++ textField b))) := by
  have hlength : (head ++ (textField a ++ textField b)).length =
      head.length + (1 + min 0xFF a.bytes.length) + (1 + min 0xFF b.bytes.length) := by
    rw [List.length_append, List.length_append, length_textField, length_textField, ← Nat.add_assoc]
  by_cases hsize : head.length + (1 + a.bytes.length) + (1 + b.bytes.length) ≤ 255
  · have ha : a.bytes.length ≤ 0xFF := by omega
    have hb : b.bytes.length ≤ 0xFF := by omega
    rw [Nat.min_eq_right ha, Nat.min_eq_right hb] at hlength
    have hfits : (head ++ (textField a ++ textField b)).length < 256 := by omega
    have hread := hhead.bind (f := fun x => DvbText.counted >>= fun a => DvbText.counted >>=
        fun b => pure (make x a b))
      ((reads_textField ha).bind ((reads_textField hb).map (make x a)))
    refine .inl ⟨hsize, UInt8.ofNat _, _, UInt8.toNat_ofNat_of_lt' hfits, hlength,
      hread.all.exactly.run, ?_⟩
    rw [writeBehind, if_pos hfits, List.append_assoc]
    rfl
  · have hlong : ¬(head ++ (textField a ++ textField b)).length < 256 := by omega
    exact .inr ⟨Nat.lt_of_not_le hsize, by rw [writeBehind, if_neg hlong]⟩

theorem Service.stored (d : Service) (buffer : Bytes) :
    Stored format d (1 + (1 + d.provider.bytes.length) + (1 + d.name.bytes.length)) buffer
      (d.write buffer) :=
  stored_texts ((reads_u8 d.serviceType.code).map ServiceType.mk) Service.mk _ _ _ _

theorem ShortEvent.stored (d : ShortEvent) (buffer : Bytes) :
    Stored format d (3 + (1 + d.name.bytes.length) + (1 + d.text.bytes.length)) buffer
      (d.write buffer) :=
  stored_texts d.language.reads ShortEvent.mk _ _ _ _

/-- Either descriptor is written with its texts whole, behind its tag and the length of its body, or
not at all. -/
theorem texts_never_cut (buffer : Bytes) :
    (∀ d : Service, d.writeInPlace buffer = d.write buffer ∧
      Stored Service.format d (1 + (1 + d.provider.bytes.length) + (1 + d.name.bytes.length)) buffer
        (d.write buffer)) ∧
    ∀ d : ShortEvent, d.writeInPlace buffer = d.write buffer ∧
      Stored ShortEvent.format d (3 + (1 + d.name.bytes.length) + (1 + d.text.bytes.length)) buffer
        (d.write buffer) :=
  ⟨fun d => ⟨d.writeInPlace_eq buffer, d.stored buffer⟩,
    fun d => ⟨d.writeInPlace_eq buffer, d.stored buffer⟩⟩

end Descriptor

end DvbHost
