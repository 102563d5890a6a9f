import DvbHost.Proofs.Checked.Table

/-!
# Questions to decoded values

The accessors of decoded values compute ages, rates, offsets, counts, times and texts. A query is one
call of an accessor. `answer` is what the library says; `ask` computes it in words, and two of the
queries depend on the value they are put to: the least age of a viewer is formed in an octet, and the
offset of local time is negated in a word of 32 bits.
-/

namespace DvbHost

set_option autoImplicit false

/-- A call of an accessor. -/
inductive Query where
  | minimumAge (r : Descriptor.Rating)
  | bitsPerSecond (d : Descriptor.MaximumBitrate)
  | minutesAhead (t : Descriptor.TimeOffset)
  | optionalTables (t : Mgt) (kind : Transmission)
  | unixTime (t : DateTime)
  | timeText (t : DateTime)
  | dateText (d : Date)
  | gpsTime (t : GpsTime) (leap : UInt8)
  | eventId (t : Ett)
  | charset (t : DvbText)
  | characters (t : DvbText)
  | localCharacters (s : LocalString)

/-- What an accessor gives. -/
inductive Answer where
  | age (a : Option UInt8)
  | number (n : Int)
  | text (s : String)
  | event (id : Option UInt16)
  | charset (c : Charset) (body : Bytes)
  | characters (cs : List Char)
  deriving DecidableEq

namespace Descriptor.Rating

/-- The least age of a viewer that a rating states, whatever the sum of the other ratings is. -/
def statedAge (r : Rating) : Option UInt8 :=
  if 1 ≤ r.rating.toNat ∧ r.rating.toNat ≤ 0x0F then some (r.rating + 3) else none

/-- The sum with 3 stays within an octet. -/
def fits (r : Rating) : Bool := r.rating.toNat ≤ 252

end Descriptor.Rating

namespace Checked

open Descriptor

/-- The sum is formed in an octet before the range of the rating is looked at. -/
def minimumAge (r : Rating) : Checked (Option UInt8) := do
  let sum ← word 8 (r.rating.toNat + 3)
  return if 1 ≤ r.rating.toNat ∧ r.rating.toNat ≤ 0x0F then some (UInt8.ofNat sum) else none

def bitsPerSecond (d : MaximumBitrate) : Checked Nat := do
  let bytes ← word 64 (d.rate.toNat * 50)
  word 64 (bytes * 8)

def minutesAhead (t : TimeOffset) : Checked Int :=
  if t.behind then signed 32 (-t.offset) else signed 32 t.offset

/-- The ages are those of the library, and so is the overflow. -/
theorem minimumAge_eq (r : Rating) :
    minimumAge r = match r.minimumAge with
      | .ok age => .ok age
      | .error .addition => .error .overflow := by
  rw [minimumAge, Rating.minimumAge, word]
  by_cases h : r.rating.toNat + 3 < 256
  · have hsum : UInt8.ofNat (r.rating.toNat + 3) = r.rating + 3 := by
      apply UInt8.toNat_inj.mp
      rw [UInt8.toNat_ofNat', UInt8.toNat_add]
      rfl
    rw [if_pos (show r.rating.toNat + 3 < 2 ^ 8 from h), if_pos h, ok_bind, hsum]
    rfl
  · rw [if_neg (show ¬ r.rating.toNat + 3 < 2 ^ 8 from h), if_neg h]
    rfl

theorem minimumAge_ite (r : Rating) :
    minimumAge r = if r.fits then .ok r.statedAge else .error .overflow := by
  rw [minimumAge_eq, Rating.minimumAge, Rating.fits]
  by_cases h : r.rating.toNat ≤ 252
  · rw [if_pos (by omega), decide_eq_true h]
    rfl
  · rw [if_neg (by omega), decide_eq_false h]
    rfl

theorem bitsPerSecond_eq (d : MaximumBitrate) : bitsPerSecond d = .ok d.bitsPerSecond := by
  have hrate := d.rate.toNat_lt
  rw [bitsPerSecond, word_eq (by omega)]
  exact word_eq (by omega)

theorem minutesAhead_eq {t : TimeOffset} (h : t.offset < 2 ^ 16) :
    minutesAhead t = .ok t.minutesAhead := by
  rw [minutesAhead, TimeOffset.minutesAhead]
  split <;> exact signed_eq (by omega) (by omega)

end Checked

namespace Query

def answer : Query → Answer
  | minimumAge r => .age r.statedAge
  | bitsPerSecond d => .number d.bitsPerSecond
  | minutesAhead t => .number t.minutesAhead
  | optionalTables t kind => .number (t.optionalTables kind)
  | unixTime t => .number t.toUnix
  | timeText t => .text t.text
  | dateText d => .text d.text
  | gpsTime t leap => .number (t.toUnix leap)
  | eventId t => .event t.eventId
  | charset t => .charset t.charset.1 t.charset.2
  | characters t => .characters t.decode
  | localCharacters s => .characters s.decode

/-- The number of optional tables is cut at zero and the event is masked out, so both are the
library's. -/
def ask : Query → Checked Answer
  | minimumAge r => do return .age (← Checked.minimumAge r)
  | bitsPerSecond d => do return .number (← Checked.bitsPerSecond d)
  | minutesAhead t => do return .number (← Checked.minutesAhead t)
  | optionalTables t kind => .ok (.number (t.optionalTables kind))
  | unixTime t => do return .number (← Checked.unixTime t)
  | timeText t => do return .text (← Checked.timeText t)
  | dateText d => do return .text (← Checked.dateText d)
  | gpsTime t leap => do return .number (← Checked.gpsTime t leap)
  | eventId t => .ok (.event t.eventId)
  | charset t => do
    let (c, body) ← Checked.charset t
    return .charset c body
  | characters t => do return .characters (← Checked.decode t)
  | localCharacters s => do return .characters (← Checked.decodeString s)

/-- The value keeps the computation within its words. -/
def Safe : Query → Prop
  | minimumAge r => r.fits
  | minutesAhead t => t.offset < 2 ^ 16
  | _ => True

theorem ask_minimumAge (r : Descriptor.Rating) :
    ask (minimumAge r) = if r.fits then .ok (minimumAge r).answer else .error .overflow := by
  rw [ask, Checked.minimumAge_ite]
  split <;> rfl

theorem ask_of_safe {q : Query} (h : q.Safe) : q.ask = .ok q.answer := by
  cases q with
  | minimumAge r =>
    have hfits : r.fits = true := h
    rw [ask_minimumAge, if_pos hfits]
  | bitsPerSecond d => rw [ask, Checked.bitsPerSecond_eq]; rfl
  | minutesAhead t => rw [ask, Checked.minutesAhead_eq h]; rfl
  | optionalTables t kind => rfl
  | unixTime t => rw [ask, Checked.unixTime_eq]; rfl
  | timeText t => rw [ask, Checked.timeText_eq]; rfl
  | dateText d => rw [ask, Checked.dateText_eq]; rfl
  | gpsTime t leap => rw [ask, Checked.gpsTime_eq]; rfl
  | eventId t => rfl
  | charset t => rw [ask, Checked.charset_eq]; rfl
  | characters t => rw [ask, Checked.decode_eq]; rfl
  | localCharacters s => rw [ask, Checked.decodeString_eq]; rfl

end Query

/-! ## What is asked -/

def DateTime.queries (t : DateTime) : List Query := [.unixTime t, .timeText t, .dateText t.date]

def DvbText.queries (t : DvbText) : List Query := [.charset t, .characters t]

def MultipleString.queries (m : MultipleString) : List Query := m.strings.map .localCharacters

namespace Descriptor

def TimeOffset.queries (t : TimeOffset) : List Query :=
  .minutesAhead t :: t.timeOfChange.queries

/-- The calls of accessors that a descriptor allows. -/
def queries : Descriptor → List Query
  | maximumBitrate d => [.bitsPerSecond d]
  | networkName d => d.name.queries
  | bouquetName d => d.name.queries
  | service d => d.provider.queries ++ d.name.queries
  | shortEvent d => d.name.queries ++ d.text.queries
  | extendedEvent d =>
    (d.items.flatMap fun i => i.description.queries ++ i.item.queries) ++ d.text.queries
  | component d => d.text.queries
  | parentalRating d => d.ratings.map .minimumAge
  | localTimeOffset d => d.offsets.flatMap TimeOffset.queries
  | contentAdvisory d => d.regions.flatMap fun r => r.description.queries
  | extendedChannelName d => d.name.queries
  | componentName d => d.name.queries
  | _ => []

/-- The ratings that a descriptor states. -/
def ratings : Descriptor → List Rating
  | parentalRating d => d.ratings
  | _ => []

end Descriptor

namespace Table

/-- The calls of accessors that a table allows, without its descriptors. Times of the GPS clock are
asked for with any number of leap seconds. -/
def queries (leap : UInt8) : Table → List Query
  | eit t => t.events.flatMap fun e => e.startTime.toList.flatMap DateTime.queries
  | tdt t => t.utcTime.queries
  | tot t => t.utcTime.queries
  | mgt t => [.optionalTables t .terrestrial, .optionalTables t .cable]
  | rrt t => t.regionName.queries ++ t.dimensions.flatMap fun d =>
    d.name.queries ++ d.values.flatMap fun v => v.abbreviation.queries ++ v.name.queries
  | guideEit t => t.events.flatMap fun e => .gpsTime e.startTime leap :: e.title.queries
  | ett t => .eventId t :: t.message.queries
  | stt t => [.gpsTime t.systemTime t.leapSeconds, .gpsTime t.systemTime leap]
  | _ => []

/-- The loops of descriptors in a table. -/
def loops : Table → List DescriptorLoop
  | cat t => [t.descriptors]
  | pmt t => t.descriptors :: t.streams.map PmtStream.descriptors
  | tsdt t => [t.descriptors]
  | nit t => t.descriptors :: t.transportStreams.map TransportStream.descriptors
  | sdt t => t.services.map fun s => s.broadcast.descriptors
  | bat t => t.descriptors :: t.transportStreams.map TransportStream.descriptors
  | eit t => t.events.map fun e => e.broadcast.descriptors
  | tot t => [t.descriptors]
  | sit t => t.descriptors :: t.services.map SitService.descriptors
  | mgt t => t.descriptors :: t.tables.map GuideTable.descriptors
  | vct t => t.descriptors :: t.channels.map VirtualChannel.descriptors
  | rrt t => [t.descriptors]
  | guideEit t => t.events.map GuideEvent.descriptors
  | stt t => [t.descriptors]
  | pat _ | tdt _ | rst _ | stuffing _ | dit _ | ett _ => []

def descriptors (t : Table) : List RawDescriptor := t.loops.flatMap DescriptorLoop.items

end Table

/-! ## Which of it is safe -/

theorem DateTime.queries_safe (t : DateTime) : ∀ q ∈ t.queries, q.Safe := by
  simp [queries, Query.Safe]

theorem DvbText.queries_safe (t : DvbText) : ∀ q ∈ t.queries, q.Safe := by
  simp [queries, Query.Safe]

theorem MultipleString.queries_safe (m : MultipleString) : ∀ q ∈ m.queries, q.Safe := by
  simp [queries, Query.Safe]

/-- The values of a table that are not in descriptors are all safe to ask. -/
theorem Table.queries_safe (leap : UInt8) (t : Table) : ∀ q ∈ t.queries leap, q.Safe := by
  have htime := DateTime.queries_safe
  have hstrings := MultipleString.queries_safe
  cases t with
  | eit t =>
    intro q hq
    obtain ⟨e, -, hq⟩ := List.mem_flatMap.mp hq
    obtain ⟨time, -, hq⟩ := List.mem_flatMap.mp hq
    exact htime time q hq
  | tdt t => exact htime t.utcTime
  | tot t => exact htime t.utcTime
  | rrt t =>
    intro q hq
    obtain hq | hq := List.mem_append.mp hq
    · exact hstrings _ q hq
    obtain ⟨d, -, hq⟩ := List.mem_flatMap.mp hq
    obtain hq | hq := List.mem_append.mp hq
    · exact hstrings _ q hq
    obtain ⟨v, -, hq⟩ := List.mem_flatMap.mp hq
    obtain hq | hq := List.mem_append.mp hq <;> exact hstrings _ q hq
  | guideEit t =>
    intro q hq
    obtain ⟨e, -, hq⟩ := List.mem_flatMap.mp hq
    obtain rfl | hq := List.mem_cons.mp hq
    · trivial
    · exact hstrings _ q hq
  | ett t =>
    intro q hq
    obtain rfl | hq := List.mem_cons.mp hq
    · trivial
    · exact hstrings _ q hq
  | mgt t => simp [queries, Query.Safe]
  | stt t => simp [queries, Query.Safe]
  | _ => exact fun q hq => absurd hq (List.not_mem_nil)

end DvbHost
