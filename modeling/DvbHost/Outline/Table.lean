import DvbHost.Outline.Basic
import DvbHost.Table.Catalog

/-!
# Outlines of tables

The names are those of the listing; the fields are in the order in which they are listed.
-/

namespace DvbHost

set_option autoImplicit false

def SectionInfo.outline (i : SectionInfo) : Outline :=
  .record "SectionInfo"
    [("version_number", .octet i.version), ("current_next_indicator", .flag i.current),
     ("section_number", .octet i.number), ("last_section_number", .octet i.lastNumber)] []

def PatProgram.outline (p : PatProgram) : Outline :=
  .record "PatProgram" [("program_number", .word p.number), ("program_map_pid", .pid p.mapPid)] []

def Pat.outline (t : Pat) : Outline :=
  .record "Pat"
    [("transport_stream_id", .word t.transportStreamId), ("info", t.info.outline),
     ("network_pid", .optional (t.networkPid.map .pid)),
     ("programs", .list (t.programs.map PatProgram.outline))] []

def Cat.outline (t : Cat) : Outline :=
  .record "Cat" [("info", t.info.outline), ("descriptors", .descriptors t.descriptors)] []

def PmtStream.outline (s : PmtStream) : Outline :=
  .record "PmtStream"
    [("stream_type", .streamType s.streamType), ("elementary_pid", .pid s.pid),
     ("descriptors", .descriptors s.descriptors)] []

def Pmt.outline (t : Pmt) : Outline :=
  .record "Pmt"
    [("program_number", .word t.programNumber), ("info", t.info.outline),
     ("pcr_pid", .pid t.pcrPid), ("descriptors", .descriptors t.descriptors),
     ("streams", .list (t.streams.map PmtStream.outline))] []

def Tsdt.outline (t : Tsdt) : Outline :=
  .record "Tsdt" [("info", t.info.outline), ("descriptors", .descriptors t.descriptors)] []

def TransportStream.outline (t : TransportStream) : Outline :=
  .record "TransportStreamConfig"
    [("transport_stream_id", .word t.id), ("original_network_id", .word t.originalNetworkId),
     ("transport_descriptors", .descriptors t.descriptors)] []

def Nit.outline (t : Nit) : Outline :=
  .record "Nit"
    [("actual", .flag t.actual), ("network_id", .word t.networkId), ("info", t.info.outline),
     ("network_descriptors", .descriptors t.descriptors),
     ("transport_streams", .list (t.transportStreams.map TransportStream.outline))] []

def Bat.outline (t : Bat) : Outline :=
  .record "Bat"
    [("bouquet_id", .word t.bouquetId), ("info", t.info.outline),
     ("bouquet_descriptors", .descriptors t.descriptors),
     ("transport_streams", .list (t.transportStreams.map TransportStream.outline))] []

/-- The fields of what is on air, as they stand among those of a service or an event. -/
def Broadcast.fields (b : Broadcast) : List (String × Outline) :=
  [("running_status", .runningStatus b.status), ("free_ca_mode", .flag b.scrambled),
   ("descriptors", .descriptors b.descriptors)]

def SdtService.outline (s : SdtService) : Outline :=
  .record "SdtService"
    ([("service_id", .word s.id), ("eit_schedule_flag", .flag s.eitSchedule),
      ("eit_present_following_flag", .flag s.eitPresentFollowing)] ++ s.broadcast.fields) []

def Sdt.outline (t : Sdt) : Outline :=
  .record "Sdt"
    [("actual", .flag t.actual), ("transport_stream_id", .word t.transportStreamId),
     ("info", t.info.outline), ("original_network_id", .word t.originalNetworkId),
     ("services", .list (t.services.map SdtService.outline))] []

def EitKind.name : EitKind → String
  | actualPresentFollowing => "ActualPresentFollowing"
  | otherPresentFollowing => "OtherPresentFollowing"
  | actualSchedule => "ActualSchedule"
  | otherSchedule => "OtherSchedule"

def EitEvent.outline (e : EitEvent) : Outline :=
  .record "EitEvent"
    ([("event_id", .word e.id), ("start_time", .optional (e.startTime.map .dateTime)),
      ("duration", .ofNat e.duration)] ++ e.broadcast.fields) []

def Eit.outline (t : Eit) : Outline :=
  .record "Eit"
    [("table_id", .octet t.tableId), ("service_id", .word t.serviceId), ("info", t.info.outline),
     ("transport_stream_id", .word t.transportStreamId),
     ("original_network_id", .word t.originalNetworkId),
     ("segment_last_section_number", .octet t.segmentLastSectionNumber),
     ("last_table_id", .octet t.lastTableId), ("events", .list (t.events.map EitEvent.outline))]
    [("kind()", .optional (t.kind.map fun k => .choice k.name))]

def Tdt.outline (t : Tdt) : Outline := .record "Tdt" [("utc_time", .dateTime t.utcTime)] []

def RstEntry.outline (e : RstEntry) : Outline :=
  .record "RstEntry"
    [("transport_stream_id", .word e.transportStreamId),
     ("original_network_id", .word e.originalNetworkId), ("service_id", .word e.serviceId),
     ("event_id", .word e.eventId), ("running_status", .runningStatus e.status)] []

def Rst.outline (t : Rst) : Outline :=
  .record "Rst" [("entries", .list (t.entries.map RstEntry.outline))] []

def StuffingTable.outline (t : StuffingTable) : Outline := .record "St" [("data", .octets t.data)] []

def Tot.outline (t : Tot) : Outline :=
  .record "Tot"
    [("utc_time", .dateTime t.utcTime), ("descriptors", .descriptors t.descriptors)] []

def Dit.outline (t : Dit) : Outline := .record "Dit" [("transition_flag", .flag t.transition)] []

def SitService.outline (s : SitService) : Outline :=
  .record "SitService"
    [("service_id", .word s.id), ("running_status", .runningStatus s.status),
     ("descriptors", .descriptors s.descriptors)] []

def Sit.outline (t : Sit) : Outline :=
  .record "Sit"
    [("info", t.info.outline), ("transmission_info_descriptors", .descriptors t.descriptors),
     ("services", .list (t.services.map SitService.outline))] []

def GuideHeader.outline (h : GuideHeader) : Outline :=
  .record "PsipHeader"
    [("table_id_extension", .word h.extension), ("info", h.info.outline),
     ("protocol_version", .octet h.protocolVersion)] []

def GuideTable.outline (t : GuideTable) : Outline :=
  .record "MgtTable"
    [("table_type", .word t.tableType), ("table_type_pid", .pid t.pid),
     ("table_type_version_number", .octet t.version), ("number_bytes", .long t.size),
     ("descriptors", .descriptors t.descriptors)] []

def Mgt.outline (t : Mgt) : Outline :=
  .record "Mgt"
    [("header", t.header.outline), ("tables", .list (t.tables.map GuideTable.outline)),
     ("descriptors", .descriptors t.descriptors)]
    [("adjusted_terrestrial", .ofNat (t.optionalTables .terrestrial)),
     ("adjusted_cable", .ofNat (t.optionalTables .cable))]

def Transmission.name : Transmission → String
  | terrestrial => "Terrestrial"
  | cable => "Cable"

def VirtualChannel.outline (c : VirtualChannel) : Outline :=
  .record "VirtualChannel"
    [("short_name", .characters c.shortName), ("major_channel_number", .word c.major),
     ("minor_channel_number", .word c.minor), ("modulation_mode", .octet c.modulationMode),
     ("carrier_frequency", .long c.carrierFrequency), ("channel_tsid", .word c.transportStreamId),
     ("program_number", .word c.programNumber), ("etm_location", .octet c.etmLocation),
     ("access_controlled", .flag c.accessControlled), ("hidden", .flag c.hidden),
     ("path_select", .flag c.pathSelect), ("out_of_band", .flag c.outOfBand),
     ("hide_guide", .flag c.hideGuide), ("service_type", .octet c.serviceType),
     ("source_id", .word c.sourceId), ("descriptors", .descriptors c.descriptors)] []

def Vct.outline (t : Vct) : Outline :=
  .record "Vct"
    [("kind", .choice t.kind.name), ("header", t.header.outline),
     ("channels", .list (t.channels.map VirtualChannel.outline)),
     ("additional_descriptors", .descriptors t.descriptors)]
    [("transport_stream_id()", .word t.header.extension)]

def RatingValue.outline (v : RatingValue) : Outline :=
  .record "RatingValue"
    [("abbrev_rating_value", .strings v.abbreviation), ("rating_value", .strings v.name)] []

def RatingDimension.outline (d : RatingDimension) : Outline :=
  .record "RatingDimension"
    [("dimension_name", .strings d.name), ("graduated_scale", .flag d.graduated),
     ("values", .list (d.values.map RatingValue.outline))] []

def Rrt.outline (t : Rrt) : Outline :=
  .record "Rrt"
    [("header", t.header.outline), ("rating_region_name", .strings t.regionName),
     ("dimensions", .list (t.dimensions.map RatingDimension.outline)),
     ("descriptors", .descriptors t.descriptors)]
    [("rating_region()", .octet t.region)]

def GuideEvent.outline (e : GuideEvent) : Outline :=
  .record "AtscEvent"
    [("event_id", .word e.id), ("start_time", .gpsTime e.startTime),
     ("etm_location", .octet e.etmLocation), ("length_in_seconds", .long e.length),
     ("title", .strings e.title), ("descriptors", .descriptors e.descriptors)] []

def GuideEit.outline (t : GuideEit) : Outline :=
  .record "AtscEit"
    [("header", t.header.outline), ("events", .list (t.events.map GuideEvent.outline))]
    [("source_id()", .word t.sourceId)]

def Ett.outline (t : Ett) : Outline :=
  .record "Ett"
    [("header", t.header.outline), ("etm_id", .long t.etmId),
     ("extended_text_message", .strings t.message)]
    [("source_id()", .word t.sourceId), ("event_id()", .optional (t.eventId.map .word))]

def Stt.outline (t : Stt) : Outline :=
  .record "Stt"
    [("header", t.header.outline), ("system_time", .gpsTime t.systemTime),
     ("gps_utc_offset", .octet t.leapSeconds), ("daylight_saving", .word t.daylightSaving),
     ("descriptors", .descriptors t.descriptors)]
    [("to_unix()", .number t.toUnix)]

namespace Table

/-- The name of a kind of table in a listing, and the outline of the table. -/
def outline : Table → String × Outline
  | pat t => ("Pat", t.outline)
  | cat t => ("Cat", t.outline)
  | pmt t => ("Pmt", t.outline)
  | tsdt t => ("Tsdt", t.outline)
  | nit t => ("Nit", t.outline)
  | sdt t => ("Sdt", t.outline)
  | bat t => ("Bat", t.outline)
  | eit t => ("Eit", t.outline)
  | tdt t => ("Tdt", t.outline)
  | rst t => ("Rst", t.outline)
  | stuffing t => ("St", t.outline)
  | tot t => ("Tot", t.outline)
  | dit t => ("Dit", t.outline)
  | sit t => ("Sit", t.outline)
  | mgt t => ("Mgt", t.outline)
  | vct t => ("Vct", t.outline)
  | rrt t => ("Rrt", t.outline)
  | guideEit t => ("AtscEit", t.outline)
  | ett t => ("Ett", t.outline)
  | stt t => ("Stt", t.outline)

end Table

end DvbHost
