import DvbHost.Descriptor.Component
import DvbHost.Descriptor.Delivery
import DvbHost.Descriptor.Event
import DvbHost.Descriptor.Guide
import DvbHost.Descriptor.Service
import DvbHost.Descriptor.Systems

/-!
# Descriptors by standard

The same tag means different things in different standards, so a descriptor is read in the light
of one. Every standard includes the tags of MPEG-2 systems. A tag without a format is passed on
as it is.
-/

namespace DvbHost

set_option autoImplicit false

inductive Standard where
  | mpeg
  | dvb
  | atsc
  deriving DecidableEq

/-- A descriptor whose meaning is known, or the tag and data of one whose meaning is not. -/
inductive Descriptor where
  | videoStream (d : Descriptor.VideoStream)
  | audioStream (d : Descriptor.AudioStream)
  | registration (d : Descriptor.Registration)
  | dataStreamAlignment (d : Descriptor.DataStreamAlignment)
  | conditionalAccess (d : Descriptor.ConditionalAccess)
  | languages (d : Descriptor.Languages)
  | maximumBitrate (d : Descriptor.MaximumBitrate)
  | networkName (d : Descriptor.NetworkName)
  | serviceList (d : Descriptor.ServiceList)
  | satelliteDelivery (d : Descriptor.SatelliteDelivery)
  | cableDelivery (d : Descriptor.CableDelivery)
  | bouquetName (d : Descriptor.BouquetName)
  | service (d : Descriptor.Service)
  | linkage (d : Descriptor.Linkage)
  | shortEvent (d : Descriptor.ShortEvent)
  | extendedEvent (d : Descriptor.ExtendedEvent)
  | component (d : Descriptor.Component)
  | streamIdentifier (d : Descriptor.StreamIdentifier)
  | caIdentifier (d : Descriptor.CaIdentifier)
  | content (d : Descriptor.Content)
  | parentalRating (d : Descriptor.ParentalRating)
  | teletext (d : Descriptor.Teletext)
  | localTimeOffset (d : Descriptor.LocalTimeOffset)
  | subtitling (d : Descriptor.Subtitling)
  | terrestrialDelivery (d : Descriptor.TerrestrialDelivery)
  | privateDataSpecifier (d : Descriptor.PrivateDataSpecifier)
  | frequencyList (d : Descriptor.FrequencyList)
  | dataBroadcastId (d : Descriptor.DataBroadcastId)
  | ac3 (d : Descriptor.Ac3)
  | ac3Audio (d : Descriptor.Ac3Audio)
  | captionService (d : Descriptor.CaptionService)
  | contentAdvisory (d : Descriptor.ContentAdvisory)
  | extendedChannelName (d : Descriptor.ExtendedChannelName)
  | serviceLocation (d : Descriptor.ServiceLocation)
  | componentName (d : Descriptor.ComponentName)
  | unknown (tag : UInt8) (data : Bytes)

namespace Standard

open Descriptor

def mpegFormats : List (DescriptorFormat Descriptor) :=
  [VideoStream.format.map .videoStream,
   AudioStream.format.map .audioStream,
   Registration.format.map .registration,
   DataStreamAlignment.format.map .dataStreamAlignment,
   ConditionalAccess.format.map .conditionalAccess,
   Languages.format.map .languages,
   MaximumBitrate.format.map .maximumBitrate]

def dvbFormats : List (DescriptorFormat Descriptor) :=
  [NetworkName.format.map .networkName,
   ServiceList.format.map .serviceList,
   SatelliteDelivery.format.map .satelliteDelivery,
   CableDelivery.format.map .cableDelivery,
   BouquetName.format.map .bouquetName,
   Service.format.map .service,
   Linkage.format.map .linkage,
   ShortEvent.format.map .shortEvent,
   ExtendedEvent.format.map .extendedEvent,
   Component.format.map .component,
   StreamIdentifier.format.map .streamIdentifier,
   CaIdentifier.format.map .caIdentifier,
   Content.format.map .content,
   ParentalRating.format.map .parentalRating,
   Teletext.format.map .teletext,
   LocalTimeOffset.format.map .localTimeOffset,
   Subtitling.format.map .subtitling,
   TerrestrialDelivery.format.map .terrestrialDelivery,
   PrivateDataSpecifier.format.map .privateDataSpecifier,
   FrequencyList.format.map .frequencyList,
   DataBroadcastId.format.map .dataBroadcastId,
   Ac3.format.map .ac3]

def atscFormats : List (DescriptorFormat Descriptor) :=
  [Ac3Audio.format.map .ac3Audio,
   CaptionService.format.map .captionService,
   ContentAdvisory.format.map .contentAdvisory,
   ExtendedChannelName.format.map .extendedChannelName,
   ServiceLocation.format.map .serviceLocation,
   ComponentName.format.map .componentName]

/-- The formats a standard knows, no two with the same tag. -/
def formats : Standard → List (DescriptorFormat Descriptor)
  | mpeg => mpegFormats
  | dvb => mpegFormats ++ dvbFormats
  | atsc => mpegFormats ++ atscFormats

/-- What a descriptor means under a standard. -/
def read (s : Standard) (tag : UInt8) (data : Bytes) : Except SiError Descriptor :=
  match s.formats.find? fun f => f.tag == tag with
  | some f => f.read data
  | none => .ok (.unknown tag data)

def mpegTags : List (UInt8 × String) :=
  [(0x02, "video_stream"), (0x03, "audio_stream"), (0x04, "hierarchy"), (0x05, "registration"),
   (0x06, "data_stream_alignment"), (0x07, "target_background_grid"), (0x08, "video_window"),
   (0x09, "ca"), (0x0A, "iso_639_language"), (0x0B, "system_clock"),
   (0x0C, "multiplex_buffer_utilization"), (0x0D, "copyright"), (0x0E, "maximum_bitrate"),
   (0x0F, "private_data_indicator"), (0x10, "smoothing_buffer"), (0x11, "std"), (0x12, "ibp")]

def dvbTags : List (UInt8 × String) :=
  [(0x40, "network_name"), (0x41, "service_list"), (0x42, "stuffing"),
   (0x43, "satellite_delivery_system"), (0x44, "cable_delivery_system"), (0x45, "vbi_data"),
   (0x46, "vbi_teletext"), (0x47, "bouquet_name"), (0x48, "service"),
   (0x49, "country_availability"), (0x4A, "linkage"), (0x4B, "nvod_reference"),
   (0x4C, "time_shifted_service"), (0x4D, "short_event"), (0x4E, "extended_event"),
   (0x4F, "time_shifted_event"), (0x50, "component"), (0x51, "mosaic"),
   (0x52, "stream_identifier"), (0x53, "ca_identifier"), (0x54, "content"),
   (0x55, "parental_rating"), (0x56, "teletext"), (0x57, "telephone"),
   (0x58, "local_time_offset"), (0x59, "subtitling"), (0x5A, "terrestrial_delivery_system"),
   (0x5B, "multilingual_network_name"), (0x5C, "multilingual_bouquet_name"),
   (0x5D, "multilingual_service_name"), (0x5E, "multilingual_component"),
   (0x5F, "private_data_specifier"), (0x60, "service_move"), (0x61, "short_smoothing_buffer"),
   (0x62, "frequency_list"), (0x63, "partial_transport_stream"), (0x64, "data_broadcast"),
   (0x65, "scrambling"), (0x66, "data_broadcast_id"), (0x67, "transport_stream"),
   (0x68, "dsng"), (0x69, "pdc"), (0x6A, "ac3"), (0x6B, "ancillary_data"), (0x6C, "cell_list"),
   (0x6D, "cell_frequency_link"), (0x6E, "announcement_support"),
   (0x6F, "application_signalling"), (0x70, "adaptation_field_data"),
   (0x71, "service_identifier"), (0x72, "service_availability"), (0x73, "default_authority"),
   (0x74, "related_content"), (0x75, "tva_id"), (0x76, "content_identifier"),
   (0x77, "time_slice_fec_identifier"), (0x78, "ecm_repetition_rate"),
   (0x79, "s2_satellite_delivery_system"), (0x7A, "enhanced_ac3"), (0x7B, "dts"),
   (0x7C, "aac"), (0x7F, "extension")]

def atscTags : List (UInt8 × String) :=
  [(0x80, "stuffing"), (0x81, "ac3_audio_stream"), (0x86, "caption_service"),
   (0x87, "content_advisory"), (0xA0, "extended_channel_name"), (0xA1, "service_location"),
   (0xA2, "time_shifted_service"), (0xA3, "component_name"), (0xA8, "dcc_departing_request"),
   (0xA9, "dcc_arriving_request"), (0xAA, "redistribution_control"),
   (0xAD, "atsc_private_information"), (0xB6, "content_identifier")]

/-- The tags a standard names. -/
def tags : Standard → List (UInt8 × String)
  | mpeg => mpegTags
  | dvb => mpegTags ++ dvbTags
  | atsc => mpegTags ++ atscTags

/-- The name of a descriptor, also of one whose format is not known. -/
def descriptorName (s : Standard) (tag : UInt8) : Option String := s.tags.lookup tag

/-- The format of the descriptor with a name, if both are known. -/
def formatNamed (s : Standard) (name : String) : Option (DescriptorFormat Descriptor) :=
  s.formats.find? fun f => s.descriptorName f.tag == some name

end Standard

end DvbHost
