import DvbHost.Descriptor.Standard
import DvbHost.Outline.Basic

/-!
# Outlines of descriptors

The names are those of the listing; the fields are in the order in which they are listed.
-/

namespace DvbHost.Descriptor

set_option autoImplicit false

def VideoProfile.outline (d : VideoProfile) : Outline :=
  .record "VideoStreamMpeg2"
    [("profile_and_level_indication", .octet d.profileAndLevel),
     ("chroma_format", .octet d.chromaFormat),
     ("frame_rate_extension_flag", .flag d.frameRateExtension)] []

def VideoStream.outline (d : VideoStream) : Outline :=
  .record "VideoStreamDescriptor"
    [("multiple_frame_rate_flag", .flag d.multipleFrameRate),
     ("frame_rate_code", .octet d.frameRateCode),
     ("mpeg_1_only_flag", .flag d.mpeg1Only),
     ("constrained_parameter_flag", .flag d.constrainedParameter),
     ("still_picture_flag", .flag d.stillPicture),
     ("mpeg_2", .optional (d.mpeg2.map VideoProfile.outline))] []

def AudioStream.outline (d : AudioStream) : Outline :=
  .record "AudioStreamDescriptor"
    [("free_format_flag", .flag d.freeFormat), ("id", .flag d.id), ("layer", .octet d.layer),
     ("variable_rate_audio_indicator", .flag d.variableRate)] []

def Registration.outline (d : Registration) : Outline :=
  .record "RegistrationDescriptor"
    [("format_identifier", .octets d.formatIdentifier),
     ("additional_identification_info", .octets d.additionalInfo)] []

def DataStreamAlignment.outline (d : DataStreamAlignment) : Outline :=
  .record "DataStreamAlignmentDescriptor" [("alignment_type", .octet d.alignmentType)] []

def ConditionalAccess.outline (d : ConditionalAccess) : Outline :=
  .record "ConditionalAccessDescriptor"
    [("ca_system_id", .word d.systemId), ("ca_pid", .pid d.pid),
     ("private_data", .octets d.privateData)] []

def AudioLanguage.outline (d : AudioLanguage) : Outline :=
  .record "Iso639Language"
    [("lang_code", .language d.language), ("audio_type", .octet d.audioType)] []

def Languages.outline (d : Languages) : Outline :=
  .record "Iso639LanguageDescriptor"
    [("languages", .list (d.languages.map AudioLanguage.outline))] []

def MaximumBitrate.outline (d : MaximumBitrate) : Outline :=
  .record "MaximumBitrateDescriptor" [("maximum_bitrate", .long d.rate)]
    [("bits_per_second()", .ofNat d.bitsPerSecond)]

def NetworkName.outline (d : NetworkName) : Outline :=
  .record "NetworkNameDescriptor" [("network_name", .text d.name)] []

def ServiceEntry.outline (d : ServiceEntry) : Outline :=
  .record "ServiceEntry"
    [("service_id", .word d.serviceId), ("service_type", .serviceType d.serviceType)] []

def ServiceList.outline (d : ServiceList) : Outline :=
  .record "ServiceListDescriptor" [("services", .list (d.services.map ServiceEntry.outline))] []

def Polarization.name : Polarization → String
  | linearHorizontal => "LinearHorizontal"
  | linearVertical => "LinearVertical"
  | circularLeft => "CircularLeft"
  | circularRight => "CircularRight"

def SatelliteDelivery.outline (d : SatelliteDelivery) : Outline :=
  .record "SatelliteDeliverySystemDescriptor"
    [("frequency", .ofNat d.frequency), ("orbital_position", .ofNat d.orbitalPosition),
     ("west_east_flag", .flag d.east), ("polarization", .choice d.polarization.name),
     ("roll_off", .octet d.rollOff), ("modulation_system", .flag d.secondGeneration),
     ("modulation_type", .octet d.modulationType), ("symbol_rate", .ofNat d.symbolRate),
     ("fec_inner", .octet d.fecInner)] []

def CableDelivery.outline (d : CableDelivery) : Outline :=
  .record "CableDeliverySystemDescriptor"
    [("frequency", .ofNat d.frequency), ("fec_outer", .octet d.fecOuter),
     ("modulation", .octet d.modulation), ("symbol_rate", .ofNat d.symbolRate),
     ("fec_inner", .octet d.fecInner)] []

def BouquetName.outline (d : BouquetName) : Outline :=
  .record "BouquetNameDescriptor" [("bouquet_name", .text d.name)] []

def Service.outline (d : Service) : Outline :=
  .record "ServiceDescriptor"
    [("service_type", .serviceType d.serviceType), ("service_provider_name", .text d.provider),
     ("service_name", .text d.name)] []

def Linkage.outline (d : Linkage) : Outline :=
  .record "LinkageDescriptor"
    [("transport_stream_id", .word d.transportStreamId),
     ("original_network_id", .word d.originalNetworkId), ("service_id", .word d.serviceId),
     ("linkage_type", .octet d.linkageType), ("private_data", .octets d.privateData)] []

def ShortEvent.outline (d : ShortEvent) : Outline :=
  .record "ShortEventDescriptor"
    [("lang_code", .language d.language), ("event_name", .text d.name), ("text", .text d.text)] []

def EventItem.outline (d : EventItem) : Outline :=
  .record "ExtendedEventItem"
    [("item_description", .text d.description), ("item", .text d.item)] []

def ExtendedEvent.outline (d : ExtendedEvent) : Outline :=
  .record "ExtendedEventDescriptor"
    [("descriptor_number", .octet d.number), ("last_descriptor_number", .octet d.lastNumber),
     ("lang_code", .language d.language), ("items", .list (d.items.map EventItem.outline)),
     ("text", .text d.text)] []

def Component.outline (d : Component) : Outline :=
  .record "ComponentDescriptor"
    [("stream_content_ext", .octet d.streamContentExt), ("stream_content", .octet d.streamContent),
     ("component_type", .octet d.componentType), ("component_tag", .octet d.componentTag),
     ("lang_code", .language d.language), ("text", .text d.text)] []

def StreamIdentifier.outline (d : StreamIdentifier) : Outline :=
  .record "StreamIdentifierDescriptor" [("component_tag", .octet d.componentTag)] []

def CaIdentifier.outline (d : CaIdentifier) : Outline :=
  .record "CaIdentifierDescriptor" [("ca_system_ids", .list (d.systemIds.map .word))] []

def Genre.outline (d : Genre) : Outline :=
  .record "ContentGenre"
    [("content_nibble_level_1", .octet d.level1), ("content_nibble_level_2", .octet d.level2),
     ("user_byte", .octet d.user)] []

def Content.outline (d : Content) : Outline :=
  .record "ContentDescriptor" [("genres", .list (d.genres.map Genre.outline))] []

def Rating.outline (d : Rating) : Outline :=
  let age : Outline := match d.minimumAge with
    | .ok age => .optional (age.map .octet)
    | .error .addition => .choice "overflow"
  .record "ParentalRating" [("country_code", .country d.country), ("rating", .octet d.rating)]
    [("minimum_age()", age)]

def ParentalRating.outline (d : ParentalRating) : Outline :=
  .record "ParentalRatingDescriptor" [("ratings", .list (d.ratings.map Rating.outline))] []

def TeletextPage.outline (d : TeletextPage) : Outline :=
  .record "TeletextPage"
    [("lang_code", .language d.language), ("teletext_type", .octet d.teletextType),
     ("magazine_number", .octet d.magazine), ("page_number", .octet d.page)] []

def Teletext.outline (d : Teletext) : Outline :=
  .record "TeletextDescriptor" [("pages", .list (d.pages.map TeletextPage.outline))] []

def TimeOffset.outline (d : TimeOffset) : Outline :=
  .record "LocalTimeOffset"
    [("country_code", .country d.country), ("country_region_id", .octet d.region),
     ("local_time_offset_polarity", .flag d.behind), ("local_time_offset", .ofNat d.offset),
     ("time_of_change", .dateTime d.timeOfChange), ("next_time_offset", .ofNat d.nextOffset)]
    [("offset_minutes()", .number d.minutesAhead)]

def LocalTimeOffset.outline (d : LocalTimeOffset) : Outline :=
  .record "LocalTimeOffsetDescriptor" [("offsets", .list (d.offsets.map TimeOffset.outline))] []

def Subtitle.outline (d : Subtitle) : Outline :=
  .record "Subtitling"
    [("lang_code", .language d.language), ("subtitling_type", .octet d.subtitlingType),
     ("composition_page_id", .word d.compositionPage),
     ("ancillary_page_id", .word d.ancillaryPage)] []

def Subtitling.outline (d : Subtitling) : Outline :=
  .record "SubtitlingDescriptor" [("subtitles", .list (d.subtitles.map Subtitle.outline))] []

def TerrestrialDelivery.outline (d : TerrestrialDelivery) : Outline :=
  .record "TerrestrialDeliverySystemDescriptor"
    [("centre_frequency", .long d.centreFrequency), ("bandwidth", .octet d.bandwidth),
     ("priority", .flag d.priority), ("time_slicing_indicator", .flag d.timeSlicing),
     ("mpe_fec_indicator", .flag d.mpeFec), ("constellation", .octet d.constellation),
     ("hierarchy_information", .octet d.hierarchy), ("code_rate_hp_stream", .octet d.codeRateHigh),
     ("code_rate_lp_stream", .octet d.codeRateLow), ("guard_interval", .octet d.guardInterval),
     ("transmission_mode", .octet d.transmissionMode),
     ("other_frequency_flag", .flag d.otherFrequency)] []

def PrivateDataSpecifier.outline (d : PrivateDataSpecifier) : Outline :=
  .record "PrivateDataSpecifierDescriptor" [("private_data_specifier", .long d.specifier)] []

def FrequencyList.outline (d : FrequencyList) : Outline :=
  .record "FrequencyListDescriptor"
    [("coding_type", .octet d.codingType),
     ("centre_frequencies", .list (d.centreFrequencies.map .ofNat))] []

def DataBroadcastId.outline (d : DataBroadcastId) : Outline :=
  .record "DataBroadcastIdDescriptor"
    [("data_broadcast_id", .word d.id), ("id_selector_bytes", .octets d.selector)] []

def Ac3.outline (d : Ac3) : Outline :=
  .record "Ac3Descriptor"
    [("component_type", .optional (d.componentType.map .octet)),
     ("bsid", .optional (d.bsid.map .octet)), ("mainid", .optional (d.mainId.map .octet)),
     ("asvc", .optional (d.associatedService.map .octet)),
     ("additional_info", .octets d.additionalInfo)] []

def Ac3Audio.outline (d : Ac3Audio) : Outline :=
  .record "Ac3AudioStreamDescriptor"
    [("sample_rate_code", .octet d.sampleRateCode), ("bsid", .octet d.bsid),
     ("bit_rate_code", .octet d.bitRateCode), ("surround_mode", .octet d.surroundMode),
     ("bsmod", .octet d.bsmod), ("num_channels", .octet d.channels),
     ("full_svc", .flag d.fullService), ("additional_info", .octets d.additionalInfo)] []

def Caption.outline (d : Caption) : Outline :=
  .record "CaptionService"
    [("lang_code", .language d.language), ("digital_cc", .flag d.digital),
     ("caption_service_number", .octet d.serviceNumber), ("easy_reader", .flag d.easyReader),
     ("wide_aspect_ratio", .flag d.wideAspect)] []

def CaptionService.outline (d : CaptionService) : Outline :=
  .record "CaptionServiceDescriptor" [("services", .list (d.services.map Caption.outline))] []

def RatedDimension.outline (d : RatedDimension) : Outline :=
  .record "RatedDimension"
    [("rating_dimension", .octet d.dimension), ("rating_value", .octet d.value)] []

def RatedRegion.outline (d : RatedRegion) : Outline :=
  .record "RatingRegion"
    [("rating_region", .octet d.region),
     ("dimensions", .list (d.dimensions.map RatedDimension.outline)),
     ("rating_description", .strings d.description)] []

def ContentAdvisory.outline (d : ContentAdvisory) : Outline :=
  .record "ContentAdvisoryDescriptor" [("regions", .list (d.regions.map RatedRegion.outline))] []

def ExtendedChannelName.outline (d : ExtendedChannelName) : Outline :=
  .record "ExtendedChannelNameDescriptor" [("long_channel_name", .strings d.name)] []

def LocatedElement.outline (d : LocatedElement) : Outline :=
  .record "ServiceLocationElement"
    [("stream_type", .streamType d.streamType), ("elementary_pid", .pid d.pid),
     ("lang_code", .language d.language)] []

def ServiceLocation.outline (d : ServiceLocation) : Outline :=
  .record "ServiceLocationDescriptor"
    [("pcr_pid", .pid d.pcrPid), ("elements", .list (d.elements.map LocatedElement.outline))] []

def ComponentName.outline (d : ComponentName) : Outline :=
  .record "ComponentNameDescriptor" [("component_name", .strings d.name)] []

/-- The name of a kind of descriptor in a listing and the outline of what was read; a descriptor
whose meaning is not known has neither. -/
def outline? : Descriptor → Option (String × Outline)
  | videoStream d => some ("VideoStream", d.outline)
  | audioStream d => some ("AudioStream", d.outline)
  | registration d => some ("Registration", d.outline)
  | dataStreamAlignment d => some ("DataStreamAlignment", d.outline)
  | conditionalAccess d => some ("ConditionalAccess", d.outline)
  | languages d => some ("Iso639Language", d.outline)
  | maximumBitrate d => some ("MaximumBitrate", d.outline)
  | networkName d => some ("NetworkName", d.outline)
  | serviceList d => some ("ServiceList", d.outline)
  | satelliteDelivery d => some ("SatelliteDeliverySystem", d.outline)
  | cableDelivery d => some ("CableDeliverySystem", d.outline)
  | bouquetName d => some ("BouquetName", d.outline)
  | service d => some ("Service", d.outline)
  | linkage d => some ("Linkage", d.outline)
  | shortEvent d => some ("ShortEvent", d.outline)
  | extendedEvent d => some ("ExtendedEvent", d.outline)
  | component d => some ("Component", d.outline)
  | streamIdentifier d => some ("StreamIdentifier", d.outline)
  | caIdentifier d => some ("CaIdentifier", d.outline)
  | content d => some ("Content", d.outline)
  | parentalRating d => some ("ParentalRating", d.outline)
  | teletext d => some ("Teletext", d.outline)
  | localTimeOffset d => some ("LocalTimeOffset", d.outline)
  | subtitling d => some ("Subtitling", d.outline)
  | terrestrialDelivery d => some ("TerrestrialDeliverySystem", d.outline)
  | privateDataSpecifier d => some ("PrivateDataSpecifier", d.outline)
  | frequencyList d => some ("FrequencyList", d.outline)
  | dataBroadcastId d => some ("DataBroadcastId", d.outline)
  | ac3 d => some ("Ac3", d.outline)
  | ac3Audio d => some ("Ac3AudioStream", d.outline)
  | captionService d => some ("CaptionService", d.outline)
  | contentAdvisory d => some ("ContentAdvisory", d.outline)
  | extendedChannelName d => some ("ExtendedChannelName", d.outline)
  | serviceLocation d => some ("ServiceLocation", d.outline)
  | componentName d => some ("ComponentName", d.outline)
  | unknown _ _ => none

end DvbHost.Descriptor
