import DvbHost.Ci.CommonInterface
import DvbHost.Ci.ScriptedDevice
import DvbHost.Main
import DvbHost.Section.Versions
import DvbHost.Proofs.Ci.SessionRun
import DvbHost.Proofs.Episode
import DvbHost.Proofs.Ci.ConnectionEpisodes
import DvbHost.Proofs.Ci.SessionLifeCycle
import DvbHost.Proofs.Bytes
import DvbHost.Proofs.Calendar.Date
import DvbHost.Proofs.Calendar.DateTime
import DvbHost.Proofs.Crc32
import DvbHost.Proofs.Descriptor.Loop
import DvbHost.Proofs.Section.Prefix
import DvbHost.Proofs.Section.Reassembly
import DvbHost.Proofs.Section.Writing
import DvbHost.Proofs.Table.Clock
import DvbHost.Proofs.Table.Event
import DvbHost.Proofs.Table.Network
import DvbHost.Proofs.Table.Program
import DvbHost.Proofs.Table.RoundTrip
import DvbHost.Proofs.Ci.ConnectionLife
import DvbHost.Proofs.Ci.TransportHistory
import DvbHost.Proofs.Ci.SlotHistory
import DvbHost.Proofs.Ci.ConnectionHistory
import DvbHost.Proofs.Ci.QueuedData
import DvbHost.Proofs.Ci.WaitingConnections
import DvbHost.Proofs.Ci.Handshake
import DvbHost.Proofs.Ci.HalfDuplex
import DvbHost.Proofs.Ci.OpenSessions
import DvbHost.Proofs.Section.Framing
import DvbHost.Proofs.Ci.SessionTraffic
import DvbHost.Proofs.Ci.CarriedUnits
import DvbHost.Proofs.Checked.Basic
import DvbHost.Proofs.Checked.Cursor
import DvbHost.Proofs.Checked.Number
import DvbHost.Proofs.Checked.Calendar
import DvbHost.Proofs.Checked.Field
import DvbHost.Proofs.Checked.Text
import DvbHost.Proofs.Checked.Section
import DvbHost.Proofs.Checked.Descriptor
import DvbHost.Proofs.Checked.Table
import DvbHost.Proofs.Checked.Query
import DvbHost.Proofs.Checked.Inspection
import DvbHost.Proofs.Layout.Basic
import DvbHost.Proofs.Layout.Field
import DvbHost.Proofs.Layout.Table
import DvbHost.Proofs.Layout.Guide
import DvbHost.Proofs.Ci.ResponseTimeouts
import DvbHost.Proofs.Ci.ResourceSessions
import DvbHost.Proofs.Ci.SessionMeetings
import DvbHost.Proofs.Ci.DispatchedEvents
import DvbHost.Proofs.Ci.SessionState
import DvbHost.Proofs.Ci.HostRun
import DvbHost.Proofs.Crc32.BitSerial
import DvbHost.Proofs.Crc32.Burst
import DvbHost.Proofs.Section.PayloadCuts
import DvbHost.Proofs.Section.VersionHistory
import DvbHost.Proofs.Calendar.Rewriting
import DvbHost.Proofs.Table.Rewriting
import DvbHost.Proofs.Ci.Length
import DvbHost.Proofs.Ci.UnitStreams
import DvbHost.Proofs.Ci.SessionUnits
import DvbHost.Proofs.Section.SeparatePids
import DvbHost.Proofs.Ci.IndependentSessions
import DvbHost.Proofs.Ci.ReceivedMessages
import DvbHost.Proofs.Ci.SlotMoves
import DvbHost.Proofs.Ci.TakenUnits
import DvbHost.Proofs.Ci.GatheredFragments
import DvbHost.Proofs.Ci.SentMessages
import DvbHost.Proofs.Ci.SessionPassages
import DvbHost.Proofs.Ci.AwaitedSessions
import DvbHost.Proofs.Ci.SessionCount
import DvbHost.Proofs.Ci.SessionResources
import DvbHost.Proofs.Ci.ChainedObjects
import DvbHost.Proofs.Ci.MenuTexts
import DvbHost.Proofs.Ci.DescramblingRequests
import DvbHost.Proofs.Ci.RegisteredResources
import DvbHost.Proofs.Descriptor.Block
import DvbHost.Proofs.Descriptor.Writing
import DvbHost.Proofs.Layout.Descriptor
import DvbHost.Proofs.Text.MultipleString
import DvbHost.Proofs.Text.DvbText
import DvbHost.Proofs.Calendar.UnixTime
import DvbHost.Proofs.Section.Arrival
import DvbHost.Proofs.Section.PendingOctets
import DvbHost.Proofs.Section.LengthMarks
import DvbHost.Proofs.Cursor.ReaderStack
