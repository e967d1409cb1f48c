import Rtl8188eu.ByteMem
import Rtl8188eu.Wifi
import Rtl8188eu.Adapter
import Rtl8188eu.LinkedLists
import Rtl8188eu.RecvPool
import Rtl8188eu.BlockAck
import Rtl8188eu.BlockAckRoundTrip
import Rtl8188eu.Aggregation
import Rtl8188eu.RecvIndicate
import Rtl8188eu.Reorder
import Rtl8188eu.ReorderRun
import Rtl8188eu.Arc4
import Rtl8188eu.Michael
import Rtl8188eu.Tkip
import Rtl8188eu.Ccmp
import Rtl8188eu.RecvSecurity
import Rtl8188eu.Defrag
import Rtl8188eu.RecvFunc
import Rtl8188eu.Ownership
import Rtl8188eu.OwnershipRun
import Rtl8188eu.PortControl
import Rtl8188eu.ClientMlme
import Rtl8188eu.ClientJoin
import Rtl8188eu.ClientAuth
import Rtl8188eu.JoinEvent
import Rtl8188eu.P2p
import Rtl8188eu.P2pNego
import Rtl8188eu.Unprotected
import Rtl8188eu.AccessPoint
import Rtl8188eu.ApPowerSave
import Rtl8188eu.RecvOrigin
import Rtl8188eu.ApStep
import Rtl8188eu.ApRun
import Rtl8188eu.ApStations
import Rtl8188eu.ApBitmaps
import Rtl8188eu.ApLists
import Rtl8188eu.ApCounters
import Rtl8188eu.SleepQueues
import Rtl8188eu.XmitQueues
import Rtl8188eu.StaTable
import Rtl8188eu.ScanTable
import Rtl8188eu.CmdThread
import Rtl8188eu.AccessControl
import Rtl8188eu.ApClass3
import Rtl8188eu.BridgeExt
import Rtl8188eu.BridgeLearning
import Rtl8188eu.BridgeShortcut
import Rtl8188eu.CellLogs
import Rtl8188eu.EfuseLog
import Rtl8188eu.EfuseWrite
import Rtl8188eu.ElementParser
import Rtl8188eu.InfoElementLists
import Rtl8188eu.PacketNumbers
import Rtl8188eu.XmitFragments
import Rtl8188eu.ApSharedKey
import Rtl8188eu.H2cMailbox
import Rtl8188eu.PowerSave
import Rtl8188eu.RateAdaptive
import Rtl8188eu.SiteSurvey
import Rtl8188eu.AmsduDecode
import Rtl8188eu.CcmpCheck
import Rtl8188eu.IntegrityCheck
import Rtl8188eu.ShortFrames
import Rtl8188eu.MgntLeaks
import Rtl8188eu.AggregateLayout
import Rtl8188eu.AggregationStart
import Rtl8188eu.AmsduAddresses
import Rtl8188eu.AmsduBuffers
import Rtl8188eu.AttrLists
import Rtl8188eu.AttrSearch
import Rtl8188eu.BeaconElements
import Rtl8188eu.BeaconRefresh
import Rtl8188eu.BridgeChecksums
import Rtl8188eu.BridgeVlan
import Rtl8188eu.CipherSuites
import Rtl8188eu.FailedFrames
import Rtl8188eu.MulticastCopies
import Rtl8188eu.P2pAttrRemove
import Rtl8188eu.ReceivedRates
import Rtl8188eu.RecvBuffer
import Rtl8188eu.VendorLoops
import Rtl8188eu.AssocRequest
import Rtl8188eu.BeaconBody
import Rtl8188eu.BeaconCheck
import Rtl8188eu.ChannelMerge
import Rtl8188eu.FirstMaximum
import Rtl8188eu.JoinCandidate
import Rtl8188eu.MovingAverage
import Rtl8188eu.PeerChannels
import Rtl8188eu.SignalAverage
import Rtl8188eu.BridgeReceive
import Rtl8188eu.CheckedCommands
import Rtl8188eu.CircularQueue
import Rtl8188eu.EfuseProgram
import Rtl8188eu.EfuseSectionRead
import Rtl8188eu.EfuseWriteSteps
import Rtl8188eu.FirmwareDownload
import Rtl8188eu.GroupInfoAttr
import Rtl8188eu.Nat25Expiry
import Rtl8188eu.NdOptions
import Rtl8188eu.P2pAttrCopies
import Rtl8188eu.PointerRing
import Rtl8188eu.RateStepping
import Rtl8188eu.AesStandard
import Rtl8188eu.Deadlines
import Rtl8188eu.IcvChecksum
import Rtl8188eu.IpsDeny
import Rtl8188eu.LinkTable
import Rtl8188eu.MichaelWords
import Rtl8188eu.Mixing
import Rtl8188eu.PagedLayout
import Rtl8188eu.ReservedPages
import Rtl8188eu.TkipMixing
import Rtl8188eu.CipherRoundTrip
import Rtl8188eu.PowerSequence
