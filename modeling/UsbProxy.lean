import UsbProxy.FilterDispatch
import UsbProxy.SafeQueue
import UsbProxy.Library.Runs
import UsbProxy.DataRelay
import UsbProxy.Descriptors
import UsbProxy.Interface
import UsbProxy.Configuration
import UsbProxy.Library.Iteration
import UsbProxy.Parser
import UsbProxy.ParserProgress
import UsbProxy.ParserBounds
import UsbProxy.ParserCounts
import UsbProxy.Sections
import UsbProxy.ParserSections
import UsbProxy.RoundTrip
import UsbProxy.DecodeEncode
import UsbProxy.Manager
import UsbProxy.SetupRelay
import UsbProxy.SetConfig
import UsbProxy.ReplyLength
import UsbProxy.ControlRelay
import UsbProxy.Library.Dialogue
import UsbProxy.ControlDialogue
import UsbProxy.ControlLoss
import UsbProxy.ParserIndices
import UsbProxy.GadgetDescriptor
import UsbProxy.GadgetEndpoints
import UsbProxy.Criteria
import UsbProxy.Library.Tables
import UsbProxy.DataRelaying
import UsbProxy.DeviceModel
import UsbProxy.NullConfiguration
import UsbProxy.Library.Streams
import UsbProxy.TcpData
import UsbProxy.TcpControl
import UsbProxy.TcpReplies
import UsbProxy.Library.Visits
import UsbProxy.TcpHelper
import UsbProxy.TcpConnections
import UsbProxy.Library.Stopping
import UsbProxy.WriterStop
import UsbProxy.SetupStatus
import UsbProxy.Library.Slots
import UsbProxy.ParserAttribution
import UsbProxy.Library.Resending
import UsbProxy.LibusbInterfaces
import UsbProxy.LibusbTransfer
import UsbProxy.Library.Thinning
import UsbProxy.ZlpThrottling
import UsbProxy.DeviceStrings
import UsbProxy.StringOwnership
import UsbProxy.GuardedValidators
import UsbProxy.DeviceValidator
import UsbProxy.GadgetBuffer
import UsbProxy.GadgetBlob
import UsbProxy.GadgetReceive
import UsbProxy.Library.PtrArrays
import UsbProxy.ManagerPlugins
import UsbProxy.PluginCleanup
import UsbProxy.Library.Rings
import UsbProxy.Loopback
import UsbProxy.BulkExchange
import UsbProxy.WriteBlocking
import UsbProxy.Library.Journals
import UsbProxy.BlockCache
import UsbProxy.Library.Scanning
import UsbProxy.PasswordSearch
import UsbProxy.Library.Overlays
import UsbProxy.UdpInjector
import UsbProxy.HeaderMask
import UsbProxy.Library.Counters
import UsbProxy.SetupPhases
import UsbProxy.Library.CStrings
import UsbProxy.HexString
import UsbProxy.Library.Trimming
import UsbProxy.Library.Assignments
import UsbProxy.ConfigParser
import UsbProxy.StringLimits
import UsbProxy.ControlObjects
import UsbProxy.KeyLogging
import UsbProxy.PowerFilter
import UsbProxy.Library.Upserts
import UsbProxy.InterfaceBuilding
import UsbProxy.TcpReads
import UsbProxy.GroupBuilding
import UsbProxy.Library.Shuffles
import UsbProxy.RelayDelivery
import UsbProxy.Library.Blocks
import UsbProxy.GadgetSend
import UsbProxy.GadgetWriters
import UsbProxy.InboundRelay
import UsbProxy.Library.Monitors
import UsbProxy.Library.CriticalSections
import UsbProxy.QueueMonitor
import UsbProxy.GadgetControl
import UsbProxy.ControlAnswers
import UsbProxy.OutboundRelay
import UsbProxy.InjectorRouting
import UsbProxy.DataPlane
import UsbProxy.LibusbConnection
import UsbProxy.GadgetFiles
import UsbProxy.TcpBridge
import UsbProxy.LibusbReceive
import UsbProxy.ControlPath
