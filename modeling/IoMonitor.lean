import IoMonitor.Lib.CString
import IoMonitor.Lib.BitSet
import IoMonitor.Lib.PointerArray
import IoMonitor.Lib.CharBuffer
import IoMonitor.Lib.KeyedStore
import IoMonitor.Lib.LinkedList
import IoMonitor.Lib.Machine
import IoMonitor.Lib.Prog
import IoMonitor.Lib.ErrorReport
import IoMonitor.Lib.Columns
import IoMonitor.Lib.SortedMap
import IoMonitor.Lib.LineProtocol
import IoMonitor.Lib.LineFilter
import IoMonitor.Lib.ShellWords
import IoMonitor.Lib.Sieve
import IoMonitor.Lib.FanIn
import IoMonitor.Lib.Forking
import IoMonitor.Lib.FixedWidth
import IoMonitor.Lib.Floats
import IoMonitor.Record
import IoMonitor.Names
import IoMonitor.Decimal
import IoMonitor.EnumToStrings
import IoMonitor.Listener.Resolver
import IoMonitor.Listener.Isolation
import IoMonitor.Listener.Mounts
import IoMonitor.Listener.DeviceFields
import IoMonitor.Listener.CaptureDevices
import IoMonitor.Listener.CommandParser
import IoMonitor.Listener.CommandRuns
import IoMonitor.Listener.CommandLine
import IoMonitor.Listener.ArgumentBuffers
import IoMonitor.Listener.ArgumentGrammar
import IoMonitor.Listener.ConfigFile
import IoMonitor.Listener.PluginChain
import IoMonitor.Listener.BackPressure
import IoMonitor.Listener.FilterDomains
import IoMonitor.Listener.PrintMask
import IoMonitor.Listener.OutputCsv
import IoMonitor.Listener.CsvDecoding
import IoMonitor.Listener.OutputTable
import IoMonitor.Listener.CopyEscaped
import IoMonitor.Listener.TagEscaper
import IoMonitor.Listener.OutputInfluxdb
import IoMonitor.Listener.Protocol
import IoMonitor.Listener.Coherence
import IoMonitor.Listener.NameLookup
import IoMonitor.Listener.ChainMemory
import IoMonitor.Listener.CommandMemory
import IoMonitor.Listener.Handlers
import IoMonitor.Listener.Main
import IoMonitor.Listener.Startup
import IoMonitor.Listener.Threads
import IoMonitor.Monitor.State
import IoMonitor.Monitor.Initialize
import IoMonitor.Monitor.Filters
import IoMonitor.Monitor.Transport
import IoMonitor.Monitor.Record
import IoMonitor.Monitor.Eligible
import IoMonitor.Monitor.StartOnOpen
import IoMonitor.Monitor.Accounting
import IoMonitor.Monitor.Sampling
import IoMonitor.Monitor.Pipeline
import IoMonitor.Monitor.Delivery
import IoMonitor.Interposer.Table
import IoMonitor.Interposer.Wrapper
import IoMonitor.Interposer.WellFormed
import IoMonitor.Interposer.Transparency
import IoMonitor.Interposer.ErrorCodes
import IoMonitor.Interposer.ByteCounts
import IoMonitor.Interposer.SelfCapture
import IoMonitor.Interposer.Nesting
import IoMonitor.Interposer.DeliveryCounters
import IoMonitor.Monitor.Session
import IoMonitor.Interposer.Http
import IoMonitor.Interposer.HttpLines
import IoMonitor.Interposer.HttpBounds
import IoMonitor.Monitor.SamplingParameters
import IoMonitor.Interposer.ExecTable
import IoMonitor.Interposer.Generator
import IoMonitor.Listener.InputCli
import IoMonitor.Monitor.StartUp
import IoMonitor.Listener.BlankStrings
import IoMonitor.Listener.DomainMask
import IoMonitor.Listener.CommandFields
import IoMonitor.Listener.ListPlugins
import IoMonitor.Listener.Reconfigure
import IoMonitor.EndToEnd
import IoMonitor.EndToEnd.DescriptorReuse
import IoMonitor.EndToEnd.DomainFilter
import IoMonitor.EndToEnd.Strings
import IoMonitor.EndToEnd.Fleet
import IoMonitor.EndToEnd.EventsCaptured
import IoMonitor.EndToEnd.PointsPosted
import IoMonitor.EndToEnd.Peers
import IoMonitor.EndToEnd.ProcessTree
