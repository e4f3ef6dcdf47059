import Apcupsd.Foundations.BitFlags
import Apcupsd.Foundations.HeldSince
import Apcupsd.Foundations.EdgeDetector
import Apcupsd.Foundations.Periods
import Apcupsd.Foundations.Execution
import Apcupsd.Foundations.RecentWindow
import Apcupsd.Foundations.PairedEvents
import Apcupsd.Core.Status
import Apcupsd.Core.UpsInfo
import Apcupsd.Core.Events
import Apcupsd.Core.DoAction
import Apcupsd.Core.EventSpec
import Apcupsd.Core.PassFrame
import Apcupsd.Core.PassSpec
import Apcupsd.Core.PassTrace
import Apcupsd.Core.PassWrites
import Apcupsd.Core.PassSteps
import Apcupsd.Core.CoreRun
import Apcupsd.Core.RunHistory
import Apcupsd.Core.BatteryMessages
import Apcupsd.Core.ShutdownAction
import Apcupsd.Core.FastPolling
import Apcupsd.Core.LimitTimers
import Apcupsd.Core.LowBattery
import Apcupsd.Core.OutageDelays
import Apcupsd.Core.Transitions
import Apcupsd.Core.OutagePairs
import Apcupsd.Core.BatteryTime
import Apcupsd.Threads.Process
import Apcupsd.Threads.Handshake
import Apcupsd.Threads.Teardown
import Apcupsd.Modbus.Frame
import Apcupsd.Modbus.Comm
import Apcupsd.Modbus.PromptLink
import Apcupsd.Modbus.Rs232
import Apcupsd.Modbus.Usb
import Apcupsd.Modbus.Calls
import Apcupsd.Modbus.Reads
import Apcupsd.Modbus.Accepted
import Apcupsd.Modbus.Agreement
import Apcupsd.Modbus.Writes
import Apcupsd.Core.PowerFailurePass
import Apcupsd.Foundations.CachedPoll
import Apcupsd.Modbus.Driver
import Apcupsd.Modbus.DeviceLoop
import Apcupsd.Modbus.OneOutage
import Apcupsd.Foundations.CStrings
import Apcupsd.Core.ReportFields
import Apcupsd.Usb.ProcessValue
import Apcupsd.Usb.VolatileData
import Apcupsd.Lock.Lockfile
import Apcupsd.Lock.Exclusion
import Apcupsd.Foundations.LengthPrefix
import Apcupsd.Nis.Socket
import Apcupsd.Nis.Deframing
import Apcupsd.Nis.Delivery
import Apcupsd.Nis.StatusReply
import Apcupsd.Foundations.TextLines
import Apcupsd.Nis.StatusText
import Apcupsd.Nis.GetUpsVar
import Apcupsd.Foundations.SplitLines
import Apcupsd.Core.TextNumbers
import Apcupsd.Pcnet.ProcessData
import Apcupsd.Pcnet.Packet
import Apcupsd.Pcnet.Replay
import Apcupsd.Pcnet.Coverage
import Apcupsd.Foundations.ByteCursor
import Apcupsd.Foundations.Radix
import Apcupsd.Snmp.Asn
import Apcupsd.Snmp.Decoder
import Apcupsd.Snmp.Encoder
import Apcupsd.Snmp.RoundTrip
import Apcupsd.Snmp.Engine
import Apcupsd.Snmp.Matching
import Apcupsd.Snmp.Message
import Apcupsd.Snmp.UpdateCis
import Apcupsd.Foundations.PartialWalk
import Apcupsd.Snmp.Walk
import Apcupsd.Snmp.Oids
import Apcupsd.Snmp.Mibs
import Apcupsd.Snmp.Crashes
import Apcupsd.Modbus.BlockCache
import Apcupsd.Modbus.VolatilePass
import Apcupsd.Foundations.Debounce
import Apcupsd.Modbus.CommLoss
import Apcupsd.Modbus.ByteCount
import Apcupsd.Nis.SelfConsistent
import Apcupsd.Usb.LinkCheck
import Apcupsd.Foundations.RepeatedWrites
import Apcupsd.Modbus.StaticPass
import Apcupsd.Core.PassPolls
import Apcupsd.Foundations.RecursiveLock
import Apcupsd.Modbus.LockDepth
import Apcupsd.Nis.RequestMatching
import Apcupsd.Modbus.Watchdog
import Apcupsd.Modbus.Retransmission
import Apcupsd.Modbus.IdleLine
import Apcupsd.Modbus.SerialReceive
import Apcupsd.ApcSmart.Getline
import Apcupsd.ApcSmart.SmartPoll
import Apcupsd.Foundations.TwosComplement
import Apcupsd.Snmp.IntegerCodec
import Apcupsd.Snmp.SizePass
import Apcupsd.Nis.SlaveShutdown
import Apcupsd.Foundations.CopyLoop
import Apcupsd.Nis.LookupBounds
import Apcupsd.Foundations.ShiftRegister
import Apcupsd.Modbus.RegisterValues
import Apcupsd.Modbus.BurstErrors
import Apcupsd.Foundations.Nesting
import Apcupsd.Usb.LocateItem
import Apcupsd.Config.ParseConfig
import Apcupsd.Foundations.Pieces
import Apcupsd.Config.CheckForConfig
import Apcupsd.Eventfile.OutputEvents
import Apcupsd.Eventfile.TrimEventfile
import Apcupsd.Foundations.RewrittenFile
import Apcupsd.Reports.StatusFile
import Apcupsd.ApcSmart.ChangeEeprom
import Apcupsd.Cgi.CheckHost
import Apcupsd.Cgi.FetchEvents
import Apcupsd.Usb.PollRate
import Apcupsd.Core.ReplaceBattery
import Apcupsd.Lib.Astring
import Apcupsd.Foundations.DoublyLinked
import Apcupsd.Lib.Alist
import Apcupsd.Foundations.BitFields
import Apcupsd.Usb.HidData
import Apcupsd.Usb.ParseDescriptor
import Apcupsd.Usb.ReportLayout
import Apcupsd.Usb.DescriptorNesting
import Apcupsd.Usb.ReportSize
import Apcupsd.Usb.WriteItem
import Apcupsd.Foundations.BlockAbsorption
import Apcupsd.Lib.Md5
import Apcupsd.Pcnet.PacketHash
import Apcupsd.Nis.Server
import Apcupsd.Nis.ServerProgress
import Apcupsd.Nis.ServerReplies
import Apcupsd.Pcnet.CommLoss
import Apcupsd.Foundations.Occurrence
import Apcupsd.Nis.PrintedNumbers
import Apcupsd.Nis.OwnLines
import Apcupsd.Nis.SlaveData
