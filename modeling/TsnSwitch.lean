import TsnSwitch.Lib.Run
import TsnSwitch.Fdb.Separate
import TsnSwitch.Sched.Delayed
import TsnSwitch.Sched.Buffers
import TsnSwitch.Sched.Encode
import TsnSwitch.Sched.Admin
import TsnSwitch.Sched.Gates
import TsnSwitch.Sched.ReadBack
import TsnSwitch.Psfp.Effective
import TsnSwitch.Psfp.Rows
import TsnSwitch.Psfp.Counters
import TsnSwitch.Psfp.RowWords
import TsnSwitch.Psfp.TableRead
import TsnSwitch.Frer.Table
import TsnSwitch.Frer.SeqGen
import TsnSwitch.Frer.SeqEnc
import TsnSwitch.Frer.SeqRec
import TsnSwitch.Frer.Machine
import TsnSwitch.Frer.Frames
import TsnSwitch.Frer.Generation
import TsnSwitch.Frer.Recovery
import TsnSwitch.Frer.Encoding
import TsnSwitch.Com.Ring
import TsnSwitch.Com.Dma
import TsnSwitch.Com.Wake
import TsnSwitch.Com.Stamps
import TsnSwitch.Fqtss.Shaper
import TsnSwitch.Fqtss.History
import TsnSwitch.Fdb.Static
import TsnSwitch.Lib.Owned
import TsnSwitch.BrVlan.Ops
import TsnSwitch.BrVlan.Links
import TsnSwitch.BrVlan.Cases
import TsnSwitch.BrVlan.Represent
import TsnSwitch.BrVlan.AddPt
import TsnSwitch.BrVlan.Fid2vid
import TsnSwitch.BrVlan.Regs
import TsnSwitch.BrVlan.TeBit
import TsnSwitch.BrVlan.PortState
import TsnSwitch.Dmac.Rounds
import TsnSwitch.Dmac.Sync
import TsnSwitch.Lib.Locks
import TsnSwitch.Sched.Lock
import TsnSwitch.Dmac.LockOrder
import TsnSwitch.Preempt.Machine
import TsnSwitch.Preempt.Verified
import TsnSwitch.Preempt.StatusRead
import TsnSwitch.Preempt.Alone
import TsnSwitch.StreamId.Streams
import TsnSwitch.StreamId.Carried
import TsnSwitch.Base.Vids
import TsnSwitch.Base.Assemble
import TsnSwitch.Base.Validate
import TsnSwitch.Lib.Search
import TsnSwitch.Tools.Chain
import TsnSwitch.Tools.Parsing
import TsnSwitch.Tools.Checked
import TsnSwitch.Tools.Lines
import TsnSwitch.Tools.FdbLookup
import TsnSwitch.Tools.VlanLookup
import TsnSwitch.Lib.OrdMap
import TsnSwitch.SidTab.Trees
import TsnSwitch.SidTab.Keys
import TsnSwitch.SidTab.Slots
import TsnSwitch.SidTab.Classes
import TsnSwitch.SidTab.Table
import TsnSwitch.SidTab.Writes
import TsnSwitch.SidTab.ReadBack
import TsnSwitch.SidTab.Places
import TsnSwitch.SidTab.Overlap
import TsnSwitch.Lib.Divide
import TsnSwitch.Sched.Cycles
import TsnSwitch.Sched.StartTime
import TsnSwitch.Sched.Offsets
import TsnSwitch.Sched.CycleTime
import TsnSwitch.Lib.Window
import TsnSwitch.Sched.AdminList
import TsnSwitch.Frer.ResetTimes
import TsnSwitch.Psfp.GateDelays
import TsnSwitch.Psfp.GateInit
import TsnSwitch.Psfp.GateLists
import TsnSwitch.Sched.Rates
import TsnSwitch.Fqtss.Checked
import TsnSwitch.Fqtss.IdleSlope
import TsnSwitch.Sched.Checked
import TsnSwitch.Sched.Divisors
import TsnSwitch.Sched.FixTime
import TsnSwitch.Sched.Delays
import TsnSwitch.Lib.Kstrto
import TsnSwitch.Sched.BaseTime
import TsnSwitch.Sched.CycleText
import TsnSwitch.Sched.OperList
import TsnSwitch.Sched.OperChunks
import TsnSwitch.Sched.OperEnd
import TsnSwitch.Sysrepo.ConfigChange
import TsnSwitch.Sysrepo.FdbCapacity
import TsnSwitch.Sysrepo.Helper
import TsnSwitch.Sysrepo.Transaction
import TsnSwitch.Sysrepo.Resets
import TsnSwitch.Agent.Tables
import TsnSwitch.Agent.Mirror
import TsnSwitch.Lib.Scan
import TsnSwitch.Gcf.Files
import TsnSwitch.Gcf.RoundTrip
import TsnSwitch.Gcf.Kinds
import TsnSwitch.Gcf.Capacity
import TsnSwitch.Tools.Parsers
import TsnSwitch.Tools.Whole
import TsnSwitch.Tools.WholeSteps
import TsnSwitch.Lib.EarlyExit
import TsnSwitch.Sysrepo.AclEdit
import TsnSwitch.Sysrepo.AclLists
import TsnSwitch.Sysrepo.AclSched
import TsnSwitch.Sysrepo.AclPsfp
import TsnSwitch.Clock.Adjust
import TsnSwitch.Com.TsTime
import TsnSwitch.Com.TsCfg
import TsnSwitch.Com.Owner
import TsnSwitch.Com.RxRing
import TsnSwitch.Lib.Polled
import TsnSwitch.Waits
import TsnSwitch.Stat.Update
import TsnSwitch.Base.Base64
import TsnSwitch.Tsntool.PtpTime
import TsnSwitch.Tsntool.Relative
import TsnSwitch.Tools.PreviousWord
import TsnSwitch.Tools.DecValues
import TsnSwitch.Tools.Split
import TsnSwitch.Tools.Mask
import TsnSwitch.Tools.Combinators
import TsnSwitch.Tools.Count
import TsnSwitch.Tools.MstpPort
import TsnSwitch.Lib.Once
import TsnSwitch.Lib.Pool
import TsnSwitch.Tools.BridgeVlans
import TsnSwitch.Tools.Uint32
import TsnSwitch.Sysrepo.StreamFilter
import TsnSwitch.Sysrepo.AclMod
import TsnSwitch.Sysrepo.AclModTurns
import TsnSwitch.Sysrepo.Handles
import TsnSwitch.Sysrepo.HandleTurns
import TsnSwitch.Base.Translators
import TsnSwitch.Sysrepo.StringMaps
import TsnSwitch.Sysrepo.StringLists
import TsnSwitch.Agent.Members
import TsnSwitch.Base.VidLists
import TsnSwitch.Sysrepo.VlanCapacity
import TsnSwitch.Psfp.HitThresholds
import TsnSwitch.Tools.UniqRows
import TsnSwitch.Tools.BridgeNames
import TsnSwitch.Com.TsWork
import TsnSwitch.Fdb.Dump
import TsnSwitch.Fdb.Events
import TsnSwitch.Port.Mirror
import TsnSwitch.Port.Regs
import TsnSwitch.Sched.Operational
import TsnSwitch.Tsntool.ControlLists
import TsnSwitch.Tsntool.FrerShow
