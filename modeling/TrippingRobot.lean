import TrippingRobot.Machine.Run
import TrippingRobot.Machine.RwLock
import TrippingRobot.Machine.Simulation
import TrippingRobot.Machine.Fallible
import TrippingRobot.Data.Ring
import TrippingRobot.Data.CInt
import TrippingRobot.Data.CString
import TrippingRobot.Data.Block
import TrippingRobot.Data.Bytes
import TrippingRobot.Data.LinkedRing
import TrippingRobot.Data.SortedTable
import TrippingRobot.Data.Rolling
import TrippingRobot.Data.Decimal
import TrippingRobot.Data.Column
import TrippingRobot.Data.Orbit
import TrippingRobot.Data.Long
import TrippingRobot.Runtrace.Format
import TrippingRobot.Runtrace.Digits
import TrippingRobot.Runtrace.Facility
import TrippingRobot.Runtrace.Setup
import TrippingRobot.Runtrace.Reconfigure
import TrippingRobot.Runtrace.Printing
import TrippingRobot.Runtrace.Overrun
import TrippingRobot.Runtrace.Bounds
import TrippingRobot.Runtrace.Capacity
import TrippingRobot.Runtrace.Sinks
import TrippingRobot.Runtrace.Times
import TrippingRobot.Runtrace.Pieces
import TrippingRobot.Runtrace.Restart
import TrippingRobot.Runtrace.Rejoin
import TrippingRobot.Runtrace.Device
import TrippingRobot.Runtrace.OpenRelease
import TrippingRobot.Runtrace.Commands
import TrippingRobot.Runtrace.History
import TrippingRobot.Runtrace.Delivery
import TrippingRobot.Runtrace.Once
import TrippingRobot.Runtrace.Cursor
import TrippingRobot.Runtrace.Buffers
import TrippingRobot.Runtrace.Messages
import TrippingRobot.Runtrace.Underrun
import TrippingRobot.Runtrace.Lifecycle
import TrippingRobot.Runtrace.Printers
import TrippingRobot.Runtrace.Sections
import TrippingRobot.Runtrace.Atomic
import TrippingRobot.Runtrace.Readback
import TrippingRobot.Runtrace.ShortLines
import TrippingRobot.Runtrace.ReadQueue
import TrippingRobot.Runtrace.Follow
import TrippingRobot.Runtrace.Writers
import TrippingRobot.Memleak.Record
import TrippingRobot.Memleak.AllocList
import TrippingRobot.Memleak.Delta
import TrippingRobot.Memleak.Schedule
import TrippingRobot.Memleak.Blocks
import TrippingRobot.Memleak.Requests
import TrippingRobot.Memleak.Counters
import TrippingRobot.Memleak.Totals
import TrippingRobot.Memleak.Report
import TrippingRobot.Memleak.Observer
import TrippingRobot.Memleak.Log
import TrippingRobot.Memleak.LogReading
import TrippingRobot.Memleak.Stamps
import TrippingRobot.Memleak.Leaks
import TrippingRobot.Memleak.Threads
import TrippingRobot.Memleak.Serial
import TrippingRobot.Memleak.Races
import TrippingRobot.Memleak.Interleaving
import TrippingRobot.Memleak.Progress
import TrippingRobot.Memleak.Tracking
import TrippingRobot.Memleak.Contents
import TrippingRobot.Timecmp.Compare
import TrippingRobot.Timecmp.RollingTime
import TrippingRobot.Timecmp.Arithmetic
import TrippingRobot.Timecmp.Objects
import TrippingRobot.Obscurestr.Obscure
import TrippingRobot.Obscurestr.Keys
import TrippingRobot.Stopwatch.Elapsed
import TrippingRobot.Stopwatch.Print
