import Glowforge.Lib.Counts
import Glowforge.Lib.Runs
import Glowforge.Lib.Slots
import Glowforge.Lib.Grid
import Glowforge.Lib.Timeline
import Glowforge.Stream.Basic
import Glowforge.Stream.Producer
import Glowforge.Stream.Shipper
import Glowforge.Stream.Lifecycle
import Glowforge.Stream.Machine
import Glowforge.Stream.Frame
import Glowforge.Stream.Tick
import Glowforge.Stream.Conservation
import Glowforge.Stream.Gate
import Glowforge.Stream.Emission
import Glowforge.Stream.Idle
import Glowforge.Stream.ReadBack
import Glowforge.Stream.RunGate
import Glowforge.Laser.Machine
import Glowforge.Laser.Window
import Glowforge.Laser.Consent
import Glowforge.Serial.Tx
import Glowforge.Serial.Inject
import Glowforge.Serial.Overrun
import Glowforge.Lib.Clock
import Glowforge.Cooling.Verdict
import Glowforge.Cooling.Poll
import Glowforge.Cooling.Fresh
import Glowforge.Cooling.Hold
import Glowforge.Stream.Faults
import Glowforge.Stream.Alarm
import Glowforge.Stream.Course
import Glowforge.Stream.Custody
import Glowforge.Stream.Residue
import Glowforge.Stream.Handover
import Glowforge.Stream.Latch
import Glowforge.Laser.Relight
import Glowforge.Stream.Barred
import Glowforge.Stream.Dark
import Glowforge.Stream.Grammar
import Glowforge.Stream.Twin
import Glowforge.Stream.Density
import Glowforge.Stream.Schedule
import Glowforge.Stream.Models
import Glowforge.Lib.Lines
import Glowforge.Port.Basic
import Glowforge.Port.Machine
import Glowforge.Port.Frame
import Glowforge.Port.Replies
import Glowforge.Port.Envelope
import Glowforge.Port.Deadman
import Glowforge.Switches.Basic
import Glowforge.Switches.Machine
import Glowforge.Switches.Hidden
import Glowforge.Laser.Lid
import Glowforge.Laser.Rearm
import Glowforge.Laser.Press
import Glowforge.Laser.FireGate
import Glowforge.Cooling.Decel
import Glowforge.Cooling.Answer
import Glowforge.Stream.Pipeline
import Glowforge.Stream.Clearing
import Glowforge.Homing.Basic
import Glowforge.Homing.Machine
import Glowforge.Homing.Anchor
import Glowforge.Lib.Diffusion
import Glowforge.Stream.Dither
import Glowforge.Laser.Jog
import Glowforge.Stream.Assertion
import Glowforge.Stream.Cursor
import Glowforge.Stream.Restate
import Glowforge.Stream.Backlog
import Glowforge.Stream.Unbounded
import Glowforge.Stream.Overflow
import Glowforge.Stream.FullQueue
import Glowforge.Fire.Machine
import Glowforge.Fire.Lit
import Glowforge.Fire.Episode
import Glowforge.Port.Intent
import Glowforge.Port.Waiting
import Glowforge.Serial.Blocked
import Glowforge.Currents.Machine
import Glowforge.Currents.Torque
import Glowforge.Currents.Release
import Glowforge.Switches.Return
import Glowforge.Conf.Read
import Glowforge.Homing.Limits
import Glowforge.Homing.Envelope
import Glowforge.Homing.Tray
import Glowforge.Homing.Lens
import Glowforge.Homing.Pinned
import Glowforge.Homing.Words
import Glowforge.Lib.Decimal
import Glowforge.Lib.Piecewise
import Glowforge.Dose.Curve
import Glowforge.Dose.Apply
import Glowforge.Mcode.Table
import Glowforge.Mcode.Machine
import Glowforge.Mcode.Barrier
import Glowforge.Mcode.Answer
import Glowforge.Lib.Memory
import Glowforge.Lib.Simulation
import Glowforge.Nvs.Store
import Glowforge.Stream.PulseWrite
import Glowforge.Dose.Value
import Glowforge.Cooling.Report
import Glowforge.Homing.Session
import Glowforge.Stream.Pace
import Glowforge.Laser.Interlock
import Glowforge.Port.Session
import Glowforge.Lib.Durable
import Glowforge.Homing.Marker
