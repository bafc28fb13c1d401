import CanaTune.Theorems.Calibrate
import CanaTune.Theorems.Caps
import CanaTune.Theorems.DecodeLength
import CanaTune.Theorems.DecodeWall
import CanaTune.Theorems.Drained
import CanaTune.Theorems.Effective
import CanaTune.Theorems.Escalation
import CanaTune.Theorems.FrequencyTable
import CanaTune.Theorems.Frugal
import CanaTune.Theorems.GpuAgent
import CanaTune.Theorems.Handle
import CanaTune.Theorems.Interpolate
import CanaTune.Theorems.OddEvents
import CanaTune.Theorems.PrefillTables
import CanaTune.Theorems.ProbeWindows
import CanaTune.Theorems.ProcessController
import CanaTune.Theorems.Projection
import CanaTune.Theorems.Recheck
import CanaTune.Theorems.RiskBounds
import CanaTune.Theorems.RiskStore
import CanaTune.Theorems.RoundRobin
import CanaTune.Theorems.SameRisk
import CanaTune.Theorems.Waiters
import CanaTune.Theorems.Wilson
import CanaTune.Theorems.Window
