import Nagi.Ai.Report
import Nagi.Calendar.Time
import Nagi.Capability.History
import Nagi.Fat32.Bounds
import Nagi.History.Archive
import Nagi.History.Execution
import Nagi.Kernel.Gpt.Layout
import Nagi.Kernel.Handles.History
import Nagi.Kernel.ProcessExit.History
import Nagi.Kernel.Scheduler.Exits
import Nagi.Kernel.Scheduler.Turns
import Nagi.Kernel.Syscall.Spawn
import Nagi.Kernel.UserIpc.Ordering
import Nagi.Kernel.UserMmap.Access
import Nagi.Kernel.UserMmap.Frames
import Nagi.Kernel.UserProcess.Aliasing
import Nagi.Kernel.UserProcess.Parsed
import Nagi.Kernel.Vmo.History
import Nagi.Launch.Grants
import Nagi.Launch.Prompts
import Nagi.Loader.BootHistory
import Nagi.Pal.Alloc
import Nagi.Search.Visibility
import Nagi.Wayback.RestoreSafety
