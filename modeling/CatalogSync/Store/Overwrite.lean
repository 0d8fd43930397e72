import CatalogSync.Store.Error

/-!
# Overwriting rows

One column of some rows is given another value, all at once or not at all.
-/

namespace CatalogSync.Store

/-- Overwrites a column of the rows that `here` picks, and tells how many these are. A value that
the column cannot hold leaves every row as it is. -/
def overwriteRows {α : Type} (here : α → Bool) (overwrite : α → Option α) (table column : String) (rows : List α) :
    Except StoreError Nat × List α :=
  match (rows.filter here).mapM overwrite with
  | none => (.error (.of (.sql (.notNull table column))), rows)
  | some changed => (.ok changed.length, rows.map fun r => if here r then (overwrite r).getD r else r)

end CatalogSync.Store
