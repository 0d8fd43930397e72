import CatalogSync.Ledger.Job

/-!
# Pages of jobs

A query asks for one page of the jobs of a type and status. Page sizes are kept within 1 and 500,
and pages count from 1.
-/

namespace CatalogSync.Ledger

/-- The greatest number of jobs on a page. -/
def maxPageSize : Nat := 500

/-- A query for one page of jobs. -/
structure Query where
  page : Nat := 1
  pageSize : Nat := 50
  type : Option JobType := none
  status : Option JobStatus := none
deriving DecidableEq, Repr, Inhabited

namespace Query

def limit (q : Query) : Nat := max 1 (min q.pageSize maxPageSize)

/-- How many jobs come before the page. -/
def offset (q : Query) : Nat := (max q.page 1 - 1) * q.limit

end Query

/-- One page of jobs, and how many match the query on all pages. -/
structure Page where
  jobs : List Job
  total : Nat
deriving Inhabited

end CatalogSync.Ledger
