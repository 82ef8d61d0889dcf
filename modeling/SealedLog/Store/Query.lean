import SealedLog.Store.Basic

/-!
# Operations on tables

Tables are lists of rows in the order of their row numbers, and queries are compositions of these
operations.

* `Query.join`: the pairs of rows that agree;
* `Query.groupBy`: the groups of rows with one key, in ascending order of the keys;
* `Query.maxId`: the greatest row number, zero in an empty table.
-/

namespace SealedLog.Query

variable {α β : Type}

/-- The pairs of a row of each table that agree, in the order of the first table. -/
def join (agree : α → β → Bool) (left : List α) (right : List β) : List (α × β) :=
  left.flatMap fun a => (right.filter (agree a)).map fun b => (a, b)

/-- Put a row behind the others of its group; groups stay in ascending order of their keys. -/
def intoGroup (key : Int64) (row : α) : List (Int64 × List α) → List (Int64 × List α)
  | [] => [(key, [row])]
  | group :: rest =>
    if key < group.1 then (key, [row]) :: group :: rest
    else if key = group.1 then (key, group.2 ++ [row]) :: rest
    else group :: intoGroup key row rest

/-- The groups of rows with one key, in ascending order of the keys. A group has at least one row
and keeps the order of its rows. -/
def groupBy (key : α → Int64) (rows : List α) : List (Int64 × List α) :=
  rows.foldl (fun groups row => intoGroup (key row) row groups) []

/-- The greatest row number, zero in an empty table. -/
def maxId (ids : List Int64) : Int64 := ids.max?.getD 0

end SealedLog.Query
