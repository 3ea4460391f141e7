import QueryGate.Filter.Basic
import QueryGate.Json.Printer
import QueryGate.Plan.Basic
import QueryGate.Plan.Error
import QueryGate.Query.Request

/-!
# Paging and ordering

How the clauses of a request and the values that a filter forces on them become the
limit, the offset and the order of a plan.
-/

namespace QueryGate

open Text

/-- Which orderings the words `max` and `min` stand for. -/
inductive AggregateStyle where
  /-- All of them order by the maximum: `max`, `max-asc` and `min-desc` ascending,
  `min`, `min-asc` and `max-desc` descending. -/
  | legacy
  /-- The first part of the word is the function, the second part the direction. -/
  | symmetric
  deriving DecidableEq, Repr

/-- Options of planning. -/
structure PlanOptions where
  aggregates : AggregateStyle := .legacy
  deriving DecidableEq, Repr

/-- The column that rows are ordered by where none is named. -/
def defaultColumn : String := "id"

/-- The number that the text of a clause denotes, forced into the clause's bound. -/
def clauseNumber (filter : Filter) (clause : Clause) (raw : String) : Except PlanError Nat :=
  match intOfText? raw.toList with
  | none => .error (.invalidValue clause.name raw .notInteger)
  | some value =>
      match filter.clauseBound? clause with
      | some bound =>
          if bound.clamp value < 0 then .error (.invalidValue clause.name raw .negative)
          else .ok (bound.clamp value).toNat
      | none =>
          if value < 0 then .error (.invalidValue clause.name raw .negative)
          else if fitsNat64 value.toNat then .ok value.toNat
          else .error (.invalidValue clause.name raw .outOfRange)

/-- The number that a forced value denotes. -/
def staticCount? : Json → Option Nat
  | .number (.int value) => if 0 ≤ value then some value.toNat else none
  | .string text => (natOfText? text.toList).filter fitsNat64
  | _ => none

/-- The number that a value forced on a clause denotes. -/
def staticNumber (clause : Clause) (value : Json) : Except PlanError Nat :=
  match staticCount? value with
  | some count => .ok count
  | none => .error (.invalidValue clause.name value.compact .notCount)

/-- The text that a forced value denotes: a string itself, any other value printed. -/
def staticText : Json → String
  | .string text => text
  | value => value.compact

/-- The clauses of a request in the course of being applied. -/
structure Paging where
  limit : Option Nat := none
  offset : Option Nat := none
  order : Option String := none
  orderBy : Option String := none
  deriving DecidableEq, Repr

namespace Paging

/-- Applies a clause that a request contains; one that is not permitted is passed over. -/
def applyClause (filter : Filter) (paging : Paging) (clause : Clause) (raw : String) :
    Except PlanError Paging :=
  if !filter.allowsClause clause then .ok paging
  else
    match clause with
    | .limit =>
        (clauseNumber filter .limit raw).map fun value => { paging with limit := some value }
    | .skip => (clauseNumber filter .skip raw).map fun value => { paging with offset := some value }
    | .order => .ok { paging with order := some raw }
    | .orderBy =>
        if filter.allowsAttribute raw then .ok { paging with orderBy := some raw }
        else .error (.fieldNotAvailable filter.entity raw)

/-- Applies a value that the filter forces on a clause. -/
def applyStatic (paging : Paging) (clause : Clause) (value : Json) : Except PlanError Paging :=
  match clause with
  | .limit => (staticNumber .limit value).map fun count => { paging with limit := some count }
  | .skip => (staticNumber .skip value).map fun count => { paging with offset := some count }
  | .order => .ok { paging with order := some (staticText value) }
  | .orderBy => .ok { paging with orderBy := some (staticText value) }

/-- Where there is no limit, the greatest one that the bound allows becomes it. -/
def fillLimit (filter : Filter) (paging : Paging) : Paging :=
  match paging.limit, filter.clauseBound? .limit with
  | none, some bound =>
      { paging with limit := if 0 ≤ bound.max then some bound.max.toNat else none }
  | _, _ => paging

/-- Applies the clauses of a request, then those that the filter forces. -/
def ofClauses (filter : Filter) (clauses : Table Clause String) : Except PlanError Paging := do
  let paging ← clauses.foldlM (fun paging row => applyClause filter paging row.1 row.2) {}
  let paging ← filter.statics.clauses.foldlM
    (fun paging row => paging.applyStatic row.1 row.2) paging
  return paging.fillLimit filter

end Paging

/-- The aggregate ordering that a word in lower case stands for. -/
def aggregateOfWord? (style : AggregateStyle) (word : List Char) : Option (Aggregate × Direction) :=
  match style with
  | .legacy =>
      match String.ofList word with
      | "max" | "max-asc" | "min-desc" => some (.max, .ascending)
      | "min" | "min-asc" | "max-desc" => some (.max, .descending)
      | _ => none
  | .symmetric => do
      let function ←
        match String.ofList (word.takeWhile (· != '-')) with
        | "max" => some .max
        | "min" => some .min
        | _ => none
      let direction ←
        match word.dropWhile (· != '-') with
        | [] => some .ascending
        | _ :: direction =>
            match String.ofList direction with
            | "asc" => some .ascending
            | "desc" => some .descending
            | _ => none
      some (function, direction)

/-- The ordering of a column that a word stands for; ASCII letters may have either case. -/
def RowOrder.ofWord? (style : AggregateStyle) (column word : String) : Option RowOrder :=
  let lower := word.toList.map Char.toLower
  match String.ofList lower with
  | "rand" | "random" => some .random
  | "asc" => some (.column column .ascending)
  | "desc" => some (.column column .descending)
  | _ =>
      (aggregateOfWord? style lower).map fun (function, direction) =>
        .aggregate function column direction

/-- The ordering that the clauses of a request amount to, if they name one. -/
def Paging.rowOrder (options : PlanOptions) (paging : Paging) :
    Except PlanError (Option RowOrder) :=
  if paging.order.isNone && paging.orderBy.isNone then .ok none
  else
    let word := paging.order.getD "asc"
    match RowOrder.ofWord? options.aggregates (paging.orderBy.getD defaultColumn) word with
    | some order => .ok (some order)
    | none => .error (.invalidValue "order" word .unknownOrder)

end QueryGate
