import QueryGate.Filter.Bound
import QueryGate.Vocabulary

/-!
# Filter specifications

A specification says what a filter should permit, before it is checked against a
schema.
-/

namespace QueryGate

/-- Ranges for the values of attributes and of clauses. -/
structure Bounds where
  attributes : Table String Bound := []
  clauses : Table Clause Bound := []
  deriving DecidableEq, Repr

/-- Values that take the place of whatever a query asks for, one for each name. They
are applied row by row, so the order of the rows is part of what is forced. -/
structure Statics where
  attributes : Table String Json
  clauses : Table Clause Json
  attributes_sorted : attributes.Sorted
  clauses_sorted : clauses.Sorted
  deriving Repr

/-- Nothing is forced. -/
def Statics.none : Statics where
  attributes := []
  clauses := []
  attributes_sorted := .nil
  clauses_sorted := .nil

/-- The forced values of the given rows; of two rows with one key the later counts. -/
def Statics.ofRows (attributes : List (String × Json)) (clauses : List (Clause × Json)) :
    Statics where
  attributes := Table.ofRows attributes
  clauses := Table.ofRows clauses
  attributes_sorted := Table.sorted_ofRows attributes
  clauses_sorted := Table.sorted_ofRows clauses

/-- What a filter should permit. -/
structure Spec where
  /-- The attributes that may be used; `none` permits all that the entity has. -/
  attributes : Option (List String) := none
  /-- The clauses that may be used; `none` permits all. -/
  clauses : Option (List Clause) := none
  /-- The relations that may be included, and what may be asked of each. -/
  includes : List (String × Spec) := []
  bounds : Bounds := {}
  statics : Statics := .none
  deriving Repr

namespace Spec

/-- Permits exactly these attributes. -/
def withAttributes (spec : Spec) (attributes : List String) : Spec :=
  { spec with attributes := some attributes }

/-- Permits exactly these clauses. -/
def withClauses (spec : Spec) (clauses : List Clause) : Spec :=
  { spec with clauses := some clauses }

/-- Permits to include a relation. -/
def withInclude (spec : Spec) (relation : String) (child : Spec) : Spec :=
  { spec with includes := Table.insert relation child spec.includes }

/-- Bounds the values of a clause. -/
def withClauseBound (spec : Spec) (clause : Clause) (bound : Bound) : Spec :=
  { spec with
    bounds := { spec.bounds with clauses := Table.insert clause bound spec.bounds.clauses } }

/-- Bounds the values of an attribute. -/
def withAttributeBound (spec : Spec) (name : String) (bound : Bound) : Spec :=
  { spec with
    bounds :=
      { spec.bounds with attributes := Table.insert name bound spec.bounds.attributes } }

/-- Forces an attribute to equal a value. -/
def withStaticAttribute (spec : Spec) (name : String) (value : Json) : Spec :=
  { spec with
    statics :=
      { spec.statics with
        attributes := Table.insert name value spec.statics.attributes
        attributes_sorted := Table.sorted_insert spec.statics.attributes_sorted name value } }

/-- Forces a clause to a value. -/
def withStaticClause (spec : Spec) (clause : Clause) (value : Json) : Spec :=
  { spec with
    statics :=
      { spec.statics with
        clauses := Table.insert clause value spec.statics.clauses
        clauses_sorted := Table.sorted_insert spec.statics.clauses_sorted clause value } }

end Spec

end QueryGate
