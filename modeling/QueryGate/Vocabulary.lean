/-!
# The words of the query language

Names and keywords with a fixed meaning. All of them are case-sensitive.
-/

namespace QueryGate

/-- A directive for paging or ordering. The order of the constructors is the order
in which clauses are applied and listed. -/
inductive Clause where
  | limit
  | skip
  | order
  | orderBy
  deriving DecidableEq, Repr, Ord

instance : Std.TransOrd Clause where
  eq_swap {left right} := by
    cases left <;> cases right <;> decide
  isLE_trans {first second third} below above := by
    revert below above
    cases first <;> cases second <;> cases third <;> decide

instance : Std.LawfulEqOrd Clause where
  eq_of_compare {left right} equal := by
    revert equal
    cases left <;> cases right <;> decide

namespace Clause

/-- All clauses, in order. -/
def all : List Clause := [limit, skip, order, orderBy]

/-- The name of a clause. -/
def name : Clause → String
  | limit => "limit"
  | skip => "skip"
  | order => "order"
  | orderBy => "order_by"

/-- The clause of that name. -/
def ofName? (name : String) : Option Clause :=
  all.find? fun clause => clause.name == name

theorem mem_all (clause : Clause) : clause ∈ all := by
  cases clause <;> decide

@[simp] theorem ofName?_name (clause : Clause) : ofName? clause.name = some clause := by
  cases clause <;> decide

end Clause

/-- A parameter name with a meaning of its own; any other name is a field's. -/
inductive Reserved where
  | clause (directive : Clause)
  | fields
  | includes
  | functions
  deriving DecidableEq, Repr

namespace Reserved

/-- The reserved parameter of that name or short name. -/
def ofName? : String → Option Reserved
  | "limit" | "l" => some (clause .limit)
  | "skip" | "s" | "offset" => some (clause .skip)
  | "order" | "o" => some (clause .order)
  | "order_by" | "o_by" => some (clause .orderBy)
  | "fields" | "f" => some fields
  | "includes" | "in" => some includes
  | "functions" | "fn" => some functions
  | _ => none

/-- The full name of a reserved parameter. -/
def name : Reserved → String
  | clause directive => directive.name
  | fields => "fields"
  | includes => "includes"
  | functions => "functions"

@[simp] theorem ofName?_name (reserved : Reserved) : ofName? reserved.name = some reserved := by
  rcases reserved with directive | _ | _ | _
  · cases directive <;> rfl
  all_goals rfl

end Reserved

/-- A keyword that joins or negates conditions. It may stand before a parenthesis
where a parameter's name is expected, and there opens a group of conditions. -/
inductive Connective where
  | and
  | or
  | not
  deriving DecidableEq, Repr

namespace Connective

/-- The connective of that word or sign. -/
def ofWord? : String → Option Connective
  | "and" => some and
  | "or" | "|" => some or
  | "not" | "!" => some not
  | _ => none

/-- The word of a connective. -/
def word : Connective → String
  | and => "and"
  | or => "or"
  | not => "not"

@[simp] theorem ofWord?_word (connective : Connective) :
    ofWord? connective.word = some connective := by
  cases connective <;> rfl

end Connective

/-- A keyword that may stand before a parenthesis in a value. -/
inductive Operator where
  | connective (joining : Connective)
  | like
  | notLike
  | oneOf
  deriving DecidableEq, Repr

namespace Operator

/-- The operator of that word or sign. -/
def ofWord? : String → Option Operator
  | "like" => some like
  | "notLike" => some notLike
  | "in" => some oneOf
  | word => (Connective.ofWord? word).map connective

/-- The word of an operator. -/
def word : Operator → String
  | connective joining => joining.word
  | like => "like"
  | notLike => "notLike"
  | oneOf => "in"

/-- Whether an operator is a connective. -/
def isLogical : Operator → Bool
  | connective _ => true
  | _ => false

@[simp] theorem ofWord?_word (operator : Operator) : ofWord? operator.word = some operator := by
  rcases operator with joining | _ | _ | _
  · cases joining <;> rfl
  all_goals rfl

end Operator

end QueryGate
