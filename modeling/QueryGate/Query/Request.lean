import QueryGate.Query.Function

/-!
# Requests

A request is the tree that a query denotes. Each node holds what is asked of one
entity; its children are the relations to include, and their names differ from each
other. A node is addressed by its path, the names of the relations from the root
down to it.

Nodes are numbered in the order in which they were made, the root being 0. A node
that has been replaced keeps its number, so numbers may have gaps.
-/

namespace QueryGate

/-- What is asked of one entity, apart from its relations. -/
structure Terms where
  /-- The fields to return, none meaning all that are available. -/
  fields : List String := []
  clauses : Table Clause String := []
  predicates : Table String Expression := []
  functions : List FunctionCall := []
  deriving Repr, Inhabited

/-- A node of a request and everything below it. -/
structure Request where
  number : Nat
  name : String
  terms : Terms
  includes : List Request
  deriving Repr, Inhabited

/-- The names of the relations that lead from the root to a node. -/
abbrev Path := List String

namespace Request

/-- The name of the root; the entity it stands for is chosen by whoever serves it. -/
def rootName : String := "root"

/-- A node that asks for nothing yet. -/
def blank (number : Nat) (name : String) : Request := ⟨number, name, {}, []⟩

/-- The child with the given name. -/
def child? (request : Request) (name : String) : Option Request :=
  request.includes.find? fun child => child.name == name

/-- The node at a path. -/
def at? (request : Request) : Path → Option Request
  | [] => some request
  | name :: path => (request.child? name).bind fun child => child.at? path

/-- Changes the node at a path. -/
def update (change : Request → Request) : Path → Request → Request
  | [], request => change request
  | name :: path, request =>
      { request with
        includes := request.includes.map fun child =>
          if child.name == name then update change path child else child }

/-- Changes the terms of the node at a path. -/
def updateTerms (change : Terms → Terms) (path : Path) (request : Request) : Request :=
  request.update (fun node => { node with terms := change node.terms }) path

/-- Adds a last child. -/
def addChild (child : Request) (request : Request) : Request :=
  { request with includes := request.includes ++ [child] }

/-- Removes the child with the given name. -/
def removeChild (name : String) (request : Request) : Request :=
  { request with includes := request.includes.filter fun child => child.name != name }

mutual

/-- The number of nodes. -/
def size : Request → Nat
  | ⟨_, _, _, includes⟩ => 1 + sizeAll includes

/-- The number of nodes of several requests. -/
def sizeAll : List Request → Nat
  | [] => 0
  | request :: rest => request.size + sizeAll rest

end

mutual

/-- The nodes in preorder, each with the number of its parent. -/
def nodes (parent : Option Nat) : Request → List (Request × Option Nat)
  | ⟨number, name, terms, includes⟩ =>
      (⟨number, name, terms, includes⟩, parent) :: nodesAll (some number) includes

/-- The nodes of several requests with one parent. -/
def nodesAll (parent : Option Nat) : List Request → List (Request × Option Nat)
  | [] => []
  | request :: rest => request.nodes parent ++ nodesAll parent rest

end

end Request

/-- The terms as members of an object: names in order, clauses under their names. -/
def Terms.toJson (terms : Terms) (includes : List Json) (entity : String) : Json :=
  .object [
    ("clauses", .ofTable .string
      (Table.ofRows (terms.clauses.map fun (clause, text) => (clause.name, text)))),
    ("entity", .string entity),
    ("fields", .strings terms.fields),
    ("functions", .array (terms.functions.map FunctionCall.toJson)),
    ("includes", .array includes),
    ("predicates", .object (Expression.toJsonFields terms.predicates))]

namespace Request

mutual

/-- The canonical form: everything but the numbers. -/
def toJson : Request → Json
  | ⟨_, name, terms, includes⟩ => terms.toJson (toJsonAll includes) name

/-- The canonical forms of several requests. -/
def toJsonAll : List Request → List Json
  | [] => []
  | request :: rest => request.toJson :: toJsonAll rest

end

end Request

end QueryGate
