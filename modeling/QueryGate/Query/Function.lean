import QueryGate.Query.Expression.Reader

/-!
# Lists of fields and of functions

The values of the parameters that name the fields to return and the functions to
compute: names, or calls, separated by commas.
-/

namespace QueryGate

/-- A function that a query asks for. -/
structure FunctionCall where
  name : String
  arguments : List String
  deriving DecidableEq, Repr

/-- Reads a list of fields. A field that is repeated counts where it first stands. -/
def readFields (position : Nat) (text : List Char) : Except QueryError (List String) :=
  if text.isEmpty then .error (.empty position .fieldList)
  else do
    let slices ← arguments .fieldName position text
    let names ← slices.mapM fun slice => readName slice.position slice.text
    return names.eraseDups

namespace FunctionCall

/-- Reads a call, whose parentheses may be absent or have nothing between them. -/
def read (position : Nat) (text : List Char) : Except QueryError FunctionCall :=
  let word := text.takeWhile (· != '(')
  match text.dropWhile (· != '(') with
  | [] => (readName position text).map fun name => ⟨name, []⟩
  | _ :: rest =>
      if word.isEmpty then .error (.empty position .functionName)
      else do
        let name ← readName position word
        let inside := position + word.length + 1
        let inner ← enclosed '(' inside rest
        if inner.isEmpty then return ⟨name, []⟩
        else
          let slices ← QueryGate.arguments .functionArgument inside inner
          let names ← slices.mapM fun slice => readName slice.position slice.text
          return ⟨name, names⟩

/-- A call as an object. -/
def toJson (call : FunctionCall) : Json :=
  .object [("args", .strings call.arguments), ("name", .string call.name)]

end FunctionCall

/-- Reads a list of function calls. -/
def readFunctions (position : Nat) (text : List Char) : Except QueryError (List FunctionCall) :=
  if text.isEmpty then .error (.empty position .functionList)
  else do
    let slices ← arguments .functionCall position text
    slices.mapM fun slice => FunctionCall.read slice.position slice.text

end QueryGate
