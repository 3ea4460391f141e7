/-!
# Command lines

What the arguments of the program ask it to do. An option's value may be the next
argument or follow its name directly, behind a `=` for long names. Each option and
the query may be given once.
-/

namespace QueryGate.Console

/-- Where to find filters, and what to do with them. -/
structure Invocation where
  /-- The path of the configuration. -/
  config : Option String := none
  /-- The entity that queries are about. -/
  entity : Option String := none
  /-- The one query to answer; without it, queries come from the input. -/
  query : Option String := none
  deriving DecidableEq, Repr

/-- What the program is asked to do. -/
inductive Command where
  | serve (invocation : Invocation)
  | help
  | version
  deriving DecidableEq, Repr

/-- The options that take a value. -/
inductive ValueOption where
  | config
  | entity
  deriving DecidableEq, Repr

/-- Gives an option its value, unless it has one; a path must not be empty. -/
def Invocation.set? (invocation : Invocation) (option : ValueOption) (value : String) :
    Option Invocation :=
  match option with
  | .config =>
      if invocation.config.isSome || value.isEmpty then none
      else some { invocation with config := some value }
  | .entity =>
      if invocation.entity.isSome then none
      else some { invocation with entity := some value }

/-- Gives the query, unless there is one. -/
def Invocation.setQuery? (invocation : Invocation) (query : String) : Option Invocation :=
  if invocation.query.isSome then none else some { invocation with query := some query }

/-- What one argument amounts to. -/
inductive Argument where
  | help
  | version
  /-- An option together with its value. -/
  | full (option : ValueOption) (value : String)
  /-- An option whose value is the next argument. -/
  | pending (option : ValueOption)
  /-- Everything that follows is no option. -/
  | rest
  | plain
  | invalid
  deriving DecidableEq, Repr

/-- What a long option amounts to, given without its dashes. -/
def longArgument (text : List Char) : Argument :=
  let name := String.ofList (text.takeWhile (· != '='))
  match text.dropWhile (· != '='), name with
  | [], "help" => .help
  | [], "version" => .version
  | [], "config" => .pending .config
  | [], "entity" => .pending .entity
  | _ :: value, "config" => .full .config (String.ofList value)
  | _ :: value, "entity" => .full .entity (String.ofList value)
  | _, _ => .invalid

/-- What a short option amounts to, given without its dash. -/
def shortArgument (letter : Char) (rest : List Char) : Argument :=
  let withValue (option : ValueOption) : Argument :=
    match rest with
    | [] => .pending option
    | '=' :: value => .full option (String.ofList value)
    | value => .full option (String.ofList value)
  match letter with
  | 'h' => .help
  | 'V' => .version
  | 'c' => withValue .config
  | 'e' => withValue .entity
  | _ => .invalid

/-- What an argument amounts to. A single dash is no option. -/
def argumentOf (argument : String) : Argument :=
  match argument.toList with
  | ['-', '-'] => .rest
  | '-' :: '-' :: long => longArgument long
  | ['-'] => .plain
  | '-' :: letter :: rest => shortArgument letter rest
  | _ => .plain

/-- Reads the arguments from left to right, `none` when they make no sense. -/
def parse? (invocation : Invocation) : List String → Option Command
  | [] => some (.serve invocation)
  | argument :: rest =>
      match argumentOf argument with
      | .help => some .help
      | .version => some .version
      | .invalid => none
      | .plain => (invocation.setQuery? argument).bind fun invocation => parse? invocation rest
      | .rest => (rest.foldlM Invocation.setQuery? invocation).map .serve
      | .full option value =>
          (invocation.set? option value).bind fun invocation => parse? invocation rest
      | .pending option =>
          match rest with
          | [] => none
          | value :: rest =>
              if argumentOf value = .plain then
                (invocation.set? option value).bind fun invocation => parse? invocation rest
              else none

/-- What the arguments ask for. -/
def Command.ofArguments? (arguments : List String) : Option Command :=
  parse? {} arguments

end QueryGate.Console
