import QueryGate.Console.Command
import QueryGate.Console.Example
import QueryGate.Console.Line
import QueryGate.Config.Reader
import QueryGate.Gate

/-!
# The program's answers

What the program prints, as a function of its arguments, its configuration and its
input lines. Every text that ends in a line feed stands for whole lines.
-/

namespace QueryGate.Console

/-- Why the program cannot start to serve. -/
inductive Failure where
  /-- The configuration at a path cannot be loaded. -/
  | loading (path : String) (error : ConfigError)
  | filters (error : ConfigError)
  | unknownEntity (entity : String)
  deriving DecidableEq, Repr

namespace Failure

/-- What happened. -/
def summary : Failure → String
  | loading path _ => s!"无法加载配置文件 {path}"
  | filters _ => "Filter 配置无效"
  | unknownEntity entity => s!"未知实体 '{entity}'"

/-- Why it happened, where that is another error. -/
def cause? : Failure → Option ConfigError
  | loading _ error => some error
  | filters error => some error
  | unknownEntity _ => none

/-- The space in front of the lines of a cause. -/
def margin : List Char := [' ', ' ', ' ', ' ']

/-- A text with the margin in front of each of its lines, empty ones included. -/
def indentLines (text : String) : String :=
  String.ofList (margin ++ text.toList.flatMap fun char =>
    if char = '\n' then char :: margin else [char])

/-- The complaint that the program makes. -/
def message (failure : Failure) : String :=
  match failure.cause? with
  | some error =>
      s!"Error: {failure.summary}\n\nCaused by:\n" ++ indentLines error.message ++ "\n"
  | none => s!"Error: {failure.summary}\n"

end Failure

/-- A gate and the entity that queries are about. -/
structure Dialog where
  gate : Gate
  entity : String

namespace Dialog

/-- The answer to a query: its plan, or what is wrong with it. -/
def answerQuery (dialog : Dialog) (query : String) : String :=
  match dialog.gate.plan dialog.entity query with
  | .ok plan => plan.toJson.indented ++ "\n"
  | .error error => s!"✗ [{error.code}] {error.message}\n"

/-- The request that a query denotes, or what is wrong with it. -/
def answerTree (dialog : Dialog) (query : String) : String :=
  match dialog.gate.request query with
  | .ok request => request.toJson.indented ++ "\n"
  | .error error => s!"✗ [{error.code}] {error.message}\n"

/-- The line of a segment. -/
def segmentLine (segment : Segment) : String :=
  String.ofList (segment.key ++ [' ', '=', ' '] ++ segment.value.getD [])

/-- The segments of a query, or what is wrong with it. -/
def answerSegments (query : String) : String :=
  match Segment.ofText 0 query.toList with
  | .ok segments =>
      s!"共 {segments.length} 个参数\n" ++
        String.join (segments.map fun segment => "  " ++ segmentLine segment ++ "\n")
  | .error error => s!"✗ {error.message}\n"

/-- What can be entered. -/
def helpText : String :=
  "命令:\n" ++
  "  :entity <name>   切换实体\n" ++
  "  :tree <query>    只做词法分析, 打印模型树\n" ++
  "  :params <query>  打印顶层参数拆分结果\n" ++
  "  :help            显示帮助\n" ++
  "  :quit            退出\n" ++
  "其他输入都当作查询字符串编译, 例如:\n" ++
  "  includes=comments(id=not(7))&or(index=2,position=5)&limit=3\n"

/-- What is said before the first line is read. -/
def greeting (dialog : Dialog) : String :=
  "--- nql: 查询字符串到查询计划 ---\n" ++
    "可用实体: " ++ ", ".intercalate dialog.gate.entities ++ "\n" ++ helpText

/-- The effect of a line: what is printed and how the dialog goes on, if it does. -/
structure Reply where
  output : String
  next : Option Dialog

/-- Takes another entity, if it can be queried. -/
def switch (dialog : Dialog) (entity : String) : Reply :=
  match dialog.gate.filter? entity with
  | some _ => ⟨"", some { dialog with entity := entity }⟩
  | none => ⟨s!"✗ 未知实体 '{entity}'\n", some dialog⟩

/-- Replies to a line. A command and its argument are separated by a space. -/
def reply (dialog : Dialog) (line : String) : Reply :=
  let text := contentOf line
  let command := String.ofList (text.takeWhile (· != ' '))
  let argument := String.ofList (Text.trim (text.dropWhile (· != ' ')))
  if text.isEmpty then ⟨"", some dialog⟩
  else
    match command with
    | ":quit" | ":q" | ":exit" => ⟨"", none⟩
    | ":help" => ⟨helpText, some dialog⟩
    | ":entity" => dialog.switch argument
    | ":tree" => ⟨dialog.answerTree argument, some dialog⟩
    | ":params" => ⟨answerSegments argument, some dialog⟩
    | _ => ⟨dialog.answerQuery (String.ofList text), some dialog⟩

/-- Everything that is printed for the given lines. -/
def replies (dialog : Dialog) : List String → String
  | [] => ""
  | line :: rest =>
      let reply := dialog.reply line
      match reply.next with
      | some dialog => reply.output ++ dialog.replies rest
      | none => reply.output

end Dialog

/-- What is said when no configuration is given. -/
def exampleNotice : String := "⚠️ 未指定配置文件, 使用示例配置\n"

/-- The name and version of the program. -/
def versionText : String := "nql 0.1.0\n"

/-- How the program is used. -/
def usageText : String :=
  "Compile query strings into query plans\n\n" ++
  "Usage: nql [OPTIONS] [QUERY]\n\n" ++
  "Arguments:\n" ++
  "  [QUERY]  Compile a single query string and exit\n\n" ++
  "Options:\n" ++
  "  -c, --config <CONFIG>  JSON configuration (schema, filters, options)\n" ++
  "  -e, --entity <ENTITY>  Entity the queries are compiled against [default: posts]\n" ++
  "  -h, --help             Print help\n" ++
  "  -V, --version          Print version\n"

namespace Invocation

/-- What is said before the configuration is looked at. -/
def notice (invocation : Invocation) : String :=
  if invocation.config.isSome then "" else exampleNotice

/-- The configuration to serve, given the contents of its file. -/
def load (invocation : Invocation) (contents : Option ByteArray) : Except Failure Config :=
  match invocation.config with
  | some path => (Config.ofFile contents).mapError (.loading path)
  | none => .ok exampleConfig

/-- The dialog to hold, given the contents of the configuration's file. -/
def dialog (invocation : Invocation) (contents : Option ByteArray) : Except Failure Dialog := do
  let config ← invocation.load contents
  let gate ← (Gate.ofConfig config).mapError .filters
  let entity := invocation.entity.getD "posts"
  match gate.filter? entity with
  | some _ => return ⟨gate, entity⟩
  | none => .error (.unknownEntity entity)

/-- Everything that is printed once there is a dialog. -/
def serve (invocation : Invocation) (dialog : Dialog) (lines : List String) : String :=
  match invocation.query with
  | some query => dialog.answerQuery query
  | none => dialog.greeting ++ dialog.replies lines

end Invocation

/-- A finished run: the exit code, what was printed, and the complaint if it failed. -/
structure Outcome where
  code : Nat
  output : String
  failure : Option Failure

/-- The run of a command on the contents of the configuration's file and the lines
of the input. -/
def Command.run (command : Command) (contents : Option ByteArray) (lines : List String) : Outcome :=
  match command with
  | .help => ⟨0, usageText, none⟩
  | .version => ⟨0, versionText, none⟩
  | .serve invocation =>
      match invocation.dialog contents with
      | .ok dialog => ⟨0, invocation.notice ++ invocation.serve dialog lines, none⟩
      | .error failure => ⟨1, invocation.notice, some failure⟩

end QueryGate.Console
