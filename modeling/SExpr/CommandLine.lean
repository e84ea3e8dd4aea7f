import SExpr.Report

namespace SExpr

structure CommandLine where
  options : ReportOptions := {}
  path : Option String := none

namespace CommandLine

def usage : String :=
  "Usage: sexpr [--print] [--literal-empty-strings] [--max-depth <MAX_DEPTH>] <INPUT_PATH>\n"

/-- Takes the arguments one by one on top of `line`; `none` if they make no sense. -/
def parseFrom (line : CommandLine) : List String → Option CommandLine
  | [] => some line
  | "--print" :: args => parseFrom { line with options.dump := true } args
  | "--literal-empty-strings" :: args =>
    parseFrom { line with options.plainLiterals := true } args
  | "--max-depth" :: limit :: args =>
    match limit.toNat? with
    | none => none
    | some limit => parseFrom { line with options.maxDepth := some limit } args
  | path :: args =>
    if line.path.isSome || path.startsWith "-" then none
    else parseFrom { line with path := some path } args

def parse? (args : List String) : Option (ReportOptions × String) := do
  let line ← parseFrom {} args
  return (line.options, ← line.path)

end CommandLine

end SExpr
