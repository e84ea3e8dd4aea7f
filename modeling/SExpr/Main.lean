import SExpr.CommandLine

namespace SExpr

def FileContent.load (path : String) : IO FileContent := do
  try
    return .bytes (← IO.FS.readBinFile path)
  catch
    | .noFileOrDirectory .. => return .missing
    | e => return .unreadable (toString e)

def Report.print (report : Report) : IO UInt32 := do
  IO.print report.output
  IO.eprint report.errors
  return report.exitCode

end SExpr

def main (args : List String) : IO UInt32 := do
  match SExpr.CommandLine.parse? args with
  | none =>
    IO.eprint SExpr.CommandLine.usage
    return 2
  | some (options, path) =>
    let content ← SExpr.FileContent.load path
    (SExpr.Report.ofFile options path content).print
