import SExpr.Datum.Dump
import SExpr.Datum.Measure
import SExpr.Reader

namespace SExpr

inductive FileContent where
  | missing
  /-- The file is there and cannot be read. -/
  | unreadable (reason : String)
  | bytes (data : ByteArray)

/-- The text of the file, or why it has none. -/
def FileContent.text : FileContent → Except String String
  | .missing => .error "No such file or directory (os error 2)"
  | .unreadable reason => .error reason
  | .bytes data =>
    match String.fromUTF8? data with
    | some text => .ok text
    | none => .error "stream did not contain valid UTF-8"

structure ReportOptions where
  dump : Bool := false
  plainLiterals : Bool := false
  /-- The depth limit, if not the usual one. -/
  maxDepth : Option Nat := none

def ReportOptions.forReading (options : ReportOptions) : ReadOptions :=
  let base : ReadOptions := if options.plainLiterals then .plainLiterals else .standard
  { base with maxDepth := options.maxDepth.getD base.maxDepth }

/-- What a run prints, and how it exits. -/
structure Report where
  exitCode : UInt32
  output : String
  errors : String

namespace Report

def failure (action path cause : String) : Report where
  exitCode := 1
  output := ""
  errors := s!"Error: {action} {quoted path}\n\nCaused by:\n    " ++
    cause.replace "\n" "\n    " ++ "\n"

def summary (d : Datum) : String :=
  let census := d.census
  s!";; head = {quoted d.headText}, depth = {d.depth}, " ++
    s!"lists = {census.lists}, atoms = {census.atoms}\n"

def success (options : ReportOptions) (d : Datum) : Report where
  exitCode := 0
  output := (if options.dump then d.dump ++ "\n" else "") ++ summary d
  errors := ""

def ofFile (options : ReportOptions) (path : String) (content : FileContent) : Report :=
  match content.text with
  | .error reason => failure "reading" path reason
  | .ok text =>
    match read options.forReading text with
    | .error e => failure "parsing" path e.message
    | .ok d => success options d

end Report

end SExpr
