import GradualJs.Json.Reader
import GradualJs.Options
import GradualJs.Syntax.OfJson
import GradualJs.Yaml.Reader

/-! Files that hold a program or options. Their names decide the format. -/
namespace GradualJs

inductive SourceFormat where
  | json
  | yaml
  deriving DecidableEq

namespace SourceFormat

def name : SourceFormat → String
  | .json => "JSON"
  | .yaml => "YAML"

/-- The last component of a path that is not a blank, if it names a file. -/
def fileName? (path : String) : Option String :=
  match ((path.toList.splitOn '/').map String.ofList |>.filter fun part =>
      part ≠ "" && part ≠ ".").getLast? with
  | some ".." => none
  | last => last

/-- What follows the last point of a file name that does not start with its only point. -/
def extension? (path : String) : Option String := do
  let file ← fileName? path
  match cut file.toList with
  | some ([],_) | none => none
  | some (_,extension) => some (.ofList extension)
where
  cut (cs : List Char) : Option (List Char × List Char) :=
    match cs.reverse.dropWhile (· ≠ '.') with
    | [] => none
    | _ :: before => some (before.reverse,(cs.reverse.takeWhile (· ≠ '.')).reverse)

def ofPath (path : String) : SourceFormat :=
  match extension? path with
  | some "yaml" | some "yml" => .yaml
  | _ => .json

end SourceFormat

/-- A program in YAML. Every statement carries something, and so would need a tag: only the
program without statements can be written down. -/
def Program.ofYaml? (node : Yaml) : Option Program := do
  let field ← node.structure? ["statements"]
  match ← (field "statements").bind Yaml.items? with
  | [] => return ⟨[]⟩
  | _ :: _ => none

structure SourceFile where
  path : String
  contents : String

inductive SourceError where
  | unreadable (path : String)
  | malformed (path : String) (format : SourceFormat)
  deriving DecidableEq

def SourceError.message : SourceError → String
  | .unreadable path => "failed to read " ++ path
  | .malformed path format => "failed to parse " ++ path ++ " as " ++ format.name

namespace SourceFile

def format (file : SourceFile) : SourceFormat := .ofPath file.path

def parse (file : SourceFile) (ofJson? : Json → Option α) (ofYaml? : Yaml → Option α) : Except SourceError α :=
  let result := match file.format with
    | .json => (Json.parse file.contents).bind ofJson?
    | .yaml => (Yaml.parse file.contents).bind ofYaml?
  match result with
  | some a => .ok a
  | none => .error (.malformed file.path file.format)

def program (file : SourceFile) : Except SourceError Program := file.parse Program.ofParsed? Program.ofYaml?
def options (file : SourceFile) : Except SourceError Options := file.parse Options.ofJson? Options.ofYaml?

end SourceFile

abbrev Files := String → Option String

namespace Files

def read (files : Files) (path : String) : Except SourceError SourceFile :=
  match files path with
  | some contents => .ok ⟨path,contents⟩
  | none => .error (.unreadable path)

def loadProgram (files : Files) (path : String) : Except SourceError Program := do
  (← files.read path).program

end Files
end GradualJs
