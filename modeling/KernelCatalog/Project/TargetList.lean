import KernelCatalog.Failure
import KernelCatalog.Files.Access
import KernelCatalog.Json.Parser
import KernelCatalog.Project.Target
import KernelCatalog.Yaml.Schema

/-!
# Files with lists of targets

Targets can be imported from a file. Its name says whether it is YAML; any other file is JSON.
-/

namespace KernelCatalog

/-- The forms of a file with a list of targets. -/
inductive ListFormat where
  | yaml
  | json
  deriving DecidableEq, Repr

namespace ListFormat

/-- The form of the file at a path, by its extension. -/
def ofPath (path : Path) : ListFormat :=
  match path.extension?.map Text.lower with
  | some "yaml" | some "yml" => .yaml
  | _ => .json

def name : ListFormat → String
  | .yaml => "YAML"
  | .json => "JSON"

/-- What stands for the words of the reader that refuses a text of this form. -/
def complaint : ListFormat → String
  | .yaml => "<yaml>"
  | .json => "<json>"

/-- The value of a text of this form. -/
def parse? : ListFormat → String → Option Datum
  | .yaml, text => Yaml.parse? text
  | .json, text => (Json.parse? text).bind (Datum.ofJson? Json.depthLimit)

end ListFormat

namespace Target

/-- Loads the targets that a file lists. -/
def loadList (files : Files) (path : Path) : Except Failure (List Target) :=
  match files.readText path with
  | .error e =>
    .error ⟨"Failed to read targets file " ++ path.text, [e.message]⟩
  | .ok text =>
    let format := ListFormat.ofPath path
    match (format.parse? text).bind listOfDatum? with
    | some targets => .ok targets
    | none =>
      .error ⟨"Failed to parse targets " ++ format.name ++ " " ++ path.text, [format.complaint]⟩

end Target

end KernelCatalog
