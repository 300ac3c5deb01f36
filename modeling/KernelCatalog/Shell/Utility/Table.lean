import KernelCatalog.Shell.Utility.Blocks
import KernelCatalog.Shell.Utility.Condition
import KernelCatalog.Shell.Utility.Printing

/-!
# The utilities by their names

The small utilities that only say something about their arguments, and the table of all of them.
-/

namespace KernelCatalog.Shell

/-- A utility that does nothing but end with a code. -/
def silent (code : Nat) : Utility := fun call => { call.start with code }

/-- The utility that prints the current directory. -/
def printDirectory : Utility :=
  withOptions { flags := "LP" } fun call _ =>
    call.start.line (Files.pathOf call.files.current).text

/-- The utility that prints its arguments. -/
def printArguments : Utility := fun call => call.start.print (Printing.plainEcho call.args)

/-- The utility that prints arguments by a format. -/
def printFormatted : Utility := fun call =>
  match call.args with
  | [] => call.refuse "missing operand"
  | format :: rest =>
    let (bytes, warnings, _) := Printing.printf format rest
    warnings.foldl (fun finish message => finish.fail message) (call.start.print bytes)

/-- The utility that tests a condition. -/
def testCondition : Utility := fun call =>
  match Condition.outcome call.files call.name call.args with
  | (code, none) => { call.start with code }
  | (code, some message) => call.start.fail message code

/-- Whether a text is a time that can be waited. -/
def isInterval (text : String) : Bool :=
  let cs := match text.toList.reverse with
    | c :: rest => if "smhd".toList.contains c then rest.reverse else text.toList
    | [] => []
  !cs.isEmpty && cs.all (fun c => c.isDigit || c == '.') && cs.any Char.isDigit
    && (cs.filter (· == '.')).length ≤ 1

def sleep : Utility :=
  withOptions { flags := "" } fun call arguments =>
    match arguments.others.filter fun arg => !isInterval arg with
    | [] => if arguments.others.isEmpty then call.refuse "missing operand" else call.start
    | bad =>
      let lines := bad.map fun arg => "invalid time interval " ++ quotedName arg
      call.refuse (Text.join ("\n" ++ call.name ++ ": ") lines)

def basename : Utility :=
  withOptions
    { flags := "az", valued := "s", words := [("multiple", 'a'), ("suffix", 's')] }
    fun call arguments =>
      let trim (ending name : String) : String :=
        match Text.before? ending.toList name.toList with
        | some cs => if cs.isEmpty then name else String.ofList cs
        | none => name
      let several := arguments.has 'a' || arguments.has 's'
      match arguments.others with
      | [] => call.refuse "missing operand"
      | paths@(path :: rest) =>
        if several then
          paths.foldl (fun finish path =>
            finish.line (trim ((arguments.value? 's').getD "") (lastName path))) call.start
        else
          match rest with
          | [] => call.start.line (lastName path)
          | [ending] => call.start.line (trim ending (lastName path))
          | _ :: extra :: _ => call.refuse ("extra operand " ++ quotedName extra)

/-- The directory around a path, by its text alone. -/
def directoryName (path : String) : String :=
  match (directoriesAround (path.length + 1) path).head? with
  | some outer => outer
  | none => if (stripSlashes path) == "/" then "/" else "."

/-- The utility that prints the directories around paths. -/
def dirname : Utility :=
  withOptions { flags := "z" } fun call arguments =>
    forOperands call "missing operand" arguments.others fun finish path =>
      finish.line (directoryName path)

/-- The utility that prints the values of names. -/
def printenv : Utility := fun call =>
  if call.args.isEmpty then
    call.environment.foldl (fun finish (name, value) => finish.line (name ++ "=" ++ value))
      call.start
  else
    call.args.foldl (fun finish name =>
      match call.environment.lookup name with
      | some value => finish.line value
      | none => { finish with code := 1 }) call.start

/-- The utilities by their names. -/
def utilities : List (String × Utility) :=
  [("true", silent 0), ("false", silent 1), ("sync", silent 0), ("sleep", sleep),
    ("pwd", printDirectory), ("echo", printArguments), ("printf", printFormatted),
    ("test", testCondition), ("[", testCondition), ("basename", basename), ("dirname", dirname),
    ("printenv", printenv), ("cp", cp), ("mv", mv), ("rm", rm), ("rmdir", rmdir), ("mkdir", mkdir),
    ("touch", touch), ("ln", ln), ("readlink", readlink), ("chmod", chmod), ("ls", ls),
    ("cat", cat), ("head", head), ("tail", tail), ("wc", wc), ("sort", sort), ("uniq", uniq),
    ("tr", tr), ("cut", cut), ("tee", tee), ("tac", tac), ("seq", seq), ("sha256sum", digest),
    ("install", install), ("truncate", truncate), ("dd", dd), ("cmp", cmp)]

end KernelCatalog.Shell
