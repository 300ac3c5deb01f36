/-!
# Scripts

What a shell script says, after it has been read. A word is a list of parts and keeps what in it is
quoted: only what stands outside quotes is cut into fields and taken as a pattern when the word is
expanded. A command keeps the line it stands on, for messages.
-/

namespace KernelCatalog.Shell

/-- What is done with the value of a parameter. Where a flag is given, it says whether an empty
value counts as none. -/
inductive Usage where
  | plain
  | length
  /-- Another text in place of no value. -/
  | instead (emptyToo : Bool)
  /-- The same, and the parameter gets it as its value. -/
  | assign (emptyToo : Bool)
  /-- Another text in place of a value. -/
  | alternate (emptyToo : Bool)
  /-- An error in place of no value. -/
  | demand (emptyToo : Bool)
  /-- The value without what matches a pattern at its front. -/
  | trimFront (longest : Bool)
  /-- The value without what matches a pattern at its end. -/
  | trimBack (longest : Bool)
  /-- Something that is refused when it is expanded. -/
  | malformed
  deriving DecidableEq, Repr

/-- What is done with a file descriptor. -/
inductive RedirectMode where
  | write
  /-- The same, also over a file that is protected. -/
  | overwrite
  | append
  | read
  | readWrite
  /-- It becomes a copy of another descriptor, or is closed. -/
  | duplicate
  deriving DecidableEq, Repr

mutual

/-- A part of a word. -/
inductive Part where
  /-- Characters that stand for themselves. -/
  | text (chars : List Char) (quoted : Bool)
  /-- The value of a parameter. -/
  | parameter (name : String) (usage : Usage) (word : List Part) (quoted : Bool)
  /-- What a command prints. -/
  | output (body : Option Command) (quoted : Bool)
  /-- The value of an arithmetic expression. -/
  | arithmetic (expression : List Part) (quoted : Bool)

/-- A redirection of a descriptor. -/
inductive Redirect where
  | file (descriptor : Nat) (mode : RedirectMode) (target : List Part)
  /-- A document in the script itself, by its number. -/
  | document (descriptor : Nat) (number : Nat)

/-- A command. -/
inductive Command where
  | simple (line : Nat) (assignments : List (String × List Part)) (words : List (List Part))
      (redirects : List Redirect)
  /-- Commands of which each reads what the one before it prints. -/
  | pipeline (commands : List Command)
  | negation (command : Command)
  /-- The second command if the first succeeds. -/
  | both (first second : Command)
  /-- The second command if the first fails. -/
  | either (first second : Command)
  | sequence (first second : Command)
  /-- A command that is not waited for. -/
  | background (line : Nat) (command : Command)
  /-- A command in a shell of its own. -/
  | subshell (line : Nat) (body : Option Command) (redirects : List Redirect)
  | redirected (line : Nat) (command : Command) (redirects : List Redirect)
  | branch (test : Option Command) (yes no : Option Command)
  /-- A body that is repeated as long as the test gives the wanted outcome. -/
  | repetition (wanted : Bool) (test body : Option Command)
  /-- A body for each of some words; for the arguments of the script, if there are none given. -/
  | iteration (line : Nat) (name : String) (words : List (List Part)) (body : Option Command)
  /-- The body of the first case with a matching pattern. -/
  | selection (line : Nat) (subject : List Part)
      (cases : List (List (List Part) × Option Command))
  | definition (name : String) (body : Command)
  /-- A list of nothing in braces. -/
  | nothing

end

namespace Part

def isQuoted : Part → Bool
  | .text _ quoted | .parameter _ _ _ quoted | .output _ quoted | .arithmetic _ quoted => quoted

/-- Puts a part in front of others; adjacent texts become one. -/
def cons (part : Part) (rest : List Part) : List Part :=
  match part, rest with
  | .text a q, .text b r :: more => if q == r then .text (a ++ b) q :: more else part :: rest
  | _, _ => part :: rest

/-- The text that parts stand for, if none has to be expanded. -/
def literal? : List Part → Option (List Char)
  | [] => some []
  | .text cs _ :: rest => (literal? rest).map (cs ++ ·)
  | _ :: _ => none

end Part

/-- Whether a character may stand in a name. -/
def isNameChar (c : Char) : Bool := c.isAlphanum || c == '_'

/-- Whether characters are a name. -/
def isName : List Char → Bool
  | [] => false
  | c :: rest => isNameChar c && !c.isDigit && rest.all isNameChar

/-- Whether a character is the name of a special parameter. -/
def isSpecial (c : Char) : Bool := c.isDigit || "@*#?-$!".toList.contains c

end KernelCatalog.Shell
