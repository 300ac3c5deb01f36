import KernelCatalog.Text.Blank
import KernelCatalog.Text.Decimal

/-!
# Signals

The signals by their numbers: their names, what is said about a program that one of them ended, and
which of them end a program that does nothing about them.
-/

namespace KernelCatalog.Shell.Signal

/-- The names of the signals from 1 on; one has none. -/
def names : List String :=
  ["HUP", "INT", "QUIT", "ILL", "TRAP", "ABRT", "BUS", "FPE", "KILL", "USR1", "SEGV", "USR2",
    "PIPE", "ALRM", "TERM", "", "CHLD", "CONT", "STOP", "TSTP", "TTIN", "TTOU", "URG", "XCPU",
    "XFSZ", "VTALRM", "PROF", "WINCH", "IO", "PWR", "SYS"]

/-- The greatest number of a signal. -/
def greatest : Nat := 64

/-- The first of the signals that are numbered only. -/
def firstNumbered : Nat := 34

/-- The name of a signal that is numbered only. -/
def numberedName (n : Nat) : String :=
  let low := n - firstNumbered
  let high := greatest - n
  if low ≤ 15 then "RTMIN" ++ (if low = 0 then "" else "+" ++ toString low)
  else "RTMAX" ++ (if high = 0 then "" else "-" ++ toString high)

def name (n : Nat) : String :=
  match names[n - 1]? with
  | some text => if n = 0 ∨ text = "" then toString n else text
  | none => if firstNumbered ≤ n ∧ n ≤ greatest then numberedName n else toString n

/-- The signal of a number or a name, from the least allowed one on. -/
def parse? (least : Nat) (text : String) : Option Nat :=
  let numbers := (List.range (greatest + 1)).filter (least ≤ ·)
  match Text.digits? 0 text.toList with
  | some n => if text.isEmpty ∨ ¬ numbers.contains n then none else some n
  | none => numbers.find? fun n => n ≠ 0 ∧ Text.lower (name n) = Text.lower text

/-- What is said about a program that a signal ended. -/
def ending (n : Nat) : String :=
  let texts :=
    ["Hangup", "Interrupt", "Quit", "Illegal instruction", "Trace/breakpoint trap", "Aborted",
      "Bus error", "Floating point exception", "Killed", "User defined signal 1",
      "Segmentation fault", "User defined signal 2", "Broken pipe", "Alarm clock", "Terminated",
      "Stack fault", "Child exited", "Continued", "Stopped (signal)", "Stopped",
      "Stopped (tty input)", "Stopped (tty output)", "Urgent I/O condition",
      "CPU time limit exceeded", "File size limit exceeded", "Virtual timer expired",
      "Profiling timer expired", "Window changed", "I/O possible", "Power failure",
      "Bad system call"]
  match texts[n - 1]? with
  | some text => text
  | none =>
    if firstNumbered ≤ n then "Real-time signal " ++ toString (n - firstNumbered)
    else "Unknown signal " ++ toString n

/-- Whether nothing is said about a program that a signal ended. -/
def isQuiet (n : Nat) : Bool := n == 2 || n == 13

/-- Whether a signal leaves a program running that does nothing about it. -/
def isHarmless (n : Nat) : Bool := [0, 17, 18, 19, 20, 21, 22, 23, 28].contains n

end KernelCatalog.Shell.Signal
