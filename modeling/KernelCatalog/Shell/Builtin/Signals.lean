import KernelCatalog.Shell.Builtin.Basic

/-!
# Builtins on signals and programs

The commands that say what is done on a signal, that send signals, and that wait for programs. A
signal that a shell sends to itself works at once, unless something is to be done on it.
-/

namespace KernelCatalog.Shell

namespace Session

/-- What is done on a signal; the text is empty if it is ignored. -/
def action? (session : Session) (signal : Nat) : Option String := session.traps.lookup signal

/-- The session after a signal has been sent to it. -/
def receive (session : Session) (signal : Nat) : Session :=
  let canCatch := signal ≠ 9 && signal ≠ 19
  match session.action? signal with
  | some action =>
    if canCatch && action.isEmpty then session
    else if canCatch then { session with signals := session.signals ++ [(session.number, signal)] }
    else { session with flow := .quit (.signal signal) }
  | none =>
    if Signal.isHarmless signal then session
    else { session with flow := .quit (.signal signal) }

/-- The session after the signals that others have sent to it, as far as they end it. -/
def struck (session : Session) : Session :=
  let deadly := session.signals.find? fun (number, signal) =>
    number == session.number && !Signal.isHarmless signal
      && ((session.action? signal).isNone || signal == 9)
  match deadly with
  | some (_, signal) => { session with flow := .quit (.signal signal) }
  | none => session

/-- The session after it has sent a signal to a program; `false` if there is no such program. -/
def send (session : Session) (number signal : Nat) : Bool × Session :=
  if number == session.number then (true, session.receive signal)
  else if number < session.number && 999 ≤ number then
    (true, if Signal.isHarmless signal && signal == 0 then session
      else { session with signals := session.signals ++ [(number, signal)] })
  else
    match session.jobs.find? fun job => job.number == number with
    | none => (false, session)
    | some job =>
      if !job.asleep || Signal.isHarmless signal then (true, session)
      else
        (true, { session with
          jobs := session.jobs.map fun other =>
            if other.number == number then { job with status := .signal signal, asleep := false }
            else other })

end Session

namespace Builtin

/-- A signal by its number or name, where the end of the shell counts as signal 0. -/
def trapSignal? (text : String) : Option Nat :=
  if Text.lower text == "exit" then some 0 else Signal.parse? 0 text

/-- The name of a signal, where the end of the shell counts as signal 0. -/
def trapName (signal : Nat) : String := if signal = 0 then "EXIT" else Signal.name signal

/-- Says what is done on signals. -/
def trap : Builtin :=
  withLetters "" "" fun _ args session =>
    match args with
    | [] =>
      let sorted := session.traps.mergeSort fun a b => a.1 ≤ b.1
      printingLines "trap" (sorted.map fun (signal, action) =>
        "trap -- " ++ singleQuoted action ++ " " ++ trapName signal) session
    | first :: rest =>
      let (action, signals) : Option String × List String :=
        if rest.isEmpty
            || (Text.digits? 0 first.toList).any (fun n => n ≤ Signal.greatest && !first.isEmpty)
        then (none, args)
        else (if first == "-" then none else some first, rest)
      let rec change (session : Session) : List String → Session
        | [] => session.ended 0
        | text :: rest =>
          match trapSignal? text with
          | none => (session.say 2 ("trap: " ++ text ++ ": bad trap\n")).ended 1
          | some signal =>
            let others := session.traps.filter fun entry => entry.1 != signal
            let traps := match action with
              | none => others
              | some action => (signal, action) :: others
            change { session with traps } rest
      change session signals

/-- What is said about a wrong use of `kill`. -/
def killUsage : String :=
  "Usage: kill [-s sigspec | -signum | -sigspec] [pid | job]... or\nkill -l [exitstatus]"

/-- Sends a signal to programs. -/
def sendAll (signal : Nat) : List String → (code : Nat) → Session → Session
  | [], code, session => session.ended code
  | target :: rest, code, session =>
    if !session.isOn then session
    else if target.startsWith "%" then session.abort ("No such job: " ++ target)
    else
      let digits := if target.startsWith "-" then String.ofList (target.toList.drop 1) else target
      match number? digits with
      | none => session.abort ("Illegal number: " ++ digits)
      | some number =>
        match session.send number signal with
        | (true, session) => sendAll signal rest code session
        | (false, session) => sendAll signal rest 1 (session.warn "No such process\n")

/-- Tells the names of signals. -/
def listSignals : Builtin := fun args session =>
  match args with
  | [] =>
    printingLines "kill" ("0" :: (List.range Signal.greatest).map fun n => Signal.name (n + 1))
      session
  | arg :: _ =>
    withNumber arg session fun n =>
      let signal := if 128 < n then n - 128 else n
      if 0 < signal && signal ≤ Signal.greatest then
        printingLines "kill" [Signal.name signal] session
      else session.abort ("invalid signal number or exit status: " ++ arg)

/-- Sends a signal to programs, or tells the names of signals. -/
def kill : Builtin := fun args session =>
  let send (signal : Nat) (targets : List String) : Session :=
    if targets.isEmpty then session.abort killUsage else sendAll signal targets 0 session
  match args with
  | [] => session.abort killUsage
  | first :: rest =>
    if !first.startsWith "-" then send 15 args
    else
      match Signal.parse? 0 (String.ofList (first.toList.drop 1)) with
      | some signal => send signal rest
      | none =>
        match letters ['l'] ['s'] args with
        | .error message => session.abort message
        | .ok (options, others) =>
          let chosen := (options.filter fun option => option.1 == 's').getLast?.map (·.2)
          match chosen with
          | some text =>
            match Signal.parse? 0 text with
            | none => session.abort ("invalid signal number or name: " ++ text)
            | some signal => send signal others
          | none => if options.isEmpty then send 15 others else listSignals others session

/-- Waits for programs. All have ended already, so it only takes note of how. -/
def wait : Builtin :=
  withLetters "" "" fun _ args session =>
    let rec waitFor (session : Session) : List String → Session
      | [] => session
      | target :: rest =>
        if target.startsWith "%" then session.abort ("No such job: " ++ target)
        else
          match number? target with
          | none => session.abort ("Illegal number: " ++ target)
          | some number =>
            match session.jobs.find? fun job => job.number == number with
            | none => waitFor (session.ended 127) rest
            | some job =>
              let jobs := session.jobs.filter fun other => other.number != number
              waitFor ({ session with jobs }.waited job.status) rest
    if args.isEmpty then { session.ended 0 with jobs := [] } else waitFor session args

end Builtin

end KernelCatalog.Shell
