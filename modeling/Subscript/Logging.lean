import Subscript.Text.Lines

/-!
# Logging

Log records have a level, and the first set-up decides for the whole process which of them are
written and how. Two facts decide a set-up's fate: whether the guarded initialization has run, and
whether a logger is installed. The test set-up installs a logger without the guard, so a guarded
set-up after it finds the logger taken and fails for good.

## Architecture

- §1 `Level`, `Filter` and `Record`
- §2 `Logger`, the installed writer
- §3 `State`, the two facts, and the set-up calls, alone and in runs
- §4 `Program`, which sets logging up, sends records and writes lines
-/

namespace Subscript.Logging

/-! ## §1 Records -/

/-- How grave a log record is. -/
inductive Level where
  /-- something is broken -/
  | error
  /-- something may be wrong -/
  | warn
  /-- news for the user -/
  | info
  /-- one line per step -/
  | debug
  /-- every detail -/
  | trace
  deriving DecidableEq, Repr

namespace Level

/-- The name of a level in log lines. -/
def name : Level → String
  | .error => "ERROR"
  | .warn => "WARN"
  | .info => "INFO"
  | .debug => "DEBUG"
  | .trace => "TRACE"

/-- Rank by detail: the graver a level, the lower its rank. -/
def detail : Level → Nat
  | .error => 1
  | .warn => 2
  | .info => 3
  | .debug => 4
  | .trace => 5

end Level

/-- Which records pass. -/
inductive Filter where
  /-- none -/
  | off
  /-- those at least as grave as a level -/
  | upTo (level : Level)
  deriving DecidableEq, Repr

namespace Filter

/-- The name of a filter. -/
def name : Filter → String
  | .off => "OFF"
  | .upTo level => level.name

/-- Whether records of a level pass. -/
def allows (filter : Filter) (level : Level) : Bool :=
  match filter with
  | .off => false
  | .upTo limit => level.detail ≤ limit.detail

end Filter

/-- A log record. -/
structure Record where
  /-- how grave it is -/
  level : Level
  /-- the module that sent it -/
  module? : Option String
  /-- what it says -/
  message : String
  deriving DecidableEq, Repr

/-! ## §2 Loggers -/

/-- How a logger writes a record. -/
inductive Format where
  /-- level, module and message -/
  | plain
  /-- led by the time of day, which is no part of this model -/
  | timed
  deriving DecidableEq, Repr

/-- Where a logger writes. -/
inductive Output where
  /-- the error stream of the process -/
  | errors
  /-- the error stream as a test runner captures it, to be shown for failing tests -/
  | captured
  deriving DecidableEq, Repr

/-- An installed logger. -/
structure Logger where
  /-- the records it writes -/
  filter : Filter
  /-- how it writes them -/
  format : Format
  /-- where it writes them -/
  output : Output
  deriving DecidableEq, Repr

/-- The plain line of a record: the level in five columns, the module or else the name of the
compiler, the message. -/
def Record.line (record : Record) : String :=
  "[" ++ record.level.name ++ String.ofList (List.replicate (5 - record.level.name.length) ' ') ++
    "] " ++ record.module?.getD "sable" ++ " - " ++ record.message

/-- What a logger adds to the error stream for a record, where the model knows it. The stream is
no terminal, so the line is freed from terminal controls, its own ending included. -/
def Logger.written (logger : Logger) (record : Record) : String :=
  if logger.filter.allows record.level && logger.format = .plain && logger.output = .errors then
    Text.withoutControls (record.line ++ "\n")
  else
    ""

/-! ## §3 Set-up -/

/-- Whether the guarded initialization has run. -/
inductive Guard where
  /-- not yet -/
  | pending
  /-- it has run to its end -/
  | done
  /-- it has failed on its way and cannot be tried again -/
  | poisoned
  deriving DecidableEq, Repr

/-- The logging state of a process. -/
structure State where
  /-- the guard of the initialization -/
  guard : Guard := .pending
  /-- the installed logger -/
  logger? : Option Logger := none
  deriving DecidableEq, Repr

/-- Why a set-up fails. -/
inductive SetupFailure where
  /-- a logger is installed already -/
  | loggerTaken
  /-- an earlier set-up failed behind the guard -/
  | guardPoisoned
  deriving DecidableEq, Repr

/-- The sentence that reports a failed set-up. -/
def SetupFailure.message : SetupFailure → String
  | .loggerTaken =>
    "Builder::init should not be called after logger initialized: SetLoggerError(())"
  | .guardPoisoned => "Once instance has previously been poisoned"

/-- A call that sets logging up. -/
inductive Setup where
  /-- plain lines, warnings and errors -/
  | standard
  /-- plain lines up to a chosen level -/
  | withFilter (filter : Filter)
  /-- timed lines; the environment asks for nothing, so warnings and errors -/
  | fromEnvironment
  /-- timed lines for tests, past the guard -/
  | forTests
  deriving DecidableEq, Repr

/-- The logger that a set-up wants to install. -/
def Setup.logger : Setup → Logger
  | .standard => ⟨.upTo .warn, .plain, .errors⟩
  | .withFilter filter => ⟨filter, .plain, .errors⟩
  | .fromEnvironment => ⟨.upTo .warn, .timed, .errors⟩
  | .forTests => ⟨.upTo .warn, .timed, .captured⟩

namespace State

/-- Run a set-up behind the guard: only the first one does anything, and it fails if a logger is
installed already. -/
def guarded (state : State) (logger : Logger) : Except SetupFailure Unit × State :=
  match state.guard with
  | .done => (.ok (), state)
  | .poisoned => (.error .guardPoisoned, state)
  | .pending =>
    match state.logger? with
    -- a set-up for tests came first; the failed attempt closes the guard for good
    | some _ => (.error .loggerTaken, { state with guard := .poisoned })
    | none => (.ok (), ⟨.done, some logger⟩)

/-- Install a logger unless there is one. -/
def offer (state : State) (logger : Logger) : State :=
  { state with logger? := some (state.logger?.getD logger) }

/-- Run one set-up call. -/
def run (state : State) (setup : Setup) : Except SetupFailure Unit × State :=
  match setup with
  | .forTests => (.ok (), state.offer setup.logger)
  | _ => state.guarded setup.logger

/-- Run set-up calls one after the other; a call that fails does not keep the next from running. -/
def after (state : State) (setups : List Setup) : State :=
  setups.foldl (fun state setup => (state.run setup).2) state

/-- Whether a guarded set-up has run to its end. -/
def isInitialized (state : State) : Bool := state.guard = .done

/-- The filter in force for the whole process. -/
def filter (state : State) : Filter :=
  match state.logger? with
  | some logger => logger.filter
  | none => .off

@[simp] theorem after_nil (state : State) : state.after [] = state := rfl

@[simp] theorem after_cons (state : State) (setup : Setup) (setups : List Setup) :
    state.after (setup :: setups) = (state.run setup).2.after setups := rfl

/-- What is added to the error stream for a record, where the model knows it. -/
def written (state : State) (record : Record) : String :=
  state.logger?.elim "" (·.written record)

end State

/-! ## §4 Programs -/

/-- A running program that logs. -/
structure Program where
  /-- how far its logging is set up -/
  state : State := {}
  /-- its error stream so far -/
  stream : String := ""
  deriving DecidableEq, Repr

namespace Program

/-- Run one set-up call, which writes nothing. -/
def setUp (program : Program) (setup : Setup) : Except SetupFailure Unit × Program :=
  let (outcome, state) := program.state.run setup
  (outcome, { program with state := state })

/-- Send a record to the installed logger, if there is one. -/
def log (program : Program) (record : Record) : Program :=
  { program with stream := program.stream ++ program.state.written record }

/-- The lines on the error stream. The stream is cut as a whole: a control sequence that is left
open swallows the end of its line, and the next record goes on in it. -/
def lines (program : Program) : List String := Text.lines program.stream

end Program

end Subscript.Logging
