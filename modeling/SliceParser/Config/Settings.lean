/-
SETTINGS: the defaults, what the program set, and the environment, laid over each other in this order.

- The layers are joined at the first read after a change by the program, and the result is kept: only `set` and
  `reset` make the next read join them again. A change of the environment alone is not seen until then.
- The readings that tracing needs, `debugEnabled` and `traceWidth`, pass over values that make no sense.
-/
import SliceParser.Config.Environment

namespace SliceParser.Config

def defaults : Record := [
  (.ofString "debug", .bool false),
  (.ofString "trace", .record [(.ofString "width", .number (.ofNat 16))])]

structure Settings where
  environment : Environment
  /-- what the program set since the last reset -/
  programmatic : Record
  /-- the layers as they were joined, once they have been read -/
  joined : Option Record

namespace Settings

def initial (environment : Environment) : Settings := ⟨environment, [], none⟩

/-! ## Changes -/

def setEnvironment (environment : Environment) (s : Settings) : Settings :=
  { s with environment }

def set (values : Record) (s : Settings) : Settings :=
  { s with programmatic := s.programmatic.merge values, joined := none }

def reset (s : Settings) : Settings :=
  { s with programmatic := [], joined := none }

/-! ## Readings -/

/-- the record that reads answer from -/
def record (s : Settings) : Record :=
  match s.joined with
  | some record => record
  | none => (defaults.merge s.programmatic).merge s.environment.record

/-- what a read leaves behind: the layers joined -/
def fixed (s : Settings) : Settings :=
  { s with joined := some s.record }

@[simp] theorem record_fixed (s : Settings) : s.fixed.record = s.record := rfl

def getPath? (path : Path) (s : Settings) : Option Value :=
  Value.getPath? path (.record s.record)

def get? (path : Units) (s : Settings) : Option Value :=
  s.getPath? (splitPath path)

def has (path : Units) (s : Settings) : Bool :=
  match s.get? path with
  | some value => value.isTruthy
  | none => false

/-- tracing is on when `debug` is true, and not when it merely counts as set -/
def debugEnabled (s : Settings) : Bool :=
  match s.getPath? [.ofString "debug"] with
  | some (.bool true) => true
  | _ => false

/-- how many code points a trace shows of a view: a positive integer, else the default -/
def traceWidth (s : Settings) : Nat :=
  match s.getPath? [.ofString "trace", .ofString "width"] with
  | some (.number width) =>
    match width.toNat? with
    | some (n + 1) => n + 1
    | _ => 16
  | _ => 16

end Settings

end SliceParser.Config
