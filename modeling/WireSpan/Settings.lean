import WireSpan.Decimal.Whole
import WireSpan.Text.Case

/-! The limits and liberties that readers are given, and where they come from. -/

namespace WireSpan

inductive Level where
  | notSet
  | debug
  | info
  | warning
  | error
  | critical
deriving DecidableEq, Repr

namespace Level

def severity : Level → Nat
  | notSet => 0
  | debug => 10
  | info => 20
  | warning => 30
  | error => 40
  | critical => 50

def names : List (String × Level) :=
  [("NOTSET", notSet), ("DEBUG", debug), ("INFO", info), ("WARNING", warning), ("WARN", warning),
    ("ERROR", error), ("CRITICAL", critical), ("FATAL", critical)]

def ofName? (name : String) : Option Level := names.lookup (Text.upper name)

end Level

inductive SettingsError where
  | numeral (error : Decimal.WholeError)
  | negativeFieldLimit (limit : Int)
  | depthOutside (limit : Int)
  | unknownLevel (name : String)
deriving DecidableEq, Repr

def maxDepthLimit : Nat := 256

namespace SettingsError

def message : SettingsError → String
  | numeral error => error.message
  | negativeFieldLimit limit => s!"max_headers must be >= 0, got {limit}"
  | depthOutside limit => s!"max_json_depth must be between 1 and {maxDepthLimit}, got {limit}"
  | unknownLevel name => s!"Unknown log level: {name}"

end SettingsError

structure Settings where
  fieldLimit : Nat
  bareLf : Bool
  depthLimit : Nat
  /-- Bytes after a document are left to the caller. -/
  trailingData : Bool
  levelName : String
  level : Level
  depthLimit_pos : 1 ≤ depthLimit
  depthLimit_le : depthLimit ≤ maxDepthLimit
deriving DecidableEq, Repr

namespace Settings

/-- Settings as asked for, before they are checked. What is left out has a default. -/
structure Draft where
  fieldLimit : Int := 128
  bareLf : Bool := true
  depthLimit : Int := 128
  trailingData : Bool := false
  levelName : String := "WARNING"
deriving DecidableEq, Repr

/-- Accepts a draft whose limits are in range and whose level is known, or reports the first of
its mistakes in the order of its fields. -/
def Draft.check (draft : Draft) : Except SettingsError Settings :=
  if draft.fieldLimit < 0 then .error (.negativeFieldLimit draft.fieldLimit)
  else if h : 1 ≤ draft.depthLimit.toNat ∧ draft.depthLimit.toNat ≤ maxDepthLimit then
    match Level.ofName? draft.levelName with
    | none => .error (.unknownLevel draft.levelName)
    | some level =>
      .ok
        { fieldLimit := draft.fieldLimit.toNat
          bareLf := draft.bareLf
          depthLimit := draft.depthLimit.toNat
          trailingData := draft.trailingData
          levelName := draft.levelName
          level
          depthLimit_pos := h.1
          depthLimit_le := h.2 }
  else .error (.depthOutside draft.depthLimit)

def standard : Settings where
  fieldLimit := 128
  bareLf := true
  depthLimit := 128
  trailingData := false
  levelName := "WARNING"
  level := .warning
  depthLimit_pos := by decide
  depthLimit_le := by decide

theorem check_default : Draft.check {} = .ok standard := by rfl

/-- The severities below which the whole program and this library drop log records. -/
def thresholds (settings : Settings) : Nat × Nat :=
  (settings.level.severity, settings.level.severity)

structure Environment where
  fieldLimit : Option String := none
  bareLf : Option String := none
  depthLimit : Option String := none
  trailingData : Option String := none
  levelName : Option String := none
deriving DecidableEq, Repr

def affirmative : List String := ["1", "true", "yes", "on"]

def isAffirmative (word : String) : Bool := affirmative.contains (Text.lower word)

def readWhole (text : Option String) (default : Int) : Except SettingsError Int :=
  match text with
  | none => .ok default
  | some text => (Decimal.wholeOfText? text).mapError .numeral

/-- The settings that the environment asks for. Numerals are read before anything is checked. -/
def ofEnvironment? (environment : Environment) : Except SettingsError Settings := do
  let defaults : Draft := {}
  let fieldLimit ← readWhole environment.fieldLimit defaults.fieldLimit
  let depthLimit ← readWhole environment.depthLimit defaults.depthLimit
  Draft.check
    { fieldLimit
      bareLf := (environment.bareLf.map isAffirmative).getD defaults.bareLf
      depthLimit
      trailingData := (environment.trailingData.map isAffirmative).getD defaults.trailingData
      levelName := environment.levelName.getD defaults.levelName }

end Settings

end WireSpan
