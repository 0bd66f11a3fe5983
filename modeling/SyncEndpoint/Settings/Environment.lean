import SyncEndpoint.Settings.Basic
import SyncEndpoint.Text.Numeral

set_option autoImplicit false

/-! # Settings from the environment

Variables of the environment go before the settings of a file. They also say where that file is. -/

namespace SyncEndpoint

/-- The variables of an environment. The first one of a name counts. -/
structure Environment where
  bindings : List (String × Bytes) := []
  /-- The home directory of the account, where no variable names one. -/
  accountHome : NativePath := NativePath.ofString "/root"

namespace Environment

/-- The value of a variable. -/
def get? (e : Environment) (name : String) : Option Bytes :=
  (e.bindings.find? (·.1 == name)).map (·.2)

/-- The value of a variable, if it is text. -/
def text? (e : Environment) (name : String) : Option String :=
  (e.get? name).bind Text.Utf8.decode?

def configPathVariable : String := "TANDEM_CONFIG_PATH"
def logLevelVariable : String := "TANDEM_LOG_LEVEL"
def rootVariable : String := "TANDEM_ROOT"
def bufferCapacityVariable : String := "TANDEM_BUFFER_CAPACITY"

/-- The home directory: a variable names it, unless that is empty. -/
def home (e : Environment) : NativePath :=
  match e.get? "HOME" with
  | some (b :: bs) => b :: bs
  | _ => e.accountHome

def baseDirectory (e : Environment) : NativePath :=
  match (e.text? configPathVariable).bind fun p => NativePath.parent? (NativePath.ofString p) with
  | some parent => parent
  | none => NativePath.join e.home (NativePath.ofString ".tandem")

/-- The file of the settings. -/
def configPath (e : Environment) : NativePath :=
  match e.text? configPathVariable with
  | some p => NativePath.ofString p
  | none => NativePath.join e.baseDirectory (NativePath.ofString "config.toml")

end Environment

namespace Settings

/-- Settings with those of the environment that can be read without fail. -/
def withTexts (s : Settings) (e : Environment) : Settings :=
  { s with
    logLevel := (e.text? Environment.logLevelVariable).getD s.logLevel
    root := ((e.text? Environment.rootVariable).map NativePath.ofString) <|> s.root }

/-- Settings with those of the environment on top. If a number there is wrong, the rest is
taken all the same. -/
def merge (s : Settings) (e : Environment) : Except Text.NumeralError Unit × Settings :=
  let s := s.withTexts e
  match e.text? Environment.bufferCapacityVariable with
  | none => (.ok (), s)
  | some text =>
    match Text.numberBelow UInt64.size text with
    | .ok n => (.ok (), { s with bufferCapacity := UInt64.ofNat n })
    | .error problem => (.error problem, s)

end Settings

end SyncEndpoint
