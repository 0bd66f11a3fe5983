import SyncEndpoint.Path.Native
import SyncEndpoint.Text.Quoted

set_option autoImplicit false

/-! # Settings

What a user can set, the values that hold where nothing is set, and what makes settings fit for
use. -/

namespace SyncEndpoint

/-- The settings of an endpoint and of the command line. -/
structure Settings where
  logLevel : String := "info"
  /-- The directory that the endpoint exposes. -/
  root : Option NativePath := none
  /-- The capacity that the growable buffer of a watch starts with. -/
  bufferCapacity : UInt64 := 1000
  /-- How many events a session queues. -/
  eventChannelCapacity : UInt64 := 64
  /-- Patterns of paths to ignore, besides the built-in ones. -/
  ignorePatterns : List String := []
  deriving DecidableEq

namespace Settings

/-- The settings that hold where nothing is set. -/
def default : Settings := {}

/-- The log levels, from the most to the least talkative. -/
def logLevels : List String :=
  ["trace", "debug", "info", "warn", "error"]

/-- What is wrong with settings. -/
inductive Defect where
  | unknownLogLevel (level : String)
  | noBufferCapacity
  | noEventChannelCapacity
  | blankPattern (pattern : String)
  deriving DecidableEq

def Defect.message : Defect → String
  | .unknownLogLevel level =>
    "Invalid log level '" ++ level ++ "'. Must be one of: " ++ String.intercalate ", " logLevels
  | .noBufferCapacity => "buffer_capacity must be greater than 0"
  | .noEventChannelCapacity => "event_channel_capacity must be greater than 0"
  | .blankPattern pattern =>
    "Ignore patterns must not be blank: " ++ Text.Quoted.ofString pattern

/-- The first thing that is wrong with settings. -/
def defect? (s : Settings) : Option Defect :=
  if !logLevels.contains s.logLevel then some (.unknownLogLevel s.logLevel)
  else if s.bufferCapacity = 0 then some .noBufferCapacity
  else if s.eventChannelCapacity = 0 then some .noEventChannelCapacity
  else (s.ignorePatterns.find? Text.isAllBlank).map .blankPattern

end Settings

end SyncEndpoint
