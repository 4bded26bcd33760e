/-!
# Log lines

A run of the program reports what it does as lines with a level and an origin. They are returned
with the result, in the order in which they arise.
-/

namespace DeviceSnapshot

/-- The level of a line, the more urgent first. -/
inductive LogLevel where
  | error | warn | info | debug | trace
  deriving DecidableEq

namespace LogLevel

def name : LogLevel → String
  | error => "ERROR"
  | warn => "WARN"
  | info => "INFO"
  | debug => "DEBUG"
  | trace => "TRACE"

def all : List LogLevel := [error, warn, info, debug, trace]

def rank : LogLevel → Nat
  | error => 1
  | warn => 2
  | info => 3
  | debug => 4
  | trace => 5

end LogLevel

/-- A part of the program that reports. -/
inductive LogOrigin where
  /-- Applying rules to a record. -/
  | rules
  /-- Printing a snapshot. -/
  | printing
  deriving DecidableEq

def LogOrigin.name : LogOrigin → String
  | rules => "devsnap::normalize"
  | printing => "devsnap::serializer"

/-- A reported line. -/
structure LogLine where
  level : LogLevel
  origin : LogOrigin
  message : String
  deriving DecidableEq

end DeviceSnapshot
