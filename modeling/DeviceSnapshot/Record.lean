import DeviceSnapshot.Json.Decode
import DeviceSnapshot.Json.Write
import DeviceSnapshot.Log
import DeviceSnapshot.Table.Compiled
import DeviceSnapshot.Utf8

/-!
# Records of devices

A record holds the device entries of a snapshot under their keys, in key order. Applying a rule
table goes through it in that order. The entry of a key that a rule matches is amended and stored
under the canonical key of the rule; every other entry is copied. Entries that end up under one key
overwrite each other, so the one whose key comes last in the input is kept. The first entry that
cannot be amended ends the run without a result.
-/

namespace DeviceSnapshot

/-- Device entries under their keys. -/
abbrev Record := Keyed Json

/-- Why a snapshot cannot be printed in normal form. -/
inductive SnapshotFault where
  | notUtf8 (cause : Utf8.Fault)
  | undecodable
  | notARecord (found : Json.Kind)
  | unexpectedShape (key : String) (cause : ShapeFault)
  deriving DecidableEq

def SnapshotFault.message : SnapshotFault → String
  | .notUtf8 _ => "Snapshot is not valid UTF-8"
  | .undecodable => "Failed to decode snapshot"
  | .notARecord found => "Snapshot is not a record of devices (found " ++ found.name ++ ")"
  | .unexpectedShape key _ => "Device entry has an unexpected shape: " ++ key

/-- Run all actions of a rule on the entry under a key. -/
def Rule.amend (r : Rule) (layout : Layout) (key : String) (entry : Json) :
    Except SnapshotFault Json :=
  (Action.applyAll layout r.actions entry).mapError (.unexpectedShape key)

namespace Record

/-! ## Text and records -/

/-- The value that the text of a snapshot writes. -/
def value (text : String) : Except SnapshotFault Json :=
  match Json.decode? text with
  | some v => .ok v
  | none => .error .undecodable

/-- The record that the text of a snapshot writes. -/
def decode (text : String) : Except SnapshotFault Record :=
  match value text with
  | .ok (.obj members) => .ok members
  | .ok v => .error (.notARecord v.kind)
  | .error e => .error e

/-- The text of a record: its keys in order, indented by two spaces. -/
def text (r : Record) : String := Json.pretty (.obj (Keyed.ofList r))

/-! ## Applying rules -/

/-- The line that reports the rule of a key. -/
def renamed (t : Table) (key : String) (rule : Rule) : LogLine where
  level := .debug
  origin := .rules
  message := t.name ++ ": " ++ key ++ " -> " ++ rule.canonicalKey

/-- Apply a table to entries in order and add the results to a record. -/
def applyFrom (t : Table) (output : Record) :
    List (String × Json) → Except SnapshotFault Record × List LogLine
  | [] => (.ok output, [])
  | (key, entry) :: rest =>
    match t.rule? key with
    | none => applyFrom t (Keyed.insert output key entry) rest
    | some rule =>
      match rule.amend t.layout key entry with
      | .error e => (.error e, [renamed t key rule])
      | .ok entry' =>
        let (result, log) := applyFrom t (Keyed.insert output rule.canonicalKey entry') rest
        (result, renamed t key rule :: log)

def applyRules (t : Table) (r : Record) : Except SnapshotFault Record × List LogLine :=
  applyFrom t [] r

/-- Decode a text, apply a table, and write the result. -/
def normalize (t : Table) (snapshot : String) : Except SnapshotFault String × List LogLine :=
  match decode snapshot with
  | .error e => (.error e, [])
  | .ok r =>
    let (result, log) := applyRules t r
    (result.map text, log)

end Record

end DeviceSnapshot
