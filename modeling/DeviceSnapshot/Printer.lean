import DeviceSnapshot.Record

/-!
# Printing snapshots

A printer turns a snapshot into text and never fails. When the snapshot can be read and, for a
printer with rules, amended, the text is in normal form. Otherwise the snapshot is returned as it
came in, together with the cause, and one warning is reported.

Beside printing, a printer answers whether it should handle a snapshot at all. It claims bytes
without looking into them, and the printer with rules claims a text only when that is a record.
-/

namespace DeviceSnapshot

/-- What is to be printed. -/
inductive Snapshot where
  | text (s : String)
  | bytes (bs : List UInt8)

namespace Snapshot

def isEmpty : Snapshot → Bool
  | .text s => s = ""
  | .bytes bs => bs.isEmpty

/-- The snapshot as text. -/
def asText : Snapshot → Except SnapshotFault String
  | .text s => .ok s
  | .bytes bs => (Utf8.decode bs).mapError .notUtf8

/-- The snapshot as text, whatever its bytes are. -/
def lossyText : Snapshot → String
  | .text s => s
  | .bytes bs => Utf8.decodeLossy bs

end Snapshot

/-- What a printer returns. -/
inductive Rendering where
  /-- Text in normal form. -/
  | normalized (text : String)
  /-- The snapshot as it came in, and why. -/
  | passthrough (text : String) (cause : SnapshotFault)

namespace Rendering

def text : Rendering → String
  | .normalized text => text
  | .passthrough text _ => text

def isNormalized : Rendering → Bool
  | .normalized _ => true
  | .passthrough _ _ => false

end Rendering

/-- A printer for device records under a rule table, or for any value without rules. -/
inductive Printer where
  | device (table : Table)
  | object

namespace Printer

def name : Printer → String
  | .device table => table.name
  | .object => "object"

/-- Whether the printer should handle a snapshot. -/
def test : Printer → Snapshot → Bool
  | .device _, .bytes bs => !bs.isEmpty
  | .device _, .text s =>
    match Record.decode s with
    | .ok _ => true
    | .error _ => false
  | .object, s => !s.isEmpty

/-- The text of a snapshot in normal form, and what is reported on the way. -/
def attempt (p : Printer) (s : Snapshot) : Except SnapshotFault String × List LogLine :=
  match s.asText with
  | .error e => (.error e, [])
  | .ok text =>
    match p with
    | .device table => Record.normalize table text
    | .object => ((Record.value text).map Json.pretty, [])

/-- The warning that a snapshot is returned as it came in. -/
def unchanged (p : Printer) (cause : SnapshotFault) : LogLine where
  level := .warn
  origin := .printing
  message := p.name ++ ": returning snapshot unchanged: " ++ cause.message

def print (p : Printer) (s : Snapshot) : Rendering × List LogLine :=
  match p.attempt s with
  | (.ok text, log) => (.normalized text, log)
  | (.error cause, log) => (.passthrough s.lossyText cause, log ++ [p.unchanged cause])

/-- Print a snapshot if the printer claims it, and take it over as text if not. -/
def render (p : Printer) (s : Snapshot) : String × List LogLine :=
  if p.test s then
    let (rendering, log) := p.print s
    (rendering.text, log)
  else (s.lossyText, [])

end Printer

end DeviceSnapshot
