import DeviceSnapshot.Table.Spec

/-!
# The built-in tables

Keys are device paths in the system's device tree. Host, session and target numbers differ from one
machine to the next, as do the identifiers behind the links under `/dev/disk`. Each rule takes one
device to a fixed key and to fixed identifiers.

The table `udev` is for snapshots of the device database in the tagged encoding. The table
`uevents` is for the state of a device scanner in the plain encoding; that state has no field for
the identifier of a mapped device, so its rules for such devices only substitute paths.
-/

namespace DeviceSnapshot

/-- A table that comes with the program. -/
inductive Builtin where
  | udev
  | uevents
  deriving DecidableEq

namespace Builtin

def all : List Builtin := [udev, uevents]

def name : Builtin → String
  | udev => "udev"
  | uevents => "uevents"

def ofName? (name : String) : Option Builtin := all.find? (·.name = name)

/-! ## Fixed identifiers -/

def firstVolume : String := "LVM-FpAffE3HiAwoAvd81g8dBirIbkC3Ogu58AIfMI4SXo1AodrQkxuO2yuvd2JOPi5j"

def secondVolume : String := "LVM-FpAffE3HiAwoAvd81g8dBirIbkC3Ogu50snmtLIcILKydXKz4EgqhgxR5Tf013zE"

/-! ## Rules -/

/-- A rule for a partition of the first disk: one kind of link is fixed. -/
def partitionRule (partition link target : String) : RuleSpec where
  keyPattern := ".+/block/sda/" ++ partition ++ "$"
  canonicalKey := "/block/sda/" ++ partition
  actions := [.paths [⟨link, link ++ target⟩]]

/-- The links of a mapped device, by its identifier and by that of its file system. -/
def volumeLinks (volume fileSystem : String) : ActionSpec :=
  .paths [
    ⟨"/dev/disk/by-id/dm-uuid-LVM", "/dev/disk/by-id/dm-uuid-" ++ volume⟩,
    ⟨"/dev/disk/by-uuid/", "/dev/disk/by-uuid/" ++ fileSystem⟩]

def volumeRule (device : String) (actions : List ActionSpec) : RuleSpec where
  keyPattern := "/devices/virtual/block/" ++ device ++ "$"
  canonicalKey := "/devices/virtual/block/" ++ device
  actions

/-- A rule for a disk of a remote target: the numbers in its path are fixed. -/
def remoteRule (disk fixed : String) : RuleSpec where
  keyPattern :=
    "/devices/platform/host\\d+/session\\d+/target\\d+:\\d+:\\d+/\\d+:\\d+:\\d+:\\d+/block/"
      ++ disk ++ "$"
  canonicalKey := "/devices/platform/" ++ fixed ++ "/block/" ++ disk
  actions := [.devpath ("/devices/platform/" ++ fixed ++ "/block/" ++ disk)]

/-- The rules of a table, given what its rules for mapped devices overwrite beside the links. -/
def rules (identifier : String → List ActionSpec) : List RuleSpec := [
  partitionRule "sda1" "/dev/disk/by-uuid" "/74b3fabd-dbf5-4cc0-a967-2c12f8113fa6",
  partitionRule "sda2" "/dev/disk/by-id/lvm-pv-uuid" "-tVAIF5-nJY7-oKaP-wLQO-OIXp-Ggwn-0F9F70",
  volumeRule "dm-0"
    (volumeLinks firstVolume "45252d52-d8d6-468e-aaa0-c117b042944a" :: identifier firstVolume),
  volumeRule "dm-1"
    (volumeLinks secondVolume "4af3b3ab-356b-490b-9aab-2e9786804b79" :: identifier secondVolume),
  remoteRule "sdae" "host38/session7/target38:0:0/38:0:0:0",
  remoteRule "sdaf" "host38/session7/target38:0:0/38:0:0:1",
  remoteRule "sdag" "host39/session8/target39:0:0/39:0:0:0",
  remoteRule "sdah" "host39/session8/target39:0:0/39:0:0:1"]

/-- A built-in table as it is written. -/
def spec : Builtin → TableSpec
  | udev => {
      name := "udev"
      encoding := .tagged
      fields := { paths := "PATHS", devpath := "DEVPATH", dmUuid := "DM_UUID" }
      rules := rules fun volume ↦ [.dmUuid volume] }
  | uevents => {
      name := "uevents"
      encoding := .plain
      fields := { paths := "paths", devpath := "devpath", dmUuid := "dmUuid" }
      rules := rules fun _ ↦ [] }

end Builtin

end DeviceSnapshot
