import Odorobo.Transforms

/-! The storage backends: local files, RBD images and iSCSI targets. They act on
the node by running commands; what a command does to the node is not said here. -/

namespace Odorobo

/-- The arguments that select the Ceph cluster are the same for every `rbd` command
and are left out. -/
inductive Command where
  | rbdDeviceList
  | rbdDeviceMap (image : String)
  | rbdDeviceUnmap (image : String)
  | iscsiadmLogin (target portal : String)
  | iscsiadmLogout (target portal : String)
  deriving DecidableEq

/-- How a command ends. -/
inductive CommandOutput where
  | notStarted (error : String)
  | failed (stderr : String)
  | success (stdout : String)
  deriving DecidableEq

inductive NodeCall where
  | run (command : Command)
  | pathExists (path : String)
  deriving DecidableEq

def NodeCall.Answer : NodeCall → Type
  | run _ => CommandOutput
  | pathExists _ => Bool

abbrev Shell := Program NodeCall NodeCall.Answer

/-- The output of a command that succeeds. -/
def CommandOutput.toExcept (program what : String) : CommandOutput → Except String String
  | notStarted error => .error ("Failed to execute " ++ program ++ " command: " ++ error)
  | failed stderr => .error (what ++ " failed: " ++ stderr)
  | success stdout => .ok stdout

def runCommand (command : Command) (program what : String) : Shell (Except String String) :=
  (Program.ask (NodeCall.run command)).bind fun output =>
    .done (CommandOutput.toExcept program what output)

/-- A command whose output does not matter. -/
def runOnly (command : Command) (program what : String) : Shell (Except String Unit) :=
  (runCommand command program what).andThen fun _ => .done (.ok ())

/-! Local files. -/

def fileStorage (crate : UrlCrate) : StorageDriver NodeCall NodeCall.Answer where
  scheme := "file"
  resolve uri := .done <| match crate.toFilePath uri with
    | some path => .ok path
    | none => .error ("Failed to convert file URI to path: '" ++ crate.asStr uri ++ "'")
  release _ := .done (.ok ())

/-! RBD images. -/

/-- A row of the device list; an empty namespace leaves one column out. -/
def rbdLine (line : List Char) : Option (String × String) :=
  match Text.splitWhitespace line with
  | _ :: pool :: _ :: next :: _ :: device :: _ => some (pool ++ "/" ++ next, device)
  | [_, pool, field, _, fifth] =>
    if Text.startsWith "/dev/" fifth then some (pool ++ "/" ++ field, fifth) else none
  | _ => none

/-- The image and the device of every row after the header. -/
def rbdLinesList (input : String) : List (String × String) :=
  ((Text.lines input).drop 1).filterMap rbdLine

def rbdMapList : Shell (Except String (List (String × String))) :=
  (runCommand .rbdDeviceList "rbd" "rbd command").andThen fun output =>
    .done (.ok (rbdLinesList output))

structure RbdImage where
  pool : String
  image : String
  deriving DecidableEq

namespace RbdImage

def rbdPath (image : RbdImage) : String := image.pool ++ "/" ++ image.image

def devicePath (image : RbdImage) : String := "/dev/rbd/" ++ image.pool ++ "/" ++ image.image

def tryFrom (uri : Url) : Except String RbdImage :=
  match uri.hostStr with
  | none => .error "RBD URI must have a host (pool name)"
  | some pool =>
    if uri.path.isEmpty || uri.path == "/" then .error "RBD URI must have a path (image name)"
    else .ok ⟨pool, Text.trimStartMatches '/' uri.path⟩

/-- An image that is listed as mapped is not mapped again. -/
def map (image : RbdImage) : Shell (Except String Unit) :=
  rbdMapList.andThen fun mappings =>
    if mappings.any fun mapping => mapping.1 == image.rbdPath then .done (.ok ())
    else runOnly (.rbdDeviceMap image.rbdPath) "rbd" "rbd map"

def unmap (image : RbdImage) : Shell (Except String Unit) :=
  runOnly (.rbdDeviceUnmap image.rbdPath) "rbd" "rbd unmap"

end RbdImage

/-- Whether the path shows up in the given number of looks. -/
def waitForPath (path : String) : Nat → Shell Bool
  | 0 => .done false
  | n + 1 => .call (.pathExists path) fun (found : Bool) =>
    if found then .done true else waitForPath path n

/-- The path that udev makes, or else the kernel device that is listed. -/
def rbdDevice (image : RbdImage) : Shell (Except String String) :=
  (waitForPath image.devicePath 100).bind fun found =>
    if found then .done (.ok image.devicePath)
    else rbdMapList.andThen fun mappings =>
      match mappings.find? fun mapping => mapping.1 == image.rbdPath with
      | some mapping => .done (.ok mapping.2)
      | none => .done (.error
        ("RBD image " ++ image.rbdPath ++ " is mapped but no device name was found"))

/-- A URI that names no image fails before anything is run. -/
def withImage {α : Type} (uri : Url) (run : RbdImage → Shell (Except String α)) :
    Shell (Except String α) :=
  match RbdImage.tryFrom uri with
  | .error error => .done (.error error)
  | .ok image => run image

def rbdStorage : StorageDriver NodeCall NodeCall.Answer where
  scheme := "rbd"
  resolve uri := withImage uri fun image => image.map.andThen fun _ => rbdDevice image
  release uri := withImage uri RbdImage.unmap

/-! iSCSI targets. -/

structure ISCSITarget where
  host : String
  iqn : String
  lun : U32
  deriving DecidableEq

namespace ISCSITarget

def toDevicePath (target : ISCSITarget) : String :=
  "/dev/disk/by-path/ip-" ++ target.host ++ "-iscsi-" ++ target.iqn ++ "-lun-" ++
    toString target.lun.val

/-- A LUN that is missing or no number is taken as zero. -/
def «from» (uri : Url) : ISCSITarget :=
  let port := match uri.port with
    | some port => port.val
    | none => 3260
  let segments := uri.pathSegments.getD []
  let lunStr := segments.getD 1 ""
  { host := uri.hostStr.getD "" ++ ":" ++ toString port
    iqn := segments.getD 0 ""
    lun := (Text.parseU32 ((Text.stripPrefix "lun" lunStr).getD lunStr)).getD 0 }

def attach (target : ISCSITarget) : Shell (Except String String) :=
  (runOnly (.iscsiadmLogin target.iqn target.host) "iscsiadm" "iscsiadm login").andThen fun _ =>
    .done (.ok target.toDevicePath)

def detach (target : ISCSITarget) : Shell (Except String Unit) :=
  runOnly (.iscsiadmLogout target.iqn target.host) "iscsiadm" "iscsiadm logout"

end ISCSITarget

def iscsiStorage : StorageDriver NodeCall NodeCall.Answer where
  scheme := "iscsi"
  resolve uri := (ISCSITarget.from uri).attach
  release uri := (ISCSITarget.from uri).detach

/-- The backends of a node. -/
def storageBackends (crate : UrlCrate) : List (StorageDriver NodeCall NodeCall.Answer) :=
  [fileStorage crate, rbdStorage, iscsiStorage]

example : rbdLinesList "id  pool  namespace  image    snap  device\n0   kessoku          testimg  -     /dev/rbd0" =
    [("kessoku/testimg", "/dev/rbd0")] := by
  decide +kernel

end Odorobo
