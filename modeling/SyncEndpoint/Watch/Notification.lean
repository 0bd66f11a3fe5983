import SyncEndpoint.Path.Native

set_option autoImplicit false

/-! # Notifications

What the operating system says about a path, reduced to a set of five flags. A notification may
name several paths; each of them makes one raw event. -/

namespace SyncEndpoint.Watch

/-! ## Masks -/

/-- A set of kinds of raw events. -/
structure RawMask where
  create : Bool := false
  write : Bool := false
  rename : Bool := false
  remove : Bool := false
  /-- Access and events of no known kind, which are never interpreted. -/
  other : Bool := false
  deriving DecidableEq

namespace RawMask

/-- The flags of a mask with their bits and names, in the order of the bits. -/
def flags (m : RawMask) : List (Bool × Nat × String) :=
  [(m.create, 1, "CREATE"), (m.write, 2, "WRITE"), (m.rename, 4, "RENAME"),
    (m.remove, 8, "REMOVE"), (m.other, 16, "OTHER")]

/-- The number whose bits are the flags. -/
def bits (m : RawMask) : Nat :=
  m.flags.foldl (fun n (set, bit, _) => if set then n + bit else n) 0

/-- The mask of the low five bits of a number. -/
def ofBits (n : Nat) : RawMask :=
  ⟨n.testBit 0, n.testBit 1, n.testBit 2, n.testBit 3, n.testBit 4⟩

/-- The names of the flags that are set; a zero if there are none. -/
def flagText (m : RawMask) : String :=
  match m.flags.filterMap fun (set, _, name) => if set then some name else none with
  | [] => "0x0"
  | names => String.intercalate " | " names

/-- A mask as it is shown to a developer. -/
def debugText (m : RawMask) : String :=
  "RawMask(" ++ m.flagText ++ ")"

end RawMask

/-! ## Notifications -/

/-- What kind of change a notification reports. -/
inductive NotificationKind where
  | any
  | access
  | create
  | modifyName
  /-- A change of content or of attributes. -/
  | modify
  | remove
  | other
  deriving DecidableEq

def NotificationKind.mask : NotificationKind → RawMask
  | .create => { create := true }
  | .modifyName => { rename := true }
  | .modify => { write := true }
  | .remove => { remove := true }
  | .access | .any | .other => { other := true }

/-- One notification on one path, which is absolute. -/
structure RawEvent where
  path : NativePath
  mask : RawMask
  deriving DecidableEq

/-- The raw events of a notification, one for each path. -/
def rawEvents (kind : NotificationKind) (paths : List NativePath) : List RawEvent :=
  paths.map fun p => ⟨p, kind.mask⟩

end SyncEndpoint.Watch
