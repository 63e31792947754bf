import SealedDownload.Broadcast
import SealedDownload.Request

/-! How far the tracked attachments have come: the latest fraction of each, and a channel on which
    every change is published. -/

namespace SealedDownload

/-- A published fraction. -/
structure ProgressUpdate where
  id : AttachmentId
  fraction : Float
deriving Inhabited

namespace Progress

/-- The least fraction of a download that has begun. -/
def least : Float := 0.001

/-- How many updates the channel keeps. -/
def channelCapacity : Nat := 1024

/-- A fraction brought into the range from the least one to one. -/
def clamp (fraction : Float) : Float :=
  if fraction < least then least else if 1 < fraction then 1 else fraction

/-- The fraction of a number of bytes; none before the first byte, the least one where the total is
    unknown or zero, and never more than one. -/
def fraction? (completed : Nat) (total : Option Nat) : Option Float :=
  if completed = 0 then none
  else
    let raw : Float := match total with
      | none => 0
      | some 0 => 0
      | some total =>
        let ratio := (UInt64.ofNat completed).toFloat / (UInt64.ofNat total).toFloat
        if ratio < 1 then ratio else 1
    some (if raw < least then least else raw)

end Progress

/-- The latest fraction of each attachment and the channel of updates. -/
structure Tracker where
  latest : List (AttachmentId × Float)
  channel : Broadcast ProgressUpdate
deriving Inhabited

namespace Tracker

/-- A tracker that has seen nothing. -/
def empty : Tracker := ⟨[], ⟨Progress.channelCapacity, []⟩⟩

/-- Records a fraction and publishes it. -/
def set (t : Tracker) (id : AttachmentId) (fraction : Float) : Tracker :=
  let fraction := Progress.clamp fraction
  ⟨(id, fraction) :: t.latest.filter (·.1 ≠ id), t.channel.send ⟨id, fraction⟩⟩

/-- The latest fraction of an attachment. -/
def get? (t : Tracker) (id : AttachmentId) : Option Float := t.latest.lookup id

end Tracker
end SealedDownload
