import ClusterFence.Error
import ClusterFence.Wire.Bytes

namespace ClusterFence

open Bytes

namespace Wire

def headerSize : Nat := 40

def summarySize : Nat := 32

def entrySize : Nat := 40

def offerSize : Nat := 16

end Wire

namespace Version

def encode (v : Version) : List UInt8 :=
  ofUInt16 v.major ++ ofUInt16 v.minor ++ ofUInt16 v.patch ++ ofUInt16 v.flags

def decode : Reader Version :=
  return { major := ← uint16, minor := ← uint16, patch := ← uint16, flags := ← uint16 }

end Version

namespace Offer

def encode (o : Offer) : List UInt8 := o.max.encode ++ o.run.encode

def decode : Reader Offer := return { max := ← Version.decode, run := ← Version.decode }

end Offer

namespace NodeEntry

def encode (e : NodeEntry) : List UInt8 :=
  ofUInt32 e.node ++ ofUInt32 e.flags ++ ofUInt32 e.externalNode ++ ofUInt32 e.fenceMaster ++
    ofUInt32 e.fenceHow ++ ofUInt32 0 ++ ofUInt64 e.fenceTime ++ ofUInt64 e.externalTime

def decode : Reader NodeEntry := do
  let node ← uint32
  let flags ← uint32
  let externalNode ← uint32
  let fenceMaster ← uint32
  let fenceHow ← uint32
  skip 4
  let fenceTime ← uint64
  let externalTime ← uint64
  return { node, flags, externalNode, fenceMaster, fenceHow, fenceTime, externalTime }

/-- Reads `count` entries that begin `size` bytes apart. -/
def decodeList (size : Nat) : Nat → List UInt8 → List NodeEntry
  | 0, _ => []
  | count + 1, bs => (decode bs).1 :: decodeList size count (bs.drop size)

end NodeEntry

/-- The sizes that a START or COMPLETE states, and its summary. -/
structure ReportLayout where
  summarySize : UInt32
  entrySize : UInt32
  entryCount : UInt32
  summary : ChangeSummary
deriving DecidableEq, Repr, Inhabited

namespace ReportLayout

def encode (l : ReportLayout) : List UInt8 :=
  ofUInt32 l.summarySize ++ ofUInt32 l.entrySize ++ ofUInt32 l.entryCount ++
    ofUInt32 l.summary.startedCount ++ ofUInt32 l.summary.counts.members ++
    ofUInt32 l.summary.counts.joined ++ ofUInt32 l.summary.counts.removed ++
    ofUInt32 l.summary.counts.failed

def decode : Reader ReportLayout := do
  let summarySize ← uint32
  let entrySize ← uint32
  let entryCount ← uint32
  let startedCount ← uint32
  let members ← uint32
  let joined ← uint32
  let removed ← uint32
  let failed ← uint32
  let summary := { startedCount, counts := { members, joined, removed, failed } }
  return { summarySize, entrySize, entryCount, summary }

/-- The length of the body that has this layout. -/
def bodyLength (l : ReportLayout) : Nat :=
  l.summarySize.toNat + l.entrySize.toNat * l.entryCount.toNat

end ReportLayout

namespace ChangeReport

/-- The body of a START or COMPLETE; its number travels in the header. -/
def encodeBody (r : ChangeReport) : List UInt8 :=
  ReportLayout.encode
      { summarySize := UInt32.ofNat Wire.summarySize
        entrySize := UInt32.ofNat Wire.entrySize
        entryCount := UInt32.ofNat r.entries.length
        summary := r.summary } ++
    r.entries.flatMap (·.encode)

/-- Reads the body of a START or COMPLETE numbered `seq`. The sizes it states have to cover what is
    read here, and to add up to the body. -/
def decodeBody (seq : UInt32) (body : List UInt8) : Except Error ChangeReport := do
  if body.length < Wire.summarySize then
    throw (.shortMessage (Wire.headerSize + body.length) (Wire.headerSize + Wire.summarySize))
  let layout := (ReportLayout.decode body).1
  let summarySize := layout.summarySize.toNat
  let entrySize := layout.entrySize.toNat
  let entryCount := layout.entryCount.toNat
  if summarySize < Wire.summarySize || entrySize < Wire.entrySize then
    throw (.badLength (.blocks summarySize entrySize))
  if body.length != layout.bodyLength then
    throw (.badLength (.report body.length layout.bodyLength entryCount))
  return {
    seq
    summary := layout.summary
    entries := NodeEntry.decodeList entrySize entryCount (body.drop summarySize) }

end ChangeReport

/-- The header as it is on the wire, with the kind and the word that belong to the message. It has
    forty bytes, all words little-endian:

    2 bytes each: the three numbers of the version · kind of the message
    4 bytes each: sender · target · global id · flags · first word of the message · padding
    8 bytes: padding -/
structure WireHeader where
  version : Version
  kind : UInt16
  sender : NodeId
  target : NodeId
  globalId : UInt32
  flags : MessageFlags
  word : UInt32
deriving DecidableEq, Repr, Inhabited

namespace WireHeader

def encode (h : WireHeader) : List UInt8 :=
  ofUInt16 h.version.major ++ ofUInt16 h.version.minor ++ ofUInt16 h.version.patch ++
    ofUInt16 h.kind ++ ofUInt32 h.sender ++ ofUInt32 h.target ++ ofUInt32 h.globalId ++
    ofUInt32 h.flags.bits ++ ofUInt32 h.word ++ ofUInt32 0 ++ ofUInt64 0

def decode : Reader WireHeader := do
  let major ← uint16
  let minor ← uint16
  let patch ← uint16
  let kind ← uint16
  let sender ← uint32
  let target ← uint32
  let globalId ← uint32
  let flags ← uint32
  let word ← uint32
  skip 12
  let version := { major, minor, patch }
  return { version, kind, sender, target, globalId, flags := ⟨flags⟩, word }

end WireHeader

namespace Message

def encodeBody : Message → List UInt8
  | .protocol offer => offer.encode
  | .start report | .complete report => report.encodeBody
  | .victimDone _ entry => entry.encode
  | .external _ => []

/-- Refuses a body that does not have the size of its kind. -/
def checkLength (kind : MessageKind) (body : List UInt8) (want : Nat) : Except Error Unit :=
  if body.length = want then .ok () else .error (.badLength (.body kind body.length want))

/-- Reads the body of a message whose header has the given word. -/
def decodeBody (kind : MessageKind) (word : UInt32) (body : List UInt8) : Except Error Message := do
  match kind with
  | .protocol =>
    checkLength kind body Wire.offerSize
    return .protocol (Offer.decode body).1
  | .start => return .start (← ChangeReport.decodeBody word body)
  | .complete => return .complete (← ChangeReport.decodeBody word body)
  | .victimDone =>
    checkLength kind body Wire.entrySize
    return .victimDone word (NodeEntry.decode body).1
  | .external =>
    checkLength kind body 0
    return .external word

end Message

namespace Envelope

def wireHeader (e : Envelope) : WireHeader where
  version := e.header.version
  kind := e.message.kind.code
  sender := e.header.sender
  target := e.header.target
  globalId := e.header.globalId
  flags := e.header.flags
  word := e.message.headerWord

/-- The bytes of a message. The header has no room for the flags of its version. -/
def encode (e : Envelope) : List UInt8 := e.wireHeader.encode ++ e.message.encodeBody

/-- Reads a message that the group service delivers as sent by `sender`. Once a version is
    running, every message but an announcement of versions has to be of a compatible one. -/
def decode (bytes : List UInt8) (sender : NodeId) (running : Option Version) :
    Except Error Envelope := do
  if bytes.length < Wire.headerSize then
    throw (.shortMessage bytes.length Wire.headerSize)
  let header := (WireHeader.decode bytes).1
  let some kind := MessageKind.ofCode? header.kind | throw (.unknownMessageType header.kind)
  if let some running := running then
    if kind != .protocol && !header.version.compatible running then
      throw (.versionMismatch sender header.version running)
  if header.sender != sender then
    throw (.senderMismatch header.sender sender)
  let message ← Message.decodeBody kind header.word (bytes.drop Wire.headerSize)
  return {
    header :=
      { version := header.version
        sender := header.sender
        target := header.target
        globalId := header.globalId
        flags := header.flags }
    message }

end Envelope

end ClusterFence
