import ClusterFence.Proofs.Wire.Bytes

namespace ClusterFence

open Bytes

@[simp] theorem Version.length_encode (v : Version) : v.encode.length = 8 := by
  simp [encode]

@[simp] theorem Version.decode_encode (v : Version) (rest : List UInt8) :
    decode (v.encode ++ rest) = (v, rest) := by
  simp [decode, encode]

@[simp] theorem Offer.length_encode (o : Offer) : o.encode.length = Wire.offerSize := by
  simp [encode, Wire.offerSize]

@[simp] theorem Offer.decode_encode (o : Offer) (rest : List UInt8) :
    decode (o.encode ++ rest) = (o, rest) := by
  simp [decode, encode]

@[simp] theorem Bytes.skip_append {count : Nat} {bs : List UInt8} (hlength : bs.length = count)
    (rest : List UInt8) : skip count (bs ++ rest) = ((), rest) := by
  rw [skip, List.drop_left' hlength]

namespace NodeEntry

@[simp] theorem length_encode (e : NodeEntry) : e.encode.length = Wire.entrySize := by
  simp [encode, Wire.entrySize]

@[simp] theorem decode_encode (e : NodeEntry) (rest : List UInt8) :
    decode (e.encode ++ rest) = (e, rest) := by
  simp [decode, encode]

/-- Entries that stand one behind the other read back. -/
theorem decodeList_flatMap (entries : List NodeEntry) :
    decodeList Wire.entrySize entries.length (entries.flatMap (·.encode)) = entries := by
  induction entries with
  | nil => rfl
  | cons e rest ih =>
    rw [List.flatMap_cons, List.length_cons, decodeList, decode_encode,
      List.drop_left' e.length_encode, ih]

theorem length_flatMap (entries : List NodeEntry) :
    (entries.flatMap (·.encode)).length = Wire.entrySize * entries.length := by
  simp [List.length_flatMap, List.map_const', Nat.mul_comm]

end NodeEntry

namespace ReportLayout

@[simp] theorem length_encode (l : ReportLayout) : l.encode.length = Wire.summarySize := by
  simp [encode, Wire.summarySize]

@[simp] theorem decode_encode (l : ReportLayout) (rest : List UInt8) :
    decode (l.encode ++ rest) = (l, rest) := by
  simp [decode, encode]

end ReportLayout

namespace ChangeReport

@[simp] theorem length_encodeBody (r : ChangeReport) :
    r.encodeBody.length = Wire.summarySize + Wire.entrySize * r.entries.length := by
  rw [encodeBody, List.length_append, ReportLayout.length_encode, NodeEntry.length_flatMap]

/-- Reading the body of a report: the checks one after the other, then its contents. -/
theorem decodeBody_eq (seq : UInt32) (body : List UInt8) :
    decodeBody seq body =
      let layout := (ReportLayout.decode body).1
      let summarySize := layout.summarySize.toNat
      let entrySize := layout.entrySize.toNat
      let entryCount := layout.entryCount.toNat
      if body.length < Wire.summarySize then
        .error (.shortMessage (Wire.headerSize + body.length) (Wire.headerSize + Wire.summarySize))
      else if summarySize < Wire.summarySize || entrySize < Wire.entrySize then
        .error (.badLength (.blocks summarySize entrySize))
      else if body.length != layout.bodyLength then
        .error (.badLength (.report body.length layout.bodyLength entryCount))
      else
        .ok
          { seq
            summary := layout.summary
            entries := NodeEntry.decodeList entrySize entryCount (body.drop summarySize) } := by
  unfold decodeBody
  dsimp only
  split
  · rfl
  split
  · rfl
  split <;> rfl

/-- A report reads back if its number of entries can be stated. -/
theorem decodeBody_encodeBody {r : ChangeReport} (hroom : r.entries.length < 2 ^ 32) :
    decodeBody r.seq r.encodeBody = .ok r := by
  have hcount : (UInt32.ofNat r.entries.length).toNat = r.entries.length :=
    UInt32.toNat_ofNat_of_lt' hroom
  have hsummary : (UInt32.ofNat Wire.summarySize).toNat = Wire.summarySize := rfl
  have hentry : (UInt32.ofNat Wire.entrySize).toNat = Wire.entrySize := rfl
  have hlong : ¬ Wire.summarySize + Wire.entrySize * r.entries.length < Wire.summarySize := by
    omega
  have hentries (l : ReportLayout) : (l.encode ++ r.entries.flatMap (·.encode)).drop
      Wire.summarySize = r.entries.flatMap (·.encode) := List.drop_left' l.length_encode
  rw [decodeBody_eq, length_encodeBody, if_neg hlong]
  simp [encodeBody, ReportLayout.bodyLength, hcount, hsummary, hentry, hentries,
    NodeEntry.decodeList_flatMap]

end ChangeReport

namespace Message

/-- The entries that a message carries as a list. -/
def entries : Message → List NodeEntry
  | .start report | .complete report => report.entries
  | .protocol _ | .victimDone _ _ | .external _ => []

/-- How many bytes follow the header. -/
def bodySize (m : Message) : Nat :=
  match m.kind with
  | .protocol => 16
  | .start | .complete => 32 + 40 * m.entries.length
  | .victimDone => 40
  | .external => 0

@[simp] theorem length_encodeBody (m : Message) : m.encodeBody.length = m.bodySize := by
  cases m with
  | protocol offer => exact offer.length_encode
  | start report => exact report.length_encodeBody
  | victimDone seq entry => exact entry.length_encode
  | complete report => exact report.length_encodeBody
  | external victim => rfl

theorem checkLength_of_length {kind : MessageKind} {body : List UInt8} {want : Nat}
    (hlength : body.length = want) : checkLength kind body want = .ok () :=
  if_pos hlength

theorem decodeBody_encodeBody {m : Message} (hroom : m.entries.length < 2 ^ 32) :
    decodeBody m.kind m.headerWord m.encodeBody = .ok m := by
  cases m with
  | protocol offer =>
    have hread := offer.decode_encode []
    rw [List.append_nil] at hread
    simp only [decodeBody, kind, encodeBody, checkLength_of_length offer.length_encode, hread]
    rfl
  | start report =>
    simp only [decodeBody, kind, headerWord, encodeBody,
      ChangeReport.decodeBody_encodeBody (r := report) hroom]
    rfl
  | victimDone seq entry =>
    have hread := entry.decode_encode []
    rw [List.append_nil] at hread
    simp only [decodeBody, kind, headerWord, encodeBody, checkLength_of_length entry.length_encode,
      hread]
    rfl
  | complete report =>
    simp only [decodeBody, kind, headerWord, encodeBody,
      ChangeReport.decodeBody_encodeBody (r := report) hroom]
    rfl
  | external victim => rfl

end Message

namespace WireHeader

@[simp] theorem length_encode (h : WireHeader) : h.encode.length = Wire.headerSize := by
  simp [encode, Wire.headerSize]

/-- A header reads back but for the flags of its version, which have no room in it. -/
theorem decode_encode {h : WireHeader} (hflags : h.version.flags = 0) (rest : List UInt8) :
    decode (h.encode ++ rest) = (h, rest) := by
  have hpadding : (ofUInt32 0 ++ ofUInt64 0).length = 12 := by simp
  have hversion : h.version = ⟨h.version.major, h.version.minor, h.version.patch, 0⟩ := by
    rw [← hflags]
  simp only [decode, encode, List.append_assoc, bind_apply, uint16_ofUInt16, uint32_ofUInt32,
    pure_apply]
  rw [← List.append_assoc (ofUInt32 0), skip_append hpadding, ← hversion]

/-- The version in a header loses its flags. -/
theorem version_decode_encode (h : WireHeader) (rest : List UInt8) :
    (decode (h.encode ++ rest)).1.version = h.version.withoutFlags := by
  have hplain : h.encode = encode { h with version := h.version.withoutFlags } := rfl
  rw [hplain, decode_encode rfl]

end WireHeader

namespace Envelope

/-- Reading a message: the checks one after the other, then the body. -/
theorem decode_eq (bytes : List UInt8) (sender : NodeId) (running : Option Version) :
    decode bytes sender running =
      let header := (WireHeader.decode bytes).1
      if bytes.length < Wire.headerSize then .error (.shortMessage bytes.length Wire.headerSize)
      else
        match MessageKind.ofCode? header.kind with
        | none => .error (.unknownMessageType header.kind)
        | some kind =>
          if running.any fun v => kind != .protocol && !header.version.compatible v then
            .error (.versionMismatch sender header.version (running.getD {}))
          else if header.sender != sender then .error (.senderMismatch header.sender sender)
          else
            (Message.decodeBody kind header.word (bytes.drop Wire.headerSize)).map fun message =>
              { header :=
                  { version := header.version
                    sender := header.sender
                    target := header.target
                    globalId := header.globalId
                    flags := header.flags }
                message } := by
  unfold decode
  dsimp only
  split
  · rfl
  cases MessageKind.ofCode? (WireHeader.decode bytes).1.kind with
  | none => rfl
  | some kind =>
    cases running with
    | none =>
      simp only [Option.any_none, Bool.false_eq_true, if_false]
      split <;> rfl
    | some v =>
      simp only [Option.any_some, Option.getD_some]
      split
      · rfl
      · split <;> rfl

/-- Under a version that goes with its own, a message is read as under none. -/
theorem decode_of_compatible {bytes : List UInt8} {v : Version}
    (h : (WireHeader.decode bytes).1.version.compatible v = true) (sender : NodeId) :
    decode bytes sender (some v) = decode bytes sender none := by
  rw [decode_eq, decode_eq]
  simp [h]

@[simp] theorem length_encode (e : Envelope) :
    e.encode.length = Wire.headerSize + e.message.bodySize := by
  rw [encode, List.length_append, WireHeader.length_encode, Message.length_encodeBody]

theorem decode_encode {e : Envelope} {running : Option Version}
    (hflags : e.header.version.flags = 0) (hroom : e.message.entries.length < 2 ^ 32)
    (hrunning : e.message.kind = .protocol ∨ ∀ v, running = some v →
      v.major = e.header.version.major ∧ v.minor = e.header.version.minor) :
    decode e.encode e.header.sender running = .ok e := by
  have hread : WireHeader.decode e.encode = (e.wireHeader, e.message.encodeBody) :=
    WireHeader.decode_encode hflags _
  have hbody : e.encode.drop Wire.headerSize = e.message.encodeBody :=
    List.drop_left' e.wireHeader.length_encode
  have hlong : ¬ e.encode.length < Wire.headerSize := by
    rw [length_encode]
    omega
  have hkind : MessageKind.ofCode? e.wireHeader.kind = some e.message.kind :=
    MessageKind.ofCode?_code e.message.kind
  have hversion : (running.any fun v =>
      e.message.kind != .protocol && !e.wireHeader.version.compatible v) = false := by
    cases running with
    | none => rfl
    | some v =>
      rw [Option.any_some]
      obtain hprotocol | hsame := hrunning
      · simp [hprotocol]
      · simp [Version.compatible, wireHeader, hsame v rfl]
  rw [decode_eq, if_neg hlong]
  simp only [hread, hkind, hversion, hbody]
  simp only [Bool.false_eq_true, if_false, wireHeader, bne_self_eq_false,
    Message.decodeBody_encodeBody hroom, Except.map]

/-- A message reads back as it was written, under any running version that its own is compatible
    with. Only an announcement of versions is read under every one. The header has no room for the
    flags of its version, and a report states the number of its entries in four bytes. -/
theorem reads_back (e : Envelope) (running : Option Version)
    (hflags : e.header.version.flags = 0) (hroom : e.message.entries.length < 2 ^ 32)
    (hrunning : e.message.kind = .protocol ∨ ∀ v, running = some v →
      v.major = e.header.version.major ∧ v.minor = e.header.version.minor) :
    e.encode.length = 40 + e.message.bodySize ∧
      decode e.encode e.header.sender running = .ok e :=
  ⟨e.length_encode, decode_encode hflags hroom hrunning⟩

/-- A START of node 2 about two members, one of them fenced before. -/
def startOfPair : Envelope where
  header := { version := { major := 1, minor := 1, patch := 1 }, sender := 2, flags := .duplicate }
  message := .start
    { seq := 7
      summary := { startedCount := 3, counts := { members := 2, joined := 1 } }
      entries := [{ node := 1, flags := 1, fenceMaster := 2, fenceHow := 1, fenceTime := 99 },
        { node := 2, flags := 1 }] }

theorem startOfPair_reads_back :
    let running : Version := { major := 1, minor := 1, patch := 4 }
    startOfPair.header.version.flags = 0 ∧ startOfPair.message.entries.length < 2 ^ 32 ∧
      running.major = startOfPair.header.version.major ∧
      running.minor = startOfPair.header.version.minor ∧
      startOfPair.encode.length = 40 + startOfPair.message.bodySize ∧
      decode startOfPair.encode startOfPair.header.sender (some running) = .ok startOfPair := by
  intro running
  have hread := reads_back startOfPair (some running) rfl (by decide)
    (.inr fun v hv => Option.some.inj hv ▸ ⟨rfl, rfl⟩)
  exact ⟨rfl, by decide, rfl, rfl, hread⟩

end Envelope

end ClusterFence
