import ClusterFence.Proofs.Wire.RoundTrip

namespace ClusterFence

namespace Bytes

variable {α β : Type}

/-- The reader takes `width` bytes: what stands behind them makes no difference to what it finds,
    and is left. -/
def Reader.Takes (r : Reader α) (width : Nat) : Prop :=
  ∀ front rest : List UInt8, front.length = width → r (front ++ rest) = ((r front).1, rest)

theorem takes_pure (a : α) : (pure a : Reader α).Takes 0 := by
  intro front rest hlength
  rw [List.eq_nil_of_length_eq_zero hlength]
  rfl

theorem Reader.Takes.bind {r : Reader α} {f : α → Reader β} {m n : Nat} (hr : r.Takes m)
    (hf : ∀ a, (f a).Takes n) : (r >>= f).Takes (m + n) := by
  intro front rest hlength
  have hfirst : (front.take m).length = m := by
    rw [List.length_take]
    omega
  have hlater : (front.drop m).length = n := by
    rw [List.length_drop]
    omega
  have hfront := hr (front.take m) (front.drop m) hfirst
  have hall := hr (front.take m) (front.drop m ++ rest) hfirst
  rw [List.take_append_drop] at hfront
  rw [← List.append_assoc, List.take_append_drop] at hall
  rw [bind_apply, bind_apply, hall, hfront]
  exact hf _ _ rest hlater

theorem takes_word (width : Nat) : (word width).Takes width := by
  intro front rest hlength
  rw [word, word, List.take_left' hlength, List.drop_left' hlength, ← hlength, List.take_length]

theorem takes_uint16 : uint16.Takes 2 := (takes_word 2).bind fun _ => takes_pure _

theorem takes_uint32 : uint32.Takes 4 := (takes_word 4).bind fun _ => takes_pure _

theorem takes_uint64 : uint64.Takes 8 := (takes_word 8).bind fun _ => takes_pure _

theorem takes_skip (count : Nat) : (skip count).Takes count := by
  intro front rest hlength
  rw [skip_append hlength]

theorem Reader.Takes.fst_take {r : Reader α} {width : Nat} (hr : r.Takes width)
    {bs : List UInt8} (hlength : width ≤ bs.length) : (r (bs.take width)).1 = (r bs).1 := by
  have hread := hr (bs.take width) (bs.drop width) (List.length_take_of_le hlength)
  rw [List.take_append_drop] at hread
  rw [hread]

/-- What a reader finds in the first `width` bytes, if there are as many. -/
def block (width : Nat) (r : Reader α) (bs : List UInt8) : Option α :=
  if width ≤ bs.length then some (r (bs.take width)).1 else none

/-- What stands behind the first `count` bytes, if there are as many. -/
def behind (count : Nat) (bs : List UInt8) : Option (List UInt8) :=
  if count ≤ bs.length then some (bs.drop count) else none

/-- A number that 64 bits hold. -/
def within64 (n : Nat) : Option Nat := if n < 2 ^ 64 then some n else none

/-- The first `count` pieces of `size` bytes. -/
def pieces (size : Nat) : Nat → List UInt8 → List (List UInt8)
  | 0, _ => []
  | count + 1, bs => bs.take size :: pieces size count (bs.drop size)

/-- The bytes cut into pieces of `size` bytes, as many as there are whole ones. None is empty. -/
def chunks (size : Nat) (bs : List UInt8) : Option (List (List UInt8)) :=
  if size = 0 then none else some (pieces size (bs.length / size) bs)

theorem block_eq_some {width : Nat} {r : Reader α} (hr : r.Takes width) {bs : List UInt8}
    (hlength : width ≤ bs.length) : block width r bs = some (r bs).1 := by
  rw [block, if_pos hlength, hr.fst_take hlength]

end Bytes

open Bytes

theorem Version.takes_decode : Version.decode.Takes 8 :=
  takes_uint16.bind fun _ => takes_uint16.bind fun _ => takes_uint16.bind fun _ =>
    takes_uint16.bind fun _ => takes_pure _

theorem Offer.takes_decode : Offer.decode.Takes Wire.offerSize :=
  Version.takes_decode.bind fun _ => Version.takes_decode.bind fun _ => takes_pure _

theorem NodeEntry.takes_decode : NodeEntry.decode.Takes Wire.entrySize :=
  takes_uint32.bind fun _ => takes_uint32.bind fun _ => takes_uint32.bind fun _ =>
    takes_uint32.bind fun _ => takes_uint32.bind fun _ => (takes_skip 4).bind fun _ =>
      takes_uint64.bind fun _ => takes_uint64.bind fun _ => takes_pure _

theorem ReportLayout.takes_decode : ReportLayout.decode.Takes Wire.summarySize :=
  takes_uint32.bind fun _ => takes_uint32.bind fun _ => takes_uint32.bind fun _ =>
    takes_uint32.bind fun _ => takes_uint32.bind fun _ => takes_uint32.bind fun _ =>
      takes_uint32.bind fun _ => takes_uint32.bind fun _ => takes_pure _

theorem WireHeader.takes_decode : WireHeader.decode.Takes Wire.headerSize :=
  takes_uint16.bind fun _ => takes_uint16.bind fun _ => takes_uint16.bind fun _ =>
    takes_uint16.bind fun _ => takes_uint32.bind fun _ => takes_uint32.bind fun _ =>
      takes_uint32.bind fun _ => takes_uint32.bind fun _ => takes_uint32.bind fun _ =>
        (takes_skip 12).bind fun _ => takes_pure _

/-- The entries of `size` bytes each that follow the first `start` bytes, with every bound
    watched. -/
def NodeEntry.decodeListGuarded (start size : Nat) (body : List UInt8) :
    Option (List NodeEntry) := do
  let list ← behind start body
  (← chunks size list).mapM (block Wire.entrySize decode)

/-- The body of a START or COMPLETE, with every bound watched. -/
def ChangeReport.decodeBodyGuarded (seq : UInt32) (body : List UInt8) :
    Option (Except Error ChangeReport) := do
  if body.length < Wire.summarySize then
    return .error
      (.shortMessage (Wire.headerSize + body.length) (Wire.headerSize + Wire.summarySize))
  let layout ← block Wire.summarySize ReportLayout.decode body
  let summarySize := layout.summarySize.toNat
  let entrySize := layout.entrySize.toNat
  let entryCount := layout.entryCount.toNat
  if summarySize < Wire.summarySize || entrySize < Wire.entrySize then
    return .error (.badLength (.blocks summarySize entrySize))
  let listSize ← within64 (entrySize * entryCount)
  let bodySize ← within64 (listSize + summarySize)
  if body.length != bodySize then
    return .error (.badLength (.report body.length bodySize entryCount))
  let entries ← NodeEntry.decodeListGuarded summarySize entrySize body
  return .ok { seq, summary := layout.summary, entries }

/-- The body of a message, with every bound watched. -/
def Message.decodeBodyGuarded (kind : MessageKind) (word : UInt32) (body : List UInt8) :
    Option (Except Error Message) := do
  match kind with
  | .protocol =>
    if body.length != Wire.offerSize then
      return .error (.badLength (.body kind body.length Wire.offerSize))
    return .ok (.protocol (← block Wire.offerSize Offer.decode body))
  | .start => return (← ChangeReport.decodeBodyGuarded word body).map .start
  | .complete => return (← ChangeReport.decodeBodyGuarded word body).map .complete
  | .victimDone =>
    if body.length != Wire.entrySize then
      return .error (.badLength (.body kind body.length Wire.entrySize))
    return .ok (.victimDone word (← block Wire.entrySize NodeEntry.decode body))
  | .external =>
    if body.length != 0 then return .error (.badLength (.body kind body.length 0))
    return .ok (.external word)

/-- A message, with every bound watched. -/
def Envelope.decodeGuarded (bytes : List UInt8) (sender : NodeId) (running : Option Version) :
    Option (Except Error Envelope) := do
  if bytes.length < Wire.headerSize then
    return .error (.shortMessage bytes.length Wire.headerSize)
  let header ← block Wire.headerSize WireHeader.decode bytes
  let some kind := MessageKind.ofCode? header.kind
    | return .error (.unknownMessageType header.kind)
  if running.any fun v => kind != .protocol && !header.version.compatible v then
    return .error (.versionMismatch sender header.version (running.getD {}))
  if header.sender != sender then return .error (.senderMismatch header.sender sender)
  let body ← behind Wire.headerSize bytes
  return (← Message.decodeBodyGuarded kind header.word body).map fun message =>
    { header :=
        { version := header.version
          sender := header.sender
          target := header.target
          globalId := header.globalId
          flags := header.flags }
      message }

/-- Pieces that are long enough are read as the entries that begin where they do. -/
theorem NodeEntry.mapM_block_pieces {size count : Nat} (hsize : Wire.entrySize ≤ size)
    {bs : List UInt8} (hlength : bs.length = size * count) :
    (pieces size count bs).mapM (block Wire.entrySize decode) =
      some (decodeList size count bs) := by
  induction count generalizing bs with
  | zero => rfl
  | succ count ih =>
    rw [Nat.mul_succ] at hlength
    have hpiece : Wire.entrySize ≤ (bs.take size).length := by
      rw [List.length_take]
      omega
    have hrest : (bs.drop size).length = size * count := by
      rw [List.length_drop]
      omega
    have hfirst : block Wire.entrySize decode (bs.take size) = some (decode bs).1 := by
      rw [block, if_pos hpiece, List.take_take, Nat.min_eq_left hsize,
        takes_decode.fst_take (by omega)]
    rw [pieces, List.mapM_cons, hfirst, ih hrest]
    rfl

theorem NodeEntry.decodeListGuarded_eq {start size count : Nat} {body : List UInt8}
    (hsize : Wire.entrySize ≤ size) (hlength : body.length = start + size * count) :
    decodeListGuarded start size body = some (decodeList size count (body.drop start)) := by
  have hlist : (body.drop start).length = size * count := by
    rw [List.length_drop]
    omega
  have hpositive : 0 < size := Nat.lt_of_lt_of_le (by decide) hsize
  have hbehind : behind start body = some (body.drop start) := if_pos (by omega)
  have hchunks : chunks size (body.drop start) = some (pieces size count (body.drop start)) := by
    rw [chunks, if_neg (by omega), hlist, Nat.mul_div_cancel_left _ hpositive]
  simp [decodeListGuarded, hbehind, hchunks, mapM_block_pieces hsize hlist]

/-- The sizes that a report states have 32 bits each, so that 64 hold what they come to. -/
theorem ReportLayout.bodyLength_lt (l : ReportLayout) : l.bodyLength < 2 ^ 64 := by
  have hsummary := l.summarySize.toNat_lt
  have hentry := l.entrySize.toNat_lt
  have hcount := l.entryCount.toNat_lt
  have hlist : l.entrySize.toNat * l.entryCount.toNat ≤ (2 ^ 32 - 1) * (2 ^ 32 - 1) :=
    Nat.mul_le_mul (by omega) (by omega)
  unfold bodyLength
  omega

theorem ReportLayout.within64_eq (l : ReportLayout) :
    within64 (l.entrySize.toNat * l.entryCount.toNat) =
        some (l.entrySize.toNat * l.entryCount.toNat) ∧
      within64 (l.entrySize.toNat * l.entryCount.toNat + l.summarySize.toNat) =
        some l.bodyLength := by
  have hroom := l.bodyLength_lt
  have hsum : l.entrySize.toNat * l.entryCount.toNat + l.summarySize.toNat = l.bodyLength :=
    Nat.add_comm _ _
  rw [hsum]
  exact ⟨if_pos (by omega), if_pos hroom⟩

theorem ChangeReport.decodeBodyGuarded_eq (seq : UInt32) (body : List UInt8) :
    decodeBodyGuarded seq body = some (decodeBody seq body) := by
  rw [decodeBody_eq]
  unfold decodeBodyGuarded
  by_cases hshort : body.length < Wire.summarySize
  · simp [hshort]
  have hlayout := block_eq_some ReportLayout.takes_decode (Nat.not_lt.1 hshort)
  simp only [hshort, hlayout, if_false, Option.bind_eq_bind, Option.bind_some]
  generalize (ReportLayout.decode body).1 = layout
  obtain ⟨hlist, hbody⟩ := layout.within64_eq
  by_cases hblocks : (layout.summarySize.toNat < Wire.summarySize ||
      layout.entrySize.toNat < Wire.entrySize) = true
  · simp [hblocks]
  simp only [hblocks, hlist, hbody, Option.bind_some]
  by_cases hlength : body.length = layout.bodyLength
  · have hentry : Wire.entrySize ≤ layout.entrySize.toNat := by
      simp only [Bool.or_eq_true, decide_eq_true_eq, not_or, Nat.not_lt] at hblocks
      exact hblocks.2
    simp [hlength, NodeEntry.decodeListGuarded_eq hentry hlength]
  · simp [hlength]

theorem Message.decodeBodyGuarded_eq (kind : MessageKind) (word : UInt32) (body : List UInt8) :
    decodeBodyGuarded kind word body = some (decodeBody kind word body) := by
  cases kind with
  | protocol =>
    simp only [decodeBodyGuarded, decodeBody, checkLength, bne_iff_ne, ite_not]
    by_cases hlength : body.length = Wire.offerSize
    · rw [if_pos hlength, if_pos hlength, block_eq_some Offer.takes_decode (by omega)]
      rfl
    · rw [if_neg hlength, if_neg hlength]
      rfl
  | start =>
    simp only [decodeBodyGuarded, decodeBody, ChangeReport.decodeBodyGuarded_eq]
    cases ChangeReport.decodeBody word body <;> rfl
  | victimDone =>
    simp only [decodeBodyGuarded, decodeBody, checkLength, bne_iff_ne, ite_not]
    by_cases hlength : body.length = Wire.entrySize
    · rw [if_pos hlength, if_pos hlength, block_eq_some NodeEntry.takes_decode (by omega)]
      rfl
    · rw [if_neg hlength, if_neg hlength]
      rfl
  | complete =>
    simp only [decodeBodyGuarded, decodeBody, ChangeReport.decodeBodyGuarded_eq]
    cases ChangeReport.decodeBody word body <;> rfl
  | external =>
    simp only [decodeBodyGuarded, decodeBody, checkLength, bne_iff_ne, ite_not]
    split <;> rfl

/-- No read of a message goes beyond its bytes, and no size beyond 64 bits, whatever the bytes
    are. -/
theorem Envelope.decodeGuarded_eq (bytes : List UInt8) (sender : NodeId)
    (running : Option Version) :
    decodeGuarded bytes sender running = some (decode bytes sender running) := by
  rw [decode_eq]
  unfold decodeGuarded
  by_cases hshort : bytes.length < Wire.headerSize
  · simp [hshort]
  have hheader := block_eq_some WireHeader.takes_decode (Nat.not_lt.1 hshort)
  have hbody : behind Wire.headerSize bytes = some (bytes.drop Wire.headerSize) :=
    if_pos (Nat.not_lt.1 hshort)
  simp only [hshort, hheader, hbody, Message.decodeBodyGuarded_eq, if_false, Option.bind_eq_bind,
    Option.bind_some]
  cases MessageKind.ofCode? (WireHeader.decode bytes).1.kind with
  | none => rfl
  | some kind =>
    dsimp only
    split
    · rfl
    split <;> rfl

end ClusterFence
