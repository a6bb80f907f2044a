import ClusterFence.Proofs.Wire.RoundTrip

namespace ClusterFence

open Bytes

/-- What is made of a value is had exactly when the value is. -/
theorem map_eq_ok_iff {ε α β : Type} {x : Except ε α} {p : Prop} {a : α}
    (hx : ∀ a', x = .ok a' ↔ p ∧ a = a') (f : α → β) (b : β) :
    x.map f = .ok b ↔ p ∧ f a = b := by
  cases x with
  | error err =>
    have hnone : ¬ p := by
      intro hp
      cases (hx a).2 ⟨hp, rfl⟩
    exact iff_of_false (by simp [Except.map]) fun h => hnone h.1
  | ok a' =>
    obtain ⟨hp, rfl⟩ := (hx a').1 rfl
    exact ⟨fun h => ⟨hp, Except.ok.inj h⟩, fun h => congrArg Except.ok h.2⟩

/-- How a peer lays out its messages: the sizes that its STARTs and COMPLETEs state, what it writes
    where there is padding here, and what it writes beyond the end of a summary and of an entry. The
    entries of a message may differ in that, and are told apart by their positions. -/
structure WiderLayout where
  summarySize : UInt32
  entrySize : UInt32
  summary_covered : Wire.summarySize ≤ summarySize.toNat
  entry_covered : Wire.entrySize ≤ entrySize.toNat
  headerPad : Vector UInt8 12
  beyondSummary : Vector UInt8 (summarySize.toNat - Wire.summarySize)
  entryPad : Nat → Vector UInt8 4
  beyondEntry : Nat → Vector UInt8 (entrySize.toNat - Wire.entrySize)

/-- The layout used here. -/
def WiderLayout.plain : WiderLayout where
  summarySize := UInt32.ofNat Wire.summarySize
  entrySize := UInt32.ofNat Wire.entrySize
  summary_covered := by decide
  entry_covered := by decide
  headerPad := .replicate 12 0
  beyondSummary := .replicate _ 0
  entryPad _ := .replicate 4 0
  beyondEntry _ := .replicate _ 0

namespace NodeEntry

/-- An entry with its padding filled. -/
def encodeWith (e : NodeEntry) (pad : Vector UInt8 4) : List UInt8 :=
  ofUInt32 e.node ++ ofUInt32 e.flags ++ ofUInt32 e.externalNode ++ ofUInt32 e.fenceMaster ++
    ofUInt32 e.fenceHow ++ pad.toList ++ ofUInt64 e.fenceTime ++ ofUInt64 e.externalTime

@[simp] theorem length_encodeWith (e : NodeEntry) (pad : Vector UInt8 4) :
    (e.encodeWith pad).length = Wire.entrySize := by
  simp [encodeWith, Wire.entrySize]

@[simp] theorem decode_encodeWith (e : NodeEntry) (pad : Vector UInt8 4) (rest : List UInt8) :
    decode (e.encodeWith pad ++ rest) = (e, rest) := by
  simp [decode, encodeWith]

/-- The entries as the layout has them, the first at position `i`. -/
def encodeListIn (l : WiderLayout) : Nat → List NodeEntry → List UInt8
  | _, [] => []
  | i, e :: rest =>
    (e.encodeWith (l.entryPad i) ++ (l.beyondEntry i).toList) ++ encodeListIn l (i + 1) rest

variable (l : WiderLayout)

theorem length_encodeWith_beyond (e : NodeEntry) (i : Nat) :
    (e.encodeWith (l.entryPad i) ++ (l.beyondEntry i).toList).length = l.entrySize.toNat := by
  have hcovered := l.entry_covered
  rw [List.length_append, length_encodeWith, Vector.length_toList]
  omega

theorem length_encodeListIn (i : Nat) (entries : List NodeEntry) :
    (encodeListIn l i entries).length = l.entrySize.toNat * entries.length := by
  induction entries generalizing i with
  | nil => rfl
  | cons e rest ih =>
    rw [encodeListIn, List.length_append, length_encodeWith_beyond, ih, List.length_cons,
      Nat.mul_succ, Nat.add_comm]

/-- Entries that begin as far apart as the layout says read back, wherever the first one stands. -/
theorem decodeList_encodeListIn (i : Nat) (entries : List NodeEntry) :
    decodeList l.entrySize.toNat entries.length (encodeListIn l i entries) = entries := by
  induction entries generalizing i with
  | nil => rfl
  | cons e rest ih =>
    have hnext : (encodeListIn l i (e :: rest)).drop l.entrySize.toNat =
        encodeListIn l (i + 1) rest := List.drop_left' (length_encodeWith_beyond l e i)
    have hfirst : (decode (encodeListIn l i (e :: rest))).1 = e := by
      rw [encodeListIn, List.append_assoc, decode_encodeWith]
    rw [List.length_cons, decodeList, hfirst, hnext, ih]

theorem encodeListIn_plain (i : Nat) (entries : List NodeEntry) :
    encodeListIn .plain i entries = entries.flatMap (·.encode) := by
  induction entries generalizing i with
  | nil => rfl
  | cons e rest ih =>
    rw [encodeListIn, ih]
    rfl

end NodeEntry

namespace ChangeReport

/-- What the body of a report begins with in a layout. -/
def headingIn (l : WiderLayout) (r : ChangeReport) : ReportLayout where
  summarySize := l.summarySize
  entrySize := l.entrySize
  entryCount := UInt32.ofNat r.entries.length
  summary := r.summary

/-- The body of a START or COMPLETE in a layout. -/
def encodeBodyIn (l : WiderLayout) (r : ChangeReport) : List UInt8 :=
  ((r.headingIn l).encode ++ l.beyondSummary.toList) ++ NodeEntry.encodeListIn l 0 r.entries

theorem encodeBodyIn_plain (r : ChangeReport) : r.encodeBodyIn .plain = r.encodeBody := by
  rw [encodeBodyIn, NodeEntry.encodeListIn_plain, encodeBody]
  exact congrArg (· ++ _) (List.append_nil _)

variable (l : WiderLayout) (r : ChangeReport)

theorem length_heading_beyond :
    ((r.headingIn l).encode ++ l.beyondSummary.toList).length = l.summarySize.toNat := by
  have hcovered := l.summary_covered
  rw [List.length_append, ReportLayout.length_encode, Vector.length_toList]
  omega

theorem length_encodeBodyIn : (r.encodeBodyIn l).length =
    l.summarySize.toNat + l.entrySize.toNat * r.entries.length := by
  rw [encodeBodyIn, List.length_append, length_heading_beyond, NodeEntry.length_encodeListIn]

/-- The sizes that a body states account for it if its number of entries can be stated. If not, the
    body is longer, since no entry is empty. -/
theorem length_eq_bodyLength_iff :
    (r.encodeBodyIn l).length = (r.headingIn l).bodyLength ↔ r.entries.length < 2 ^ 32 := by
  have hpositive : 0 < Wire.entrySize := by decide
  have hentry : l.entrySize.toNat ≠ 0 := Nat.ne_of_gt (Nat.lt_of_lt_of_le hpositive l.entry_covered)
  have hstated : (UInt32.ofNat r.entries.length).toNat = r.entries.length % 2 ^ 32 :=
    UInt32.toNat_ofNat'
  rw [length_encodeBodyIn, ReportLayout.bodyLength, headingIn, hstated, Nat.add_left_cancel_iff,
    Nat.mul_right_inj hentry]
  omega

/-- A report in a layout reads back, and no other is read, if its number of entries can be stated.
    If not, nothing is read. -/
theorem decodeBody_encodeBodyIn_iff (r' : ChangeReport) :
    decodeBody r.seq (r.encodeBodyIn l) = .ok r' ↔ r.entries.length < 2 ^ 32 ∧ r = r' := by
  have hheading : (ReportLayout.decode (r.encodeBodyIn l)).1 = r.headingIn l := by
    rw [encodeBodyIn, List.append_assoc, ReportLayout.decode_encode]
  have hlist : (r.encodeBodyIn l).drop l.summarySize.toNat =
      NodeEntry.encodeListIn l 0 r.entries := List.drop_left' (length_heading_beyond l r)
  have hlong : ¬ (r.encodeBodyIn l).length < Wire.summarySize := by
    have hcovered := l.summary_covered
    rw [length_encodeBodyIn]
    omega
  have hblocks : ¬ (l.summarySize.toNat < Wire.summarySize ||
      l.entrySize.toNat < Wire.entrySize) = true := by
    simp [l.summary_covered, l.entry_covered]
  have hwhole := length_eq_bodyLength_iff l r
  rw [decodeBody_eq, hheading]
  dsimp only
  rw [if_neg hlong, show (r.headingIn l).summarySize = l.summarySize from rfl,
    show (r.headingIn l).entrySize = l.entrySize from rfl, if_neg hblocks]
  by_cases hroom : r.entries.length < 2 ^ 32
  · have hstated : (r.headingIn l).entryCount.toNat = r.entries.length :=
      UInt32.toNat_ofNat_of_lt' hroom
    rw [if_neg (by simp [hwhole.2 hroom]), hlist, hstated, NodeEntry.decodeList_encodeListIn,
      Except.ok.injEq, and_iff_right hroom]
    rfl
  · rw [if_pos (by simpa using mt hwhole.1 hroom)]
    exact iff_of_false (by simp) fun h => hroom h.1

end ChangeReport

namespace Message

/-- The body of a message in a layout. Only reports state sizes; the entry of a VICTIM_DONE has
    padding, and is no longer than it is here. -/
def encodeBodyIn (l : WiderLayout) : Message → List UInt8
  | .protocol offer => offer.encode
  | .start report | .complete report => report.encodeBodyIn l
  | .victimDone _ entry => entry.encodeWith (l.entryPad 0)
  | .external _ => []

theorem encodeBodyIn_plain (m : Message) : m.encodeBodyIn .plain = m.encodeBody := by
  cases m with
  | start report | complete report => exact report.encodeBodyIn_plain
  | protocol _ | victimDone _ _ | external _ => rfl

theorem decodeBody_encodeBodyIn_iff (l : WiderLayout) (m m' : Message) :
    decodeBody m.kind m.headerWord (m.encodeBodyIn l) = .ok m' ↔
      m.entries.length < 2 ^ 32 ∧ m = m' := by
  have hempty : ([] : List NodeEntry).length < 2 ^ 32 := by decide
  -- the bodies of the other kinds are read as they were written, whatever the padding is
  have hother (hread : decodeBody m.kind m.headerWord (m.encodeBodyIn l) = .ok m)
      (hnone : m.entries = []) : decodeBody m.kind m.headerWord (m.encodeBodyIn l) = .ok m' ↔
        m.entries.length < 2 ^ 32 ∧ m = m' := by
    rw [hread, hnone, Except.ok.injEq, and_iff_right hempty]
  cases m with
  | protocol offer => exact hother (decodeBody_encodeBody hempty) rfl
  | start report =>
    have hmap (body : List UInt8) : decodeBody .start report.seq body =
        (ChangeReport.decodeBody report.seq body).map .start := bind_pure_comp _ _
    have hread := map_eq_ok_iff (report.decodeBody_encodeBodyIn_iff l) Message.start m'
    rw [kind, headerWord, encodeBodyIn, entries, hmap]
    exact hread
  | victimDone seq entry =>
    refine hother ?_ rfl
    have hread := entry.decode_encodeWith (l.entryPad 0) []
    rw [List.append_nil] at hread
    simp only [decodeBody, kind, headerWord, encodeBodyIn,
      checkLength_of_length (entry.length_encodeWith _), hread]
    rfl
  | complete report =>
    have hmap (body : List UInt8) : decodeBody .complete report.seq body =
        (ChangeReport.decodeBody report.seq body).map .complete := bind_pure_comp _ _
    have hread := map_eq_ok_iff (report.decodeBody_encodeBodyIn_iff l) Message.complete m'
    rw [kind, headerWord, encodeBodyIn, entries, hmap]
    exact hread
  | external victim => exact hother (decodeBody_encodeBody hempty) rfl

end Message

namespace WireHeader

/-- A header with its padding filled. -/
def encodeWith (h : WireHeader) (pad : Vector UInt8 12) : List UInt8 :=
  ofUInt16 h.version.major ++ ofUInt16 h.version.minor ++ ofUInt16 h.version.patch ++
    ofUInt16 h.kind ++ ofUInt32 h.sender ++ ofUInt32 h.target ++ ofUInt32 h.globalId ++
    ofUInt32 h.flags.bits ++ ofUInt32 h.word ++ pad.toList

variable (h : WireHeader) (pad : Vector UInt8 12)

@[simp] theorem length_encodeWith : (h.encodeWith pad).length = Wire.headerSize := by
  simp [encodeWith, Wire.headerSize]

theorem decode_encodeWith (rest : List UInt8) : decode (h.encodeWith pad ++ rest) =
    ({ h with version := h.version.withoutFlags }, rest) := by
  simp [decode, encodeWith, Version.withoutFlags]

end WireHeader

namespace Envelope

/-- The bytes of a message in a layout. -/
def encodeIn (l : WiderLayout) (e : Envelope) : List UInt8 :=
  e.wireHeader.encodeWith l.headerPad ++ e.message.encodeBodyIn l

theorem encodeIn_plain (e : Envelope) : e.encodeIn .plain = e.encode := by
  have hpad : WiderLayout.plain.headerPad.toList = ofUInt32 0 ++ ofUInt64 0 := by decide
  rw [encodeIn, Message.encodeBodyIn_plain, encode, WireHeader.encodeWith, WireHeader.encode, hpad,
    List.append_assoc _ (ofUInt32 0)]

/-- What is read of a message in a layout, and when it is read, does not depend on the layout: all
    of it but the flags of its version. -/
theorem decode_encodeIn_iff (l : WiderLayout) (e e' : Envelope) (sender : NodeId)
    (running : Option Version) :
    decode (e.encodeIn l) sender running = .ok e' ↔
      (e.message.kind = .protocol ∨ running.all (e.header.version.compatible ·) = true) ∧
      e.header.sender = sender ∧ e.message.entries.length < 2 ^ 32 ∧
      { e with header := { e.header with version := e.header.version.withoutFlags } } = e' := by
  have hread : WireHeader.decode (e.encodeIn l) =
      ({ e.wireHeader with version := e.header.version.withoutFlags }, e.message.encodeBodyIn l) :=
    e.wireHeader.decode_encodeWith l.headerPad _
  have hbody : (e.encodeIn l).drop Wire.headerSize = e.message.encodeBodyIn l :=
    List.drop_left' (e.wireHeader.length_encodeWith _)
  have hlong : ¬ (e.encodeIn l).length < Wire.headerSize := by
    rw [encodeIn, List.length_append, WireHeader.length_encodeWith]
    omega
  have hkind : MessageKind.ofCode? e.wireHeader.kind = some e.message.kind :=
    MessageKind.ofCode?_code e.message.kind
  have hversion : (running.any fun v =>
      e.message.kind != .protocol && !e.header.version.withoutFlags.compatible v) = false ↔
        e.message.kind = .protocol ∨ running.all (e.header.version.compatible ·) = true := by
    cases running with
    | none => simp
    | some v => by_cases hprotocol : e.message.kind = .protocol <;>
        simp [hprotocol, Version.compatible, Version.withoutFlags]
  rw [decode_eq, if_neg hlong, hread, hbody]
  dsimp only
  rw [hkind]
  dsimp only
  by_cases hrunning : e.message.kind = .protocol ∨
      running.all (e.header.version.compatible ·) = true
  · rw [hversion.2 hrunning, if_neg Bool.false_ne_true, and_iff_right hrunning]
    by_cases hsender : e.header.sender = sender
    · have hsame : (e.wireHeader.sender != sender) = false := by simp [wireHeader, hsender]
      rw [hsame, if_neg Bool.false_ne_true, and_iff_right hsender]
      exact map_eq_ok_iff (Message.decodeBody_encodeBodyIn_iff l e.message) _ e'
    · have hdiffers : (e.wireHeader.sender != sender) = true := by simp [wireHeader, hsender]
      rw [hdiffers, if_pos rfl]
      exact iff_of_false (by simp) fun h => hsender h.1
  · rw [Bool.not_eq_false _ |>.mp (mt hversion.1 hrunning), if_pos rfl]
    exact iff_of_false (by simp) fun h => hrunning h.1

/-- Every message reads the same in every layout as in the one used here, and is written again as if
    it had come in that one. It reads back as it was where it does in the one used here. -/
theorem wider_reads_back (e : Envelope) (l : WiderLayout) (running : Option Version) :
    (∀ sender e', decode (e.encodeIn l) sender running = .ok e' ↔
      decode e.encode sender running = .ok e') ∧
    (∀ sender e', decode (e.encodeIn l) sender running = .ok e' → e'.encode = e.encode) ∧
    (e.header.version.flags = 0 → e.message.entries.length < 2 ^ 32 →
      (e.message.kind = .protocol ∨ running.all (e.header.version.compatible ·) = true) →
      decode (e.encodeIn l) e.header.sender running = .ok e) := by
  refine ⟨fun sender e' => ?_, fun sender e' hread => ?_, fun hflags hroom hrunning => ?_⟩
  · rw [decode_encodeIn_iff, ← encodeIn_plain, decode_encodeIn_iff]
  · obtain ⟨-, -, -, rfl⟩ := (decode_encodeIn_iff l e e' sender running).1 hread
    rfl
  · have hversion : e.header.version.withoutFlags = e.header.version := by
      rw [Version.withoutFlags, ← hflags]
    rw [decode_encodeIn_iff, hversion]
    exact ⟨hrunning, rfl, hroom, rfl⟩

/-- The layout of a peer whose summaries and entries have further words. -/
def furtherWords : WiderLayout where
  summarySize := 36
  entrySize := 48
  summary_covered := by decide
  entry_covered := by decide
  headerPad := .replicate 12 255
  beyondSummary := .replicate _ 7
  entryPad i := .replicate 4 (UInt8.ofNat i)
  beyondEntry i := .replicate _ (UInt8.ofNat (i + 1))

theorem startOfPair_wider_reads_back :
    let running : Version := { major := 1, minor := 1, patch := 4 }
    startOfPair.header.version.flags = 0 ∧ startOfPair.message.entries.length < 2 ^ 32 ∧
      startOfPair.header.version.compatible running = true ∧
      (startOfPair.encodeIn furtherWords).length = 40 + 36 + 2 * 48 ∧
      decode (startOfPair.encodeIn furtherWords) startOfPair.header.sender (some running) =
        .ok startOfPair ∧
      decode startOfPair.encode startOfPair.header.sender (some running) = .ok startOfPair := by
  intro running
  obtain ⟨hsame, -, hback⟩ := wider_reads_back startOfPair furtherWords (some running)
  have hread := hback rfl (by decide) (.inr rfl)
  exact ⟨rfl, by decide, rfl, by decide +kernel, hread, (hsame _ _).1 hread⟩

end Envelope

end ClusterFence
