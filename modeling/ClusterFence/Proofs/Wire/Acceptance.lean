import ClusterFence.Proofs.Wire.Bounds

namespace ClusterFence

open Bytes

/-- The two-byte word at an offset. -/
def Bytes.uint16At (bs : List UInt8) (offset : Nat) : UInt16 := (uint16 (bs.drop offset)).1

/-- The four-byte word at an offset. -/
def Bytes.uint32At (bs : List UInt8) (offset : Nat) : UInt32 := (uint32 (bs.drop offset)).1

/-- Something that a message has to pass, and the error of one that does not. -/
structure Check where
  passed : Bool
  error : Error

namespace Check

/-- The error of the first check that is not passed. -/
def firstError? (checks : List Check) : Option Error :=
  (checks.find? (!·.passed)).map (·.error)

theorem firstError?_eq_none {checks : List Check} :
    firstError? checks = none ↔ ∀ c ∈ checks, c.passed = true := by
  simp [firstError?]

@[simp] theorem firstError?_cons (c : Check) (rest : List Check) :
    firstError? (c :: rest) = if c.passed then firstError? rest else some c.error := by
  unfold firstError?
  rw [List.find?_cons]
  cases c.passed <;> rfl

end Check

namespace Wire

/-- The body of a message of one size. -/
def sizeCheck (kind : MessageKind) (body : List UInt8) (want : Nat) : Check :=
  { passed := body.length = want, error := .badLength (.body kind body.length want) }

/-- The checks of the body of a START or COMPLETE. -/
def reportChecks (body : List UInt8) : List Check :=
  let blockSize := (uint32At body 0).toNat
  let entrySize := (uint32At body 4).toNat
  let entryCount := (uint32At body 8).toNat
  let want := blockSize + entrySize * entryCount
  [{ passed := 32 ≤ body.length, error := .shortMessage (40 + body.length) (40 + 32) },
   { passed := 32 ≤ blockSize && 40 ≤ entrySize
     error := .badLength (.blocks blockSize entrySize) },
   { passed := body.length = want, error := .badLength (.report body.length want entryCount) }]

/-- The checks of a body, by the kind of the message. -/
def bodyChecks (body : List UInt8) : MessageKind → List Check
  | .protocol => [sizeCheck .protocol body 16]
  | .start | .complete => reportChecks body
  | .victimDone => [sizeCheck .victimDone body 40]
  | .external => [sizeCheck .external body 0]

/-- The checks of a message, in the order in which they are made. -/
def checks (bytes : List UInt8) (sender : NodeId) (running : Option Version) : List Check :=
  let version : Version :=
    { major := uint16At bytes 0, minor := uint16At bytes 2, patch := uint16At bytes 4 }
  let code := uint16At bytes 6
  let claimed := uint32At bytes 8
  { passed := 40 ≤ bytes.length, error := .shortMessage bytes.length 40 } ::
  { passed := 1 ≤ code && code ≤ 5, error := .unknownMessageType code } ::
  { passed := running.all fun v => code == 1 || version.compatible v
    error := .versionMismatch sender version (running.getD {}) } ::
  { passed := claimed == sender, error := .senderMismatch claimed sender } ::
  ((MessageKind.ofCode? code).map (bodyChecks (bytes.drop 40))).getD []

/-- The body of a START or COMPLETE that its own sizes account for. -/
structure AdmissibleReport (body : List UInt8) : Prop where
  long : 32 ≤ body.length
  block : 32 ≤ (uint32At body 0).toNat
  entry : 40 ≤ (uint32At body 4).toNat
  whole : body.length =
    (uint32At body 0).toNat + (uint32At body 4).toNat * (uint32At body 8).toNat

/-- A message that is well-formed, of a version that can be read, and by the node that sent it. -/
structure Admissible (bytes : List UInt8) (sender : NodeId) (running : Option Version) : Prop where
  long : 40 ≤ bytes.length
  code : 1 ≤ uint16At bytes 6 ∧ uint16At bytes 6 ≤ 5
  version : running = none ∨ uint16At bytes 6 = 1 ∨
    ∃ v, running = some v ∧ uint16At bytes 0 = v.major ∧ uint16At bytes 2 = v.minor
  sender : uint32At bytes 8 = sender
  offer : uint16At bytes 6 = 1 → (bytes.drop 40).length = 16
  report : uint16At bytes 6 = 2 ∨ uint16At bytes 6 = 4 → AdmissibleReport (bytes.drop 40)
  victim : uint16At bytes 6 = 3 → (bytes.drop 40).length = 40
  external : uint16At bytes 6 = 5 → (bytes.drop 40).length = 0

end Wire

theorem WireHeader.decode_fst (bytes : List UInt8) : (decode bytes).1 =
    { version := { major := uint16At bytes 0, minor := uint16At bytes 2, patch := uint16At bytes 4 }
      kind := uint16At bytes 6
      sender := uint32At bytes 8
      target := uint32At bytes 12
      globalId := uint32At bytes 16
      flags := ⟨uint32At bytes 20⟩
      word := uint32At bytes 24 } := by
  simp [decode, uint16At, uint32At, uint16, uint32, Bytes.word, skip, List.drop_drop]

theorem ReportLayout.decode_fst (body : List UInt8) : (decode body).1 =
    { summarySize := uint32At body 0
      entrySize := uint32At body 4
      entryCount := uint32At body 8
      summary :=
        { startedCount := uint32At body 12
          counts :=
            { members := uint32At body 16
              joined := uint32At body 20
              removed := uint32At body 24
              failed := uint32At body 28 } } } := by
  simp [decode, uint32At, uint32, word, List.drop_drop]

/-- The kinds of message are numbered from one to five. -/
theorem MessageKind.ofCode?_isSome (code : UInt16) :
    (ofCode? code).isSome = (1 ≤ code && code ≤ 5) := by
  unfold ofCode?
  split
  case h_6 => grind
  all_goals rfl

theorem MessageKind.code_of_ofCode? {code : UInt16} {kind : MessageKind}
    (hkind : ofCode? code = some kind) : kind.code = code := by
  unfold ofCode? at hkind
  split at hkind <;> cases hkind <;> rfl

/-- Checks settle an outcome if it is a value where all are passed, and otherwise the error of the
    first one that is not. -/
def Check.Settle {α : Type} (checks : List Check) (outcome : Except Error α) : Prop :=
  match firstError? checks with
  | none => ∃ a, outcome = .ok a
  | some e => outcome = .error e

namespace Check.Settle

variable {α β : Type} {c : Check} {checks : List Check} {outcome : Except Error α}

theorem map {f : α → β} (h : Check.Settle checks outcome) :
    Check.Settle checks (outcome.map f) := by
  unfold Check.Settle at h ⊢
  split at h
  · obtain ⟨a, rfl⟩ := h
    exact ⟨f a, rfl⟩
  · rw [h]
    rfl

/-- A check that is passed makes no difference. -/
theorem of_passed (hpassed : c.passed = true) (hrest : Check.Settle checks outcome) :
    Check.Settle (c :: checks) outcome := by
  unfold Check.Settle
  rwa [Check.firstError?_cons, if_pos hpassed]

/-- A check that comes first, and the others if it is passed. -/
theorem cons {p : Prop} [Decidable p] (hfails : p ↔ c.passed = false)
    (hrest : Check.Settle checks outcome) :
    Check.Settle (c :: checks) (if p then .error c.error else outcome) := by
  split
  case isTrue hp =>
    unfold Check.Settle
    rw [Check.firstError?_cons, if_neg (by simp [hfails.1 hp])]
  case isFalse hp =>
    refine hrest.of_passed ?_
    rwa [hfails, Bool.not_eq_false] at hp

theorem ok_iff (h : Check.Settle checks outcome) :
    (∃ a, outcome = .ok a) ↔ Check.firstError? checks = none := by
  unfold Check.Settle at h
  split at h
  · simp_all
  · simp_all

theorem error_iff (h : Check.Settle checks outcome) (e : Error) :
    outcome = .error e ↔ Check.firstError? checks = some e := by
  unfold Check.Settle at h
  split at h
  · obtain ⟨a, rfl⟩ := h
    simp_all
  · simp_all

end Check.Settle

theorem ChangeReport.settle_decodeBody (seq : UInt32) (body : List UInt8) :
    Check.Settle (Wire.reportChecks body) (decodeBody seq body) := by
  rw [decodeBody_eq]
  simp only [ReportLayout.decode_fst, ReportLayout.bodyLength]
  unfold Wire.reportChecks
  refine .cons (by simp [Wire.summarySize]) (.cons ?_ (.cons (by simp) ⟨_, rfl⟩))
  simp only [Bool.or_eq_true, Bool.and_eq_false_iff, decide_eq_true_eq, decide_eq_false_iff_not]
  simp only [Wire.summarySize, Wire.entrySize]
  omega

theorem Message.settle_checkLength (kind : MessageKind) (body : List UInt8) (want : Nat) :
    Check.Settle [Wire.sizeCheck kind body want] (checkLength kind body want) := by
  unfold checkLength
  rw [← ite_not]
  exact .cons (by simp [Wire.sizeCheck]) ⟨(), rfl⟩

theorem Message.settle_decodeBody (kind : MessageKind) (word : UInt32) (body : List UInt8) :
    Check.Settle (Wire.bodyChecks body kind) (decodeBody kind word body) := by
  cases kind with
  | protocol => exact (settle_checkLength .protocol body 16).map
  | start => exact (ChangeReport.settle_decodeBody word body).map
  | victimDone => exact (settle_checkLength .victimDone body 40).map
  | complete => exact (ChangeReport.settle_decodeBody word body).map
  | external => exact (settle_checkLength .external body 0).map

theorem Envelope.settle_decode (bytes : List UInt8) (sender : NodeId) (running : Option Version) :
    Check.Settle (Wire.checks bytes sender running) (decode bytes sender running) := by
  rw [decode_eq]
  simp only [WireHeader.decode_fst]
  unfold Wire.checks
  refine .cons (by simp [Wire.headerSize]) ?_
  have hknown := MessageKind.ofCode?_isSome (uint16At bytes 6)
  cases hkind : MessageKind.ofCode? (uint16At bytes 6) with
  | none =>
    rw [hkind, Option.isSome_none] at hknown
    unfold Check.Settle
    rw [Check.firstError?_cons, ← hknown]
    rfl
  | some kind =>
    have hcode := MessageKind.code_of_ofCode? hkind
    rw [hkind, Option.isSome_some] at hknown
    have hprotocol : (kind != .protocol) = !(uint16At bytes 6 == 1) := by
      rw [← hcode]
      cases kind <;> rfl
    have hbody := Message.settle_decodeBody kind (uint32At bytes 24) (bytes.drop 40)
    refine .of_passed hknown.symm (.cons ?_ (.cons ?_ hbody.map))
    · cases running with
      | none => simp
      | some v => simp [hprotocol]
    · simp

namespace Wire

theorem passed_bodyChecks (body : List UInt8) (kind : MessageKind) :
    (∀ c ∈ bodyChecks body kind, c.passed = true) ↔
      (kind.code = 1 → body.length = 16) ∧
      (kind.code = 2 ∨ kind.code = 4 → AdmissibleReport body) ∧
      (kind.code = 3 → body.length = 40) ∧ (kind.code = 5 → body.length = 0) := by
  have hreport : (∀ c ∈ reportChecks body, c.passed = true) ↔ AdmissibleReport body := by
    simp only [reportChecks, List.forall_mem_cons, List.not_mem_nil, false_imp_iff, implies_true,
      Bool.and_eq_true, decide_eq_true_eq, and_true]
    exact ⟨fun ⟨hlong, hsizes, hwhole⟩ => ⟨hlong, hsizes.1, hsizes.2, hwhole⟩,
      fun h => ⟨h.long, ⟨h.block, h.entry⟩, h.whole⟩⟩
  cases kind with
  | protocol => simp [bodyChecks, sizeCheck, MessageKind.code]
  | start => simp [bodyChecks, MessageKind.code, hreport]
  | victimDone => simp [bodyChecks, sizeCheck, MessageKind.code]
  | complete => simp [bodyChecks, MessageKind.code, hreport]
  | external => simp [bodyChecks, sizeCheck, MessageKind.code]

/-- All checks are passed by the messages that are admissible. -/
theorem firstError?_checks (bytes : List UInt8) (sender : NodeId) (running : Option Version) :
    Check.firstError? (checks bytes sender running) = none ↔ Admissible bytes sender running := by
  rw [Check.firstError?_eq_none]
  have hknown := MessageKind.ofCode?_isSome (uint16At bytes 6)
  have hversion : (running.all fun v => uint16At bytes 6 == 1 ||
      Version.compatible ⟨uint16At bytes 0, uint16At bytes 2, uint16At bytes 4, 0⟩ v) = true ↔
      (running = none ∨ uint16At bytes 6 = 1 ∨
        ∃ v, running = some v ∧ uint16At bytes 0 = v.major ∧ uint16At bytes 2 = v.minor) := by
    cases running <;> simp [Version.compatible]
  simp only [checks, List.forall_mem_cons, hversion, decide_eq_true_eq, beq_iff_eq,
    Bool.and_eq_true]
  cases hkind : MessageKind.ofCode? (uint16At bytes 6) with
  | none =>
    have hunknown : ¬ (1 ≤ uint16At bytes 6 ∧ uint16At bytes 6 ≤ 5) := by
      simpa [hkind] using hknown
    exact ⟨fun h => absurd h.2.1 hunknown, fun h => absurd h.code hunknown⟩
  | some kind =>
    have hcode := MessageKind.code_of_ofCode? hkind
    simp only [Option.map_some, Option.getD_some, passed_bodyChecks, hcode]
    constructor
    · rintro ⟨hlong, hcode, hversion, hsender, hoffer, hreport, hvictim, hexternal⟩
      exact ⟨hlong, hcode, hversion, hsender, hoffer, hreport, hvictim, hexternal⟩
    · intro h
      exact ⟨h.long, h.code, h.version, h.sender, h.offer, h.report, h.victim, h.external⟩

end Wire

theorem NodeEntry.length_decodeList (size count : Nat) (bs : List UInt8) :
    (decodeList size count bs).length = count := by
  induction count generalizing bs with
  | zero => rfl
  | succ count ih => rw [decodeList, List.length_cons, ih]

theorem ChangeReport.length_entries_of_decodeBody {seq : UInt32} {body : List UInt8}
    {r : ChangeReport} (hread : decodeBody seq body = .ok r) :
    r.entries.length = (uint32At body 8).toNat := by
  rw [decodeBody_eq] at hread
  simp only [ReportLayout.decode_fst] at hread
  repeat' split at hread
  all_goals cases hread
  exact NodeEntry.length_decodeList _ _ _

/-- What is made of a value is there only where the value is. -/
theorem ok_of_map {α β : Type} {f : α → β} {outcome : Except Error α} {b : β}
    (h : outcome.map f = .ok b) : ∃ a, outcome = .ok a ∧ f a = b := by
  cases outcome with
  | error e => cases h
  | ok a => exact ⟨a, rfl, Except.ok.inj h⟩

/-- A body that is read is a message of its kind, with as many entries as it states. -/
theorem Message.of_decodeBody {kind : MessageKind} {word : UInt32} {body : List UInt8}
    {m : Message} (hread : decodeBody kind word body = .ok m) :
    m.kind = kind ∧ m.entries.length < 2 ^ 32 ∧
      (kind = .start ∨ kind = .complete → m.entries.length = (uint32At body 8).toNat) := by
  have hreport {r : ChangeReport} (hr : ChangeReport.decodeBody word body = .ok r) :
      r.entries.length < 2 ^ 32 ∧ r.entries.length = (uint32At body 8).toNat := by
    have hlength := ChangeReport.length_entries_of_decodeBody hr
    exact ⟨hlength ▸ (uint32At body 8).toNat_lt, hlength⟩
  cases kind with
  | protocol =>
    simp only [decodeBody, checkLength] at hread
    split at hread <;> cases hread
    exact ⟨rfl, by simp [entries], by simp⟩
  | start =>
    change (ChangeReport.decodeBody word body).map .start = .ok m at hread
    obtain ⟨r, hr, rfl⟩ := ok_of_map hread
    obtain ⟨hroom, hlength⟩ := hreport hr
    exact ⟨rfl, hroom, fun _ => hlength⟩
  | victimDone =>
    simp only [decodeBody, checkLength] at hread
    split at hread <;> cases hread
    exact ⟨rfl, by simp [entries], by simp⟩
  | complete =>
    change (ChangeReport.decodeBody word body).map .complete = .ok m at hread
    obtain ⟨r, hr, rfl⟩ := ok_of_map hread
    obtain ⟨hroom, hlength⟩ := hreport hr
    exact ⟨rfl, hroom, fun _ => hlength⟩
  | external =>
    simp only [decodeBody, checkLength] at hread
    split at hread <;> cases hread
    exact ⟨rfl, by simp [entries], by simp⟩

namespace Envelope

/-- What a message that is read has in its header, beside what is said of its body. -/
theorem of_decode {bytes : List UInt8} {sender : NodeId} {running : Option Version} {e : Envelope}
    (hread : decode bytes sender running = .ok e) :
    e.header.version.flags = 0 ∧ e.header.sender = sender ∧
      (e.message.kind = .protocol ∨ ∀ v, running = some v →
        v.major = e.header.version.major ∧ v.minor = e.header.version.minor) ∧
      ∃ kind word, Message.decodeBody kind word (bytes.drop 40) = .ok e.message := by
  rw [decode_eq] at hread
  simp only [WireHeader.decode_fst] at hread
  split at hread
  · cases hread
  split at hread
  · cases hread
  rename_i kind _
  split at hread
  · cases hread
  rename_i hversion
  split at hread
  · cases hread
  rename_i hsender
  obtain ⟨m, hbody, rfl⟩ := ok_of_map hread
  refine ⟨rfl, by simpa using hsender, ?_, kind, _, hbody⟩
  rw [(Message.of_decodeBody hbody).1]
  by_cases hprotocol : kind = .protocol
  · exact .inl hprotocol
  · refine .inr fun v hv => ?_
    have hsame : uint16At bytes 0 = v.major ∧ uint16At bytes 2 = v.minor := by
      simpa [hv, hprotocol, Version.compatible] using hversion
    exact ⟨hsame.1.symm, hsame.2.symm⟩

/-- The messages that are read are the admissible ones, and the first check that another one does
    not pass decides on its error. No read goes beyond the bytes, and no size beyond 64 bits. A
    message that was read has as many entries as it states, and reads back after it is written
    again. -/
theorem decode_accepts (bytes : List UInt8) (sender : NodeId) (running : Option Version) :
    ((∃ e, decode bytes sender running = .ok e) ↔ Wire.Admissible bytes sender running) ∧
      (∀ error, decode bytes sender running = .error error ↔
        Check.firstError? (Wire.checks bytes sender running) = some error) ∧
      decodeGuarded bytes sender running = some (decode bytes sender running) ∧
      ∀ e, decode bytes sender running = .ok e →
        (e.message.kind = .start ∨ e.message.kind = .complete →
          e.message.entries.length = (uint32At bytes 48).toNat) ∧
        decode e.encode sender running = .ok e := by
  have hsettle := settle_decode bytes sender running
  refine ⟨hsettle.ok_iff.trans (Wire.firstError?_checks bytes sender running),
    hsettle.error_iff, decodeGuarded_eq bytes sender running, fun e hread => ?_⟩
  obtain ⟨hflags, hsender, hrunning, kind, word, hbody⟩ := of_decode hread
  obtain ⟨hkind, hroom, hlength⟩ := Message.of_decodeBody hbody
  have hcount : uint32At (bytes.drop 40) 8 = uint32At bytes 48 := by
    rw [uint32At, uint32At, List.drop_drop]
  refine ⟨fun hreport => hcount ▸ hlength (hkind ▸ hreport), ?_⟩
  rw [← hsender]
  exact decode_encode hflags hroom hrunning

end Envelope

end ClusterFence
