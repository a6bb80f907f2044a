import ClusterFence.Transport.Retry
import Mathlib.Algebra.BigOperators.Group.Finset.Basic

namespace ClusterFence

namespace Script

variable {α : Type} {s : Script α} {a : α} {n : Nat}

/-- What is left of a script after so many answers. -/
def drop (s : Script α) : Nat → Script α
  | 0 => s
  | n + 1 => s.next.2.drop n

/-- The answer to the call with this number. The first call has number zero. -/
def answer (s : Script α) (n : Nat) : α := (s.drop n).next.1

@[simp] theorem answer_zero (s : Script α) : s.answer 0 = s.next.1 := rfl

@[simp] theorem answer_succ (s : Script α) (n : Nat) : s.answer (n + 1) = s.next.2.answer n := rfl

/-- The answers come in the order in which they were given. -/
theorem answer_of_getElem? (h : s.answers[n]? = some a) : s.answer n = a := by
  obtain ⟨usual, answers⟩ := s
  induction answers generalizing n with
  | nil => cases h
  | cons first rest ih =>
    cases n with
    | zero => cases rest <;> simpa [next] using h
    | succ n =>
      cases rest with
      | nil => cases h
      | cons second rest => exact ih (by simpa using h)

/-- The group service is busy for the first `k` calls, and then its answer is `r`. -/
structure BusyFor (s : Script Answer) (k : Nat) (r : Answer) : Prop where
  busy : ∀ i < k, s.answer i = .error .tryAgain
  answered : s.answer k = r
  final : r ≠ .error .tryAgain

theorem busyFor_replicate (usual : Answer) (k : Nat) {r : Answer} (hfinal : r ≠ .error .tryAgain)
    (rest : List Answer) :
    ({ usual, answers := List.replicate k (.error .tryAgain) ++ r :: rest } :
      Script Answer).BusyFor k r where
  busy i hi := by
    apply answer_of_getElem?
    rw [List.getElem?_append_left (by simpa using hi)]
    exact List.getElem?_replicate_of_lt hi
  answered := by
    apply answer_of_getElem?
    rw [List.getElem?_append_right (by simp)]
    simp
  final := hfinal

end Script

/-- What a call hands over to the members of a group, given the answer to it. -/
def TransportCall.delivery? : TransportCall → Answer → Option (GroupName × List UInt8)
  | .multicast group data, .ok () => some (group, data)
  | _, _ => none

/-- What is handed over by calls that are answered by a script. -/
def deliveries (calls : List TransportCall) (script : Script Answer) :
    List (GroupName × List UInt8) :=
  calls.zipIdx.filterMap fun (call, n) => call.delivery? (script.answer n)

section

variable {σ : Type} [Retried σ] {script : Script Answer} {result : Answer} {last : List Notice}

/-- The course of a call that is turned away `k` times: `s i` is what it has become after `i` of
    them. -/
theorem callUntilOver_eq (k : Nat) (s : Nat → σ) (call : TransportCall) (pause : Nat → Nat)
    (notices : Nat → List Notice) (hcall : ∀ i, Retried.call (s i) = call)
    (hagain : ∀ i < k,
      Retried.answered (s i) (script.answer i) = .again (pause i) (notices i) (s (i + 1)))
    (hover : Retried.answered (s k) (script.answer k) = .over result last) (fuel : Nat) :
    callUntilOver fuel (s 0) script =
      if k < fuel then
        some
          { result
            calls := List.replicate (k + 1) call
            elapsed := ∑ i ∈ Finset.range k, pause i
            notices := (List.range k).flatMap notices ++ last }
      else none := by
  induction k generalizing script s pause notices fuel with
  | zero =>
    cases fuel with
    | zero => rfl
    | succ fuel =>
      simp only [Script.answer_zero] at hover
      simp [callUntilOver, hover, hcall]
  | succ k ih =>
    cases fuel with
    | zero => rfl
    | succ fuel =>
      have hfirst := hagain 0 (Nat.succ_pos k)
      simp only [Script.answer_zero] at hfirst
      have hrest := ih (fun i => s (i + 1)) (fun i => pause (i + 1)) (fun i => notices (i + 1))
        (fun i => hcall (i + 1)) (fun i hi => hagain (i + 1) (Nat.succ_lt_succ hi)) hover fuel
      simp only [callUntilOver, hfirst, hrest, hcall, Nat.succ_lt_succ_iff]
      split
      · rw [Option.map_some, Finset.sum_range_succ', List.range_succ_eq_map,
          Nat.add_comm (∑ i ∈ Finset.range k, pause (i + 1)), List.flatMap_cons, List.flatMap_map,
          List.append_assoc]
        rfl
      · rfl

/-- Of the retries with numbers up to `k` those are told of whose number is a multiple of
    `period`. -/
theorem flatMap_everyTime (period k : Nat) (n : Nat → Notice) :
    (List.range k).flatMap (fun i => everyTime period (i + 1) (n (i + 1))) =
      ((List.range' 1 k).filter (period ∣ ·)).map n := by
  induction k with
  | zero => rfl
  | succ k ih =>
    rw [List.range_succ, List.flatMap_append, ih, List.range'_1_concat, List.filter_append,
      List.map_append, List.flatMap_singleton, everyTime, Nat.add_comm 1 k]
    by_cases hdue : period ∣ k + 1
    · simp [hdue, Nat.mod_eq_zero_of_dvd hdue]
    · simp [hdue, mt Nat.dvd_of_mod_eq_zero hdue]

end

section

variable {script : Script Answer} {k : Nat} {r : Answer}

/-- No answer but the last can be one of success. -/
theorem deliveries_replicate (h : script.BusyFor k r) (group : GroupName) (data : List UInt8) :
    deliveries (List.replicate (k + 1) (.multicast group data)) script =
      if r = .ok () then [(group, data)] else [] := by
  have hbusy : ((List.replicate k (TransportCall.multicast group data)).zipIdx).filterMap
      (fun (call, n) => call.delivery? (script.answer n)) = [] := by
    rw [List.filterMap_eq_nil_iff]
    rintro ⟨call, n⟩ hmem
    have hn : n < k := by
      simpa using List.snd_lt_of_mem_zipIdx hmem
    change call.delivery? (script.answer n) = none
    rw [h.busy n hn]
    cases call <;> rfl
  rw [deliveries, List.replicate_succ', List.zipIdx_append, List.filterMap_append, hbusy]
  simp only [List.length_replicate, Nat.zero_add, List.zipIdx_singleton, List.filterMap_cons,
    List.filterMap_nil, List.nil_append, h.answered]
  obtain e | ⟨⟩ := r <;> simp [TransportCall.delivery?]

end

/-- A call is made again only if it was turned away. -/
theorem Error.isRetryable_eq_false {e : Error} (h : (.error e : Answer) ≠ .error .tryAgain) :
    e.isRetryable = false := by
  cases e with
  | tryAgain => exact absurd rfl h
  | _ => rfl

namespace Sending

/-- A message that has been turned away `i` times. -/
def turnedAway (group : GroupName) (data : List UInt8) (label : String) (i : Nat) : Sending :=
  { group, data, label, retries := i, pause := min (2 ^ i) longestPause }

theorem answered_busy (group : GroupName) (data : List UInt8) (label : String) (i : Nat) :
    (turnedAway group data label i).answered (.error .tryAgain) =
      .again (min (2 ^ i) longestPause)
        (everyTime noticePeriod (i + 1) (.sendRetried group (i + 1) label))
        (turnedAway group data label (i + 1)) := by
  have hnext : (turnedAway group data label i).next = turnedAway group data label (i + 1) := by
    simp only [next, turnedAway, mk.injEq, true_and]
    rw [Nat.pow_succ]
    omega
  rw [← hnext]
  rfl

/-- The log is told of a failure, under the name that the message has there. -/
def farewell (group : GroupName) (label : String) : Answer → List Notice
  | .ok () => []
  | .error e => [.sendFailed group e label]

theorem answered_final {r : Answer} (h : r ≠ .error .tryAgain) (s : Sending) :
    s.answered r = .over r (farewell s.group s.label r) := by
  cases r with
  | ok => rfl
  | error e =>
    have hfinal : e.isRetryable = false := Error.isRetryable_eq_false h
    simp [answered, farewell, hfinal]

/-- What comes of a message that is sent to a group that is busy. -/
theorem callUntilOver_of_busyFor {script : Script Answer} {k : Nat} {r : Answer}
    (h : script.BusyFor k r) (group : GroupName) (data : List UInt8) (label : String)
    (fuel : Nat) :
    callUntilOver fuel ({ group, data, label } : Sending) script =
      if k < fuel then
        some
          { result := r
            calls := List.replicate (k + 1) (.multicast group data)
            elapsed := ∑ i ∈ Finset.range k, min (2 ^ i) longestPause
            notices := ((List.range' 1 k).filter (noticePeriod ∣ ·)).map
              (.sendRetried group · label) ++ farewell group label r }
      else none := by
  have hcourse := callUntilOver_eq k (turnedAway group data label) (.multicast group data) _ _
    (fun _ => rfl) (fun i hi => by rw [h.busy i hi]; exact answered_busy group data label i)
    (by rw [h.answered]; exact answered_final h.final _) fuel
  rw [flatMap_everyTime noticePeriod k fun n => .sendRetried group n label] at hcourse
  exact hcourse

end Sending

namespace Joining

/-- A group that was not to be joined `i` times. -/
def turnedAway (group : GroupName) (i : Nat) : Joining := { group, retries := i }

/-- What is answered when the group service has spoken. -/
def outcome (group : GroupName) : Answer → Answer
  | .ok () => .ok ()
  | .error e => .error (.joinFailed group.text e.message)

theorem answered_final {r : Answer} (h : r ≠ .error .tryAgain) (j : Joining) :
    j.answered r = .over (outcome j.group r) [] := by
  cases r with
  | ok => rfl
  | error e =>
    have hfinal : e.isRetryable = false := Error.isRetryable_eq_false h
    simp [answered, outcome, hfinal]

/-- What comes of joining a group that is busy. -/
theorem callUntilOver_of_busyFor {script : Script Answer} {k : Nat} {r : Answer}
    (h : script.BusyFor k r) (group : GroupName) (fuel : Nat) :
    callUntilOver fuel ({ group } : Joining) script =
      if k < fuel then
        some
          { result := outcome group r
            calls := List.replicate (k + 1) (.join group)
            elapsed := k * pause
            notices := ((List.range' 1 k).filter (noticePeriod ∣ ·)).map (.joinRetried group ·) }
      else none := by
  have hcourse := callUntilOver_eq k (turnedAway group) (.join group) (fun _ => pause)
    (fun i => everyTime noticePeriod (i + 1) (.joinRetried group (i + 1)))
    (fun _ => rfl) (fun i hi => by rw [h.busy i hi]; rfl)
    (by rw [h.answered]; exact answered_final h.final _) fuel
  rw [flatMap_everyTime noticePeriod k fun n => .joinRetried group n, List.append_nil,
    Finset.sum_const, Finset.card_range, Nat.nsmul_eq_mul] at hcourse
  exact hcourse

/-- Whoever is not let into a group gives up for good, and does not ask again. -/
theorem fatal_of_outcome {group : GroupName} {r : Answer} {e : Error}
    (h : outcome group r = .error e) : e.isFatal = true ∧ e.isRetryable = false := by
  cases r with
  | ok => cases h
  | error cause =>
    obtain rfl := Except.error.inj h
    exact ⟨rfl, rfl⟩

end Joining

/-- Of a group service that is busy for any number of calls, and then gives an answer that is final.
    A message that is sent comes to that answer, after one call more than that, each of them with
    the same group and data. The pauses between them double, up to the longest; the log is told of
    every hundredth retry, and of a failure. The message is handed over once if the answer is good,
    and else not at all. To join a group takes as many calls, with a second between them; the log is
    told of every tenth retry. What comes of it is the answer, if it is good, or else a failure to
    join, for the reason that was given, which is fatal and never tried again. -/
theorem retries_untilAnswered {script : Script Answer} {k : Nat} {r : Answer}
    (h : script.BusyFor k r) (group : GroupName) (data : List UInt8) (label : String) :
    (∃ sent : CallRecord,
      (∀ fuel, callUntilOver fuel ({ group, data, label } : Sending) script =
        if k < fuel then some sent else none) ∧
      sent.result = r ∧
      sent.calls = List.replicate (k + 1) (.multicast group data) ∧
      sent.elapsed = ∑ i ∈ Finset.range k, min (2 ^ i) 100 ∧
      sent.notices = ((List.range' 1 k).filter (100 ∣ ·)).map (.sendRetried group · label) ++
        (match r with
        | .ok () => []
        | .error e => [.sendFailed group e label]) ∧
      deliveries sent.calls script = if r = .ok () then [(group, data)] else []) ∧
    ∃ joined : CallRecord,
      (∀ fuel, callUntilOver fuel ({ group } : Joining) script =
        if k < fuel then some joined else none) ∧
      joined.result =
        (match r with
        | .ok () => .ok ()
        | .error e => .error (.joinFailed group.text e.message)) ∧
      joined.calls = List.replicate (k + 1) (.join group) ∧
      joined.elapsed = k * 1000 ∧
      joined.notices = ((List.range' 1 k).filter (10 ∣ ·)).map (.joinRetried group ·) ∧
      ∀ e, joined.result = .error e → e.isFatal = true ∧ e.isRetryable = false := by
  refine ⟨⟨_, Sending.callUntilOver_of_busyFor h group data label, rfl, rfl, rfl, ?_, ?_⟩,
    ⟨_, Joining.callUntilOver_of_busyFor h group, ?_, rfl, rfl, rfl, ?_⟩⟩
  · obtain e | ⟨⟩ := r <;> rfl
  · exact deliveries_replicate h group data
  · obtain e | ⟨⟩ := r <;> rfl
  · exact fun e => Joining.fatal_of_outcome

/-- A group service that is busy for twelve calls and then breaks down. -/
def Script.busyThenDown : Script Answer where
  usual := .ok ()
  answers := List.replicate 12 (.error .tryAgain) ++ [.error (.transport "down")]

theorem retries_untilAnswered_busyThenDown :
    Script.busyThenDown.BusyFor 12 (.error (.transport "down")) ∧
    ∃ joined : CallRecord,
      callUntilOver 13 ({ group := .daemon } : Joining) .busyThenDown = some joined ∧
      joined.result = .error (.joinFailed "fenced:daemon" "Group transport error: down") ∧
      joined.elapsed = 12000 ∧ joined.notices = [.joinRetried .daemon 10] := by
  have hbusy : Script.busyThenDown.BusyFor 12 (.error (.transport "down")) :=
    Script.busyFor_replicate (.ok ()) 12 (by simp) []
  obtain ⟨-, joined, hjoined, hresult, -, helapsed, hnotices, -⟩ :=
    retries_untilAnswered hbusy .daemon [] "start"
  refine ⟨hbusy, joined, ?_, hresult, helapsed, ?_⟩
  · rw [hjoined, if_pos (by decide)]
  · rw [hnotices]
    rfl

end ClusterFence
