import ClusterFence.Proofs.Fencing.Reports
import ClusterFence.Proofs.Victims

namespace ClusterFence

/-- The victim that a report says is resolved, and how. -/
def FencingReport.resolution? : FencingReport → Option (NodeId × Resolution)
  | .resolved victim how _ => some (victim, how)
  | _ => none

/-- What the daemon is told by some effects of a run. -/
def RunEffect.reports (effects : List RunEffect) : List FencingReport :=
  effects.filterMap RunEffect.report?

theorem RunEffect.mem_reports {effects : List RunEffect} {r : FencingReport} :
    r ∈ reports effects ↔ .report r ∈ effects := by
  unfold reports
  rw [List.mem_filterMap]
  constructor
  · rintro ⟨effect, heffect, hreport⟩
    cases effect with
    | report r' =>
      rw [report?, Option.some.injEq] at hreport
      exact hreport ▸ heffect
    | _ => cases hreport
  · intro h
    exact ⟨_, h, rfl⟩

/-- Whom some reports say is resolved, and how. -/
def FencingReport.resolutions (reports : List FencingReport) : List (NodeId × Resolution) :=
  reports.filterMap FencingReport.resolution?

namespace FencingRun

/-- Of the victims that nobody has dealt with, all but the resolved ones are still to come. -/
def Owes (victims : Victims) (resolved rest : List NodeId) : Prop :=
  ∀ node, victims.isOpen node = true → node ∈ resolved ∨ node ∈ rest

/-- The run is at a victim that nobody has dealt with. -/
structure IsAt (victims : Victims) (resolved : List NodeId) (node : NodeId) (rest : List NodeId) :
    Prop where
  isOpen : victims.isOpen node = true
  fresh : node ∉ resolved
  owes : Owes victims resolved (node :: rest)

/-- What holds of a run for the given victims at each of its stages. -/
def OnCourse (r : FencingRun) (victims : Victims) : Prop :=
  match r.stage with
  | .starting | .delaying _ | .listing | .over _ => True
  | .reducing _ rest _ =>
    (rest.map (·.node)).Nodup ∧ ∀ v ∈ rest, v.node ∈ victims.ids ∧ v.node ∉ r.resolved
  | .choosing rest => Owes victims r.resolved rest
  | .trying t rest | .calling t rest | .overriding t rest | .resting t rest =>
    IsAt victims r.resolved t.victim rest

/-- What a step of a run for the given victims comes to: it resolves nobody, or one of the victims,
    or reports that it is done, or stops because nobody listens. -/
inductive Comes (r : FencingRun) (victims : Victims) : FencingRun × List RunEffect → Prop
  | on {r' effects} (resolved : r'.resolved = r.resolved) (course : r'.OnCourse victims)
      (resolutions : FencingReport.resolutions (RunEffect.reports effects) = [])
      (ends : .finished ∉ RunEffect.reports effects) : Comes r victims (r', effects)
  | resolves {r' effects node how} (isVictim : node ∈ victims.ids) (fresh : node ∉ r.resolved)
      (fair : victims.isOpen node = false → how = .member)
      (resolved : r'.resolved = node :: r.resolved) (course : r'.OnCourse victims)
      (resolutions : FencingReport.resolutions (RunEffect.reports effects) = [(node, how)])
      (ends : .finished ∉ RunEffect.reports effects) : Comes r victims (r', effects)
  | ends {r' effects} (dealt : ∀ node, victims.isOpen node = true → node ∈ r.resolved)
      (reports : RunEffect.reports effects = [.finished]) (spent : r'.wants = .nothing) :
      Comes r victims (r', effects)
  | stops {r' effects} (reports : RunEffect.reports effects = []) (spent : r'.wants = .nothing) :
      Comes r victims (r', effects)

/-- What the reports of a step tell: whom it resolves, and that nobody is left if it is the last. -/
structure Tells (r : FencingRun) (victims : Victims) (step : FencingRun × List RunEffect)
    (news : List (NodeId × Resolution)) : Prop where
  nodup : (news.map (·.1)).Nodup
  fresh : ∀ resolution ∈ news, resolution.1 ∉ r.resolved
  fair : ∀ resolution ∈ news, resolution.1 ∈ victims.ids ∧
    (victims.isOpen resolution.1 = false → resolution.2 = .member)
  remembered : step.1.wants ≠ .nothing →
    step.1.OnCourse victims ∧ step.1.resolved = (news.map (·.1)).reverse ++ r.resolved
  ended : .finished ∈ RunEffect.reports step.2 →
    ∀ node, victims.isOpen node = true → node ∈ r.resolved

theorem Comes.tells {r : FencingRun} {victims : Victims} {step : FencingRun × List RunEffect}
    (h : Comes r victims step) :
    Tells r victims step (FencingReport.resolutions (RunEffect.reports step.2)) := by
  cases h with
  | on resolved course resolutions ends =>
    rw [resolutions]
    exact ⟨.nil, List.forall_mem_nil _, List.forall_mem_nil _, fun _ => ⟨course, resolved⟩,
      fun hends => absurd hends ends⟩
  | resolves isVictim fresh fair resolved course resolutions ends =>
    rw [resolutions]
    refine ⟨List.nodup_singleton _, ?_, ?_, fun _ => ⟨course, resolved⟩,
      fun hends => absurd hends ends⟩
    · exact List.forall_mem_singleton.2 fresh
    · exact List.forall_mem_singleton.2 ⟨isVictim, fair⟩
  | ends dealt reports spent =>
    rw [reports]
    exact ⟨.nil, List.forall_mem_nil _, List.forall_mem_nil _, fun hgoes => absurd spent hgoes,
      fun _ => dealt⟩
  | stops reports spent =>
    rw [reports]
    refine ⟨.nil, List.forall_mem_nil _, List.forall_mem_nil _, fun hgoes => absurd spent hgoes, ?_⟩
    rw [reports]
    exact fun hends => nomatch hends

section

variable {r : FencingRun} {victims : Victims} {s : Surroundings} {listening : Bool}

@[simp] theorem reports_append (effects more : List RunEffect) :
    RunEffect.reports (effects ++ more) = RunEffect.reports effects ++ RunEffect.reports more :=
  List.filterMap_append

@[simp] theorem reports_notice (notices : List Notice) :
    RunEffect.reports (notices.map .notice) = [] := by
  simp [RunEffect.reports, List.filterMap_map, Function.comp_def, RunEffect.report?]

/-- The run goes on to another stage. -/
theorem Comes.of_goTo {stage : Stage} {effects : List RunEffect}
    (hcourse : (r.goTo stage).OnCourse victims) (hreports : RunEffect.reports effects = []) :
    Comes r victims (r.goTo stage, effects) :=
  .on rfl hcourse (by rw [hreports]; rfl) (by simp [hreports])

/-- The run reports that a victim is resolved. -/
theorem Comes.of_resolve {node : NodeId} {how : Resolution} {reduced : Bool} {next : Stage}
    {before : List RunEffect} (hvictim : node ∈ victims.ids) (hfresh : node ∉ r.resolved)
    (hfair : victims.isOpen node = false → how = .member)
    (hcourse : OnCourse { r with resolved := node :: r.resolved, stage := next } victims)
    (hbefore : FencingReport.resolutions (RunEffect.reports before) = [])
    (hends : .finished ∉ RunEffect.reports before) :
    let step := r.resolve true node how reduced next
    Comes r victims (step.1, before ++ step.2) := by
  have hreports : RunEffect.reports (r.resolve true node how reduced next).2 =
      [.resolved node how reduced] := rfl
  refine .resolves hvictim hfresh hfair rfl hcourse ?_ ?_
  · rw [reports_append, hreports, FencingReport.resolutions, List.filterMap_append]
    exact congrArg (· ++ [(node, how)]) hbefore
  · rw [reports_append, hreports]
    simpa using hends

/-- The run reports that a victim is resolved, if anybody is listening. -/
theorem comes_resolve {node : NodeId} {how : Resolution} {reduced : Bool} {next : Stage}
    (notices : List Notice) (hvictim : node ∈ victims.ids) (hfresh : node ∉ r.resolved)
    (hfair : victims.isOpen node = false → how = .member)
    (hcourse : OnCourse { r with resolved := node :: r.resolved, stage := next } victims) :
    Comes r victims ((r.resolve listening node how reduced next).1,
      notices.map .notice ++ (r.resolve listening node how reduced next).2) := by
  cases listening with
  | true =>
    exact .of_resolve hvictim hfresh hfair hcourse (by rw [reports_notice]; rfl) (by simp)
  | false =>
    refine .stops ?_ rfl
    rw [reports_append, reports_notice]
    rfl

/-- Once the victim that the run is at is resolved, only the others are left. -/
theorem IsAt.choosing {node : NodeId} {rest : List NodeId} (h : IsAt victims r.resolved node rest) :
    OnCourse { r with resolved := node :: r.resolved, stage := .choosing rest } victims := by
  intro other hopen
  obtain hresolved | hrest := h.owes other hopen
  · exact .inl (List.mem_cons_of_mem _ hresolved)
  · obtain rfl | hrest := List.mem_cons.1 hrest
    · exact .inl List.mem_cons_self
    · exact .inr hrest

theorem IsAt.mem_ids {node : NodeId} {rest : List NodeId} (h : IsAt victims r.resolved node rest) :
    node ∈ victims.ids := Victims.mem_ids_of_isOpen h.isOpen

/-- An open victim may be resolved in any way. -/
theorem IsAt.fair {node : NodeId} {rest : List NodeId} (h : IsAt victims r.resolved node rest)
    (how : Resolution) : victims.isOpen node = false → how = .member := by
  intro hclosed
  rw [h.isOpen] at hclosed
  cases hclosed

theorem comes_check {t : Trial} {rest : List NodeId} (hat : IsAt victims r.resolved t.victim rest) :
    Comes r victims (r.check s listening t rest) := by
  unfold check
  cases listening with
  | false => exact .stops (reports_notice _) rfl
  | true =>
    have hbefore : RunEffect.reports (t.reminder.map RunEffect.notice ++
        [.report (.attempt t.victim)] ++
        (s.clusterNotices ++ s.history.lookupNotices t.victim).map .notice) =
          [.attempt t.victim] := by
      rw [reports_append, reports_append, reports_notice, reports_notice]
      rfl
    simp only [Bool.not_true, Bool.false_eq_true, if_false]
    cases s.averted? t.victim with
    | some how =>
      exact .of_resolve hat.mem_ids hat.fresh (hat.fair how) hat.choosing
        (by rw [hbefore]; rfl) (by rw [hbefore]; simp)
    | none =>
      have hreports : RunEffect.reports ((if t.isQuiet then []
          else [RunEffect.notice (.fencingNode t.name)]) ++ [.callAgent t.victim t.name]) = [] := by
        split <;> rfl
      refine .on rfl hat ?_ ?_ <;>
        rw [List.append_assoc, reports_append, hbefore, hreports]
      · rfl
      · simp

theorem comes_reduceOne {d : Delay} {v : Victim} {rest : List Victim} {remaining : Nat}
    (hnodup : ((v :: rest).map (·.node)).Nodup)
    (hfresh : ∀ w ∈ v :: rest, w.node ∈ victims.ids ∧ w.node ∉ r.resolved) :
    Comes r victims (r.reduceOne s listening d v rest remaining) := by
  rw [List.map_cons, List.nodup_cons] at hnodup
  unfold reduceOne
  dsimp only
  split
  · obtain ⟨hvictim, hunresolved⟩ := hfresh v List.mem_cons_self
    refine comes_resolve s.clusterNotices hvictim hunresolved (fun _ => rfl)
      ⟨hnodup.2, fun w hw => ?_⟩
    obtain ⟨hvictim, hresolved⟩ := hfresh w (List.mem_cons_of_mem _ hw)
    refine ⟨hvictim, fun hmem => ?_⟩
    obtain heq | hmem := List.mem_cons.1 hmem
    · exact hnodup.1 (heq ▸ List.mem_map_of_mem hw)
    · exact hresolved hmem
  · refine .of_goTo ⟨hnodup.2, fun w hw => hfresh w (List.mem_cons_of_mem _ hw)⟩ ?_
    exact reports_notice _

/-- What is left of the victims is what the run sees. -/
def Sees (r : FencingRun) (victims : Victims) (s : Surroundings) : Prop :=
  r.unresolved s = victims.toList.filter (!r.resolved.contains ·.node)

theorem comes_choose {node : NodeId} {rest : List NodeId} (hnodup : victims.ids.Nodup)
    (hsees : r.Sees victims s) (howes : Owes victims r.resolved (node :: rest)) :
    Comes r victims (r.choose s node rest) := by
  unfold choose
  rw [hsees]
  split
  · rename_i hnone
    refine .of_goTo (fun other hopen => ?_) rfl
    obtain hresolved | hrest := howes other hopen
    · exact .inl hresolved
    obtain rfl | hrest := List.mem_cons.1 hrest
    · -- the victim is there still, so it was resolved
      obtain ⟨v, hv, hnode⟩ := List.mem_map.1 (Victims.mem_ids_of_isOpen hopen)
      by_cases hresolved : other ∈ r.resolved
      · exact .inl hresolved
      · have hleft := List.find?_eq_none.1 hnone v (List.mem_filter.2 ⟨hv, by simpa [hnode]⟩)
        exact absurd (beq_iff_eq.2 hnode) hleft
    · exact .inr hrest
  · rename_i v hfind
    have hnode : v.node = node := by simpa using List.find?_some hfind
    obtain ⟨hmem, hfresh⟩ := List.mem_filter.1 (List.mem_of_find?_eq_some hfind)
    have hget := Victims.get?_of_mem hnodup hmem
    rw [hnode] at hget
    have hisOpen := (Victims.isOpen_eq_not_isClosed hnodup hget).1
    split
    · rename_i hclosed
      rw [hclosed] at hisOpen
      refine .of_goTo (fun other hopen => ?_) rfl
      refine (howes other hopen).imp_right fun hrest => ?_
      obtain rfl | hrest := List.mem_cons.1 hrest
      · rw [hisOpen] at hopen
        cases hopen
      · exact hrest
    · rename_i hopen
      rw [Bool.not_eq_true] at hopen
      rw [hopen] at hisOpen
      have hfresh : node ∉ r.resolved := by simpa [hnode] using hfresh
      exact .of_goTo ⟨hisOpen, hfresh, howes⟩ rfl

theorem comes_turn (hnodup : victims.ids.Nodup) (hsees : r.Sees victims s)
    (hcourse : r.OnCourse victims) (now : Nat) (listening : Bool) :
    Comes r victims (r.turn now s listening) := by
  have hgoTo {stage : Stage} (hcourse : (r.goTo stage).OnCourse victims) :
      Comes r victims (r.goTo stage, []) := .of_goTo hcourse rfl
  have hstays : Comes r victims (r, []) := .on rfl hcourse rfl List.not_mem_nil
  unfold OnCourse at hcourse
  unfold turn
  cases hstage : r.stage with
  | starting =>
    simp only [start]
    generalize (if r.nodesJoined then _ else _) = seconds
    split <;> (refine hgoTo ?_; trivial)
  | delaying d =>
    dsimp only
    rw [hsees]
    refine hgoTo ⟨(hnodup.sublist (List.filter_sublist.map _)), fun v hv => ?_⟩
    obtain ⟨hv, hfresh⟩ := List.mem_filter.1 hv
    exact ⟨List.mem_map_of_mem hv, by simpa [goTo] using hfresh⟩
  | reducing d rest remaining =>
    rw [hstage] at hcourse
    cases rest with
    | nil =>
      simp only [endPoll]
      split
      · refine hgoTo ?_
        trivial
      · split <;> (refine hgoTo ?_; trivial)
    | cons v rest => exact comes_reduceOne hcourse.1 hcourse.2
  | listing =>
    dsimp only
    rw [hsees]
    refine hgoTo fun node hopen => ?_
    obtain ⟨v, hv, hnode⟩ := List.mem_map.1 (Victims.mem_ids_of_isOpen hopen)
    by_cases hresolved : node ∈ r.resolved
    · exact .inl hresolved
    · exact .inr (List.mem_map.2 ⟨v, List.mem_filter.2 ⟨hv, by simpa [hnode]⟩, hnode⟩)
  | choosing rest =>
    rw [hstage] at hcourse
    cases rest with
    | nil =>
      cases listening with
      | true => exact .ends (fun node hopen => (hcourse node hopen).resolve_right (by simp)) rfl rfl
      | false => exact .stops rfl rfl
    | cons node rest => exact comes_choose hnodup hsees hcourse
  | trying t rest =>
    rw [hstage] at hcourse
    exact comes_check hcourse
  | resting t rest =>
    rw [hstage] at hcourse
    exact hgoTo hcourse
  | _ => exact hstays

/-- What comes of the agent's work. What is remembered of it changes neither the victim nor its
    name. -/
theorem agentDone_calling {t : Trial} {rest : List NodeId} (hstage : r.stage = .calling t rest)
    (listening : Bool) (a : AgentAnswer) :
    ∃ (notices : List Notice) (t' : Trial), t'.victim = t.victim ∧ t'.name = t.name ∧
      r.agentDone listening a =
        if a.outcome.success then
          let step := r.resolve listening t.victim .agent false (.choosing rest)
          (step.1, notices.map .notice ++ step.2)
        else if r.overridable then
          (r.goTo (.overriding t' rest),
            notices.map .notice ++ [.awaitOverride t.victim t.name r.settings.overrideTime])
        else (r.goTo (.resting t' rest), notices.map .notice) := by
  unfold agentDone
  rw [hstage]
  by_cases hrepeated : t.isRepeated a.outcome
  · exact ⟨Trial.crashNotices t.name a, t, rfl, rfl, by simp [hrepeated]⟩
  · exact ⟨Trial.crashNotices t.name a ++ Trial.outcomeNotices t.name a.outcome,
      { t with lastLog := some a.outcome.log }, rfl, rfl, by simp [hrepeated]⟩

theorem comes_agentDone (hcourse : r.OnCourse victims) (listening : Bool) (a : AgentAnswer) :
    Comes r victims (r.agentDone listening a) := by
  unfold OnCourse at hcourse
  cases hstage : r.stage with
  | calling t rest =>
    rw [hstage] at hcourse
    obtain ⟨notices, t', hvictim, -, hdone⟩ := agentDone_calling hstage listening a
    have hat : IsAt victims r.resolved t'.victim rest := hvictim ▸ hcourse
    rw [hdone]
    split
    · exact comes_resolve notices hcourse.mem_ids hcourse.fresh (hcourse.fair _) hcourse.choosing
    · split
      · refine .of_goTo hat ?_
        rw [reports_append, reports_notice]
        rfl
      · exact .of_goTo hat (reports_notice _)
  | _ =>
    simp only [agentDone, hstage]
    exact .on rfl hcourse rfl List.not_mem_nil

theorem comes_overrideDone (hcourse : r.OnCourse victims) (listening overridden : Bool) :
    Comes r victims (r.overrideDone listening overridden) := by
  unfold OnCourse at hcourse
  unfold overrideDone
  split
  · rename_i t rest hstage
    rw [hstage] at hcourse
    split
    · exact comes_resolve [.fenceOverridden t.name] hcourse.mem_ids hcourse.fresh (hcourse.fair _)
        hcourse.choosing
    · exact .of_goTo hcourse rfl
  · exact .on rfl hcourse rfl List.not_mem_nil

end

end FencingRun

end ClusterFence
