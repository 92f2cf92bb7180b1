import RoadRules.Proofs.Network.Oneway

set_option autoImplicit false

/-! # What a session publishes

A router shows one network and one list of issues at a time. Over a whole session both are those of
the last change that has succeeded (`Router.performAll_published`): a change builds everything that
it publishes before it publishes any of it, so one that fails leaves the network and the issues of
the change before it, and a question leaves them too. Whether a change succeeds does not depend on
what is published at the time, because a router never changes its mapper or its policy. -/

namespace RoadRules

variable {α : Type} [Geometry α] {m : TagMapper} {policy : Policy α}

/-! ## Changes -/

/-- **What a change publishes** on a router with a mapper and a policy: a network, and the issues
that belong to it. -/
inductive Change.Publishes (m : TagMapper) (policy : Policy α) :
    Change α → Network α → List Issue → Prop where
  /-- Nothing is left of what was published before. -/
  | clear : Publishes m policy .clear .empty []
  /-- The tags of the ways are read; the issues are the tags that are refused. -/
  | tags {ways : List (Way α)} {ix : RestrictionIndex α} {g : Network α} :
      RestrictionIndex.ofWays ways standardKeys .unlimited = .ok ix →
      Network.ofWays m policy.metric ix.restrictionsFor ways = .ok g →
      Publishes m policy (.rebuild ways .tags) g ix.issues
  /-- The issues are those of the index, whichever ways it was made for. -/
  | index {ways : List (Way α)} {ix : RestrictionIndex α} {g : Network α} :
      Network.ofWays m policy.metric ix.restrictionsFor ways = .ok g →
      Publishes m policy (.rebuild ways (.index ix)) g ix.issues
  /-- Lists of restrictions come without issues. -/
  | given {ways : List (Way α)} {lists : OrderedMap Ident (List (Restriction α))}
      {g : Network α} :
      Network.ofWays m policy.metric (fun way => (lists.get? way).getD []) ways = .ok g →
      Publishes m policy (.rebuild ways (.given lists)) g []

/-- Whether a change publishes anything; one that does not is one that fails. -/
def Change.Succeeds (m : TagMapper) (policy : Policy α) (c : Change α) : Prop :=
  ∃ g issues, c.Publishes m policy g issues

theorem Change.publishes_rebuild_iff {ways : List (Way α)} {source : RestrictionSource α}
    {g : Network α} {issues : List Issue} :
    (Change.rebuild ways source).Publishes m policy g issues ↔
      ∃ ix, source.resolve ways = .ok ix ∧
        Network.ofWays m policy.metric ix.restrictionsFor ways = .ok g ∧ ix.issues = issues := by
  constructor
  · intro h
    cases h with
    | tags hix hg => exact ⟨_, hix, hg, rfl⟩
    | index hg => exact ⟨_, rfl, hg, rfl⟩
    | given hg => exact ⟨_, rfl, hg, rfl⟩
  · rintro ⟨ix, hix, hg, rfl⟩
    cases source with
    | tags => exact .tags hix hg
    | index ix' =>
        cases hix
        exact .index hg
    | given lists =>
        cases hix
        exact .given hg

/-- Whether a way takes part although it has no links: what the configuration says about it cannot
be read, or its length would be divided by a factor of zero. -/
def Way.IsUnlinkable (m : TagMapper) (w : Way α) : Prop :=
  w.takesPart m = true ∧ ∀ attributes : WayAttributes α,
    m.attributes w.scalarTags = .ok attributes → Quantity.isZero attributes.speedFactor = true

/-- **A rebuild fails if one way is unlinkable**, however late it comes among the ways. -/
theorem Change.not_succeeds_of_isUnlinkable {ways : List (Way α)} {source : RestrictionSource α}
    {w : Way α} (hw : w ∈ ways) (hunlinkable : w.IsUnlinkable m) :
    ¬(Change.rebuild ways source).Succeeds m policy := by
  obtain ⟨htakes, hzero⟩ := hunlinkable
  rintro ⟨g, issues, hpublishes⟩
  obtain ⟨ix, -, hg, -⟩ := publishes_rebuild_iff.mp hpublishes
  obtain ⟨lss, hlinked, -⟩ := Network.ofWays_eq_ok hg
  obtain ⟨ls, -, hls⟩ := exists_of_forall₂ hlinked w (List.mem_filter.mpr ⟨hw, htakes⟩)
  obtain ⟨attributes, segments, hattributes, hsegments, -⟩ := Link.ofWay_eq_ok_iff.mp hls
  -- A way that takes part has a segment, and its length would be divided by the factor.
  obtain ⟨s, hs⟩ := List.exists_mem_of_ne_nil _
    (Way.segments_ne_nil (Way.length_of_takesPart htakes))
  obtain ⟨links, -, hlinks⟩ := exists_of_forall₂ hsegments s hs
  obtain ⟨length, -, hfactor, -⟩ := Link.ofSegment_eq_ok_iff.mp hlinks
  rw [hzero attributes hattributes] at hfactor
  cases hfactor

/-- **A change that publishes anything** puts it in the place of the network and the issues of the
router, and nothing else is replaced. -/
theorem Change.outcome_of_publishes {c : Change α} {r : Router α} {g : Network α}
    {issues : List Issue} (h : c.Publishes r.mapper r.policy g issues) :
    ∃ reply, (RouterM.change c).outcome r =
      (.ok reply, { r with network := g, issues := issues }) := by
  cases c with
  | clear =>
      cases h
      exact ⟨.cleared, rfl⟩
  | rebuild ways source =>
      obtain ⟨ix, hix, hg, rfl⟩ := publishes_rebuild_iff.mp h
      have hdone := RouterM.outcome_rebuild_of_ok hix hg
      refine ⟨.rebuilt g.statistics, ?_⟩
      unfold RouterM.change
      rw [RouterM.outcome_bind_of_ok (congrArg Prod.fst hdone), hdone]
      rfl

/-- A change that does not fail publishes something. -/
theorem Change.succeeds_of_outcome {c : Change α} {r : Router α} {reply : Reply α}
    (h : ((RouterM.change c).outcome r).1 = .ok reply) : c.Succeeds r.mapper r.policy := by
  cases c with
  | clear => exact ⟨.empty, [], .clear⟩
  | rebuild ways source =>
      cases hrebuild : ((RouterM.rebuild ways source).outcome r).1 with
      | ok counts =>
          obtain ⟨ix, g, hix, hg⟩ := RouterM.exists_of_outcome_rebuild hrebuild
          exact ⟨g, ix.issues, publishes_rebuild_iff.mpr ⟨ix, hix, hg, rfl⟩⟩
      | error f =>
          unfold RouterM.change at h
          rw [RouterM.outcome_bind_of_error hrebuild] at h
          cases h

/-! ## Operations -/

namespace Router

/-- **Nothing is half done**: an operation that fails leaves the router as it was. -/
theorem perform_of_error {r : Router α} {o : Operation α} {f : Fault}
    (h : (r.perform o).2 = .error f) : (r.perform o).1 = r :=
  RouterM.atomic_operate o r f h

/-- **What one operation does** to a router: a change that succeeds replaces what is published, a
change that fails replaces nothing, and neither does a question. -/
theorem perform_cases (r : Router α) (o : Operation α) :
    (∃ c g issues reply, o = .change c ∧ c.Publishes r.mapper r.policy g issues ∧
      r.perform o = ({ r with network := g, issues := issues }, .ok reply)) ∨
    (∃ c f, o = .change c ∧ ¬c.Succeeds r.mapper r.policy ∧ r.perform o = (r, .error f)) ∨
    (∃ q, o = .ask q ∧ r.perform o = (r, r.answer q)) := by
  cases o with
  | ask q =>
      refine Or.inr (Or.inr ⟨q, rfl, ?_⟩)
      show ((RouterM.ask q).outcome r).swap = _
      rw [RouterM.outcome_ask]
      rfl
  | change c =>
      by_cases hsucceeds : c.Succeeds r.mapper r.policy
      · obtain ⟨g, issues, hpublishes⟩ := hsucceeds
        obtain ⟨reply, hdone⟩ := Change.outcome_of_publishes hpublishes
        exact Or.inl ⟨c, g, issues, reply, rfl, hpublishes, congrArg Prod.swap hdone⟩
      · refine Or.inr (Or.inl ?_)
        cases hreply : (r.perform (.change c)).2 with
        | ok reply => exact absurd (Change.succeeds_of_outcome hreply) hsucceeds
        | error f => exact ⟨c, f, rfl, hsucceeds, Prod.ext (perform_of_error hreply) hreply⟩

/-- An operation that is no change that succeeds leaves the router as it is. -/
theorem perform_eq_self {r : Router α} {o : Operation α}
    (ho : ∀ c, o = .change c → ¬c.Succeeds r.mapper r.policy) : (r.perform o).1 = r := by
  obtain ⟨c, g, issues, _, hc, hpublishes, -⟩ | ⟨_, _, -, -, hsame⟩ | ⟨_, -, hsame⟩ :=
    r.perform_cases o
  · exact absurd ⟨g, issues, hpublishes⟩ (ho c hc)
  · rw [hsame]
  · rw [hsame]

/-- A change is replied to without a fault just when it succeeds. -/
theorem isOk_perform_iff {r : Router α} {c : Change α} :
    (∃ reply, (r.perform (.change c)).2 = .ok reply) ↔ c.Succeeds r.mapper r.policy := by
  obtain ⟨c', g, issues, reply, hc, hpublishes, hmade⟩ | ⟨c', f, hc, hfails, hsame⟩ | ⟨_, hq, -⟩ :=
    r.perform_cases (.change c)
  · cases hc
    rw [hmade]
    exact ⟨fun _ => ⟨g, issues, hpublishes⟩, fun _ => ⟨reply, rfl⟩⟩
  · cases hc
    rw [hsame]
    exact ⟨nofun, fun hsucceeds => absurd hsucceeds hfails⟩
  · cases hq

/-! ## Sessions -/

theorem performAll_cons (r : Router α) (o : Operation α) (rest : List (Operation α)) :
    r.performAll (o :: rest) = (((r.perform o).1.performAll rest).1,
      (r.perform o).2 :: ((r.perform o).1.performAll rest).2) := rfl

theorem performAll_append (r : Router α) (xs ys : List (Operation α)) :
    (r.performAll (xs ++ ys)).1 = ((r.performAll xs).1.performAll ys).1 := by
  induction xs generalizing r with
  | nil => rfl
  | cons o rest ih => exact ih (r.perform o).1

/-- **What a session leaves behind**: the router that it began with, if no change has succeeded, and
else what the last change that has succeeded publishes. -/
theorem performAll_cases (r : Router α) (os : List (Operation α)) :
    ((∀ c, .change c ∈ os → ¬c.Succeeds r.mapper r.policy) ∧ (r.performAll os).1 = r) ∨
    ∃ before c after g issues, os = before ++ .change c :: after ∧
      c.Publishes r.mapper r.policy g issues ∧
      (∀ c', .change c' ∈ after → ¬c'.Succeeds r.mapper r.policy) ∧
      (r.performAll os).1 = { r with network := g, issues := issues } := by
  induction os generalizing r with
  | nil => exact Or.inl ⟨nofun, rfl⟩
  | cons o rest ih =>
      by_cases ho : ∀ c, o = .change c → ¬c.Succeeds r.mapper r.policy
      · have hrun : (r.performAll (o :: rest)).1 = (r.performAll rest).1 := by
          rw [performAll_cons, perform_eq_self ho]
        rw [hrun]
        obtain ⟨hnone, hsame⟩ | ⟨before, c, after, g, issues, rfl, hlast⟩ := ih r
        · refine Or.inl ⟨fun c hc => ?_, hsame⟩
          rcases List.mem_cons.mp hc with rfl | hc
          · exact ho c rfl
          · exact hnone c hc
        · exact Or.inr ⟨o :: before, c, after, g, issues, rfl, hlast⟩
      · obtain ⟨c, g, issues, _, rfl, hpublishes, hmade⟩ | ⟨c, _, hc, hfails, -⟩ | ⟨q, hq, -⟩ :=
          r.perform_cases o
        · rw [performAll_cons, hmade]
          -- The new router has the same mapper and policy, so the same changes succeed on it.
          obtain ⟨hnone, hsame⟩ | ⟨before, c', after, g', issues', rfl, hlast⟩ :=
            ih { r with network := g, issues := issues }
          · exact Or.inr ⟨[], c, rest, g, issues, rfl, hpublishes, hnone, hsame⟩
          · exact Or.inr ⟨.change c :: before, c', after, g', issues', rfl, hlast⟩
        · exact absurd (fun c' hc' => by cases hc.symm.trans hc'; exact hfails) ho
        · exact absurd (fun c hc => by cases hq.symm.trans hc) ho

theorem performAll_same (r : Router α) (os : List (Operation α)) :
    (r.performAll os).1.mapper = r.mapper ∧ (r.performAll os).1.policy = r.policy := by
  obtain ⟨-, hsame⟩ | ⟨_, _, _, _, _, -, -, -, hlast⟩ := r.performAll_cases os
  · rw [hsame]
    exact ⟨rfl, rfl⟩
  · rw [hlast]
    exact ⟨rfl, rfl⟩

/-- The replies to the changes of a session tell which of them have succeeded. -/
theorem forall₂_replies (r : Router α) (os : List (Operation α)) :
    List.Forall₂ (fun o reply => ∀ c, o = .change c →
      ((∃ v, reply = .ok v) ↔ c.Succeeds r.mapper r.policy)) os (r.performAll os).2 := by
  induction os generalizing r with
  | nil => exact .nil
  | cons o rest ih =>
      have hrest := ih (r.perform o).1
      obtain ⟨hmapper, hpolicy⟩ := r.performAll_same [o]
      have hstep : (r.performAll [o]).1 = (r.perform o).1 := rfl
      rw [hstep] at hmapper hpolicy
      rw [hmapper, hpolicy] at hrest
      refine .cons (fun c hc => ?_) hrest
      rw [hc]
      exact isOk_perform_iff

/-- **What is published after a session** with a new router: the network and the issues of the last
change that has succeeded, together, or the empty network and no issues. The replies tell which
changes have succeeded. One more operation that is a question or a change that fails leaves both as
they are; a rebuild does so if any of its ways is unlinkable, however late that is met. -/
theorem performAll_published (m : TagMapper) (policy : Policy α) (os : List (Operation α)) :
    let start := Router.ofMapper m policy
    let s := start.performAll os
    ((∃ before c after, os = before ++ .change c :: after ∧
          c.Publishes m policy s.1.network s.1.issues ∧
          ∀ c', .change c' ∈ after → ¬c'.Succeeds m policy) ∨
        (∀ c, .change c ∈ os → ¬c.Succeeds m policy) ∧
          s.1.network = .empty ∧ s.1.issues = []) ∧
      List.Forall₂ (fun o reply => ∀ c, o = .change c →
        ((∃ v, reply = .ok v) ↔ c.Succeeds m policy)) os s.2 ∧
      (∀ o, (∀ c, o = .change c → ¬c.Succeeds m policy) →
        (start.performAll (os ++ [o])).1 = s.1) ∧
      ∀ ways source, (∃ w ∈ ways, w.IsUnlinkable m) →
        (start.performAll (os ++ [.change (.rebuild ways source)])).1 = s.1 := by
  intro start s
  obtain ⟨hmapper, hpolicy⟩ : s.1.mapper = m ∧ s.1.policy = policy := start.performAll_same os
  have hkept : ∀ o, (∀ c, o = .change c → ¬c.Succeeds m policy) →
      (start.performAll (os ++ [o])).1 = s.1 := by
    intro o ho
    rw [performAll_append]
    refine perform_eq_self fun c hc => ?_
    rw [hmapper, hpolicy]
    exact ho c hc
  refine ⟨?_, start.forall₂_replies os, hkept, fun ways source ⟨w, hw, hunlinkable⟩ => ?_⟩
  · obtain ⟨hnone, hsame⟩ | ⟨before, c, after, g, issues, hos, hpublishes, hnone, hlast⟩ :=
      start.performAll_cases os
    · refine Or.inr ⟨hnone, ?_, ?_⟩
      · exact congrArg network hsame
      · exact congrArg issues hsame
    · refine Or.inl ⟨before, c, after, hos, ?_, hnone⟩
      rw [show s.1 = _ from hlast]
      exact hpublishes
  · refine hkept _ fun c hc => ?_
    cases hc
    exact Change.not_succeeds_of_isUnlinkable hw hunlinkable

/-- A mapper that gives tracks a factor of zero. -/
def trackless : TagMapper :=
  ⟨.object [("highway", .object [("track", TagMapper.standardRule 0 10)])], []⟩

/-- A track with a tag that is refused. -/
def track : Way ℚ where
  id := .number 2
  tags := .ofList [("highway", "track"), ("access:conditional", "no @ (25:00-26:00)")]
  nodes := [⟨.number 2, 1, 0⟩, ⟨.number 3, 2, 0⟩]

theorem isUnlinkable_track : track.IsUnlinkable trackless := by
  have hzero : ((trackless.attributes track.scalarTags : Except Fault (WayAttributes ℚ)).map
      fun attributes => Quantity.isZero attributes.speedFactor) = .ok true := by
    decide +kernel
  refine ⟨by decide +kernel, fun attributes h => ?_⟩
  rw [h] at hzero
  exact Except.ok.inj hzero

/-- A road, then the road with a track behind it, then a vehicle that nobody knows. -/
def trackSession : List (Operation ℚ) :=
  [.change (.rebuild [weekdayOneway] .tags), .change (.rebuild [weekdayOneway, track] .tags),
    .ask (.travel (.named "balloon") earlyCar.time none none (.isAccessible (.number 1)))]

theorem performAll_published_track :
    let start := Router.ofMapper trackless planarRouter.policy
    let s := start.performAll trackSession
    s.2.map Except.isOk = [true, false, false] ∧ s.1.network.edges.length = 2 ∧
      (Change.rebuild [weekdayOneway] .tags).Publishes trackless planarRouter.policy
        s.1.network s.1.issues ∧
      (start.performAll (trackSession ++
        [.change (.rebuild [weekdayOneway, track] .tags)])).1 = s.1 := by
  intro start s
  obtain ⟨hlast, -, -, hfailing⟩ := performAll_published trackless planarRouter.policy trackSession
  have htrack : ∃ w ∈ [weekdayOneway, track], w.IsUnlinkable trackless :=
    ⟨track, by simp, isUnlinkable_track⟩
  have hedges : s.1.network.edges.length = 2 := by decide +kernel
  refine ⟨by decide +kernel, hedges, ?_, hfailing _ _ htrack⟩
  obtain ⟨before, c, after, hsession, hpublishes, -⟩ | ⟨-, hempty, -⟩ := hlast
  · -- Of the operations only the first is a change that succeeds.
    have hfails : ¬(Change.rebuild [weekdayOneway, track] .tags).Succeeds trackless
        planarRouter.policy := by
      obtain ⟨w, hw, hunlinkable⟩ := htrack
      exact Change.not_succeeds_of_isUnlinkable hw hunlinkable
    rcases before with _ | ⟨_, _ | ⟨_, _ | ⟨_, before⟩⟩⟩
    · cases hsession
      exact hpublishes
    · cases hsession
      exact absurd ⟨_, _, hpublishes⟩ hfails
    · cases hsession
    · simp [trackSession] at hsession
  · rw [show s.1.network = .empty from hempty] at hedges
    cases hedges

end Router

namespace RouterM

/-- A rebuild that assigns the tags that were refused before it builds the network. -/
def rebuildIssuesFirst (ways : List (Way ℚ)) : RouterM ℚ Statistics := do
  let ix ← liftExcept (RestrictionSource.tags.resolve ways)
  modify fun r => { r with issues := ix.issues }
  let r ← get
  let network ← liftExcept (Network.ofWays r.mapper r.policy.metric ix.restrictionsFor ways)
  modify fun r => { r with network := network }
  return network.statistics

-- The order of the steps matters: the issues of a network that cannot be built would be left.
example : ¬ (rebuildIssuesFirst [Router.track]).Atomic := by
  intro hatomic
  have hleft := hatomic (.ofMapper Router.trackless planarRouter.policy) .zeroDivisor
    (by decide +kernel)
  have hissues := congrArg (fun r => r.issues.length) hleft
  revert hissues
  decide +kernel

end RouterM

end RoadRules
