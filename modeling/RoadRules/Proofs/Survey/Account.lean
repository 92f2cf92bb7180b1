import RoadRules.Proofs.OrderedMap
import RoadRules.Proofs.Survey.Scan

set_option autoImplicit false

/-! # Every tag counts once

A survey puts each wanted tag of each way in one place: it is a restriction under the identifier of
the way, or an issue that names the way, the key and the value. The places are in the order of the
ways and their tags. A summary goes over the same ways on its own, by the ending of the keys, and
its counts are those of the survey (`RestrictionIndex.ofWays_accounts`). -/

namespace RoadRules

variable {α : Type} [Quantity α]

/-! ## One tag -/

/-- Whether a tag is read or refused. -/
def IsLegible (α : Type) [Quantity α] (e : Text × Text) : Prop :=
  (∃ x : Restriction α, Restriction.read e.1 (some e.2) = .ok x) ∨
    ∃ cause, (Restriction.read e.1 (some e.2) : Except Fault (Restriction α)) =
      .error (.refused e.1 cause)

/-- **The record of a tag of a way**: the restriction that the tag states, or an issue. -/
inductive Records (way : Ident) (e : Text × Text) : Restriction α ⊕ Issue → Prop
  -- A restriction has the key and the value of the tag.
  | stated {x : Restriction α} : Restriction.read e.1 (some e.2) = .ok x → x.key = e.1 →
      x.raw = e.2 → Records way e (.inl x)
  -- An issue has them too, and the way and the cause of the refusal.
  | refused {cause : Condition.Refusal} :
      (Restriction.read e.1 (some e.2) : Except Fault (Restriction α)) =
        .error (.refused e.1 cause) → Records way e (.inr ⟨way, e.1, e.2, cause⟩)

/-- A restriction has the key and the value of its tag. -/
theorem Restriction.key_raw_of_read {key : Text} {value : Option Text} {x : Restriction α}
    (h : Restriction.read key value = .ok x) : x.key = key ∧ x.raw = value.getD [] := by
  unfold Restriction.read at h
  obtain ⟨_, -, h⟩ := bind_eq_ok.mp h
  obtain ⟨_, -, h⟩ := bind_eq_ok.mp h
  cases h
  exact ⟨rfl, rfl⟩

theorem records_of_readTag {way : Ident} {e : Text × Text} {reading : Restriction α ⊕ Issue}
    (h : readTag way e = .ok reading) : Records way e reading := by
  unfold readTag at h
  split at h
  · rename_i x hx
    cases h
    obtain ⟨hkey, hraw⟩ := Restriction.key_raw_of_read hx
    exact .stated hx hkey hraw
  · rename_i k cause hcause
    cases h
    obtain rfl := Restriction.key_eq_of_refused hcause
    exact .refused hcause
  · cases h

namespace Way

variable {w : Way α} {keys : List Text}

theorem isSurveyed_iff : w.IsSurveyed keys ↔ ∀ e ∈ w.wanted keys, IsLegible α e :=
  forall₂_congr fun _ _ => Restriction.read_or_refused_iff.symm

/-- **The wanted tags of a way are recorded one by one**, in their order. -/
theorem IsSurveyed.exists_records (h : w.IsSurveyed keys) :
    ∃ rs, List.Forall₂ (Records w.id) (w.wanted keys) rs ∧ w.accepted keys = restrictionsOf rs ∧
      w.refused keys = issuesOf rs := by
  obtain ⟨rs, hrs⟩ := exists_mapM_readTag_iff.mpr h
  obtain ⟨haccepted, hrefused⟩ := of_mapM_readTag hrs
  exact ⟨rs, (mapM_eq_ok_iff.mp hrs).imp fun _ _ => records_of_readTag, haccepted.symm,
    hrefused.symm⟩

theorem way_of_mem_refused {i : Issue} (h : i ∈ w.refused keys) : i.way = w.id := by
  obtain ⟨e, -, hi⟩ := List.mem_filterMap.mp h
  unfold Issue.ofTag? at hi
  split at hi
  · cases hi
    rfl
  · cases hi

end Way

/-! ## The ways of a survey -/

/-- The ways that state restrictions, each with those that its wanted tags state. -/
def statedBy (ways : List (Way α)) (keys : List Text) : List (Ident × List (Restriction α)) :=
  (ways.filter fun w => !(w.accepted keys).isEmpty).map fun w => (w.id, w.accepted keys)

theorem statedBy_cons (w : Way α) (ways : List (Way α)) (keys : List Text) :
    statedBy (w :: ways) keys = if w.accepted keys = [] then statedBy ways keys
      else (w.id, w.accepted keys) :: statedBy ways keys := by
  unfold statedBy
  by_cases hempty : w.accepted keys = [] <;> simp [hempty]

namespace RestrictionIndex

variable {w : Way α} {ways : List (Way α)} {keys : List Text} {ix ix' : RestrictionIndex α}

/-- A survey that goes on over ways with new identifiers goes on with what they state. -/
theorem entries_addWays (h : addWays keys ix ways = .ok ix') (hids : (ways.map Way.id).Nodup)
    (hnew : ∀ w ∈ ways, w.id ∉ ix.byWay.keys) :
    ix'.byWay.entries = ix.byWay.entries ++ statedBy ways keys := by
  induction ways generalizing ix with
  | nil =>
      cases h
      exact (List.append_nil _).symm
  | cons w rest ih =>
      obtain ⟨-, hrest⟩ := addWays_cons_eq_ok_iff.mp h
      obtain ⟨hw, hids⟩ := List.nodup_cons.mp hids
      obtain ⟨hnew, hnews⟩ := List.forall_mem_cons.mp hnew
      rw [statedBy_cons]
      by_cases hempty : w.accepted keys = []
      · have hkept : (ix.add w.id (w.accepted keys) (w.refused keys)).byWay = ix.byWay := by
          rw [add, hempty]
          rfl
        rw [ih hrest hids (hkept ▸ hnews), hkept, if_pos hempty]
      · have hadded : (ix.add w.id (w.accepted keys) (w.refused keys)).byWay =
            ix.byWay.insert w.id (w.accepted keys) := by
          rw [add, if_neg (by simpa using hempty)]
        have hstill : ∀ v ∈ rest, v.id ∉ (ix.byWay.insert w.id (w.accepted keys)).keys := by
          intro v hv hmem
          rcases OrderedMap.mem_keys_insert.mp hmem with heq | hmem
          · exact hw (heq ▸ List.mem_map_of_mem hv)
          · exact hnews v hv hmem
        rw [ih hrest hids (hadded ▸ hstill), hadded, OrderedMap.entries_insert hnew,
          if_neg hempty, List.append_assoc]
        rfl

section Unlimited

variable (h : ofWays ways keys .unlimited = .ok ix)

include h

theorem issues_ofWays : ix.issues = ways.flatMap fun w => w.refused keys := by
  have hfinds := finds_of_ofWays h
  rw [Budget.cut_unlimited] at hfinds
  exact hfinds.issues

theorem truncated_ofWays : ix.truncated = false := by
  obtain ⟨_, -, rfl⟩ := ofWays_eq_ok_iff.mp h
  rw [Budget.cut_unlimited]

variable (hids : (ways.map Way.id).Nodup)

include hids

/-- **The restrictions of a survey** are those of the ways that state any, in their order. -/
theorem entries_ofWays : ix.byWay.entries = statedBy ways keys := by
  obtain ⟨ix', hadded, rfl⟩ := ofWays_eq_ok_iff.mp h
  rw [Budget.cut_unlimited] at hadded
  exact entries_addWays hadded hids fun _ _ => List.not_mem_nil

theorem get?_ofWays {id : Ident} {rs : List (Restriction α)} :
    ix.byWay.get? id = some rs ↔ ∃ w ∈ ways, w.id = id ∧ w.accepted keys = rs ∧ rs ≠ [] := by
  rw [OrderedMap.get?_eq_some_iff, entries_ofWays h hids]
  unfold statedBy
  simp only [List.mem_map, List.mem_filter, Prod.mk.injEq, Bool.not_eq_true',
    List.isEmpty_eq_false_iff]
  constructor
  · rintro ⟨w, ⟨hw, hne⟩, hid, rfl⟩
    exact ⟨w, hw, hid, rfl, hne⟩
  · rintro ⟨w, hw, hid, rfl, hne⟩
    exact ⟨w, ⟨hw, hne⟩, hid, rfl⟩

/-- The restrictions under the identifier of a way are those that its tags state. -/
theorem restrictionsFor_ofWays_of_mem (hw : w ∈ ways) :
    ix.restrictionsFor w.id = w.accepted keys := by
  unfold restrictionsFor
  cases hget : ix.byWay.get? w.id with
  | some rs =>
      obtain ⟨v, hv, hid, rfl, -⟩ := (get?_ofWays h hids).mp hget
      rw [List.inj_on_of_nodup_map hids hv hw hid]
      rfl
  | none =>
      by_contra hne
      have hsome := (get?_ofWays h hids).mpr ⟨w, hw, rfl, rfl, Ne.symm hne⟩
      rw [hget] at hsome
      cases hsome

/-- The issues of a way are those of its tags. -/
theorem issuesFor_ofWays_of_mem (hw : w ∈ ways) : ix.issuesFor w.id = w.refused keys := by
  have hnodup := hids
  obtain ⟨before, after, rfl⟩ := List.append_of_mem hw
  rw [List.map_append, List.map_cons, List.nodup_middle, List.nodup_cons] at hnodup
  have hothers : ∀ vs : List (Way α), w.id ∉ vs.map Way.id →
      (vs.flatMap fun v => v.refused keys).filter (fun i => i.way == w.id) = [] := by
    intro vs hvs
    refine List.filter_eq_nil_iff.mpr fun i hi hway => hvs ?_
    obtain ⟨v, hv, hi⟩ := List.mem_flatMap.mp hi
    rw [← beq_iff_eq.mp hway, Way.way_of_mem_refused hi]
    exact List.mem_map_of_mem hv
  have hown : (w.refused keys).filter (fun i => i.way == w.id) = w.refused keys :=
    List.filter_eq_self.mpr fun i hi => beq_iff_eq.mpr (Way.way_of_mem_refused hi)
  unfold issuesFor
  rw [issues_ofWays h, List.flatMap_append, List.flatMap_cons, List.filter_append,
    List.filter_append, hown, hothers before fun hmem => hnodup.1 (List.mem_append_left _ hmem),
    hothers after fun hmem => hnodup.1 (List.mem_append_right _ hmem), List.nil_append,
    List.append_nil]

theorem count_ofWays : ix.count = (ways.flatMap fun w => w.accepted keys).length := by
  have hcount : ∀ ws : List (Way α), (((statedBy ws keys).map Prod.snd).map List.length).foldr
      (· + ·) 0 = (ws.flatMap fun w => w.accepted keys).length := by
    intro ws
    induction ws with
    | nil => rfl
    | cons w rest ih =>
        rw [statedBy_cons, List.flatMap_cons, List.length_append, ← ih]
        by_cases hempty : w.accepted keys = []
        · rw [if_pos hempty, hempty, List.length_nil, Nat.zero_add]
        · rw [if_neg hempty]
          rfl
  unfold count OrderedMap.values
  rw [entries_ofWays h hids]
  exact hcount ways

end Unlimited

/-- **The account of a survey**: where each wanted tag of each way is found again. -/
structure Accounts (ways : List (Way α)) (keys : List Text) (ix : RestrictionIndex α) : Prop where
  /-- No way is left out. -/
  truncated : ix.truncated = false
  /-- The ways that state restrictions come in their order, each with its restrictions. -/
  byWay : ix.byWay.entries = statedBy ways keys
  /-- The issues come in the order of the ways and their tags. -/
  issues : ix.issues = ways.flatMap fun w => w.refused keys
  /-- The tags of a way have one record each, of which the restrictions are found under the way,
  in their order, and the issues among those of the way. -/
  records : ∀ w ∈ ways, ∃ rs, List.Forall₂ (Records w.id) (w.wanted keys) rs ∧
    ix.restrictionsFor w.id = restrictionsOf rs ∧ ix.issuesFor w.id = issuesOf rs

theorem accounts_ofWays (h : ofWays ways keys .unlimited = .ok ix)
    (hids : (ways.map Way.id).Nodup) (hsurveyed : ∀ w ∈ ways, w.IsSurveyed keys) :
    Accounts ways keys ix := by
  refine ⟨truncated_ofWays h, entries_ofWays h hids, issues_ofWays h, fun w hw => ?_⟩
  obtain ⟨rs, hrecords, haccepted, hrefused⟩ := (hsurveyed w hw).exists_records
  exact ⟨rs, hrecords, (restrictionsFor_ofWays_of_mem h hids hw).trans haccepted,
    (issuesFor_ofWays_of_mem h hids hw).trans hrefused⟩

end RestrictionIndex

/-! ## Summaries -/

namespace Summary

/-- **The counts of a summary** of tags of which some state restrictions and some are refused. -/
structure Counts (s : Summary) (stated denied : Nat) : Prop where
  restrictions : s.restrictions = stated
  refused : s.refused = denied
  /-- Every tag counts once. -/
  tags : s.tags = stated + denied
  /-- Every restriction counts for one subject. -/
  bySubject : s.bySubject.values.sum = stated

variable {s s' : Summary} {stated denied : Nat} {w : Way α} {ways : List (Way α)}
  {keys : List Text}

theorem counts_empty : empty.Counts 0 0 := ⟨rfl, rfl, rfl, rfl⟩

/-- The counts of the ways have no part in those of the tags. -/
theorem Counts.withWays (h : s.Counts stated denied) (n m : Nat) :
    ({ s with ways := n, waysWithTags := m } : Summary).Counts stated denied :=
  ⟨h.restrictions, h.refused, h.tags, h.bySubject⟩

omit [Quantity α] in
theorem Counts.addRestriction (h : s.Counts stated denied) (x : Restriction α) :
    (s.addRestriction x).Counts (stated + 1) denied := by
  refine ⟨congrArg (· + 1) h.restrictions, h.refused, ?_, ?_⟩
  · show s.tags + 1 = stated + 1 + denied
    rw [h.tags]
    omega
  · show (s.bySubject.insert x.subject ((s.bySubject.get? x.subject).getD 0 + 1)).values.sum = _
    have hsum := OrderedMap.sum_values_insert s.bySubject x.subject
      ((s.bySubject.get? x.subject).getD 0 + 1)
    rw [h.bySubject] at hsum
    omega

theorem Counts.addRefused (h : s.Counts stated denied) :
    s.addRefused.Counts stated (denied + 1) := by
  refine ⟨h.restrictions, congrArg (· + 1) h.refused, ?_, h.bySubject⟩
  show s.tags + 1 = stated + (denied + 1)
  rw [h.tags]
  omega

omit [Quantity α] in
/-- **A summary goes on from record to record.** -/
theorem Counts.foldl (h : s.Counts stated denied) (rs : List (Restriction α ⊕ Issue)) :
    (rs.foldl addReading s).Counts (stated + (restrictionsOf rs).length)
      (denied + (issuesOf rs).length) := by
  induction rs generalizing s stated denied with
  | nil => exact h
  | cons reading rest ih =>
      cases reading with
      | inl x =>
          have hrest := ih (h.addRestriction x)
          rw [Nat.add_assoc, Nat.add_comm 1] at hrest
          exact hrest
      | inr i =>
          have hrest := ih h.addRefused
          rw [Nat.add_assoc denied, Nat.add_comm 1] at hrest
          exact hrest

/-- A summary counts the tags of a way that a survey reads. -/
theorem exists_addWay (h : s.Counts stated denied) (hsurveyed : w.IsSurveyed keys)
    (hkeys : ∀ e ∈ w.tags.entries, e.1 ∈ keys ↔ isConditionalKey e.1 = true) :
    ∃ s', s.addWay w = .ok s' ∧ s'.Counts (stated + (w.accepted keys).length)
      (denied + (w.refused keys).length) := by
  have htags : w.conditionalTags = w.wanted keys := by
    refine List.filter_congr fun e he => ?_
    rw [Bool.eq_iff_iff, List.contains_iff_mem]
    exact (hkeys e he).symm
  obtain ⟨rs, hrs⟩ := Way.exists_mapM_readTag_iff.mpr hsurveyed
  obtain ⟨haccepted, hrefused⟩ := Way.of_mapM_readTag hrs
  rw [← haccepted, ← hrefused]
  unfold addWay
  rw [htags]
  exact ⟨_, bind_eq_ok.mpr ⟨rs, hrs, rfl⟩, (h.withWays _ _).foldl rs⟩

/-- **A summary goes on from way to way.** -/
theorem exists_addWays (h : s.Counts stated denied) (hsurveyed : ∀ w ∈ ways, w.IsSurveyed keys)
    (hkeys : ∀ w ∈ ways, ∀ e ∈ w.tags.entries, e.1 ∈ keys ↔ isConditionalKey e.1 = true) :
    ∃ s', s.addWays ways = .ok s' ∧
      s'.Counts (stated + (ways.flatMap fun w => w.accepted keys).length)
        (denied + (ways.flatMap fun w => w.refused keys).length) := by
  induction ways generalizing s stated denied with
  | nil => exact ⟨s, rfl, h⟩
  | cons w rest ih =>
      obtain ⟨hw, hrest⟩ := List.forall_mem_cons.mp hsurveyed
      obtain ⟨hkey, hkeys⟩ := List.forall_mem_cons.mp hkeys
      obtain ⟨s₁, hs₁, hcounts₁⟩ := exists_addWay h hw hkey
      obtain ⟨s₂, hs₂, hcounts₂⟩ := ih hcounts₁ hrest hkeys
      rw [Nat.add_assoc, Nat.add_assoc, ← List.length_append, ← List.length_append] at hcounts₂
      exact ⟨s₂, bind_eq_ok.mpr ⟨s₁, hs₁, hs₂⟩, hcounts₂⟩

end Summary

/-! ## Surveys and summaries -/

/-- **Every tag counts once.** Let the ways have different identifiers, and let their wanted tags be
read or refused. Then there is a survey, and it accounts for all of them. If the wanted keys are
just the keys of the conditional tags of the ways, a summary of the ways counts what the survey has:
its restrictions, its issues, both as tags, and each restriction for one subject. -/
theorem RestrictionIndex.ofWays_accounts {ways : List (Way α)} {keys : List Text}
    (hids : (ways.map Way.id).Nodup)
    (hlegible : ∀ w ∈ ways, ∀ e ∈ w.wanted keys, IsLegible α e) :
    ∃ ix, ofWays ways keys .unlimited = .ok ix ∧ Accounts ways keys ix ∧
      ((∀ w ∈ ways, ∀ e ∈ w.tags.entries, e.1 ∈ keys ↔ isConditionalKey e.1 = true) →
        ∃ s, Summary.ofWays ways .unlimited = .ok s ∧ s.restrictions = ix.count ∧
          s.refused = ix.issues.length ∧ s.tags = ix.count + ix.issues.length ∧
            s.bySubject.values.sum = s.restrictions) := by
  have hsurveyed : ∀ w ∈ ways, w.IsSurveyed keys := fun w hw =>
    Way.isSurveyed_iff.mpr (hlegible w hw)
  obtain ⟨ix, hix⟩ : ∃ ix, ofWays ways keys .unlimited = .ok ix := by
    rw [exists_ofWays_iff, Budget.cut_unlimited]
    exact hsurveyed
  refine ⟨ix, hix, accounts_ofWays hix hids hsurveyed, fun hkeys => ?_⟩
  obtain ⟨s, hs, hcounts⟩ := Summary.exists_addWays Summary.counts_empty hsurveyed hkeys
  rw [Nat.zero_add, Nat.zero_add, ← count_ofWays hix hids, ← issues_ofWays hix] at hcounts
  refine ⟨{ s with truncated := false }, ?_, hcounts.restrictions, hcounts.refused, hcounts.tags,
    hcounts.bySubject.trans hcounts.restrictions.symm⟩
  rw [Summary.ofWays_eq_cut, Budget.cut_unlimited]
  exact map_eq_ok.mpr ⟨s, hs, rfl⟩

/-- A map with a refused tag, a tag that nobody wants, and tags that are read. -/
def patchedMap : List (Way ℚ) :=
  [patchedWay, ⟨.number 2, .ofList [("highway", "residential"),
    ("maxspeed:conditional", "30 @ (22:00-06:00)"), ("motor_vehicle:conditional", "no @ (Sa,Su)")],
      []⟩]

theorem RestrictionIndex.ofWays_accounts_patched :
    ∃ ix, ofWays patchedMap standardKeys .unlimited = .ok ix ∧ Accounts patchedMap standardKeys ix ∧
      ∃ s, Summary.ofWays patchedMap .unlimited = .ok s ∧ s.restrictions = ix.count ∧
        s.refused = ix.issues.length ∧ s.tags = ix.count + ix.issues.length ∧
          s.bySubject.values.sum = s.restrictions := by
  have hmade : (ofWays patchedMap standardKeys .unlimited).isOk = true := by decide +kernel
  have hsurveyed := exists_ofWays_iff.mp (exists_eq_ok hmade)
  rw [Budget.cut_unlimited] at hsurveyed
  obtain ⟨ix, hix, haccounts, hsummary⟩ := RestrictionIndex.ofWays_accounts
    (by decide +kernel) fun w hw => Way.isSurveyed_iff.mp (hsurveyed w hw)
  exact ⟨ix, hix, haccounts, hsummary (by decide +kernel)⟩

end RoadRules
