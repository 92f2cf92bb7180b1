import RoadRules.Proofs.Condition.Marks
import RoadRules.Proofs.Condition.Strays
import RoadRules.Proofs.Cut
import RoadRules.Proofs.Number.Rational

set_option autoImplicit false

/-! # What a survey does with its tags

A survey reads the wanted tags of its ways one by one. Each becomes a restriction or an issue, and
none disturbs another, unless reading it stops at a stray: then there is no survey at all
(`RestrictionIndex.ofWays_stops`). -/

namespace RoadRules

open Text Condition

variable {α : Type} [Quantity α]

/-! ## One tag -/

/-- **A tag is read or refused** unless reading it stops at a stray. -/
theorem Restriction.read_or_refused_iff {key : Text} {value : Option Text} :
    ((∃ r : Restriction α, Restriction.read key value = .ok r) ∨
        ∃ cause, (Restriction.read key value : Except Fault (Restriction α)) =
          .error (.refused key cause)) ↔
      ¬ ∃ a, StopsAt α key value a := by
  constructor
  · rintro h ⟨a, hstops⟩
    have hread := Restriction.read_eq_unknownAxis_iff.mpr hstops
    rcases h with ⟨r, hr⟩ | ⟨cause, hcause⟩
    · rw [hread] at hr
      cases hr
    · rw [hread] at hcause
      cases hcause
  · intro hno
    cases hread : (Restriction.read key value : Except Fault (Restriction α)) with
    | ok r => exact Or.inl ⟨r, rfl⟩
    | error f =>
        rcases Restriction.read_eq_error hread with ⟨cause, rfl⟩ | ⟨a, -, hstops⟩
        · exact Or.inr ⟨cause, rfl⟩
        · exact absurd ⟨a, hstops⟩ hno

/-- There is a verdict on a tag unless reading it stops. -/
theorem Verdict.exists_ofTag_iff {key : Text} {value : Option Text} :
    (∃ v, Verdict.ofTag α key value = .ok v) ↔ ¬ ∃ a, StopsAt α key value a := by
  rw [← Restriction.read_or_refused_iff]
  unfold Verdict.ofTag
  constructor
  · rintro ⟨v, hv⟩
    split at hv
    · rename_i r hr
      exact Or.inl ⟨r, hr⟩
    · rename_i k cause hcause
      exact Or.inr ⟨cause, Restriction.key_eq_of_refused hcause ▸ hcause⟩
    · cases hv
  · rintro (⟨r, hr⟩ | ⟨cause, hcause⟩)
    · exact ⟨_, by rw [hr]⟩
    · exact ⟨_, by rw [hcause]⟩

/-! ## The tags of a way -/

section Tags

variable {way : Ident} {e : Text × Text} {reading : Restriction α ⊕ Issue}

/-- The issue of a tag that is refused. -/
def Issue.ofTag? (α : Type) [Quantity α] (way : Ident) (e : Text × Text) : Option Issue :=
  match (Restriction.read e.1 (some e.2) : Except Fault (Restriction α)) with
  | .error (.refused _ cause) => some ⟨way, e.1, e.2, cause⟩
  | _ => none

/-- What a tag says is the restriction that it states or its issue. -/
theorem readTag_eq_ok (h : readTag way e = .ok reading) :
    reading.getLeft? = (Restriction.read e.1 (some e.2)).toOption ∧
      reading.getRight? = Issue.ofTag? α way e := by
  unfold readTag at h
  unfold Issue.ofTag?
  split at h <;> rename_i hread
  · cases h
    rw [hread]
    exact ⟨rfl, rfl⟩
  · cases h
    rw [hread]
    exact ⟨rfl, rfl⟩
  · cases h

theorem exists_readTag_iff :
    (∃ reading : Restriction α ⊕ Issue, readTag way e = .ok reading) ↔
      ¬ ∃ a, StopsAt α e.1 (some e.2) a := by
  rw [← Restriction.read_or_refused_iff]
  unfold readTag
  constructor
  · rintro ⟨reading, h⟩
    split at h
    · rename_i r hr
      exact Or.inl ⟨r, hr⟩
    · rename_i k cause hcause
      exact Or.inr ⟨cause, Restriction.key_eq_of_refused hcause ▸ hcause⟩
    · cases h
  · rintro (⟨r, hr⟩ | ⟨cause, hcause⟩)
    · exact ⟨_, by rw [hr]⟩
    · exact ⟨_, by rw [hcause]⟩

end Tags

namespace Way

/-- The tags of a way that a survey reads. -/
def wanted (w : Way α) (keys : List Text) : List (Text × Text) :=
  w.tags.entries.filter fun e => keys.contains e.1

/-- The restrictions that the wanted tags of a way state, in their order. -/
def accepted (w : Way α) (keys : List Text) : List (Restriction α) :=
  (w.wanted keys).filterMap fun e => (Restriction.read e.1 (some e.2)).toOption

/-- The issues of the wanted tags of a way that are refused, in their order. -/
def refused (w : Way α) (keys : List Text) : List Issue :=
  (w.wanted keys).filterMap (Issue.ofTag? α w.id)

/-- Whether the wanted tags of a way hold no stray at which reading stops. -/
def IsSurveyed (w : Way α) (keys : List Text) : Prop :=
  ∀ e ∈ w.wanted keys, ¬ ∃ a, StopsAt α e.1 (some e.2) a

variable {w : Way α} {keys : List Text}

/-- The readings of the wanted tags of a way are its restrictions and its issues, in their order. -/
theorem of_mapM_readTag {rs : List (Restriction α ⊕ Issue)}
    (h : (w.wanted keys).mapM (readTag w.id) = .ok rs) :
    restrictionsOf rs = w.accepted keys ∧ issuesOf rs = w.refused keys := by
  have hforall := mapM_eq_ok_iff.mp h
  exact ⟨(filterMap_of_forall₂ hforall fun _ _ h => (readTag_eq_ok h).1.symm).symm,
    (filterMap_of_forall₂ hforall fun _ _ h => (readTag_eq_ok h).2.symm).symm⟩

theorem exists_mapM_readTag_iff :
    (∃ rs : List (Restriction α ⊕ Issue), (w.wanted keys).mapM (readTag w.id) = .ok rs) ↔
      w.IsSurveyed keys := by
  rw [exists_mapM_eq_ok_iff]
  exact forall₂_congr fun _ _ => exists_readTag_iff

/-- **What a survey finds on a way** is what its tags say one by one. -/
theorem restrictions_eq_ok_iff {p : List (Restriction α) × List Issue} :
    w.restrictions keys = .ok p ↔ w.IsSurveyed keys ∧ (w.accepted keys, w.refused keys) = p := by
  have hreadings : w.readings keys = (w.wanted keys).mapM (readTag w.id) := rfl
  unfold restrictions
  rw [← exists_mapM_readTag_iff, ← hreadings]
  constructor
  · intro h
    obtain ⟨rs, hrs, hp⟩ := bind_eq_ok.mp h
    obtain ⟨haccepted, hrefused⟩ := of_mapM_readTag (hreadings ▸ hrs)
    refine ⟨⟨rs, hrs⟩, ?_⟩
    rw [← haccepted, ← hrefused]
    exact Except.ok.inj hp
  · rintro ⟨⟨rs, hrs⟩, rfl⟩
    obtain ⟨haccepted, hrefused⟩ := of_mapM_readTag (hreadings ▸ hrs)
    rw [hrs, ← haccepted, ← hrefused]
    rfl

end Way

/-! ## The ways of a survey -/

namespace RestrictionIndex

variable {w : Way α} {keys : List Text} {ix ix' : RestrictionIndex α} {ways : List (Way α)}

/-- **A survey goes on from way to way.** -/
theorem addWays_cons_eq_ok_iff :
    addWays keys ix (w :: ways) = .ok ix' ↔
      w.IsSurveyed keys ∧
        addWays keys (ix.add w.id (w.accepted keys) (w.refused keys)) ways = .ok ix' := by
  unfold addWays addWay
  rw [List.foldlM_cons, bind_eq_ok]
  constructor
  · rintro ⟨next, hnext, hrest⟩
    obtain ⟨p, hp, hadded⟩ := bind_eq_ok.mp hnext
    obtain ⟨hsurveyed, rfl⟩ := Way.restrictions_eq_ok_iff.mp hp
    cases hadded
    exact ⟨hsurveyed, hrest⟩
  · rintro ⟨hsurveyed, hrest⟩
    exact ⟨_, bind_eq_ok.mpr ⟨_, Way.restrictions_eq_ok_iff.mpr ⟨hsurveyed, rfl⟩, rfl⟩, hrest⟩

/-- A survey succeeds just when each of its ways can be surveyed. -/
theorem exists_addWays_iff :
    (∃ ix', addWays keys ix ways = .ok ix') ↔ ∀ w ∈ ways, w.IsSurveyed keys := by
  induction ways generalizing ix with
  | nil => exact ⟨by simp, fun _ => ⟨ix, rfl⟩⟩
  | cons w rest ih =>
      simp only [addWays_cons_eq_ok_iff, exists_and_left, ih, List.forall_mem_cons]

/-- The issues of a survey are those of its ways in their order. -/
theorem issues_addWays (h : addWays keys ix ways = .ok ix') :
    ix'.issues = ix.issues ++ ways.flatMap fun w => w.refused keys := by
  induction ways generalizing ix with
  | nil =>
      cases h
      simp
  | cons w rest ih =>
      obtain ⟨-, hrest⟩ := addWays_cons_eq_ok_iff.mp h
      rw [ih hrest, List.flatMap_cons, ← List.append_assoc]
      rfl

omit [Quantity α] in
theorem restrictionsFor_add (way : Ident) (rs : List (Restriction α)) (issues : List Issue)
    (id : Ident) :
    (ix.add way rs issues).restrictionsFor id =
      if id = way ∧ rs ≠ [] then rs else ix.restrictionsFor id := by
  unfold add restrictionsFor
  cases rs with
  | nil => simp
  | cons r rest =>
      by_cases hid : id = way <;> simp [hid]

/-- Ways under other identifiers and ways that state nothing leave what is found. -/
theorem restrictionsFor_addWays_of_forall {id : Ident} (h : addWays keys ix ways = .ok ix')
    (hno : ∀ w ∈ ways, w.id = id → w.accepted keys = []) :
    ix'.restrictionsFor id = ix.restrictionsFor id := by
  induction ways generalizing ix with
  | nil =>
      cases h
      rfl
  | cons w rest ih =>
      obtain ⟨-, hrest⟩ := addWays_cons_eq_ok_iff.mp h
      obtain ⟨hw, hno⟩ := List.forall_mem_cons.mp hno
      rw [ih hrest hno, restrictionsFor_add, if_neg]
      rintro ⟨rfl, hne⟩
      exact hne (hw rfl)

/-- **The restrictions of a way** that a survey finds are those that its tags state, unless a later
way under the same identifier states some. -/
theorem restrictionsFor_addWays {before after : List (Way α)}
    (h : addWays keys ix (before ++ w :: after) = .ok ix') (hne : w.accepted keys ≠ [])
    (hlast : ∀ v ∈ after, v.id = w.id → v.accepted keys = []) :
    ix'.restrictionsFor w.id = w.accepted keys := by
  induction before generalizing ix with
  | nil =>
      obtain ⟨-, hrest⟩ := addWays_cons_eq_ok_iff.mp h
      rw [restrictionsFor_addWays_of_forall hrest hlast, restrictionsFor_add, if_pos ⟨rfl, hne⟩]
  | cons v before ih =>
      obtain ⟨-, hrest⟩ := addWays_cons_eq_ok_iff.mp h
      exact ih hrest

/-! ## Surveys -/

variable {budget : Budget}

theorem ofWays_eq_ok_iff :
    ofWays ways keys budget = .ok ix ↔ ∃ ix', addWays keys empty (budget.cut ways).1 = .ok ix' ∧
      ⟨ix'.byWay, ix'.issues, (budget.cut ways).2⟩ = ix := by
  rw [ofWays_eq_cut]
  exact map_eq_ok

theorem exists_ofWays_iff :
    (∃ ix, ofWays ways keys budget = .ok ix) ↔ ∀ w ∈ (budget.cut ways).1, w.IsSurveyed keys := by
  have hadded : (∃ ix', addWays keys empty (budget.cut ways).1 = .ok ix') ↔
      ∀ w ∈ (budget.cut ways).1, w.IsSurveyed keys := exists_addWays_iff
  simp only [← hadded, ofWays_eq_ok_iff]
  constructor
  · rintro ⟨_, ix', h, -⟩
    exact ⟨ix', h⟩
  · rintro ⟨ix', h⟩
    exact ⟨_, ix', h, rfl⟩

/-- **What a survey finds**: the issues of all its ways, and under the identifier of a way the
restrictions that its tags state. -/
structure Finds (ways : List (Way α)) (keys : List Text) (ix : RestrictionIndex α) : Prop where
  issues : ix.issues = ways.flatMap fun w => w.refused keys
  restrictions : ∀ before w after, ways = before ++ w :: after → w.accepted keys ≠ [] →
    (∀ v ∈ after, v.id = w.id → v.accepted keys = []) →
      ix.restrictionsFor w.id = w.accepted keys
  others : ∀ id, (∀ w ∈ ways, w.id = id → w.accepted keys = []) → ix.restrictionsFor id = []

theorem finds_of_ofWays (h : ofWays ways keys budget = .ok ix) :
    Finds (budget.cut ways).1 keys ix := by
  obtain ⟨ix', hadded, rfl⟩ := ofWays_eq_ok_iff.mp h
  refine ⟨issues_addWays hadded, fun before w after hways hne hlast => ?_,
    fun id hno => restrictionsFor_addWays_of_forall hadded hno⟩
  rw [hways] at hadded
  show ix'.restrictionsFor w.id = _
  exact restrictionsFor_addWays hadded hne hlast

end RestrictionIndex

omit [Quantity α] in
/-- The parts of the times in a condition are numbers, so that each time has an hour. -/
theorem exists_natural?_of_tokens {s time : Text} {ts : List Token} (h : tokens s = .ok ts)
    (htime : .atom (.time time) ∈ ts) :
    ∀ part ∈ splitAt (.char ':') time, ∃ n, natural? part = some n :=
  IsTime.exists_natural? ((tokens_eq_ok_iff.mp h).isWritten _ htime)

/-- **What stops a survey.** A tag is read or refused, and there is a verdict on it, unless reading
it stops at a stray; nothing else stops it, since the parts of its times are numbers. A survey is
made unless reading stops at one of its tags, and then finds what the tags say one by one. -/
theorem RestrictionIndex.ofWays_stops (α : Type) [Quantity α] :
    (∀ key value, ((∃ r : Restriction α, Restriction.read key value = .ok r) ∨
        ∃ cause, (Restriction.read key value : Except Fault (Restriction α)) =
          .error (.refused key cause)) ↔ ¬ ∃ a, StopsAt α key value a) ∧
    (∀ key value, (∃ v, Verdict.ofTag α key value = .ok v) ↔ ¬ ∃ a, StopsAt α key value a) ∧
    (∀ (ways : List (Way α)) keys budget, (∃ ix, ofWays ways keys budget = .ok ix) ↔
      ∀ w ∈ (budget.cut ways).1, w.IsSurveyed keys) ∧
    (∀ (ways : List (Way α)) keys budget ix, ofWays ways keys budget = .ok ix →
      Finds (budget.cut ways).1 keys ix) ∧
    ∀ s ts time, tokens s = .ok ts → .atom (.time time) ∈ ts →
      ∀ part ∈ splitAt (.char ':') time, ∃ n, natural? part = some n :=
  ⟨fun _ _ => Restriction.read_or_refused_iff, fun _ _ => Verdict.exists_ofTag_iff,
    fun _ _ _ => exists_ofWays_iff, fun _ _ _ _ => finds_of_ofWays,
    fun _ _ _ => exists_natural?_of_tokens⟩

/-- A way with a refused tag before a tag that is read. -/
def patchedWay : Way ℚ where
  id := .number 1
  tags := .ofList [("hgv:conditional", "no @ (Mo-)"), ("access:conditional", "no @ (weight>3.5t)")]
  nodes := []

theorem RestrictionIndex.ofWays_stops_patched :
    ∃ ix, ofWays [patchedWay] standardKeys .unlimited = .ok ix ∧
      Finds [patchedWay] standardKeys ix := by
  have hmade : (ofWays [patchedWay] standardKeys .unlimited).isOk = true := by decide +kernel
  obtain ⟨ix, hix⟩ := exists_eq_ok hmade
  have hfinds := (RestrictionIndex.ofWays_stops ℚ).2.2.2.1 _ _ _ _ hix
  rw [Budget.cut_unlimited] at hfinds
  exact ⟨ix, hix, hfinds⟩

/-- A bound on the weight that has a small i without a dot. -/
def dotlessWeight : Text := "no @ (we\u0131ght>3t)"

/-- **Not every tag is read or refused.** -/
theorem Restriction.read_stops :
    ¬ ∀ (key : Text) (value : Option Text),
      (∃ r : Restriction ℚ, Restriction.read key value = .ok r) ∨
        ∃ cause, (Restriction.read key value : Except Fault (Restriction ℚ)) =
          .error (.refused key cause) := by
  intro hall
  have hstops : (Restriction.read "access:conditional" (some dotlessWeight) :
      Except Fault (Restriction ℚ)) = .error (.unknownAxis "we\u0131ght") := by decide +kernel
  rcases hall "access:conditional" (some dotlessWeight) with ⟨r, hr⟩ | ⟨cause, hcause⟩
  · rw [hstops] at hr
    cases hr
  · rw [hstops] at hcause
    cases hcause

end RoadRules
