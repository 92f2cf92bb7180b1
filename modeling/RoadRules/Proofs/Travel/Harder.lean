import Mathlib.Data.List.Perm.Subperm
import RoadRules.Proofs.Number.Monotone
import RoadRules.Proofs.Travel.Cost

set_option autoImplicit false

/-! # Harder travel costs no less

Two things make travel harder: more restrictions on an edge, and a vehicle that is heavier or higher
under restrictions that only bound dimensions from below. Either way the restrictions in force are
among those that are in force for the harder travel, and a cost grows with the restrictions in force
(`Edge.costUnder_le`): each effect forbids, deters or slows, and none takes that back. -/

namespace RoadRules

open LawfulQuantity MonotoneQuantity

variable {α : Type}

/-- Whether a cost is at most another one; what is impassable costs more than anything. -/
def CostsAtMost [LE α] (a b : Option α) : Prop := ∀ d, b = some d → ∃ c, a = some c ∧ c ≤ d

/-- Whether an operator requires a dimension to be great. -/
def Operator.boundsBelow : Operator → Bool
  | greater | atLeast => true
  | less | atMost => false

/-- Whether a restriction concerns every vehicle that is heavier and higher than one that it
concerns. -/
def Restriction.BoundsBelow (x : Restriction α) : Prop :=
  ∀ c, x.weight = some c ∨ x.height = some c → c.operator.boundsBelow = true

/-- **A traveller that is heavier and higher** than another one, and otherwise the same. -/
structure Traveller.Outweighs [Quantity α] (t' t : Traveller α) : Prop where
  time : t'.time = t.time
  /-- The profiles may only differ in their dimensions. -/
  profile : t'.profile =
    { t.profile with weight := t'.profile.weight, height := t'.profile.height }
  weight : t.weight ≤ t'.weight
  height : t.height ≤ t'.height

/-- Whether a traveller is another one, or outweighs it where all the given restrictions bound
dimensions from below. -/
def Traveller.IsNoEasier [Quantity α] (t' t : Traveller α) (rs : List (Restriction α)) : Prop :=
  t' = t ∨ (t'.Outweighs t ∧ ∀ x ∈ rs, x.BoundsBelow)

variable [Quantity α]

/-! ## Restrictions in force -/

section Force

variable [LawfulQuantity α] {t t' : Traveller α} {rs rs' : List (Restriction α)}

/-- A bound from below that a dimension passes is passed by a greater one. -/
theorem Comparison.holds_of_le {c : Comparison α} {a b : α} (hbelow : c.operator.boundsBelow = true)
    (hab : a ≤ b) (h : c.holds a = true) : c.holds b = true := by
  unfold holds at h ⊢
  cases hop : c.operator with
  | greater =>
      simp only [hop, decide_eq_true_eq] at h ⊢
      exact lt_of_lt_of_le h hab
  | atLeast =>
      simp only [hop, decide_eq_true_eq] at h ⊢
      exact le_trans h hab
  | less =>
      rw [hop] at hbelow
      cases hbelow
  | atMost =>
      rw [hop] at hbelow
      cases hbelow

theorem Restriction.admits_of_le {c : Option (Comparison α)} {a b : α}
    (hbelow : ∀ d, c = some d → d.operator.boundsBelow = true) (hab : a ≤ b)
    (h : admits c (some a) = true) : admits c (some b) = true := by
  cases c with
  | none => rfl
  | some c => exact Comparison.holds_of_le (hbelow c rfl) hab h

/-- A restriction that bounds dimensions from below and concerns a vehicle concerns a heavier and
higher one. -/
theorem Restriction.BoundsBelow.appliesTo {x : Restriction α} (hx : x.BoundsBelow)
    (ht : t'.Outweighs t) (h : x.appliesTo (some t.weight) (some t.height) = true) :
    x.appliesTo (some t'.weight) (some t'.height) = true := by
  unfold Restriction.appliesTo at h ⊢
  rw [Bool.and_eq_true] at h ⊢
  obtain ⟨hweight, hheight⟩ := h
  exact ⟨Restriction.admits_of_le (fun d hd => hx d (Or.inl hd)) ht.weight hweight,
    Restriction.admits_of_le (fun d hd => hx d (Or.inr hd)) ht.height hheight⟩

/-- **More restrictions are in force** for a heavier and higher vehicle, if all of them bound
dimensions from below. -/
theorem Traveller.inForce_sublist (ht : t'.Outweighs t) (hbelow : ∀ x ∈ rs, x.BoundsBelow) :
    (t.restrictionsInForce rs).Sublist (t'.restrictionsInForce rs) := by
  have hforce : ∀ x ∈ rs,
      (x.isActiveAt t.time && x.appliesTo (some t.weight) (some t.height)) = true →
        (x.isActiveAt t'.time && x.appliesTo (some t'.weight) (some t'.height)) = true := by
    intro x hx h
    rw [Bool.and_eq_true] at h ⊢
    exact ⟨ht.time ▸ h.1, (hbelow x hx).appliesTo ht h.2⟩
  -- The restrictions in force for the lighter vehicle are found again among those for the heavier.
  have hagain : t.restrictionsInForce rs = (t'.restrictionsInForce rs).filter fun x =>
      x.isActiveAt t.time && x.appliesTo (some t.weight) (some t.height) := by
    unfold restrictionsInForce Restriction.inForce
    rw [List.filter_filter]
    refine List.filter_congr fun x hx => ?_
    exact Bool.eq_iff_iff.mpr ⟨fun h => Bool.and_eq_true_iff.mpr ⟨h, hforce x hx h⟩,
      fun h => (Bool.and_eq_true_iff.mp h).1⟩
  rw [hagain]
  exact List.filter_sublist

/-- What is in force stays in force when restrictions are added and travel is no easier. -/
theorem Traveller.inForce_subperm (hrs : rs.Subperm rs') (ht : t'.IsNoEasier t rs) :
    (t.restrictionsInForce rs).Subperm (t'.restrictionsInForce rs') := by
  have hadded : (t'.restrictionsInForce rs).Subperm (t'.restrictionsInForce rs') := hrs.filter _
  rcases ht with rfl | ⟨hweighs, hbelow⟩
  · exact hadded
  · exact (inForce_sublist hweighs hbelow).subperm.trans hadded

end Force

/-! ## The least limit -/

section Least

variable [LawfulQuantity α] {l : List α} {v : α}

theorem Quantity.least_le_left (a b : α) : Quantity.least a b ≤ a := by
  unfold least
  split
  · rename_i hlt
    exact le_of_lt hlt
  · exact le_refl a

theorem Quantity.least_le_right (a b : α) : Quantity.least a b ≤ b := by
  unfold least
  split
  · exact le_refl b
  · rename_i hlt
    exact le_of_not_lt hlt

theorem leastOf?_le (h : leastOf? l = some v) : ∀ x ∈ l, v ≤ x := by
  have key : ∀ (rest : List α) (x : α), rest.foldl Quantity.least x ≤ x ∧
      ∀ y ∈ rest, rest.foldl Quantity.least x ≤ y := by
    intro rest
    induction rest with
    | nil => exact fun x => ⟨le_refl x, by simp⟩
    | cons y rest ih =>
        intro x
        obtain ⟨hleast, hrest⟩ := ih (Quantity.least x y)
        exact ⟨le_trans hleast (Quantity.least_le_left x y), List.forall_mem_cons.mpr
          ⟨le_trans hleast (Quantity.least_le_right x y), hrest⟩⟩
  cases l with
  | nil => cases h
  | cons x rest =>
      cases h
      exact List.forall_mem_cons.mpr (key rest x)

omit [LawfulQuantity α] in
theorem mem_of_leastOf? (h : leastOf? l = some v) : v ∈ l := by
  have key : ∀ (rest : List α) (x : α), rest.foldl Quantity.least x ∈ x :: rest := by
    intro rest
    induction rest with
    | nil => exact fun x => List.mem_singleton_self x
    | cons y rest ih =>
        intro x
        have hleast : Quantity.least x y = x ∨ Quantity.least x y = y := by
          unfold Quantity.least
          split
          · exact Or.inr rfl
          · exact Or.inl rfl
        rcases List.mem_cons.mp (ih (Quantity.least x y)) with heq | hmem
        · rw [List.foldl_cons, heq, List.mem_cons, List.mem_cons, ← or_assoc]
          exact Or.inl hleast
        · exact List.mem_cons_of_mem _ (List.mem_cons_of_mem _ hmem)
  cases l with
  | nil => cases h
  | cons x rest =>
      cases h
      exact key rest x

end Least

/-! ## Costs -/

namespace Edge

variable [MonotoneQuantity α] {policy : Policy α} {p : Profile α} {e : Edge α} {c c' : α}
  {es es' : List (Effect α)}

/-- More effects deter no less. -/
theorem penalized_le_of_sublist (hpenalty : Quantity.ofNat 1 ≤ policy.penalty)
    (hes : es.Sublist es') (hc : Quantity.zero ≤ c) (hle : c ≤ c') :
    penalized policy c es ≤ penalized policy c' es' := by
  have hnonneg : Quantity.zero ≤ policy.penalty := le_trans (le_of_lt zero_lt_one) hpenalty
  induction hes generalizing c c' with
  | slnil => exact hle
  | cons x _ ih =>
      -- An effect that only the harder travel has.
      refine ih hc (le_trans hle ?_)
      show c' ≤ if x.deters then c' * policy.penalty else c'
      split
      · exact le_mul (le_trans hc hle) hpenalty
      · exact le_refl c'
  | cons_cons x _ ih =>
      show penalized policy (if x.deters then c * policy.penalty else c) _ ≤
        penalized policy (if x.deters then c' * policy.penalty else c') _
      split
      · exact ih (mul_nonneg hc hnonneg) (mul_le_mul hc hnonneg hle (le_refl _))
      · exact ih hc hle

omit [MonotoneQuantity α] in
/-- The order of the effects does not matter. -/
theorem penalized_perm (hes : es.Perm es') : penalized policy c es = penalized policy c es' := by
  have : RightCommutative fun (c : α) (x : Effect α) =>
      if x.deters then c * policy.penalty else c :=
    ⟨fun c x y => by cases x.deters <;> cases y.deters <;> rfl⟩
  exact hes.foldl_eq c

theorem penalized_le (hpenalty : Quantity.ofNat 1 ≤ policy.penalty) (hes : es.Subperm es')
    (hc : Quantity.zero ≤ c) : penalized policy c es ≤ penalized policy c es' := by
  obtain ⟨l, hperm, hsub⟩ := hes
  rw [← penalized_perm hperm]
  exact penalized_le_of_sublist hpenalty hsub hc (le_refl c)

theorem le_slowed {limit : Option α} (hc : Quantity.zero ≤ c)
    (hlimit : ∀ v, limit = some v → Quantity.zero < v) : c ≤ slowed p c limit := by
  cases limit with
  | none => exact le_refl c
  | some v =>
      unfold slowed
      dsimp only
      split
      · rename_i hlt
        exact le_mul hc (one_le_div (hlimit v rfl) (le_of_lt hlt))
      · exact le_refl c

/-- More limits slow no less: the least of them is no greater. -/
theorem slowed_le {l l' : List α} (hl : l ⊆ l') (hpos : ∀ v ∈ l', Quantity.zero < v)
    (hc : Quantity.zero ≤ c) (hle : c ≤ c') :
    slowed p c (leastOf? l) ≤ slowed p c' (leastOf? l') := by
  have hslowed : c ≤ slowed p c' (leastOf? l') := calc
    c ≤ c' := hle
    _ ≤ slowed p c' (leastOf? l') :=
      le_slowed (le_trans hc hle) fun v hv => hpos v (mem_of_leastOf? hv)
  cases hv : leastOf? l with
  | none => exact hslowed
  | some v =>
      have hmem := hl (mem_of_leastOf? hv)
      cases hv' : leastOf? l' with
      | none =>
          cases l' with
          | nil => cases hmem
          | cons x rest => cases hv'
      | some v' =>
          rw [hv'] at hslowed
          have hle' : v' ≤ v := leastOf?_le hv' v hmem
          have hpos' : Quantity.zero < v' := hpos v' (mem_of_leastOf? hv')
          by_cases hlt : v < p.speed
          · have hspeed : Quantity.zero ≤ p.speed := calc
              Quantity.zero ≤ v := le_of_lt (hpos v hmem)
              _ ≤ p.speed := le_of_lt hlt
            simp only [slowed, if_pos hlt, if_pos (lt_of_le_of_lt hle' hlt)]
            exact mul_le_mul hc (div_nonneg hspeed (hpos v hmem)) hle
              (div_le_div hspeed hpos' hle')
          · simp only [slowed, if_neg hlt]
            exact hslowed

/-- **A cost grows with the restrictions in force.** -/
theorem costUnder_le (hpenalty : Quantity.ofNat 1 ≤ policy.penalty) (hcost : Quantity.zero ≤ e.cost)
    (hes : es.Subperm es') (hpos : ∀ x ∈ es', ∀ v, x.limit? = some v → Quantity.zero < v) :
    CostsAtMost (e.costUnder policy p es) (e.costUnder policy p es') := by
  intro d hd
  rw [costUnder_eq] at hd ⊢
  split at hd
  · cases hd
  · rename_i hpassable
    cases hd
    have hpassable' : ¬ es.any (fun x => x.forbids policy p e.forward) = true := by
      simp only [List.any_eq_true, not_exists, not_and] at hpassable ⊢
      exact fun x hx => hpassable x (hes.subset hx)
    rw [if_neg hpassable']
    refine ⟨_, rfl, slowed_le ?_ ?_ ?_ (penalized_le hpenalty hes hcost)⟩
    · exact List.filterMap_subset _ hes.subset
    · intro v hv
      obtain ⟨x, hx, hlimit⟩ := List.mem_filterMap.mp hv
      exact hpos x hx v hlimit
    · exact penalized_nonneg _ (lt_of_lt_of_le zero_lt_one hpenalty) hcost

omit [MonotoneQuantity α] in
/-- The dimensions of a profile have no part in a cost but by the restrictions in force. -/
theorem costUnder_profile (policy : Policy α) (p : Profile α) (weight height : α) (e : Edge α)
    (es : List (Effect α)) :
    e.costUnder policy { p with weight := weight, height := height } es =
      e.costUnder policy p es := rfl

section Travellers

variable {t t' : Traveller α} {rs' : List (Restriction α)}

/-- **Harder travel costs no less**: of an edge with more restrictions, or of a traveller that
outweighs another one. -/
theorem costFor_le (hpenalty : Quantity.ofNat 1 ≤ policy.penalty) (hcost : Quantity.zero ≤ e.cost)
    (hrs : e.restrictions.Subperm rs') (ht : t'.IsNoEasier t e.restrictions) :
    CostsAtMost (e.costFor policy t)
      (({ e with restrictions := rs' } : Edge α).costFor policy t') := by
  have hforce : ((t.restrictionsInForce e.restrictions).map Restriction.effect).Subperm
      ((t'.restrictionsInForce rs').map Restriction.effect) := by
    obtain ⟨l, hperm, hsub⟩ := Traveller.inForce_subperm hrs ht
    exact ⟨l.map Restriction.effect, hperm.map _, hsub.map _⟩
  have hprofile : ∀ es, ({ e with restrictions := rs' } : Edge α).costUnder policy t'.profile es =
      e.costUnder policy t.profile es := by
    intro es
    rcases ht with rfl | ⟨hweighs, -⟩
    · rfl
    · rw [hweighs.profile, costUnder_profile]
      rfl
  unfold costFor
  rw [hprofile]
  refine costUnder_le hpenalty hcost hforce fun x hx v hv => ?_
  obtain ⟨y, -, rfl⟩ := List.mem_map.mp hx
  exact Restriction.pos_of_limit? hv

theorem stepFor_le (hpenalty : Quantity.ofNat 1 ≤ policy.penalty) (hcost : Quantity.zero ≤ e.cost)
    (hrs : e.restrictions.Subperm rs') (ht : t'.IsNoEasier t e.restrictions) :
    CostsAtMost (e.stepFor policy t)
      (({ e with restrictions := rs' } : Edge α).stepFor policy t') := by
  intro d hd
  obtain ⟨hd, hfinite⟩ := Option.filter_eq_some_iff.mp hd
  obtain ⟨c, hc, hle⟩ := costFor_le hpenalty hcost hrs ht d hd
  refine ⟨c, Option.filter_eq_some_iff.mpr ⟨hc, ?_⟩, hle⟩
  -- An infinite cost would make the other one infinite too.
  have hnonneg := costFor_nonneg (lt_of_lt_of_le zero_lt_one hpenalty) hcost hc
  cases hinfinite : Quantity.isInfinite c with
  | false => rfl
  | true =>
      rw [isInfinite_of_le hnonneg hle hinfinite] at hfinite
      cases hfinite

end Travellers

end Edge

end RoadRules
