import RoadRules.Proofs.Number.Lawful
import RoadRules.Travel.Cost

set_option autoImplicit false

/-! # Costs are not negative

The effects of restrictions are looked at one by one, but what they come to can be said of all of
them at once: whether one of them forbids the travel, how many of them deter, and what the lowest
limit is (`Edge.costUnder_eq`).

A speed that a tag states is positive, so the lowest of several limits is positive too, and an edge
is only ever slowed by a positive factor. With a penalty that is positive, as every policy has it,
an edge whose own cost is not negative costs no traveller less than zero. -/

namespace RoadRules

variable {α : Type} [Quantity α]

/-! ## All effects at once -/

def leastOf? : List α → Option α
  | [] => none
  | x :: rest => some (rest.foldl Quantity.least x)

/-- The least of some quantities and one that may come before them. -/
def leastWith? (first : Option α) (rest : List α) : Option α :=
  match first with
  | none => leastOf? rest
  | some x => some (rest.foldl Quantity.least x)

/-- A cost multiplied by the penalty for every effect that deters. -/
def Edge.penalized (policy : Policy α) (cost : α) (es : List (Effect α)) : α :=
  es.foldl (fun c e => if e.deters then c * policy.penalty else c) cost

namespace Fare

variable {policy : Policy α} {p : Profile α} {forward : Bool} {f : Fare α}

/-- **What one effect does**: it ends the account, or it adds to the cost, or it limits the
speed. -/
theorem add_eq (policy : Policy α) (p : Profile α) (forward : Bool) (f : Fare α) (e : Effect α) :
    f.add policy p forward e =
      if e.forbids policy p forward then none
      else some ({ f with cost := if e.deters then f.cost * policy.penalty else f.cost }.lower
        e.limit?) := by
  cases e with
  | access subject value => rfl
  | oneway direction => rfl
  | speed limit => rfl
  | other subject value =>
      show some _ = some _
      cases Effect.deters (.other subject value : Effect α) <;> rfl

@[simp] theorem cost_lower (limit : Option α) : (f.lower limit).cost = f.cost := by
  unfold lower
  split
  · rfl
  · split <;> rfl

/-- The lowest limit so far is the least of what there was and what has come. -/
theorem leastWith?_lower (limit : Option α) (limits : List α) :
    leastWith? (f.lower limit).ceiling limits = leastWith? f.ceiling (limit.toList ++ limits) := by
  unfold lower
  cases limit with
  | none => rfl
  | some v => cases f.ceiling <;> rfl

/-- **What effects come to**, one after the other. -/
theorem foldlM_add (es : List (Effect α)) (f : Fare α) :
    es.foldlM (add policy p forward) f =
      if es.any (·.forbids policy p forward) then none
      else
        some
          { cost := Edge.penalized policy f.cost es
            ceiling := leastWith? f.ceiling (es.filterMap Effect.limit?) } := by
  induction es generalizing f with
  | nil =>
      obtain ⟨cost, ceiling⟩ := f
      cases ceiling <;> rfl
  | cons e rest ih =>
      rw [List.foldlM_cons, add_eq, List.any_cons]
      by_cases hforbids : e.forbids policy p forward = true
      · rw [if_pos hforbids, hforbids]
        rfl
      · have hlimits : (e :: rest).filterMap Effect.limit? =
            e.limit?.toList ++ rest.filterMap Effect.limit? := by
          cases hlimit : e.limit? with
          | none => rw [List.filterMap_cons_none hlimit]; rfl
          | some v => rw [List.filterMap_cons_some hlimit]; rfl
        rw [if_neg hforbids, Bool.eq_false_iff.mpr hforbids, Bool.false_or, hlimits]
        show rest.foldlM _ _ = _
        rw [ih, cost_lower, leastWith?_lower]
        rfl

end Fare

/-- **The cost of an edge under all effects at once.** -/
theorem Edge.costUnder_eq (policy : Policy α) (p : Profile α) (e : Edge α) (es : List (Effect α)) :
    e.costUnder policy p es =
      if es.any (·.forbids policy p e.forward) then none
      else
        some (slowed p (penalized policy e.cost es) (leastOf? (es.filterMap Effect.limit?))) := by
  unfold costUnder
  rw [Fare.foldlM_add]
  split <;> rfl

/-! ## Signs -/

variable [LawfulQuantity α]

open LawfulQuantity

omit [LawfulQuantity α] in
theorem Speed.not_le_zero_of_ofText? {s : Text} {v : α} (h : Speed.ofText? s = some v) :
    ¬ v ≤ Quantity.zero := by
  obtain ⟨⟨n, miles⟩, -, hv⟩ := Option.bind_eq_some_iff.mp h
  simp only at hv
  generalize (if miles = true then _ else _ : α) = speed at hv
  split at hv
  · cases hv
  · rename_i hle
    cases hv
    exact hle

omit [Quantity α] [LawfulQuantity α] in
theorem Effect.eq_speed_of_limit? {e : Effect α} {v : α} (h : e.limit? = some v) :
    e = .speed (some v) := by
  cases e with
  | speed limit => exact congrArg Effect.speed h
  | access subject value => cases h
  | oneway direction => cases h
  | other subject value => cases h

omit [LawfulQuantity α] in
/-- A restriction limits the speed by what its value states. -/
theorem Restriction.ofText?_of_effect {r : Restriction α} {v : α}
    (h : r.effect = .speed (some v)) : Speed.ofText? (normalized r.value) = some v := by
  unfold Restriction.effect at h
  generalize Text.lower r.subject = subject at h
  generalize normalized r.value = value at h ⊢
  simp only at h
  split at h
  · cases h
  · split at h
    · exact Effect.speed.inj h
    · split at h
      · cases h
      · cases h

omit [LawfulQuantity α] in
theorem Restriction.not_le_zero_of_limit? {r : Restriction α} {v : α}
    (h : r.effect.limit? = some v) : ¬ v ≤ Quantity.zero :=
  Speed.not_le_zero_of_ofText? (ofText?_of_effect (Effect.eq_speed_of_limit? h))

/-- A speed limit that a restriction sets is positive. -/
theorem Restriction.pos_of_limit? {r : Restriction α} {v : α} (h : r.effect.limit? = some v) :
    Quantity.zero < v :=
  lt_iff_not_le.mpr (not_le_zero_of_limit? h)

omit [LawfulQuantity α] in
/-- No speed limit among the effects of restrictions is at most zero. -/
theorem Restriction.not_le_zero_of_mem_limits (rs : List (Restriction α)) :
    ∀ v ∈ (rs.map effect).filterMap Effect.limit?, ¬ v ≤ Quantity.zero := by
  intro v hv
  obtain ⟨effect, heffect, hlimit⟩ := List.mem_filterMap.mp hv
  obtain ⟨r, -, rfl⟩ := List.mem_map.mp heffect
  exact not_le_zero_of_limit? hlimit

/-- The speed limits among the effects of restrictions are positive. -/
theorem Restriction.pos_of_mem_limits (rs : List (Restriction α)) :
    ∀ v ∈ (rs.map effect).filterMap Effect.limit?, Quantity.zero < v :=
  fun v hv => lt_iff_not_le.mpr (not_le_zero_of_mem_limits rs v hv)

omit [LawfulQuantity α] in
/-- The lesser of two positive quantities is positive. -/
theorem Quantity.least_pos {a b : α} (ha : Quantity.zero < a) (hb : Quantity.zero < b) :
    Quantity.zero < Quantity.least a b := by
  unfold Quantity.least
  split
  · exact hb
  · exact ha

omit [LawfulQuantity α] in
/-- The least of several positive quantities is positive. -/
theorem leastOf?_pos {l : List α} {v : α} (hl : ∀ x ∈ l, Quantity.zero < x)
    (h : leastOf? l = some v) : Quantity.zero < v := by
  have key : ∀ (rest : List α) (x : α), (∀ y ∈ rest, Quantity.zero < y) → Quantity.zero < x →
      Quantity.zero < rest.foldl Quantity.least x := by
    intro rest
    induction rest with
    | nil => exact fun x _ hx => hx
    | cons y rest ih =>
        intro x hrest hx
        apply ih _ fun z hz => hrest z (List.mem_cons_of_mem _ hz)
        exact Quantity.least_pos hx (hrest y List.mem_cons_self)
  cases l with
  | nil => cases h
  | cons x rest =>
      cases h
      exact key rest x (fun y hy => hl y (List.mem_cons_of_mem _ hy)) (hl x List.mem_cons_self)

namespace Edge

theorem penalized_nonneg {policy : Policy α} {c : α} (es : List (Effect α))
    (hpenalty : Quantity.zero < policy.penalty) (hc : Quantity.zero ≤ c) :
    Quantity.zero ≤ penalized policy c es := by
  induction es generalizing c with
  | nil => exact hc
  | cons e rest ih =>
      apply ih
      show Quantity.zero ≤ if e.deters then c * policy.penalty else c
      split
      · exact mul_nonneg hc (le_of_lt hpenalty)
      · exact hc

/-- A positive speed limit does not make a cost negative. -/
theorem slowed_nonneg {p : Profile α} {c : α} {limit : Option α} (hc : Quantity.zero ≤ c)
    (hlimit : ∀ v, limit = some v → Quantity.zero < v) : Quantity.zero ≤ slowed p c limit := by
  cases limit with
  | none => exact hc
  | some v =>
      have hv := hlimit v rfl
      simp only [slowed]
      split
      · rename_i hlt
        have hspeed : Quantity.zero ≤ p.speed := le_trans (le_of_lt hv) (le_of_lt hlt)
        exact mul_nonneg hc (div_nonneg hspeed hv)
      · exact hc

/-- **What an edge costs a traveller is not negative** if its own cost is not. -/
theorem costFor_nonneg {policy : Policy α} {t : Traveller α} {e : Edge α} {d : α}
    (hpenalty : Quantity.zero < policy.penalty) (hcost : Quantity.zero ≤ e.cost)
    (h : e.costFor policy t = some d) : Quantity.zero ≤ d := by
  rw [costFor, costUnder_eq] at h
  split at h
  · cases h
  · cases h
    apply slowed_nonneg (penalized_nonneg _ hpenalty hcost)
    intro v hv
    exact leastOf?_pos (Restriction.pos_of_mem_limits _) hv

theorem stepFor_nonneg {policy : Policy α} {t : Traveller α} {e : Edge α} {d : α}
    (hpenalty : Quantity.zero < policy.penalty) (hcost : Quantity.zero ≤ e.cost)
    (h : e.stepFor policy t = some d) : Quantity.zero ≤ d :=
  costFor_nonneg hpenalty hcost (Option.filter_eq_some_iff.mp h).1

end Edge

end RoadRules
