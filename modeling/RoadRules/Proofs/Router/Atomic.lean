import RoadRules.Proofs.Results
import RoadRules.Session

set_option autoImplicit false

/-! # Operations that are done in full or not at all

A router keeps what was assigned before a fault, so that an operation which fails could leave it
half changed. `RouterM.Atomic` says of an operation that it does not: if it fails, the router is as
it was. Two kinds of steps make up atomic operations, those that only look at the router and those
that cannot fail. An operation is atomic if all steps of the first kind come before all steps of the
second, and both changes are of this form: a rebuild reads the tags and builds the network first,
and nothing can fail any more once it has begun to assign (`RouterM.atomic_rebuild`). -/

namespace RoadRules

namespace RouterM

variable {α β δ : Type}

/-- The reply of an operation on a router, and the router that it leaves. -/
def outcome (x : RouterM α β) (r : Router α) : Except Fault β × Router α := x.run.run r

variable {x : RouterM α β} {f : β → RouterM α δ} {r : Router α}

@[simp] theorem outcome_liftExcept (v : Except Fault β) (r : Router α) :
    (liftExcept v : RouterM α β).outcome r = (v, r) := by
  cases v <;> rfl

theorem outcome_bind (x : RouterM α β) (f : β → RouterM α δ) (r : Router α) :
    (x >>= f).outcome r = (ExceptT.bindCont f (x.outcome r).1).run (x.outcome r).2 := rfl

/-- After a step that has succeeded the next one finds the router as it was left. -/
theorem outcome_bind_of_ok {v : β} (h : (x.outcome r).1 = .ok v) :
    (x >>= f).outcome r = (f v).outcome (x.outcome r).2 := by
  rw [outcome_bind, h]
  rfl

/-- After a step that has failed there is no other. -/
theorem outcome_bind_of_error {e : Fault} (h : (x.outcome r).1 = .error e) :
    (x >>= f).outcome r = (.error e, (x.outcome r).2) := by
  rw [outcome_bind, h]
  rfl

theorem outcome_get_bind (f : Router α → RouterM α δ) (r : Router α) :
    ((get : RouterM α (Router α)) >>= f).outcome r = (f r).outcome r := rfl

theorem outcome_ok_bind (v : β) (f : β → RouterM α δ) (r : Router α) :
    ((liftExcept (Except.ok v : Except Fault β) : RouterM α β) >>= f).outcome r =
      (f v).outcome r := rfl

theorem outcome_error_bind (e : Fault) (f : β → RouterM α δ) (r : Router α) :
    ((liftExcept (Except.error e : Except Fault β) : RouterM α β) >>= f).outcome r =
      (.error e, r) := rfl

/-! ## Kinds of operations -/

/-- Whether an operation leaves the router as it is, also when it fails. -/
def ReadsOnly (x : RouterM α β) : Prop := ∀ r, (x.outcome r).2 = r

def NeverFails (x : RouterM α β) : Prop := ∀ r, ∃ v, (x.outcome r).1 = .ok v

/-- Whether an operation that fails leaves the router as it was. -/
def Atomic (x : RouterM α β) : Prop := ∀ r e, (x.outcome r).1 = .error e → (x.outcome r).2 = r

theorem readsOnly_get : (get : RouterM α (Router α)).ReadsOnly := fun _ => rfl

theorem readsOnly_liftExcept (v : Except Fault β) : (liftExcept v : RouterM α β).ReadsOnly :=
  fun r => congrArg Prod.snd (outcome_liftExcept v r)

theorem neverFails_pure (v : β) : (pure v : RouterM α β).NeverFails := fun _ => ⟨v, rfl⟩

theorem neverFails_modify (change : Router α → Router α) :
    (modify change : RouterM α Unit).NeverFails := fun _ => ⟨(), rfl⟩

theorem ReadsOnly.bind (hx : x.ReadsOnly) (hf : ∀ v, (f v).ReadsOnly) : (x >>= f).ReadsOnly := by
  intro r
  cases h : (x.outcome r).1 with
  | ok v => rw [outcome_bind_of_ok h, hf v, hx r]
  | error e => rw [outcome_bind_of_error h, hx r]

theorem NeverFails.bind (hx : x.NeverFails) (hf : ∀ v, (f v).NeverFails) :
    (x >>= f).NeverFails := by
  intro r
  obtain ⟨v, h⟩ := hx r
  rw [outcome_bind_of_ok h]
  exact hf v _

theorem ReadsOnly.atomic (hx : x.ReadsOnly) : x.Atomic := fun r _ _ => hx r

theorem NeverFails.atomic (hx : x.NeverFails) : x.Atomic := by
  intro r e h
  obtain ⟨v, hv⟩ := hx r
  rw [hv] at h
  cases h

/-- **A step that only looks may come before anything atomic.** -/
theorem ReadsOnly.bind_atomic (hx : x.ReadsOnly) (hf : ∀ v, (f v).Atomic) : (x >>= f).Atomic := by
  intro r e
  cases h : (x.outcome r).1 with
  | ok v =>
      rw [outcome_bind_of_ok h, hx r]
      exact hf v r e
  | error e' =>
      rw [outcome_bind_of_error h]
      exact fun _ => hx r

/-- **A step that cannot fail may come after anything atomic.** -/
theorem Atomic.bind (hx : x.Atomic) (hf : ∀ v, (f v).NeverFails) : (x >>= f).Atomic := by
  intro r e
  cases h : (x.outcome r).1 with
  | ok v =>
      obtain ⟨v', hv'⟩ := hf v (x.outcome r).2
      rw [outcome_bind_of_ok h, hv']
      exact nofun
  | error e' =>
      rw [outcome_bind_of_error h]
      exact fun _ => hx r e' h

/-! ## Changes and questions -/

theorem neverFails_clear : (clear : RouterM α Unit).NeverFails :=
  (neverFails_modify _).bind fun _ => neverFails_modify _

section Operations

variable [Geometry α]

/-- **A rebuild is atomic**: it assigns nothing before the network is built, and nothing that comes
after can fail. -/
theorem atomic_rebuild (ways : List (Way α)) (source : RestrictionSource α) :
    (rebuild ways source).Atomic := by
  refine (readsOnly_liftExcept _).bind_atomic fun ix => ?_
  refine readsOnly_get.bind_atomic fun r => ?_
  refine (readsOnly_liftExcept _).bind_atomic fun network => ?_
  refine NeverFails.atomic ?_
  exact (neverFails_modify _).bind fun _ => (neverFails_modify _).bind fun _ => neverFails_pure _

theorem atomic_change (c : Change α) : (change c).Atomic := by
  cases c with
  | rebuild ways source => exact (atomic_rebuild ways source).bind fun _ => neverFails_pure _
  | clear => exact (neverFails_clear.bind fun _ => neverFails_pure _).atomic

/-- **A question changes nothing.** -/
theorem readsOnly_ask (q : Question α) : (ask q).ReadsOnly :=
  readsOnly_get.bind fun _ => readsOnly_liftExcept _

/-- **Every operation is atomic.** -/
theorem atomic_operate (o : Operation α) : (operate o).Atomic := by
  cases o with
  | change c => exact atomic_change c
  | ask q => exact (readsOnly_ask q).atomic

/-- A question is answered for the router as it is found. -/
theorem outcome_ask (q : Question α) (r : Router α) : (ask q).outcome r = (r.answer q, r) := by
  unfold ask
  rw [outcome_get_bind, outcome_liftExcept]

variable {ways : List (Way α)} {source : RestrictionSource α} {ix : RestrictionIndex α}
  {g : Network α}

/-- **A rebuild publishes** the network that it builds, and the tags that were refused. -/
theorem outcome_rebuild_of_ok (hix : source.resolve ways = .ok ix)
    (hg : Network.ofWays r.mapper r.policy.metric ix.restrictionsFor ways = .ok g) :
    (rebuild ways source).outcome r =
      (.ok g.statistics, { r with network := g, issues := ix.issues }) := by
  unfold rebuild
  rw [hix, outcome_ok_bind, outcome_get_bind, hg, outcome_ok_bind]
  rfl

/-- A rebuild that succeeds has got its restrictions and has built its network. -/
theorem exists_of_outcome_rebuild {counts : Statistics}
    (h : ((rebuild ways source).outcome r).1 = .ok counts) :
    ∃ ix g, source.resolve ways = .ok ix ∧
      Network.ofWays r.mapper r.policy.metric ix.restrictionsFor ways = .ok g := by
  unfold rebuild at h
  cases hix : source.resolve ways with
  | error e =>
      rw [hix, outcome_error_bind] at h
      cases h
  | ok ix =>
      rw [hix, outcome_ok_bind, outcome_get_bind] at h
      cases hg : Network.ofWays r.mapper r.policy.metric ix.restrictionsFor ways with
      | error e =>
          rw [hg, outcome_error_bind] at h
          cases h
      | ok g => exact ⟨ix, g, rfl, hg⟩

end Operations

end RouterM

/-! ## Rebuilt routers -/

namespace Router

variable {α : Type} [Geometry α] {r r' : Router α} {ways : List (Way α)}
  {source : RestrictionSource α}

/-- **A router is rebuilt** with the restrictions of the source and the network of the ways; its
mapper and its policy stay. -/
theorem rebuild_eq_ok_iff :
    r.rebuild ways source = .ok r' ↔
      ∃ ix g, source.resolve ways = .ok ix ∧
        Network.ofWays r.mapper r.policy.metric ix.restrictionsFor ways = .ok g ∧
          { r with network := g, issues := ix.issues } = r' := by
  have hrebuild : r.rebuild ways source =
      ((RouterM.rebuild ways source).outcome r).1.map
        fun _ => ((RouterM.rebuild ways source).outcome r).2 := by
    unfold rebuild RouterM.outcome
    obtain ⟨reply, left⟩ := (RouterM.rebuild ways source).run.run r
    cases reply <;> rfl
  rw [hrebuild, map_eq_ok]
  constructor
  · rintro ⟨counts, hcounts, rfl⟩
    obtain ⟨ix, g, hix, hg⟩ := RouterM.exists_of_outcome_rebuild hcounts
    exact ⟨ix, g, hix, hg, (congrArg Prod.snd (RouterM.outcome_rebuild_of_ok hix hg)).symm⟩
  · rintro ⟨ix, g, hix, hg, rfl⟩
    rw [RouterM.outcome_rebuild_of_ok hix hg]
    exact ⟨_, rfl, rfl⟩

theorem rebuild_eq_ok {ix : RestrictionIndex α} (hix : source.resolve ways = .ok ix)
    (h : r.rebuild ways source = .ok r') :
    r'.policy = r.policy ∧
      Network.ofWays r.mapper r.policy.metric ix.restrictionsFor ways = .ok r'.network := by
  obtain ⟨ix', g, hix', hg, rfl⟩ := rebuild_eq_ok_iff.mp h
  obtain rfl : ix = ix' := Except.ok.inj (hix.symm.trans hix')
  exact ⟨rfl, hg⟩

end Router

end RoadRules
