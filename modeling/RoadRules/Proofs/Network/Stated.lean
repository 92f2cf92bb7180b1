import RoadRules.Proofs.Network.Oneway
import RoadRules.Proofs.Network.Reference
import RoadRules.Proofs.Survey.Scan

set_option autoImplicit false

/-! # Whose restrictions an edge carries

A router that is rebuilt from tags looks restrictions up by the identifiers of the ways. So an edge
carries what the last way under the identifier of its own way states, of those that state anything
(`Router.rebuild_stated`). That is what its own way states if identifiers are not repeated, but not
always (`Router.rebuild_mistaken`). -/

namespace RoadRules

open Text

section Survey

variable {α : Type} [Quantity α]

/-- What the ways under an identifier state, each way that states anything for itself. -/
def statementsUnder (ways : List (Way α)) (keys : List Text) (id : Ident) :
    List (List (Restriction α)) :=
  ((ways.filter fun w => w.id == id).map fun w => w.accepted keys).filter fun rs => !rs.isEmpty

/-- What is stated last under an identifier. -/
def lastStated (ways : List (Way α)) (keys : List Text) (id : Ident) : List (Restriction α) :=
  (statementsUnder ways keys id).getLastD []

theorem statementsUnder_cons (w : Way α) (ways : List (Way α)) (keys : List Text) (id : Ident) :
    statementsUnder (w :: ways) keys id =
      if id = w.id ∧ w.accepted keys ≠ [] then w.accepted keys :: statementsUnder ways keys id
      else statementsUnder ways keys id := by
  unfold statementsUnder
  by_cases hid : w.id = id
  · subst hid
    by_cases hempty : w.accepted keys = [] <;> simp [hempty]
  · have hne : ¬ id = w.id := fun h => hid h.symm
    simp [hid, hne]

/-- **A survey goes on** and keeps what is stated last. -/
theorem RestrictionIndex.restrictionsFor_addWays_eq {ways : List (Way α)} {keys : List Text}
    {ix ix' : RestrictionIndex α} (h : addWays keys ix ways = .ok ix') (id : Ident) :
    ix'.restrictionsFor id =
      (statementsUnder ways keys id).getLastD (ix.restrictionsFor id) := by
  induction ways generalizing ix with
  | nil =>
      cases h
      rfl
  | cons w rest ih =>
      obtain ⟨-, hrest⟩ := addWays_cons_eq_ok_iff.mp h
      rw [ih hrest, restrictionsFor_add, statementsUnder_cons]
      split
      · rw [List.getLastD_cons]
      · rfl

/-- **What a survey finds under an identifier** is what is stated last. -/
theorem RestrictionIndex.restrictionsFor_ofWays {ways : List (Way α)} {keys : List Text}
    {ix : RestrictionIndex α} (h : ofWays ways keys .unlimited = .ok ix) (id : Ident) :
    ix.restrictionsFor id = lastStated ways keys id := by
  obtain ⟨ix', hadded, rfl⟩ := ofWays_eq_ok_iff.mp h
  rw [Budget.cut_unlimited] at hadded
  exact restrictionsFor_addWays_eq hadded id

/-- If all ways under the identifier of a way state the same as the way, so does the last. -/
theorem lastStated_eq {ways : List (Way α)} {keys : List Text} {w : Way α} (hw : w ∈ ways)
    (hsame : ∀ v ∈ ways, v.id = w.id → v.accepted keys = w.accepted keys) :
    lastStated ways keys w.id = w.accepted keys := by
  have hall : ∀ rs ∈ statementsUnder ways keys w.id, rs = w.accepted keys := by
    intro rs hrs
    obtain ⟨v, hv, rfl⟩ := List.mem_map.mp (List.mem_filter.mp hrs).1
    obtain ⟨hv, hid⟩ := List.mem_filter.mp hv
    exact hsame v hv (beq_iff_eq.mp hid)
  unfold lastStated
  cases hstated : (statementsUnder ways keys w.id).getLast? with
  | some rs =>
      rw [List.getLastD_eq_getLast?, hstated]
      exact hall rs (List.mem_of_getLast? hstated)
  | none =>
      -- Nothing is stated under the identifier, so nothing by this way.
      rw [List.getLastD_eq_getLast?, hstated, Option.getD_none]
      by_contra hne
      have hmem : w.accepted keys ∈ statementsUnder ways keys w.id :=
        List.mem_filter.mpr ⟨List.mem_map.mpr ⟨w, List.mem_filter.mpr ⟨hw, by simp⟩, rfl⟩,
          by simpa using Ne.symm hne⟩
      rw [List.getLast?_eq_none_iff.mp hstated] at hmem
      cases hmem

end Survey

/-! ## Edges by their ways -/

namespace Edge

variable {α β : Type}

/-- Numbered links come apart into those of each item that they are made for. -/
theorem exists_of_number_flatMap (first : Nat) (links : β → List (Link α)) (xs : List β) :
    ∃ ess, List.Forall₂ (fun x es => es.map Edge.toLink = links x) xs ess ∧
      ess.flatten = number first (xs.flatMap links) := by
  induction xs generalizing first with
  | nil => exact ⟨[], .nil, rfl⟩
  | cons x rest ih =>
      obtain ⟨ess, hess, hflat⟩ := ih (first + (links x).length)
      refine ⟨number first (links x) :: ess, .cons (map_toLink_number first _) hess, ?_⟩
      rw [List.flatten_cons, hflat, List.flatMap_cons, number_append]

end Edge

namespace Network

variable {α : Type} [Geometry α] {m : TagMapper} {metric : Metric} {ws : List (Way α)}
  {restrictionsOf : Ident → List (Restriction α)} {g : Network α}

/-- **The edges that are made for a way**: there are some, they belong to the way, and they carry
what is looked up under its identifier. -/
theorem exists_edges_of_ofWays (h : ofWays m metric restrictionsOf ws = .ok g) :
    ∃ ess, List.Forall₂ (fun w es => es ≠ [] ∧
        ∀ e ∈ es, e.way = w.id ∧ e.restrictions = restrictionsOf w.id)
        (ws.filter (·.takesPart m)) ess ∧ ess.flatten = g.edges := by
  obtain ⟨x⟩ := nonempty_measures h
  obtain ⟨ess, hess, hflat⟩ := Edge.exists_of_number_flatMap 0 (x.links restrictionsOf)
    (ws.filter (·.takesPart m))
  refine ⟨ess, forall₂_of_mem hess fun w hw es hlinks => ?_, hflat.trans (ofWays_parts x h).1.symm⟩
  obtain ⟨hmem, htakes⟩ := List.mem_filter.mp hw
  refine ⟨?_, fun e he => x.of_mem_links hmem htakes (hlinks ▸ List.mem_map_of_mem he)⟩
  rintro rfl
  exact x.links_ne_nil restrictionsOf hmem htakes hlinks.symm

end Network

/-! ## Routers -/

namespace Router

variable {α : Type} [Geometry α]

/-- **Whose restrictions an edge carries.** After a router is rebuilt from tags, the edges of each
way that takes part carry what is stated last under the identifier of the way. If no other way under
it states anything else, that is just what the tags of the way state, in their order. -/
theorem rebuild_stated {r r' : Router α} {ways : List (Way α)}
    (h : r.rebuild ways .tags = .ok r') :
    (∃ ess, List.Forall₂ (fun w es => es ≠ [] ∧ ∀ e ∈ es, e.way = w.id ∧
        e.restrictions = lastStated ways standardKeys w.id)
        (ways.filter (·.takesPart r.mapper)) ess ∧ ess.flatten = r'.network.edges) ∧
    ∀ w ∈ ways,
      w.restrictions standardKeys = .ok (w.accepted standardKeys, w.refused standardKeys) ∧
      ((∀ v ∈ ways, v.id = w.id → v.accepted standardKeys = w.accepted standardKeys) →
        lastStated ways standardKeys w.id = w.accepted standardKeys) := by
  obtain ⟨ix, -, hix, -⟩ := rebuild_eq_ok_iff.mp h
  have hstated := RestrictionIndex.restrictionsFor_ofWays hix
  constructor
  · obtain ⟨ess, hess, hflat⟩ := Network.exists_edges_of_ofWays (rebuild_eq_ok hix h).2
    simp only [hstated] at hess
    exact ⟨ess, hess, hflat⟩
  · intro w hw
    have hsurveyed := RestrictionIndex.exists_ofWays_iff.mp ⟨ix, hix⟩
    rw [Budget.cut_unlimited] at hsurveyed
    exact ⟨Way.restrictions_eq_ok_iff.mpr ⟨hsurveyed w hw, rfl⟩, lastStated_eq hw⟩

/-- Two roads under one identifier, of which only the first states a restriction. -/
def sharedIdentifier : List (Way ℚ) :=
  [shortRoad [("access:conditional", "no @ (Mo-Fr)")],
    { shortRoad [] with nodes := [⟨.number 2, 1, 0⟩, ⟨.number 3, 2, 0⟩] }]

theorem rebuild_stated_shared :
    ∃ r' : Router ℚ, planarRouter.rebuild sharedIdentifier .tags = .ok r' ∧
      ∃ ess, List.Forall₂ (fun w es => es ≠ [] ∧ ∀ e ∈ es, e.way = w.id ∧
        e.restrictions = lastStated sharedIdentifier standardKeys w.id)
        (sharedIdentifier.filter (·.takesPart planarRouter.mapper)) ess ∧
          ess.flatten = r'.network.edges := by
  obtain ⟨r', hr'⟩ := exists_eq_ok (x := planarRouter.rebuild sharedIdentifier .tags)
    (by decide +kernel)
  exact ⟨r', hr', (rebuild_stated hr').1⟩

/-- **An edge does not always carry what its own way states.** -/
theorem rebuild_mistaken :
    ¬ ∀ (r r' : Router ℚ) (ways : List (Way ℚ)), r.rebuild ways .tags = .ok r' →
      ∃ ess, List.Forall₂ (fun w es => es ≠ [] ∧ ∀ e ∈ es, e.way = w.id ∧
        e.restrictions = w.accepted standardKeys)
        (ways.filter (·.takesPart r.mapper)) ess ∧ ess.flatten = r'.network.edges := by
  intro hall
  have hmade : ((planarRouter.rebuild sharedIdentifier .tags).map fun r' =>
      r'.network.edges.map fun e => e.restrictions.length) = .ok [1, 1, 1, 1] := by decide +kernel
  obtain ⟨r', hr', hcarried⟩ := map_eq_ok.mp hmade
  obtain ⟨ess, hess, hflat⟩ := hall planarRouter r' sharedIdentifier hr'
  obtain ⟨es, hmem, hne, hown⟩ := exists_of_forall₂ hess
    { shortRoad [] with nodes := [⟨.number 2, 1, 0⟩, ⟨.number 3, 2, 0⟩] } (by
      rw [List.filter_eq_self.mpr (by decide +kernel)]
      exact List.mem_cons_of_mem _ (List.mem_singleton_self _))
  obtain ⟨e, he⟩ := List.exists_mem_of_ne_nil _ hne
  have hlength : e.restrictions.length ∈ r'.network.edges.map fun e => e.restrictions.length :=
    List.mem_map_of_mem (hflat ▸ List.mem_flatten_of_mem hmem he)
  rw [hcarried, (hown e he).2] at hlength
  revert hlength
  decide +kernel

end Router

end RoadRules
