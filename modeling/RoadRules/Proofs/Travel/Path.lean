import Mathlib.Data.List.Induction
import RoadRules.Proofs.Network.Views
import RoadRules.Travel.Route

set_option autoImplicit false

/-! # Paths of a network

What a route is compared with: a list of edges of the network, each starting where the one before
it ends, with the costs of the edges added in the order of travel. The search itself only sees
the steps that leave a node, so there is a second notion, `Search.Path`, over any function that
gives such steps; `isPath_iff` says that on the steps of a network the two are the same. -/

namespace RoadRules

variable {α : Type}

namespace Edge

/-- Whether edges, each starting where the one before it ends, lead from one node to another. -/
def Leads : Ident → List (Edge α) → Ident → Prop
  | a, [], b => a = b
  | a, e :: rest, b => e.source = a ∧ Leads e.target rest b

theorem leads_concat {a b : Ident} {es : List (Edge α)} {e : Edge α} :
    Leads a (es ++ [e]) b ↔ Leads a es e.source ∧ e.target = b := by
  induction es generalizing a with
  | nil => simp [Leads, eq_comm]
  | cons f rest ih => simp only [List.cons_append, Leads, ih, and_assoc]

/-- The last node of a list of edges that lead to it. -/
theorem getLast?_of_leads {a b : Ident} {es : List (Edge α)} (h : Leads a es b) :
    (a :: es.map fun e => e.target).getLast? = some b := by
  induction es generalizing a with
  | nil => cases h; rfl
  | cons e rest ih => simpa [List.getLast?_cons_cons] using ih h.2

variable [Quantity α]

/-- The costs of edges added from zero in the order of travel; nothing if a traveller cannot
travel one of them. -/
def totalFor (policy : Policy α) (t : Traveller α) (es : List (Edge α)) : Option α :=
  es.foldlM (fun c e => (e.stepFor policy t).map (c + ·)) Quantity.zero

theorem totalFor_concat {policy : Policy α} {t : Traveller α} {es : List (Edge α)}
    {e : Edge α} {c : α} :
    totalFor policy t (es ++ [e]) = some c ↔
      ∃ b d, totalFor policy t es = some b ∧ e.stepFor policy t = some d ∧ b + d = c := by
  simp [totalFor, List.foldlM_append, Option.bind_eq_some_iff, Option.map_eq_some_iff]

/-- Every edge of a list with a total can be travelled. -/
theorem isSome_stepFor_of_totalFor {policy : Policy α} {t : Traveller α} {es : List (Edge α)}
    {c : α} (h : totalFor policy t es = some c) : ∀ e ∈ es, (e.stepFor policy t).isSome := by
  induction es using List.reverseRecOn generalizing c with
  | nil => simp
  | append_singleton es e ih =>
      obtain ⟨b, d, hb, hd, -⟩ := totalFor_concat.mp h
      intro f hf
      rcases List.mem_append.mp hf with hf | hf
      · exact ih hb f hf
      · rw [List.mem_singleton.mp hf, hd]; rfl

end Edge

/-! ## Paths by steps -/

namespace Search

variable [Quantity α]

/-- Edges that lead from a start to a node by the given steps, with their costs added up. -/
inductive Path (steps : Ident → List (Edge α × α)) (start : Ident) :
    List (Edge α) → Ident → α → Prop
  | stay : Path steps start [] start Quantity.zero
  -- One more step at the end.
  | step {es : List (Edge α)} {id : Ident} {c : α} {e : Edge α} {d : α} :
      Path steps start es id c → (e, d) ∈ steps id →
        Path steps start (es ++ [e]) e.target (c + d)

end Search

/-! ## Paths by edges -/

namespace Network

variable [Quantity α]

/-- The steps from a node are its passable edges with their costs. -/
theorem mem_steps {g : Network α} {policy : Policy α} {t : Traveller α} {id : Ident}
    {e : Edge α} {d : α} :
    (e, d) ∈ g.steps policy t id ↔
      e ∈ g.edges ∧ e.source = id ∧ e.stepFor policy t = some d := by
  simp only [steps, List.mem_filterMap, mem_outEdges, Option.map_eq_some_iff, Prod.mk.injEq]
  constructor
  · rintro ⟨f, ⟨hf, hs⟩, c, hc, rfl, rfl⟩
    exact ⟨hf, hs, hc⟩
  · rintro ⟨hf, hs, hc⟩
    exact ⟨e, ⟨hf, hs⟩, d, hc, rfl, rfl⟩

/-- **A path of a network** for a traveller: edges of the network that lead from one node to
another and that all can be travelled, with their total cost. -/
structure IsPath (g : Network α) (policy : Policy α) (t : Traveller α) (a b : Ident)
    (es : List (Edge α)) (c : α) : Prop where
  -- The edges are edges of the network.
  edges : ∀ e ∈ es, e ∈ g.edges
  -- They lead from the one node to the other.
  leads : Edge.Leads a es b
  -- Their costs, added in the order of travel, make the total.
  total : Edge.totalFor policy t es = some c

/-- On the steps of a network the two notions of a path are the same. -/
theorem isPath_iff {g : Network α} {policy : Policy α} {t : Traveller α} {a b : Ident}
    {es : List (Edge α)} {c : α} :
    g.IsPath policy t a b es c ↔ Search.Path (g.steps policy t) a es b c := by
  constructor
  · intro ⟨hes, hl, ht⟩
    induction es using List.reverseRecOn generalizing b c with
    | nil =>
        cases hl
        cases ht
        exact .stay
    | append_singleton es e ih =>
        obtain ⟨hsource, rfl⟩ := Edge.leads_concat.mp hl
        obtain ⟨c, d, hc, hd, rfl⟩ := Edge.totalFor_concat.mp ht
        have hpath := ih (fun f hf => hes f (List.mem_append_left _ hf)) hsource hc
        exact .step hpath (mem_steps.mpr ⟨hes e (by simp), rfl, hd⟩)
  · intro h
    induction h with
    | stay => exact ⟨by simp, rfl, rfl⟩
    | step _ hstep ih =>
        obtain ⟨he, hs, hd⟩ := mem_steps.mp hstep
        refine ⟨?_, Edge.leads_concat.mpr ⟨hs ▸ ih.leads, rfl⟩,
          Edge.totalFor_concat.mpr ⟨_, _, ih.total, hd, rfl⟩⟩
        intro f hf
        rcases List.mem_append.mp hf with hf | hf
        · exact ih.edges f hf
        · exact List.mem_singleton.mp hf ▸ he

end Network

end RoadRules
