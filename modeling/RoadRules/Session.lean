import RoadRules.Router

set_option autoImplicit false

/-! # Sessions with a router

A session is a sequence of operations on one router: changes of its network, and questions about
the network that it has at the time. Every operation gets a reply, which may be a fault, and the
next one finds the router as it was left, also after a fault. -/

namespace RoadRules

open Calendar

/-- What is asked about the travel of a vehicle. -/
inductive TravelQuestion where
  | route (budget : Budget) (start goal : Ident)
  | affectedEdges (budget : Budget)
  | affectedWays (budget : Budget)
  | isAccessible (way : Ident)

/-- A question to a router. -/
inductive Question (α : Type) where
  | network
  | issues
  | travel (choice : VehicleChoice α) (time : LocalTime) (weight height : Option α)
      (about : TravelQuestion)
  | costs (choice : VehicleChoice α) (time : LocalTime) (weight height : Option α)
  | maxSpeed (way : Ident) (time : LocalTime) (choice : Option (VehicleChoice α))
  | isOneway (way : Ident) (time : LocalTime)

/-- What a router replies to an operation that does not fail. -/
inductive Reply (α : Type) where
  | network (g : Network α)
  | issues (l : List Issue)
  | route (r : Route α)
  | edges (es : List (Edge α))
  | ways (ids : List Ident)
  | costs (cs : List (Option α))
  | speed (v : Option α)
  | flag (b : Bool)
  /-- The counts of a new network. -/
  | rebuilt (s : Statistics)
  | cleared

/-- An operation on a router. -/
inductive Operation (α : Type) where
  | change (c : Change α)
  | ask (q : Question α)

namespace Router

variable {α : Type} [Quantity α]

def answerTravel (r : Router α) (t : Traveller α) : TravelQuestion → Reply α
  | .route budget start goal => .route (r.route t budget start goal)
  | .affectedEdges budget => .edges (r.network.affectedEdges t budget)
  | .affectedWays budget => .ways (r.network.affectedWays t budget)
  | .isAccessible way => .flag (r.isAccessible t way)

/-- The reply to a question; a question about a vehicle that is not known fails. -/
def answer (r : Router α) : Question α → Except Fault (Reply α)
  | .network => .ok (.network r.network)
  | .issues => .ok (.issues r.issues)
  | .travel choice time weight height about =>
    choice.resolve.map fun p => r.answerTravel ⟨p, time, weight, height⟩ about
  | .costs choice time weight height => (r.costs choice time weight height).map .costs
  | .maxSpeed way time choice => (r.maxSpeed way time choice).map .speed
  | .isOneway way time => .ok (.flag (r.isOneway way time))

end Router

namespace RouterM

variable {α : Type} [Geometry α]

def change : Change α → RouterM α (Reply α)
  | .rebuild ways source => do return .rebuilt (← rebuild ways source)
  | .clear => do
    clear
    return .cleared

/-- A question is asked about the router as it is found. -/
def ask (q : Question α) : RouterM α (Reply α) := do liftExcept ((← get).answer q)

def operate : Operation α → RouterM α (Reply α)
  | .change c => change c
  | .ask q => ask q

end RouterM

namespace Router

variable {α : Type} [Geometry α]

/-- The router after an operation, and the reply to it. -/
def perform (r : Router α) (o : Operation α) : Router α × Except Fault (Reply α) :=
  ((RouterM.operate o).run.run r).swap

/-- The router after a sequence of operations, and the replies to them. -/
def performAll (r : Router α) : List (Operation α) → Router α × List (Except Fault (Reply α))
  | [] => (r, [])
  | o :: rest =>
    let (next, reply) := r.perform o
    let (last, replies) := next.performAll rest
    (last, reply :: replies)

end Router

end RoadRules
