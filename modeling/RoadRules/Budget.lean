set_option autoImplicit false

/-! # Budgets

A budget limits how many units of work a search or a scan may do. Work that runs out of its budget
ends early with what it has; it never fails. A budget whose time is over allows nothing. -/

namespace RoadRules

/-- A limit for the work of a search or a scan. -/
structure Budget where
  /-- The number of units of work, if it is limited. -/
  limit : Option Int
  expired : Bool
deriving DecidableEq, Repr

namespace Budget

def unlimited : Budget := ⟨none, false⟩

def units (n : Int) : Budget := ⟨some n, false⟩

/-- Whether another unit of work is allowed after `spent` units. -/
def allows (b : Budget) (spent : Nat) : Bool :=
  !b.expired && b.limit.all fun n => decide ((spent : Int) < n)

/-- A scan: what the work on the items of a list makes of the first state, item by item, and
whether the budget was over before all of them were done. Each item is one unit of work; `spent`
units are spent when the scan begins. -/
def scan {μ : Type → Type} [Monad μ] {σ β : Type} (b : Budget) (work : σ → β → μ σ) (spent : Nat)
    (s : σ) : List β → μ (σ × Bool)
  | [] => pure (s, false)
  | x :: rest =>
    if b.allows spent then work s x >>= fun s' => b.scan work (spent + 1) s' rest
    else pure (s, true)

theorem allows_units {k : Int} {n : Nat} : (units k).allows n = true ↔ (n : Int) < k := by
  simp [allows, units]

end Budget

end RoadRules
