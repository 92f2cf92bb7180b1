set_option autoImplicit false

/-! # Operations that may fail

What it means that an operation put together from others succeeds: a mapped one, a chained one, and
one that is done for the items of a list one after the other. -/

namespace RoadRules

variable {ε β γ : Type}

theorem exists_eq_ok {x : Except ε β} (h : x.isOk = true) : ∃ y, x = .ok y := by
  cases x with
  | error e => cases h
  | ok y => exact ⟨y, rfl⟩

theorem map_eq_ok {x : Except ε β} {f : β → γ} {y : γ} :
    x.map f = .ok y ↔ ∃ z, x = .ok z ∧ f z = y := by
  cases x with
  | error e => simp [Except.map]
  | ok z => simp [Except.map]

theorem map_eq_error {x : Except ε β} {f : β → γ} {e : ε} :
    x.map f = .error e ↔ x = .error e := by
  cases x with
  | error e' => simp [Except.map]
  | ok z => simp [Except.map]

theorem bind_eq_ok {x : Except ε β} {f : β → Except ε γ} {y : γ} :
    x >>= f = .ok y ↔ ∃ z, x = .ok z ∧ f z = .ok y := by
  cases x with
  | error e => simp [bind, Except.bind]
  | ok z => simp [bind, Except.bind]

theorem bind_eq_error {x : Except ε β} {f : β → Except ε γ} {e : ε} :
    x >>= f = .error e ↔ x = .error e ∨ ∃ z, x = .ok z ∧ f z = .error e := by
  cases x with
  | error e' => simp [bind, Except.bind]
  | ok z => simp [bind, Except.bind]

theorem mapError_eq_ok {δ : Type} {x : Except ε β} {f : ε → δ} {y : β} :
    x.mapError f = .ok y ↔ x = .ok y := by
  cases x with
  | error e => exact ⟨nofun, nofun⟩
  | ok z =>
      constructor <;> intro h <;> cases h
      · rfl
      · rfl

theorem mapError_eq_error {δ : Type} {x : Except ε β} {f : ε → δ} {d : δ} :
    x.mapError f = .error d ↔ ∃ e, x = .error e ∧ f e = d := by
  cases x with
  | error e =>
      constructor
      · intro h
        cases h
        exact ⟨e, rfl, rfl⟩
      · rintro ⟨_, h, rfl⟩
        cases h
        rfl
  | ok z =>
      constructor
      · exact nofun
      · rintro ⟨_, h, -⟩
        cases h

theorem ok_bind (x : β) (f : β → Except ε γ) : (Except.ok x >>= f) = f x := rfl

/-! ## Items of a list -/

section Items

variable {σ : Type} {f : β → Except ε γ} {x : β} {xs : List β} {ys : List γ}

theorem mapM_cons_eq_ok_iff :
    (x :: xs).mapM f = .ok ys ↔
      ∃ y zs, f x = .ok y ∧ xs.mapM f = .ok zs ∧ y :: zs = ys := by
  rw [List.mapM_cons, bind_eq_ok]
  constructor
  · rintro ⟨y, hy, hrest⟩
    obtain ⟨zs, hzs, heq⟩ := bind_eq_ok.mp hrest
    exact ⟨y, zs, hy, hzs, Except.ok.inj heq⟩
  · rintro ⟨y, zs, hy, hzs, rfl⟩
    exact ⟨y, hy, bind_eq_ok.mpr ⟨zs, hzs, rfl⟩⟩

/-- Every result of a function applied to all items of a list comes from one of them. -/
theorem exists_of_mem_mapM (h : xs.mapM f = .ok ys) {y : γ} (hy : y ∈ ys) :
    ∃ x ∈ xs, f x = .ok y := by
  induction xs generalizing ys with
  | nil =>
      cases h
      cases hy
  | cons x rest ih =>
      obtain ⟨z, zs, hz, hzs, rfl⟩ := mapM_cons_eq_ok_iff.mp h
      rcases List.mem_cons.mp hy with rfl | hy
      · exact ⟨x, List.mem_cons_self, hz⟩
      · obtain ⟨x', hx', hfx⟩ := ih hzs hy
        exact ⟨x', List.mem_cons_of_mem _ hx', hfx⟩

/-- Every item of a list has its result among those of all. -/
theorem exists_mem_of_mapM (h : xs.mapM f = .ok ys) (hx : x ∈ xs) : ∃ y ∈ ys, f x = .ok y := by
  induction xs generalizing ys with
  | nil => cases hx
  | cons w rest ih =>
      obtain ⟨z, zs, hz, hzs, rfl⟩ := mapM_cons_eq_ok_iff.mp h
      rcases List.mem_cons.mp hx with rfl | hx
      · exact ⟨z, List.mem_cons_self, hz⟩
      · obtain ⟨y, hy, hfy⟩ := ih hzs hx
        exact ⟨y, List.mem_cons_of_mem _ hy, hfy⟩

/-- Steps that only add what they have computed without the state can be made after all of it is
computed. -/
theorem foldlM_map (add : σ → γ → σ) (xs : List β) (s : σ) :
    xs.foldlM (fun s x => (f x).map (add s)) s = (xs.mapM f).map fun ys => ys.foldl add s := by
  induction xs generalizing s with
  | nil => rfl
  | cons x rest ih =>
      rw [List.foldlM_cons, List.mapM_cons]
      cases f x with
      | error e => rfl
      | ok y =>
          show rest.foldlM _ (add s y) = Except.map _ (rest.mapM f >>= _)
          rw [ih]
          cases rest.mapM f <;> rfl

/-- **What every step of a run preserves**, the run preserves. -/
theorem foldlM_preserves {P : σ → Prop} {step : σ → β → Except ε σ}
    (hstep : ∀ s x s', P s → step s x = .ok s' → P s') {s s' : σ} (hs : P s)
    (h : xs.foldlM step s = .ok s') : P s' := by
  induction xs generalizing s with
  | nil =>
      cases h
      exact hs
  | cons x rest ih =>
      rw [List.foldlM_cons] at h
      obtain ⟨t, ht, hrest⟩ := bind_eq_ok.mp h
      exact ih (hstep s x t hs ht) hrest

end Items

end RoadRules
