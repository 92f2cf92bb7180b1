set_option autoImplicit false

/-! # Ordered maps

A finite map that remembers in which order its keys first came: writing to a key that is already
there keeps its place and replaces the value. Tags, object members, indexes by identifier and
counters are all of this kind. The invariant, that no key occurs twice, is part of the type. -/

namespace RoadRules

/-- A finite map in the order in which its keys first came. -/
structure OrderedMap (κ ν : Type) where
  entries : List (κ × ν)
  /-- No key occurs twice. -/
  nodup : (entries.map Prod.fst).Nodup

namespace OrderedMap

variable {κ ν μ : Type}

def empty : OrderedMap κ ν := ⟨[], by simp⟩

def keys (m : OrderedMap κ ν) : List κ := m.entries.map Prod.fst

def values (m : OrderedMap κ ν) : List ν := m.entries.map Prod.snd

def size (m : OrderedMap κ ν) : Nat := m.entries.length

/-- The map with a function applied to every value. -/
def mapValues (m : OrderedMap κ ν) (f : ν → μ) : OrderedMap κ μ :=
  ⟨m.entries.map fun e => (e.1, f e.2), by simpa [Function.comp_def] using m.nodup⟩

variable [DecidableEq κ]

/-- A list of entries with one key written: in its place if it is there, else at the end. -/
def insertEntry (k : κ) (v : ν) : List (κ × ν) → List (κ × ν)
  | [] => [(k, v)]
  | e :: rest => if e.1 = k then (k, v) :: rest else e :: insertEntry k v rest

/-- Writing a key that is there keeps the list of keys; a new key goes to its end. -/
theorem keys_insertEntry (k : κ) (v : ν) (l : List (κ × ν)) :
    (insertEntry k v l).map Prod.fst =
      if k ∈ l.map Prod.fst then l.map Prod.fst else l.map Prod.fst ++ [k] := by
  induction l with
  | nil => simp [insertEntry]
  | cons e rest ih =>
    by_cases h : e.1 = k
    · simp [insertEntry, h]
    · have h' : k ≠ e.1 := fun hk => h hk.symm
      by_cases hm : k ∈ rest.map Prod.fst
      · simp only [insertEntry, h, if_false, List.map_cons, ih, hm, if_true, List.mem_cons, h',
          or_true]
      · simp only [insertEntry, h, if_false, List.map_cons, ih, hm, List.mem_cons, h', or_self,
          List.cons_append]

def insert (m : OrderedMap κ ν) (k : κ) (v : ν) : OrderedMap κ ν :=
  ⟨insertEntry k v m.entries, by
    rw [keys_insertEntry]
    split
    · exact m.nodup
    · rename_i h
      exact List.nodup_append.mpr ⟨m.nodup, by simp, by
        intro a ha b hb hab
        simp only [List.mem_singleton] at hb
        exact h (hb ▸ hab ▸ ha)⟩⟩

def get? (m : OrderedMap κ ν) (k : κ) : Option ν :=
  (m.entries.find? fun e => decide (e.1 = k)).map Prod.snd

def contains (m : OrderedMap κ ν) (k : κ) : Bool := m.entries.any fun e => decide (e.1 = k)

/-- The map that a list of pairs writes from left to right. -/
def ofList (l : List (κ × ν)) : OrderedMap κ ν := l.foldl (fun m e => m.insert e.1 e.2) empty

/-- The map with the value of a key replaced by a function of what was there. -/
def alter (m : OrderedMap κ ν) (k : κ) (f : Option ν → ν) : OrderedMap κ ν :=
  m.insert k (f (m.get? k))

theorem get?_insertEntry (k k' : κ) (v : ν) (l : List (κ × ν)) :
    ((insertEntry k v l).find? fun e => decide (e.1 = k')).map Prod.snd =
      if k' = k then some v else (l.find? fun e => decide (e.1 = k')).map Prod.snd := by
  induction l with
  | nil =>
    by_cases h : k' = k
    · simp [insertEntry, h]
    · have : ¬k = k' := fun e => h e.symm
      simp [insertEntry, h, this]
  | cons e rest ih =>
    by_cases h : e.1 = k
    · by_cases hk : k' = k
      · simp [insertEntry, h, hk]
      · have h1 : ¬k = k' := fun e => hk e.symm
        have h2 : ¬e.1 = k' := fun e' => hk (by rw [← e', h])
        simp [insertEntry, h, hk, h1]
    · by_cases hk : e.1 = k'
      · have : ¬k' = k := fun e' => h (by rw [hk, e'])
        simp [insertEntry, hk, this]
      · simp only [insertEntry, h, if_false, List.find?_cons, hk, decide_false]
        exact ih

/-- What is written is read back, and no other key changes. -/
@[simp] theorem get?_insert (m : OrderedMap κ ν) (k k' : κ) (v : ν) :
    (m.insert k v).get? k' = if k' = k then some v else m.get? k' :=
  get?_insertEntry k k' v m.entries

@[simp] theorem get?_empty (k : κ) : (empty : OrderedMap κ ν).get? k = none := rfl

omit [DecidableEq κ] in
@[simp] theorem keys_empty : (empty : OrderedMap κ ν).keys = [] := rfl

theorem contains_iff (m : OrderedMap κ ν) (k : κ) : m.contains k = true ↔ k ∈ m.keys := by
  simp [contains, keys]

theorem mem_keys_of_get? {m : OrderedMap κ ν} {k : κ} {v : ν} (h : m.get? k = some v) :
    k ∈ m.keys := by
  obtain ⟨e, he, -⟩ := Option.map_eq_some_iff.mp h
  have hk : e.1 = k := by simpa using List.find?_some he
  exact hk ▸ List.mem_map_of_mem (List.mem_of_find?_eq_some he)

theorem keys_insert (m : OrderedMap κ ν) (k : κ) (v : ν) :
    (m.insert k v).keys = if k ∈ m.keys then m.keys else m.keys ++ [k] :=
  keys_insertEntry k v m.entries

theorem mem_keys_insert {m : OrderedMap κ ν} {k k' : κ} {v : ν} :
    k' ∈ (m.insert k v).keys ↔ k' = k ∨ k' ∈ m.keys := by
  rw [keys_insert]
  split
  · rename_i h
    exact ⟨Or.inr, fun hk => hk.elim (fun e => e ▸ h) id⟩
  · simp [or_comm]

end OrderedMap

end RoadRules
