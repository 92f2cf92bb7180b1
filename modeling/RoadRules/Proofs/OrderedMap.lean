import Mathlib.Algebra.GroupWithZero.Nat
import Mathlib.Data.List.Nodup
import Mathlib.Data.List.Induction
import Mathlib.Tactic.Tauto
import RoadRules.OrderedMap

set_option autoImplicit false

/-! # What an ordered map holds

What is read from an ordered map, its keys and its values, after a key or a list of pairs was
written. Since no key occurs twice, the entries of a map are just what is read from it. -/

namespace RoadRules.OrderedMap

variable {κ ν : Type} [DecidableEq κ] {m m' : OrderedMap κ ν} {k : κ} {v : ν}

/-- **The entries of a map are what is read from it.** -/
theorem get?_eq_some_iff : m.get? k = some v ↔ (k, v) ∈ m.entries := by
  constructor
  · intro h
    obtain ⟨e, he, rfl⟩ := Option.map_eq_some_iff.mp h
    have hkey : e.1 = k := by simpa using List.find?_some he
    exact hkey ▸ List.mem_of_find?_eq_some he
  · intro hmem
    unfold get?
    cases hfound : m.entries.find? fun e => decide (e.1 = k) with
    | none => simpa using List.find?_eq_none.mp hfound _ hmem
    | some e =>
        have hkey : e.1 = k := by simpa using List.find?_some hfound
        have heq : e = (k, v) :=
          List.inj_on_of_nodup_map m.nodup (List.mem_of_find?_eq_some hfound) hmem hkey
        rw [heq]
        rfl

theorem isSome_get?_iff : (m.get? k).isSome = true ↔ k ∈ m.keys := by
  unfold get? keys
  rw [Option.isSome_map, List.find?_isSome, List.mem_map]
  simp only [decide_eq_true_eq]

/-- The order of the entries has no part in what is read. -/
theorem get?_eq_of_perm (h : m.entries.Perm m'.entries) (k : κ) : m.get? k = m'.get? k := by
  refine Option.ext fun v => ?_
  rw [get?_eq_some_iff, get?_eq_some_iff, h.mem_iff]

/-- What is read from a map with a function applied to every value. -/
theorem get?_mapValues {μ : Type} (m : OrderedMap κ ν) (f : ν → μ) (k : κ) :
    (m.mapValues f).get? k = (m.get? k).map f := by
  unfold get? mapValues
  rw [List.find?_map, Option.map_map, Option.map_map]
  rfl

/-! ## Writing a key -/

/-- A function can be applied to the values before or after a key is written. -/
theorem mapValues_insert {μ : Type} (m : OrderedMap κ ν) (f : ν → μ) (k : κ) (v : ν) :
    (m.insert k v).mapValues f = (m.mapValues f).insert k (f v) := by
  have key : ∀ l : List (κ × ν), (insertEntry k v l).map (fun e => (e.1, f e.2)) =
      insertEntry k (f v) (l.map fun e => (e.1, f e.2)) := by
    intro l
    induction l with
    | nil => rfl
    | cons e rest ih =>
        rw [List.map_cons, insertEntry, insertEntry, apply_ite (List.map _), List.map_cons,
          List.map_cons, ih]
  unfold mapValues insert
  rw [OrderedMap.mk.injEq]
  exact key m.entries

/-- A new key goes to the end. -/
theorem entries_insert (h : k ∉ m.keys) (v : ν) :
    (m.insert k v).entries = m.entries ++ [(k, v)] := by
  have key : ∀ l : List (κ × ν), k ∉ l.map Prod.fst → insertEntry k v l = l ++ [(k, v)] := by
    intro l
    induction l with
    | nil => exact fun _ => rfl
    | cons e rest ih =>
        intro hno
        rw [List.map_cons, List.mem_cons, not_or] at hno
        rw [insertEntry, if_neg (Ne.symm hno.1), ih hno.2, List.cons_append]
  exact key m.entries h

/-- The keys of a map to which values are added under the keys of the items of a list, in the order
in which they first come. -/
theorem keys_foldl_alter {ι : Type} (key : ι → κ) (put : ι → Option ν → ν) (xs : List ι) :
    (xs.foldl (fun m x => m.alter (key x) (put x)) (empty : OrderedMap κ ν)).keys =
      (xs.map key).eraseDups := by
  induction xs using List.reverseRecOn with
  | nil => rfl
  | append_singleton xs x ih =>
      rw [List.foldl_append, List.foldl_cons, List.foldl_nil, alter, keys_insert, ih,
        List.map_append, List.map_singleton, List.eraseDups_append]
      by_cases h : key x ∈ xs.map key
      · rw [if_pos (List.mem_eraseDups.mpr h), List.removeAll, List.filter_singleton]
        simp [h]
      · rw [if_neg (mt List.mem_eraseDups.mp h), List.removeAll, List.filter_singleton]
        simp [h, List.eraseDups_cons]

/-- Writing a number changes the sum by the new number less the one in its place. -/
theorem sum_values_insert (m : OrderedMap κ Nat) (k : κ) (n : Nat) :
    (m.insert k n).values.sum + (m.get? k).getD 0 = m.values.sum + n := by
  have key : ∀ l : List (κ × Nat), ((insertEntry k n l).map Prod.snd).sum +
      ((l.find? fun e => decide (e.1 = k)).map Prod.snd).getD 0 = (l.map Prod.snd).sum + n := by
    intro l
    induction l with
    | nil => simp [insertEntry]
    | cons e rest ih =>
        by_cases h : e.1 = k
        · simp only [insertEntry, h, if_true, List.map_cons, List.sum_cons, List.find?_cons,
            decide_true, Option.map_some, Option.getD_some]
          omega
        · simp only [insertEntry, h, if_false, List.map_cons, List.sum_cons, List.find?_cons,
            decide_false]
          omega
  exact key m.entries

/-! ## Writing a list of pairs -/

theorem ofList_concat (l : List (κ × ν)) (e : κ × ν) :
    ofList (l ++ [e]) = (ofList l).insert e.1 e.2 := by
  simp [ofList]

/-- Of several values that are written under one key, the last is kept. -/
theorem get?_ofList (l : List (κ × ν)) (k : κ) :
    (ofList l).get? k = (l.reverse.find? fun e => decide (e.1 = k)).map Prod.snd := by
  -- From the last entry on, since that is the one that is kept.
  induction l using List.reverseRecOn with
  | nil => rfl
  | append_singleton l e ih =>
      rw [ofList_concat, get?_insert, ih, List.reverse_append]
      by_cases hkey : e.1 = k
      · simp [hkey]
      · simp [hkey, Ne.symm hkey]

/-- The keys of a map that a list of pairs writes are the keys of the pairs. -/
theorem mem_keys_ofList {l : List (κ × ν)} : k ∈ (ofList l).keys ↔ k ∈ l.map Prod.fst := by
  have key : ∀ m : OrderedMap κ ν, k ∈ (l.foldl (fun m e => m.insert e.1 e.2) m).keys ↔
      k ∈ l.map Prod.fst ∨ k ∈ m.keys := by
    induction l with
    | nil => simp
    | cons e rest ih =>
        intro m
        rw [List.foldl_cons, ih, mem_keys_insert, List.map_cons, List.mem_cons]
        tauto
  exact (key .empty).trans (by simp)

/-- A map that pairs with different keys write has just these entries. -/
theorem entries_ofList {l : List (κ × ν)} (h : (l.map Prod.fst).Nodup) :
    (ofList l).entries = l := by
  induction l using List.reverseRecOn with
  | nil => rfl
  | append_singleton l e ih =>
      rw [List.map_append, List.nodup_append] at h
      obtain ⟨hl, -, hdistinct⟩ := h
      have hnew : e.1 ∉ (ofList l).keys := fun hmem =>
        hdistinct e.1 (mem_keys_ofList.mp hmem) e.1 (List.mem_singleton_self _) rfl
      rw [ofList_concat, entries_insert hnew, ih hl]

end RoadRules.OrderedMap
