import RoadRules.Proofs.Condition.Clauses
import RoadRules.Proofs.OrderedMap
import RoadRules.Review.Finding

set_option autoImplicit false

/-! # A review goes tag by tag

The findings about a tag depend on this tag alone. A review is made of them in the order of the tags,
and it can be made just when each of them can be; the warnings about tags that are there with and
without a condition come last, one for each conditional key (`Review.conflictFindings_eq`). -/

namespace RoadRules

open Text

/-! ## Conditional keys -/

/-- A conditional key is the key that it qualifies and the ending. -/
theorem baseKey_append {key : Text} (h : isConditionalKey key = true) :
    baseKey key ++ conditionalEnding = key := by
  unfold baseKey
  rw [if_pos h]
  obtain ⟨base, rfl⟩ := List.isSuffixOf_iff_suffix.mp h
  rw [List.length_append, Nat.add_sub_cancel, List.take_left]

/-- Different conditional keys qualify different keys. -/
theorem nodup_map_baseKey {keys : List Text} (hnodup : keys.Nodup)
    (h : ∀ k ∈ keys, isConditionalKey k = true) : (keys.map baseKey).Nodup := by
  refine List.Nodup.map_on (fun k hk k' hk' heq => ?_) hnodup
  rw [← baseKey_append (h k hk), ← baseKey_append (h k' hk'), heq]

/-! ## Causes -/

namespace Cause

/-- Whether a finding is about a value that is refused. -/
def isRefusal : Cause → Bool
  | .refused _ _ => true
  | _ => false

/-- Whether a finding is about the value of a tag that is read. -/
def isAboutValue : Cause → Bool
  | .unusualAccess _ | .invalidOneway _ | .implausibleSpeed _ | .milesPerHour _ => true
  | _ => false

/-- Whether a finding is about windows that overlap. -/
def isOverlap : Cause → Bool
  | .overlap _ _ => true
  | _ => false

/-- Whether a finding is about a tag that is there with and without a condition. -/
def isConflict : Cause → Bool
  | .conflict _ _ _ => true
  | _ => false

end Cause

namespace Review

theorem isAboutValue_of_mem_ite {b : Bool} {x c : Cause} (hx : x.isAboutValue = true)
    (hc : c ∈ if b = true then [x] else []) : c.isAboutValue = true := by
  split at hc
  · exact List.mem_singleton.mp hc ▸ hx
  · cases hc

/-- The causes about a value are about nothing else. -/
theorem isAboutValue_of_mem_valueCauses {subject value : Text} {cs : List Cause}
    (h : valueCauses subject value = .ok cs) : ∀ c ∈ cs, c.isAboutValue = true := by
  intro c hc
  unfold valueCauses at h
  dsimp only at h
  split at h
  · obtain ⟨high, -, heq⟩ := bind_eq_ok.mp h
    cases heq
    simp only [List.mem_append] at hc
    rcases hc with ((hc | hc) | hc) | hc <;> exact isAboutValue_of_mem_ite rfl hc
  · cases h
    rcases List.mem_append.mp hc with hc | hc <;> exact isAboutValue_of_mem_ite rfl hc

theorem isOverlap_of_mem_overlapCauses {ws : List TimeWindow} :
    ∀ c ∈ overlapCauses ws, c.isOverlap = true := by
  intro c hc
  unfold overlapCauses at hc
  obtain ⟨p, -, rfl⟩ := Option.map_eq_some_iff.mp (Option.mem_toList.mp hc)
  rfl

/-- **What a review says about a restriction** is about its value or about its windows. -/
theorem mem_restrictionCauses {α : Type} {r : Restriction α} {cs : List Cause}
    (h : restrictionCauses r = .ok cs) :
    ∀ c ∈ cs, c.isAboutValue = true ∨ c.isOverlap = true := by
  obtain ⟨others, hothers, heq⟩ := bind_eq_ok.mp h
  cases heq
  intro c hc
  exact (List.mem_append.mp hc).imp (isAboutValue_of_mem_valueCauses hothers c)
    (isOverlap_of_mem_overlapCauses c)

variable {α : Type} [Quantity α] {entries : List (Text × Option Text)} {fs : List Finding}
  {e : Text × Option Text}

/-! ## One tag -/

section Tag

variable {key : Text} {value : Option Text} {r : Restriction α} {cause : Condition.Refusal}

/-- A tag without a value is refused, -/
theorem read_of_allBlank (h : allBlank (value.getD []) = true) :
    (Restriction.read key value : Except Fault (Restriction α)) =
      .error (.refused key .emptyValue) := by
  have htrim : trim (value.getD []) = [] := by
    unfold trim
    rw [trimStart_eq_nil (List.all_eq_true.mp h)]
    rfl
  have hsplit : Condition.splitValue value = .error .emptyValue := by
    unfold Condition.splitValue
    rw [htrim]
    rfl
  exact Condition.read_of_not_split hsplit

/-- but a review says nothing about it. -/
theorem tagCauses_of_allBlank (h : allBlank (value.getD []) = true) :
    tagCauses α key value = .ok [] := by
  unfold tagCauses
  split
  · rfl
  · exact if_pos h

/-- About a tag that is read a review says what it says about the restriction. -/
theorem tagCauses_of_read (h : Restriction.read key value = .ok r) :
    tagCauses α key value = restrictionCauses r := by
  by_cases hblank : allBlank (value.getD []) = true
  · rw [read_of_allBlank hblank] at h
    cases h
  · cases value with
    | none => exact absurd rfl hblank
    | some v =>
        rw [Option.getD_some] at hblank
        unfold tagCauses
        dsimp only
        rw [if_neg hblank, h]

theorem tagCauses_of_refused (hblank : allBlank (value.getD []) = false)
    (h : (Restriction.read key value : Except Fault (Restriction α)) =
      .error (.refused key cause)) :
    tagCauses α key value = .ok [.refused cause (value.getD [])] := by
  cases value with
  | none => cases hblank
  | some v =>
      rw [Option.getD_some] at hblank
      unfold tagCauses
      dsimp only
      rw [if_neg (Bool.eq_false_iff.mp hblank), h]
      rfl

/-- **What a review says about a tag**: nothing if it has no value, what it says about the
restriction if it is read, and otherwise just that it is refused. -/
theorem tagCauses_eq_ok {cs : List Cause} (h : tagCauses α key value = .ok cs) :
    (allBlank (value.getD []) = true ∧ cs = []) ∨
      (∃ r : Restriction α, Restriction.read key value = .ok r ∧ restrictionCauses r = .ok cs) ∨
        ∃ k cause, (Restriction.read key value : Except Fault (Restriction α)) =
          .error (.refused k cause) ∧ cs = [.refused cause (value.getD [])] := by
  cases value with
  | none => exact Or.inl ⟨rfl, (Except.ok.inj h).symm⟩
  | some v =>
      unfold tagCauses at h
      dsimp only at h
      split at h
      · rename_i hblank
        exact Or.inl ⟨hblank, (Except.ok.inj h).symm⟩
      · split at h <;> rename_i hread
        · exact Or.inr (Or.inl ⟨_, hread, h⟩)
        · exact Or.inr (Or.inr ⟨_, _, hread, (Except.ok.inj h).symm⟩)
        · cases h

end Tag

/-- The causes of findings about a tag; only a conditional one has any. -/
def causesOf (α : Type) [Quantity α] (e : Text × Option Text) : Except Fault (List Cause) :=
  if isConditionalKey e.1 then tagCauses α e.1 e.2 else .ok []

/-- The findings about a tag. -/
def findingsOf (α : Type) [Quantity α] (e : Text × Option Text) : Except Fault (List Finding) :=
  (causesOf α e).map fun cs => cs.map (Finding.mk e.1)

theorem key_of_mem_findingsOf (h : findingsOf α e = .ok fs) : ∀ f ∈ fs, f.key = e.1 := by
  obtain ⟨cs, -, rfl⟩ := map_eq_ok.mp h
  intro f hf
  obtain ⟨c, -, rfl⟩ := List.mem_map.mp hf
  rfl

/-- No finding about a tag alone is that it conflicts. -/
theorem isConflict_of_mem_findingsOf (h : findingsOf α e = .ok fs) :
    ∀ f ∈ fs, f.cause.isConflict = false := by
  obtain ⟨cs, hcs, rfl⟩ := map_eq_ok.mp h
  intro f hf
  obtain ⟨c, hc, rfl⟩ := List.mem_map.mp hf
  unfold causesOf at hcs
  split at hcs
  · rcases tagCauses_eq_ok hcs with ⟨-, rfl⟩ | ⟨r, -, hr⟩ | ⟨k, cause, -, rfl⟩
    · cases hc
    · rcases mem_restrictionCauses hr c hc with habout | habout <;>
        cases c <;> first | rfl | contradiction
    · rw [List.mem_singleton.mp hc]
      rfl
  · cases hcs
    cases hc

/-! ## All tags -/

/-- **A review is made of the findings about each tag**, in the order of the tags. -/
theorem tagFindings_eq (entries : List (Text × Option Text)) :
    tagFindings α entries = (entries.mapM (findingsOf α)).map List.flatten := by
  induction entries with
  | nil => rfl
  | cons e rest ih =>
      have hchained : tagFindings α (e :: rest) = causesOf α e >>= fun cs =>
          tagFindings α rest >>= fun others => .ok (cs.map (Finding.mk e.1) ++ others) := by
        unfold causesOf
        rw [tagFindings]
        split <;> rfl
      rw [hchained, ih, List.mapM_cons, findingsOf]
      cases causesOf α e with
      | error f => rfl
      | ok cs => cases rest.mapM (findingsOf α) <;> rfl

theorem tagFindings_eq_ok_iff : tagFindings α entries = .ok fs ↔
    ∃ gss, List.Forall₂ (fun e gs => findingsOf α e = .ok gs) entries gss ∧ gss.flatten = fs := by
  rw [tagFindings_eq, map_eq_ok]
  simp only [mapM_eq_ok_iff]

/-- There is a review of a list of tags just when there are findings about each of them. -/
theorem exists_tagFindings_iff :
    (∃ fs, tagFindings α entries = .ok fs) ↔ ∀ e ∈ entries, ∃ cs, causesOf α e = .ok cs := by
  have hmade : (∃ fs, tagFindings α entries = .ok fs) ↔
      ∃ gss, entries.mapM (findingsOf α) = .ok gss := by
    simp only [tagFindings_eq, map_eq_ok]
    exact ⟨fun ⟨_, gss, h, _⟩ => ⟨gss, h⟩, fun ⟨gss, h⟩ => ⟨_, gss, h, rfl⟩⟩
  rw [hmade, exists_mapM_eq_ok_iff]
  refine forall₂_congr fun e _ => ?_
  simp only [findingsOf, map_eq_ok]
  exact ⟨fun ⟨_, cs, h, _⟩ => ⟨cs, h⟩, fun ⟨cs, h⟩ => ⟨_, cs, h, rfl⟩⟩

/-- No finding about the tags one by one is that they conflict. -/
theorem isConflict_of_mem_tagFindings (h : tagFindings α entries = .ok fs) :
    ∀ f ∈ fs, f.cause.isConflict = false := by
  obtain ⟨gss, hgss, rfl⟩ := tagFindings_eq_ok_iff.mp h
  intro f hf
  obtain ⟨gs, hgs, hf⟩ := List.mem_flatten.mp hf
  obtain ⟨e, -, he⟩ := exists_of_forall₂ hgss.flip gs hgs
  exact isConflict_of_mem_findingsOf he f hf

/-- Findings come from a conditional tag with their key. -/
theorem exists_tag_of_mem_tagFindings (h : tagFindings α entries = .ok fs) :
    ∀ f ∈ fs, ∃ e ∈ entries, e.1 = f.key ∧ isConditionalKey e.1 = true := by
  obtain ⟨gss, hgss, rfl⟩ := tagFindings_eq_ok_iff.mp h
  intro f hf
  obtain ⟨gs, hgs, hf⟩ := List.mem_flatten.mp hf
  obtain ⟨e, he, hmade⟩ := exists_of_forall₂ hgss.flip gs hgs
  refine ⟨e, he, (key_of_mem_findingsOf hmade f hf).symm, ?_⟩
  by_contra hconditional
  unfold findingsOf causesOf at hmade
  rw [if_neg hconditional] at hmade
  cases hmade
  cases hf

/-- Findings that are listed tag by tag are told apart by their keys. -/
theorem map_filter_key_flatten {gss : List (List Finding)}
    (h : List.Forall₂ (fun (e : Text × Option Text) gs => ∀ f ∈ gs, f.key = e.1) entries gss)
    (hnodup : (entries.map Prod.fst).Nodup) :
    (entries.map fun e => gss.flatten.filter fun f => f.key == e.1) = gss := by
  induction h with
  | nil => rfl
  | @cons e gs rest gss hgs hrest ih =>
      rw [List.map_cons, List.nodup_cons] at hnodup
      obtain ⟨hnew, hnodup⟩ := hnodup
      have hothers : ∀ f ∈ gss.flatten, f.key ∈ rest.map Prod.fst := by
        intro f hf
        obtain ⟨gs', hgs', hf⟩ := List.mem_flatten.mp hf
        obtain ⟨e', he', hkey⟩ := exists_of_forall₂ hrest.flip gs' hgs'
        exact hkey f hf ▸ List.mem_map_of_mem he'
      simp only [List.map_cons, List.flatten_cons, List.filter_append]
      refine List.cons_eq_cons.mpr ⟨?_, (List.map_congr_left fun e' he' => ?_).trans (ih hnodup)⟩
      · have hown : (gs.filter fun f => f.key == e.1) = gs :=
          List.filter_eq_self.mpr fun f hf => beq_iff_eq.mpr (hgs f hf)
        have hno : (gss.flatten.filter fun f => f.key == e.1) = [] :=
          List.filter_eq_nil_iff.mpr fun f hf hkey => hnew (beq_iff_eq.mp hkey ▸ hothers f hf)
        rw [hown, hno, List.append_nil]
      · have hno : (gs.filter fun f => f.key == e'.1) = [] := by
          refine List.filter_eq_nil_iff.mpr fun f hf hkey => hnew ?_
          rw [← hgs f hf, beq_iff_eq.mp hkey]
          exact List.mem_map_of_mem he'
        rw [hno, List.nil_append]

/-- **The findings about the tags are in their order**, and those with the key of a tag are the
findings about this tag. -/
theorem findings_in_order (h : tagFindings α entries = .ok fs)
    (hnodup : (entries.map Prod.fst).Nodup) :
    (∀ e ∈ entries, findingsOf α e = .ok (fs.filter fun f => f.key == e.1)) ∧
      fs = (entries.map Prod.fst).flatMap fun key => fs.filter fun f => f.key == key := by
  obtain ⟨gss, hgss, rfl⟩ := tagFindings_eq_ok_iff.mp h
  have hparted := map_filter_key_flatten (hgss.imp fun _ _ => key_of_mem_findingsOf) hnodup
  constructor
  · rw [← hparted, List.forall₂_map_right_iff, List.forall₂_same] at hgss
    exact hgss
  · rw [List.flatMap_map, List.flatMap_def, hparted]

/-! ## Conflicts -/

/-- Each conditional key is the only one in its group. -/
theorem entries_conditionalGroups (tags : OrderedMap Text (Option Text)) :
    (conditionalGroups tags).entries =
      (tags.keys.filter isConditionalKey).map fun key => (baseKey key, [key]) := by
  have hgroups : ∀ (keys : List Text) (m : OrderedMap Text (List Text)),
      (keys.map baseKey).Nodup → (∀ key ∈ keys, baseKey key ∉ m.keys) →
        (keys.foldl (fun groups key => groups.alter (baseKey key) fun ks => ks.getD [] ++ [key])
          m).entries = m.entries ++ keys.map fun key => (baseKey key, [key]) := by
    intro keys
    induction keys with
    | nil => simp
    | cons key rest ih =>
        intro m hnodup hnew
        rw [List.map_cons, List.nodup_cons] at hnodup
        obtain ⟨hkey, hrest⟩ := List.forall_mem_cons.mp hnew
        have hnone : m.get? (baseKey key) = none := by
          rw [← Option.not_isSome_iff_eq_none, OrderedMap.isSome_get?_iff]
          exact hkey
        have hadded : m.alter (baseKey key) (fun ks => ks.getD [] ++ [key]) =
            m.insert (baseKey key) [key] := by
          unfold OrderedMap.alter
          rw [hnone]
          rfl
        rw [List.foldl_cons, hadded, ih _ hnodup.2, OrderedMap.entries_insert hkey,
          List.append_assoc, List.map_cons, List.singleton_append]
        intro key' hkey' hmem
        rcases OrderedMap.mem_keys_insert.mp hmem with heq | hmem
        · exact hnodup.1 (heq ▸ List.mem_map_of_mem hkey')
        · exact hrest key' hkey' hmem
  have hnodup : ((tags.keys.filter isConditionalKey).map baseKey).Nodup :=
    nodup_map_baseKey (List.Nodup.filter _ tags.nodup) fun k hk => (List.mem_filter.mp hk).2
  exact hgroups _ .empty hnodup fun _ _ => List.not_mem_nil

/-- **A conditional key has a warning about conflicting tags** just when the key that it qualifies is
there too. -/
theorem conflictFindings_eq (tags : OrderedMap Text (Option Text)) :
    conflictFindings tags = (tags.keys.filter isConditionalKey).filterMap fun key =>
      (tags.get? (baseKey key)).map fun value => ⟨key, .conflict (baseKey key) value [key]⟩ := by
  unfold conflictFindings
  rw [entries_conditionalGroups, List.filterMap_map]
  rfl

theorem isConflict_of_mem_conflictFindings {tags : OrderedMap Text (Option Text)} :
    ∀ f ∈ conflictFindings tags, f.cause.isConflict = true := by
  intro f hf
  rw [conflictFindings_eq] at hf
  obtain ⟨key, -, hkey⟩ := List.mem_filterMap.mp hf
  obtain ⟨value, -, rfl⟩ := Option.map_eq_some_iff.mp hkey
  rfl

theorem findings_eq_ok_iff {tags : OrderedMap Text (Option Text)} : findings α tags = .ok fs ↔
    ∃ own, tagFindings α tags.entries = .ok own ∧ own ++ conflictFindings tags = fs := by
  unfold findings
  rw [bind_eq_ok]
  exact exists_congr fun own => and_congr_right fun _ => ⟨Except.ok.inj, congrArg Except.ok⟩

/-- **The findings with the key of a tag** are those about this tag, and then a warning if it
conflicts. -/
theorem exists_filter_key {tags : OrderedMap Text (Option Text)} {key : Text}
    {value : Option Text} (h : findings α tags = .ok fs) (hget : tags.get? key = some value) :
    ∃ cs, causesOf α (key, value) = .ok cs ∧ (fs.filter fun f => f.key == key) =
      cs.map (Finding.mk key) ++ (conflictFindings tags).filter fun f => f.key == key := by
  obtain ⟨own, hown, rfl⟩ := findings_eq_ok_iff.mp h
  have hmem := OrderedMap.get?_eq_some_iff.mp hget
  obtain ⟨cs, hcs, heq⟩ := map_eq_ok.mp ((findings_in_order hown tags.nodup).1 _ hmem)
  exact ⟨cs, hcs, by rw [List.filter_append, ← heq]⟩

end Review

end RoadRules
