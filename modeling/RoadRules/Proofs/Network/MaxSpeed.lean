import RoadRules.Proofs.Network.Oneway
import RoadRules.Proofs.Travel.Harder

set_option autoImplicit false

/-! # The speed that is permitted on a way

A router answers with the lowest of the speed of a way itself and the limits in force on it. It has
an answer for the ways that have edges, which are those of which one takes part, and it asks the
first of these edges for the limits. Of the limits, those count that concern the dimensions of a
vehicle; without a vehicle no dimension is known, so that none is left out. That makes the answer
without a vehicle the lowest of all (`Router.maxSpeed_lowest`). -/

namespace RoadRules

open Calendar

/-- **Whether a quantity is the least of several**: one of them, and at most each. -/
structure IsLeastOf {α : Type} [LE α] (v : α) (l : List α) : Prop where
  mem : v ∈ l
  le : ∀ x ∈ l, v ≤ x

section Speeds

variable {α : Type}

/-- The tags of a way are texts, and are read as such. -/
theorem TagMapper.tagText_scalarTags (w : Way α) (key : Text) :
    tagText w.scalarTags key = w.tags.get? key := by
  unfold tagText Way.scalarTags
  rw [OrderedMap.get?_mapValues]
  cases w.tags.get? key <;> rfl

variable [Quantity α]

/-- **The speed of a way itself**: the one that its tag states, else that of its category. -/
theorem TagMapper.maxSpeed_of_attributes {m : TagMapper} {w : Way α} {a : WayAttributes α}
    (h : m.attributes w.scalarTags = .ok a) :
    ∃ speed, m.categorySpeed (category w.scalarTags) = .ok speed ∧
      a.maxSpeed = ((w.tags.get? "maxspeed").bind Speed.ofText?).getD speed := by
  unfold attributes at h
  obtain ⟨factor, -, h⟩ := bind_eq_ok.mp h
  obtain ⟨speed, hspeed, h⟩ := bind_eq_ok.mp h
  cases h
  exact ⟨speed, hspeed, by rw [tagText_scalarTags]⟩

/-- **Without a vehicle no limit is left out.** -/
theorem Restriction.limitsInForce_subset (rs : List (Restriction α)) (time : LocalTime)
    (profile : Option (Profile α)) :
    limitsInForce rs time profile ⊆ limitsInForce rs time none := by
  unfold limitsInForce inForce
  refine List.filterMap_subset _ fun x hx => ?_
  rw [List.mem_filter, Bool.and_eq_true] at hx ⊢
  -- A dimension that is not known passes every comparison.
  have hany : x.appliesTo none none = true := by
    unfold appliesTo admits
    cases x.weight <;> cases x.height <;> rfl
  exact ⟨hx.1, hx.2.1, hany⟩

variable [LawfulQuantity α]

theorem isLeastOf_foldl (v : α) (l : List α) : IsLeastOf (l.foldl Quantity.least v) (v :: l) :=
  ⟨mem_of_leastOf? rfl, leastOf?_le rfl⟩

omit [LawfulQuantity α] in
/-- The least of more quantities is at most the least of fewer. -/
theorem IsLeastOf.le_of_subset {v v' : α} {l l' : List α} (hv : IsLeastOf v l)
    (hv' : IsLeastOf v' l') (h : l' ⊆ l) : v ≤ v' :=
  hv.le v' (h hv'.mem)

end Speeds

/-! ## Ways that are known -/

namespace Network

variable {α : Type} [Geometry α] {m : TagMapper} {metric : Metric}
  {restrictionsOf : Ident → List (Restriction α)} {ways : List (Way α)} {g : Network α}
  {way : Ident}

/-- A way that a network knows is one of those that take part, -/
theorem of_way?_eq_some (h : ofWays m metric restrictionsOf ways = .ok g) {w : Way α}
    (hw : g.way? way = some w) : w ∈ ways ∧ w.id = way ∧ w.takesPart m = true := by
  obtain ⟨-, -, -, hways⟩ := ofWays_eq_ok h
  unfold Snapshot.way? at hw
  rw [hways, OrderedMap.get?_ofList] at hw
  obtain ⟨entry, hentry, rfl⟩ := Option.map_eq_some_iff.mp hw
  obtain ⟨w, hmem, rfl⟩ := List.mem_map.mp (List.mem_reverse.mp (List.mem_of_find?_eq_some hentry))
  obtain ⟨hmem, htakes⟩ := List.mem_filter.mp hmem
  exact ⟨hmem, by simpa using List.find?_some hentry, htakes⟩

/-- and it does not know a way under whose identifier none takes part. -/
theorem way?_eq_none_iff (h : ofWays m metric restrictionsOf ways = .ok g) :
    g.way? way = none ↔ ∀ w ∈ ways, w.id = way → ¬ w.takesPart m = true := by
  constructor
  · intro hnone w hw hid htakes
    obtain ⟨-, -, -, hways⟩ := ofWays_eq_ok h
    have hkey : way ∈ g.ways.keys := by
      rw [hways, OrderedMap.mem_keys_ofList]
      have hentry : (w.id, w) ∈ (ways.filter (·.takesPart m)).map fun w => (w.id, w) :=
        List.mem_map_of_mem (List.mem_filter.mpr ⟨hw, htakes⟩)
      exact hid ▸ List.mem_map_of_mem hentry
    rw [← OrderedMap.isSome_get?_iff] at hkey
    unfold Snapshot.way? at hnone
    rw [hnone] at hkey
    cases hkey
  · intro hno
    by_contra hsome
    obtain ⟨w, hw⟩ := Option.ne_none_iff_exists'.mp hsome
    obtain ⟨hmem, hid, htakes⟩ := of_way?_eq_some h hw
    exact hno w hmem hid htakes

/-- The attributes of a way that takes part can be read. -/
theorem exists_attributes (h : ofWays m metric restrictionsOf ways = .ok g) {w : Way α}
    (hw : w ∈ ways) (htakes : w.takesPart m = true) :
    ∃ attributes : WayAttributes α, m.attributes w.scalarTags = .ok attributes := by
  obtain ⟨lss, hlss, -⟩ := ofWays_eq_ok h
  obtain ⟨ls, -, hls⟩ := exists_of_forall₂ hlss w (List.mem_filter.mpr ⟨hw, htakes⟩)
  obtain ⟨attributes, -, hattributes, -⟩ := Link.ofWay_eq_ok_iff.mp hls
  exact ⟨attributes, hattributes⟩

end Network

/-! ## Answers of a router -/

namespace Router

variable {α : Type} [Geometry α] {r r' : Router α} {ways : List (Way α)}
  {source : RestrictionSource α} {ix : RestrictionIndex α} {way : Ident}

/-- A router that is rebuilt can read the attributes of each way that it knows. -/
theorem exists_maxSpeed (hrebuild : r.rebuild ways source = .ok r') {w : Way α}
    (hw : r'.network.way? way = some w) :
    ∃ a : WayAttributes α, r.mapper.attributes w.scalarTags = .ok a ∧
      ∀ time choice, r'.maxSpeed way time choice =
        (choice.mapM VehicleChoice.resolve).map fun profile =>
          some ((Restriction.limitsInForce (r'.network.restrictionsOn hw) time profile).foldl
            Quantity.least a.maxSpeed) := by
  obtain ⟨ix, g, -, hg, rfl⟩ := rebuild_eq_ok_iff.mp hrebuild
  obtain ⟨hmem, -, htakes⟩ := Network.of_way?_eq_some hg hw
  obtain ⟨a, ha⟩ := Network.exists_attributes hg hmem htakes
  refine ⟨a, ha, fun time choice => ?_⟩
  rw [maxSpeed_of_known hw, ha]
  cases choice.mapM VehicleChoice.resolve <;> rfl

/-- There is no answer just for the ways that a router does not know, -/
theorem maxSpeed_eq_none_iff (hrebuild : r.rebuild ways source = .ok r') {time : LocalTime}
    {choice : Option (VehicleChoice α)} :
    r'.maxSpeed way time choice = .ok none ↔ r'.network.way? way = none := by
  refine ⟨fun hnone => ?_, maxSpeed_of_unknown⟩
  by_contra hknown
  obtain ⟨w, hw⟩ := Option.ne_none_iff_exists'.mp hknown
  obtain ⟨a, -, hanswer⟩ := exists_maxSpeed hrebuild hw
  rw [hanswer] at hnone
  obtain ⟨profile, -, hsome⟩ := map_eq_ok.mp hnone
  cases hsome

/-- and there is a fault only if the vehicle cannot be resolved. -/
theorem resolve_of_maxSpeed_eq_error (hrebuild : r.rebuild ways source = .ok r') {time : LocalTime}
    {choice : Option (VehicleChoice α)} {f : Fault}
    (h : r'.maxSpeed way time choice = .error f) :
    choice.mapM VehicleChoice.resolve = .error f := by
  cases hway : r'.network.way? way with
  | none =>
      rw [maxSpeed_of_unknown hway] at h
      cases h
  | some w =>
      obtain ⟨a, -, hanswer⟩ := exists_maxSpeed hrebuild hway
      rw [hanswer] at h
      exact map_eq_error.mp h

variable [LawfulQuantity α]

/-- **The answer without a vehicle** is at most the answer with any. -/
theorem maxSpeed_none_le (hrebuild : r.rebuild ways source = .ok r') {time : LocalTime}
    {choice : Option (VehicleChoice α)} {v₀ v : α}
    (hv₀ : r'.maxSpeed way time none = .ok (some v₀))
    (hv : r'.maxSpeed way time choice = .ok (some v)) : v₀ ≤ v := by
  cases hway : r'.network.way? way with
  | none =>
      rw [maxSpeed_of_unknown hway] at hv
      cases hv
  | some w =>
      obtain ⟨a, -, hanswer⟩ := exists_maxSpeed hrebuild hway
      rw [hanswer] at hv₀ hv
      obtain ⟨none₀, hnone, hv₀⟩ := map_eq_ok.mp hv₀
      obtain ⟨profile, -, hv⟩ := map_eq_ok.mp hv
      cases hnone
      cases hv₀
      cases hv
      have hlimits := List.cons_subset_cons a.maxSpeed (Restriction.limitsInForce_subset
        (r'.network.restrictionsOn hway) time profile)
      exact (isLeastOf_foldl _ _).le_of_subset (isLeastOf_foldl _ _) hlimits

/-- **The speed that is permitted on a way is the lowest in force.** After a router is rebuilt, it
has no answer for a way just when none of the ways under its identifier takes part. The other ways
own edges, and only a vehicle that cannot be resolved leads to a fault. If the way is the only one
under its identifier, the answer is the least of its own speed and of the limits among its
restrictions that are active and concern the vehicle, or any vehicle if none is chosen. The answer
without a vehicle is at most the answer with any. -/
theorem maxSpeed_lowest (hix : source.resolve ways = .ok ix)
    (hrebuild : r.rebuild ways source = .ok r') (way : Ident) (time : LocalTime) :
    (∀ choice, r'.maxSpeed way time choice = .ok none ↔
      ∀ w ∈ ways, w.id = way → ¬ w.takesPart r.mapper = true) ∧
    ((∃ w ∈ ways, w.id = way ∧ w.takesPart r.mapper = true) → r'.network.edgesOf way ≠ []) ∧
    (∀ choice f, r'.maxSpeed way time choice = .error f →
      choice.mapM VehicleChoice.resolve = .error f) ∧
    (∀ w : Way α, w.IsOnly ways → w.id = way → w.takesPart r.mapper = true →
      ∀ choice profile, choice.mapM VehicleChoice.resolve = .ok profile →
        ∃ speed v, r.mapper.categorySpeed (TagMapper.category w.scalarTags) = .ok speed ∧
          r'.maxSpeed way time choice = .ok (some v) ∧
          IsLeastOf v (((w.tags.get? "maxspeed").bind Speed.ofText?).getD speed ::
            Restriction.limitsInForce (ix.restrictionsFor way) time profile)) ∧
    ∀ choice v₀ v, r'.maxSpeed way time none = .ok (some v₀) →
      r'.maxSpeed way time choice = .ok (some v) → v₀ ≤ v := by
  obtain ⟨-, hg⟩ := rebuild_eq_ok hix hrebuild
  refine ⟨fun choice => ?_, ?_, fun choice f => resolve_of_maxSpeed_eq_error hrebuild, ?_,
    fun choice v₀ v => maxSpeed_none_le hrebuild⟩
  · rw [maxSpeed_eq_none_iff hrebuild, Network.way?_eq_none_iff hg]
  · rintro ⟨w, hw, rfl, htakes⟩
    obtain ⟨forward, hforward⟩ := (TagMapper.direction w.scalarTags).exists_permitted
    obtain ⟨e, he, -⟩ := Network.exists_mem_edgesOf hg hw htakes hforward
    exact List.ne_nil_of_mem he
  · rintro w hw rfl htakes choice profile hprofile
    have hway : r'.network.way? w.id = some w := by rw [Network.way?_eq hg hw, if_pos htakes]
    obtain ⟨a, ha, hanswer⟩ := exists_maxSpeed hrebuild hway
    obtain ⟨speed, hspeed, hown⟩ := TagMapper.maxSpeed_of_attributes ha
    have hvalue := (hanswer time choice).trans (map_eq_ok.mpr ⟨profile, hprofile, rfl⟩)
    refine ⟨speed, _, hspeed, hvalue, ?_⟩
    rw [← hown, ← Network.restrictionsOn_eq hg hway]
    exact isLeastOf_foldl _ _

/-- A road for fifty kilometres per hour, on which heavy vehicles may go twenty. -/
def heavyLimitRoad : Way ℚ :=
  shortRoad [("maxspeed", "50 km/h"), ("maxspeed:conditional", "20 @ (weight>3)")]

/-- A car is not heavy, but a vehicle that is not known to be light has to heed the limit. -/
theorem maxSpeed_lowest_heavy :
    ∃ (ix : RestrictionIndex ℚ) (r' : Router ℚ),
      RestrictionSource.tags.resolve [heavyLimitRoad] = .ok ix ∧
      planarRouter.rebuild [heavyLimitRoad] .tags = .ok r' ∧
      r'.maxSpeed (.number 1) earlyCar.time (some (.vehicleClass .car)) = .ok (some 50) ∧
      r'.maxSpeed (.number 1) earlyCar.time none = .ok (some 20) ∧
      IsLeastOf 20 (50 :: Restriction.limitsInForce (ix.restrictionsFor (.number 1))
        earlyCar.time none) := by
  obtain ⟨ix, hix⟩ := exists_eq_ok
    (x := RestrictionSource.tags.resolve [heavyLimitRoad]) (by decide +kernel)
  have hmade : ((planarRouter.rebuild [heavyLimitRoad] .tags).map fun r' =>
      (r'.maxSpeed (.number 1) earlyCar.time (some (.vehicleClass .car)),
        r'.maxSpeed (.number 1) earlyCar.time none)) =
      .ok (.ok (some 50), .ok (some 20)) := by decide +kernel
  have htag : (heavyLimitRoad.tags.get? "maxspeed").bind Speed.ofText? = some (50 : ℚ) := by
    decide +kernel
  obtain ⟨r', hr', hanswers⟩ := map_eq_ok.mp hmade
  obtain ⟨hcar, hany⟩ := Prod.mk.inj hanswers
  obtain ⟨-, -, -, hleast, -⟩ := maxSpeed_lowest hix hr' (.number 1) earlyCar.time
  obtain ⟨speed, v, -, hv, hlowest⟩ := hleast heavyLimitRoad (by simp [Way.IsOnly]) rfl
    (by decide +kernel) none none rfl
  rw [hany] at hv
  cases hv
  rw [htag] at hlowest
  exact ⟨ix, r', hix, hr', hcar, hany, hlowest⟩

end Router

end RoadRules
