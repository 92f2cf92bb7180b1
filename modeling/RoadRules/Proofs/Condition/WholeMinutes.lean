import RoadRules.Proofs.Condition.Clauses
import RoadRules.Proofs.Window.Overlap

set_option autoImplicit false

/-! # Conditions speak of whole minutes

The seconds of a written time are read and dropped, so every window of a restriction that is read
from a tag begins and ends with a minute (`Restriction.isWhole_of_read`). -/

namespace RoadRules

open Text Condition Calendar

namespace Condition

theorem isWholeMinute_ofMicros (n : Nat) :
    (TimeOfDay.ofMicros (n * microsPerMinute)).isWholeMinute = true := by
  have hday : microsPerDay = minutesPerDay * microsPerMinute := rfl
  show (n * microsPerMinute % microsPerDay % microsPerMinute == 0) = true
  rw [hday, Nat.mul_mod_mul_right, Nat.mul_mod_left]
  rfl

/-- A time of a condition is a whole minute. -/
theorem isWholeMinute_of_timeOfDay {endsRange : Bool} {s : Text} {t : TimeOfDay}
    (h : timeOfDay endsRange s = .ok t) : t.isWholeMinute = true := by
  unfold timeOfDay at h
  dsimp only at h
  split at h
  · cases h
    rfl
  · split at h
    · cases h
    · cases h
      exact isWholeMinute_ofMicros _

/-- Hours that an item names are whole. -/
theorem isWhole_of_piece {it : Item} {h : Hours} (hpiece : it.piece = .ok (.hours h)) :
    h.IsWhole := by
  match it, hpiece with
  | .single (.time _), hpiece => cases hpiece
  | .single (.word w), hpiece =>
      replace hpiece : wordPiece w = .ok (.hours h) := hpiece
      unfold wordPiece at hpiece
      split at hpiece <;> cases hpiece
  | .range (.time a) (.time b), hpiece =>
      obtain ⟨start, hstart, hrest⟩ := bind_eq_ok.mp hpiece
      obtain ⟨stop, hstop, hhours⟩ := bind_eq_ok.mp hrest
      cases hhours
      exact ⟨isWholeMinute_of_timeOfDay hstart, isWholeMinute_of_timeOfDay hstop⟩
  | .range (.word a) (.word b), hpiece =>
      replace hpiece : wordRangePiece a b = .ok (.hours h) := hpiece
      unfold wordRangePiece at hpiece
      split at hpiece <;> cases hpiece
  | .range (.time _) (.word _), hpiece => cases hpiece
  | .range (.word _) (.time _), hpiece => cases hpiece

theorem mem_hoursOf {ps : List Piece} {h : Hours} : h ∈ hoursOf ps ↔ .hours h ∈ ps := by
  unfold hoursOf
  rw [List.mem_filterMap]
  constructor
  · rintro ⟨p, hp, hhours⟩
    cases p with
    | hours h' => exact Option.some.inj hhours ▸ hp
    | days s => cases hhours
    | months s => cases hhours
  · exact fun hp => ⟨_, hp, rfl⟩

/-- The hours of a window are hours that some piece names. -/
theorem mem_of_windowsOf {ps : List Piece} {w : TimeWindow} (hw : w ∈ windowsOf ps) {h : Hours}
    (hhours : w.hours = some h) : .hours h ∈ ps := by
  unfold windowsOf at hw
  split at hw
  · cases List.mem_singleton.mp hw
    cases hhours
  · obtain ⟨h', hmem, rfl⟩ := List.mem_map.mp hw
    cases hhours
    exact mem_hoursOf.mp hmem

/-- The windows of a condition are whole. -/
theorem isWhole_of_windows {s : Text} {ws : List TimeWindow} (h : windows s = .ok ws) :
    ∀ w ∈ ws, w.IsWhole := by
  obtain ⟨_, its, ps, -, -, -, hps, rfl⟩ := windows_eq_ok_iff.mp h
  intro w hw hours hhours
  obtain ⟨it, -, hpiece⟩ :=
    (mem_iff_of_forall₂ (mapM_eq_ok_iff.mp hps)).mp (mem_of_windowsOf hw hhours)
  exact isWhole_of_piece hpiece

end Condition

/-- **The windows of a restriction that is read are whole.** -/
theorem Restriction.isWhole_of_read {α : Type} [Quantity α] {key : Text} {value : Option Text}
    {r : Restriction α} (h : Restriction.read key value = .ok r) : ∀ w ∈ r.windows, w.IsWhole := by
  obtain ⟨_, _, cs, -, hcs, rfl⟩ := exists_clauses_of_read h
  intro w hw
  obtain ⟨c, hc, hw⟩ := List.mem_flatMap.mp hw
  obtain ⟨part, -, hread⟩ := (mem_iff_of_forall₂ (clauses_eq_ok_iff.mp hcs).1).mp hc
  rcases clause_cases (readPart_eq_ok_iff.mp hread).2 with
    ⟨-, ws, hws, rfl⟩ | ⟨_, _, _, -, -, rfl⟩
  · exact isWhole_of_windows hws w hw
  · cases hw

end RoadRules
