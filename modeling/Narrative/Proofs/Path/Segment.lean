import Mathlib.Algebra.Group.Int.Defs
import Mathlib.Algebra.Group.Nat.Defs
import Narrative.History

namespace Narrative

theorem toInt_nextIndex (n : Int64) : (nextIndex n).toInt = min (n.toInt + 1) (2 ^ 63 - 1) := by
  have hlow := Int64.le_toInt n
  have hhigh := Int64.toInt_lt n
  have hmax : Int64.maxValue.toInt = 2 ^ 63 - 1 := by decide
  rw [nextIndex]
  split
  · rename_i h
    rw [h]
    omega
  · rename_i h
    have hne : n.toInt ≠ Int64.maxValue.toInt := fun heq => h (Int64.toInt_inj.mp heq)
    have hone : (1 : Int64).toInt = 1 := by decide
    rw [Int64.toInt_add, hone, Int.bmod_eq_of_le (by omega) (by omega)]
    omega

namespace Passage

variable (p : Passage)

/-- The spot at an index of any size. -/
def at? (n : Int) : Option Spot := if n < 0 then none else p.spots[n.toNat]?

theorem length_spots : p.spots.length = p.body.length := by
  rw [spots, List.length_map, List.length_zipIdx]

theorem getElem?_spots (n : Nat) :
    p.spots[n]? = p.body[n]?.map fun i => ⟨⟨p.address, n⟩, i⟩ := by
  rw [spots, List.getElem?_map, List.getElem?_zipIdx, Option.map_map, Nat.zero_add]
  rfl

theorem spot?_eq_at? (index : Int64) : p.spot? index = p.at? index.toInt := by
  rw [spot?, at?]
  split
  · rename_i n h
    have hnat : ¬ Int.ofNat n < 0 := Int.not_lt.mpr (Int.natCast_nonneg n)
    rw [h, if_neg hnat, getElem?_spots]
    rfl
  · rename_i n h
    rw [h, if_pos (Int.negSucc_lt_zero n)]

variable {p}

theorem at?_eq_none {n : Int} (h : n < 0 ∨ p.body.length ≤ n) : p.at? n = none := by
  rw [at?]
  split
  · rfl
  · exact List.getElem?_eq_none (by rw [length_spots]; omega)

theorem at?_of_inside {n : Int} (hlow : 0 ≤ n) (hhigh : n < p.body.length) :
    ∃ x, p.at? n = some x := by
  have hlt : n.toNat < p.spots.length := by rw [length_spots]; omega
  refine ⟨p.spots[n.toNat], ?_⟩
  rw [at?, if_neg (by omega), List.getElem?_eq_getElem hlt]

theorem inside_of_at? {n : Int} {x : Spot} (h : p.at? n = some x) :
    0 ≤ n ∧ n < p.body.length := by
  refine Decidable.byContradiction fun hout => ?_
  have hnone : p.at? n = none := at?_eq_none (by omega)
  rw [hnone] at h
  cases h

theorem mem_of_at? {n : Int} {x : Spot} (h : p.at? n = some x) : x.instruction ∈ p.body := by
  rw [at?] at h
  split at h
  · cases h
  · rw [getElem?_spots] at h
    obtain ⟨i, hi, rfl⟩ := Option.map_eq_some_iff.mp h
    exact List.mem_of_getElem? hi

/-- No list is so long that the greatest index of a path is inside it. -/
theorem at?_min (h : p.body.length < 2 ^ 63) (n : Int) : p.at? (min n (2 ^ 63 - 1)) = p.at? n := by
  rcases Int.le_total n (2 ^ 63 - 1) with hle | hle
  · rw [Int.min_eq_left hle]
  · rw [Int.min_eq_right hle, at?_eq_none (by omega), at?_eq_none (by omega)]

end Passage

namespace Segment

variable {p : Passage} {first last last' : Int64}

theorem drop_take_succ {α : Type} (l : List α) {a n : Nat} (h : a ≤ n) :
    (l.take (n + 1)).drop a = (l.take n).drop a ++ l[n]?.toList := by
  rw [List.take_add_one, List.drop_append]
  rcases Nat.lt_or_ge n l.length with hlt | hge
  · have hlen : a - (l.take n).length = 0 := by rw [List.length_take]; omega
    rw [hlen, List.drop_zero]
  · rw [List.getElem?_eq_none hge, Option.toList_none, List.drop_nil]

theorem spots_extend (hfirst : first.toInt ≤ last'.toInt) (hlast : -1 ≤ last.toInt)
    (hnext : last'.toInt = last.toInt + 1) :
    spots ⟨p, first, last'⟩ = spots ⟨p, first, last⟩ ++ (p.at? last'.toInt).toList := by
  have hsucc : (last'.toInt + 1).toNat = last'.toInt.toNat + 1 := by omega
  rw [spots, spots, Passage.at?, if_neg (by omega)]
  dsimp only
  rw [hsucc, ← hnext, drop_take_succ _ (by omega)]

theorem spots_single (h : 0 ≤ last.toInt) :
    spots ⟨p, last, last⟩ = (p.at? last.toInt).toList := by
  have hsucc : (last.toInt + 1).toNat = last.toInt.toNat + 1 := by omega
  rw [spots, Passage.at?, if_neg (by omega)]
  dsimp only
  rw [hsucc, drop_take_succ _ (Nat.le_refl _), List.drop_eq_nil_of_le (List.length_take_le _ _),
    List.nil_append]

theorem spots_last (hfirst : 0 ≤ first.toInt) (hle : first.toInt ≤ last.toInt) {x : Spot}
    (hx : p.at? last.toInt = some x) : ∃ more, spots ⟨p, first, last⟩ = more ++ [x] := by
  have hsucc : (last.toInt + 1).toNat = last.toInt.toNat + 1 := by omega
  rw [Passage.at?, if_neg (by omega)] at hx
  rw [spots]
  dsimp only
  rw [hsucc, drop_take_succ _ (by omega), hx]
  exact ⟨_, rfl⟩

/-- Where an index stands behind a list makes no difference. -/
theorem spots_clamp (hlast : p.body.length ≤ last.toInt + 1)
    (hlast' : p.body.length ≤ last'.toInt + 1) :
    spots ⟨p, first, last⟩ = spots ⟨p, first, last'⟩ := by
  have hall : p.spots.take (last.toInt + 1).toNat = p.spots :=
    List.take_of_length_le (by rw [Passage.length_spots]; omega)
  have hall' : p.spots.take (last'.toInt + 1).toNat = p.spots :=
    List.take_of_length_le (by rw [Passage.length_spots]; omega)
  rw [spots, spots]
  dsimp only
  rw [hall, hall']

end Segment

end Narrative
