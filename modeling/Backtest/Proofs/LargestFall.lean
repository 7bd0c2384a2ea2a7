import Mathlib.Data.Set.Finite.Lemmas
import Backtest.Proofs.ExactReturns

/-!
The largest fall of a curve over exact fractions. The curve is read once, with its peak and its
largest fall so far kept at each point. In the end this is the greatest of the falls from the
running peak, and for values that are not negative also the greatest of the falls from any value to
a later one, since a value falls further from the peak before it than from any other.
-/

namespace Backtest.Proofs.LargestFall

open Backtest.Proofs.ExactArithmetic
open Backtest.Proofs.ExactReturns

/-- The greatest value of a curve up to and with the one at an index. -/
def IsPeak (curve : List ℚ) (index : ℕ) (peak : ℚ) : Prop :=
  IsGreatest {value | value ∈ curve.take (index + 1)} peak

/-- The falls of the values of a curve from its running peak where that is positive, as fractions
of the peak. -/
def peakFalls (curve : List ℚ) : Set ℚ :=
  {fall | ∃ index value peak, curve[index]? = some value ∧ IsPeak curve index peak ∧ 0 < peak ∧
    fall = (peak - value) / peak}

/-- The falls from the positive values of a curve to themselves and to later ones, as fractions of
the first value. -/
def pairFalls (curve : List ℚ) : Set ℚ :=
  {fall | ∃ (first last : ℕ) (high low : ℚ), first ≤ last ∧ curve[first]? = some high ∧
    curve[last]? = some low ∧ 0 < high ∧ fall = (high - low) / high}

section Append

variable {front rest : List ℚ} {index : ℕ} {value peak : ℚ}

theorem isPeak_append (hinside : index < front.length) :
    IsPeak (front ++ rest) index peak ↔ IsPeak front index peak := by
  rw [IsPeak, IsPeak, List.take_append_of_le_length hinside]

theorem isPeak_last :
    IsPeak (front ++ [value]) front.length peak ↔
      IsGreatest (insert value {value | value ∈ front}) peak := by
  have hvalues : {other | other ∈ (front ++ [value]).take (front.length + 1)} =
      insert value {value | value ∈ front} := by
    ext other
    rw [List.take_of_length_le (by simp)]
    simp [or_comm]
  rw [IsPeak, hvalues]

theorem peakFalls_subset_append (front rest : List ℚ) :
    peakFalls front ⊆ peakFalls (front ++ rest) := by
  rintro fall ⟨index, value, peak, hfound, hhighest, hpositive, rfl⟩
  have hinside := (List.getElem?_eq_some_iff.mp hfound).1
  refine ⟨index, value, peak, ?_, (isPeak_append hinside).mpr hhighest, hpositive, rfl⟩
  rw [List.getElem?_append_left hinside, hfound]

theorem mem_peakFalls_append_singleton
    (hhighest : IsGreatest (insert value {value | value ∈ front}) peak) {fall : ℚ} :
    fall ∈ peakFalls (front ++ [value]) ↔
      fall ∈ peakFalls front ∨ 0 < peak ∧ fall = (peak - value) / peak := by
  constructor
  · rintro ⟨index, value', peak', hfound, hhighest', hpositive, rfl⟩
    rcases lt_or_ge index front.length with hinside | houtside
    · rw [List.getElem?_append_left hinside] at hfound
      exact .inl
        ⟨index, value', peak', hfound, (isPeak_append hinside).mp hhighest', hpositive, rfl⟩
    · have hbound := (List.getElem?_eq_some_iff.mp hfound).1
      obtain rfl : index = front.length := by
        rw [List.length_append, List.length_singleton] at hbound
        omega
      obtain rfl : value = value' := by simpa using hfound
      obtain rfl := (isPeak_last.mp hhighest').unique hhighest
      exact .inr ⟨hpositive, rfl⟩
  · rintro (hearlier | ⟨hpositive, rfl⟩)
    · exact peakFalls_subset_append front [value] hearlier
    · exact ⟨front.length, value, peak, by simp, isPeak_last.mpr hhighest, hpositive, rfl⟩

end Append

/-- What has been kept of the front of a curve: its peak, and the greatest of its falls and zero. -/
structure Kept (front : List ℚ) (peak fall : ℚ) : Prop where
  peak_isGreatest : IsGreatest {value | value ∈ front} peak
  fall_isGreatest : IsGreatest (insert 0 (peakFalls front)) fall

theorem kept_singleton (first : ℚ) : Kept [first] first 0 where
  peak_isGreatest := by simp
  fall_isGreatest := by
    have hhighest : IsGreatest (insert first {value | value ∈ ([] : List ℚ)}) first := by simp
    refine ⟨Set.mem_insert 0 _, fun fall hmem => ?_⟩
    rcases hmem with rfl | hmem
    · exact le_rfl
    · rw [← List.nil_append [first], mem_peakFalls_append_singleton hhighest] at hmem
      rcases hmem with ⟨_, _, _, hfound, -⟩ | ⟨-, rfl⟩
      · simp at hfound
      · simp

theorem Kept.next {front : List ℚ} {peak fall : ℚ} (hkept : Kept front peak fall) (value : ℚ) :
    Kept (front ++ [value]) (max value peak)
      (if 0 < max value peak then max ((max value peak - value) / max value peak) fall
        else fall) := by
  have hhighest := hkept.peak_isGreatest.insert value
  have hmem (other : ℚ) : other ∈ peakFalls (front ++ [value]) ↔ other ∈ peakFalls front ∨
      0 < max value peak ∧ other = (max value peak - value) / max value peak :=
    mem_peakFalls_append_singleton hhighest
  refine ⟨?_, ?_⟩
  · simpa [Set.insert_def, or_comm] using hhighest
  · split
    · next hpositive =>
      have hfalls : insert 0 (peakFalls (front ++ [value])) =
          insert ((max value peak - value) / max value peak) (insert 0 (peakFalls front)) := by
        ext other
        simp only [Set.mem_insert_iff, hmem, hpositive, true_and]
        tauto
      rw [hfalls]
      exact hkept.fall_isGreatest.insert _
    · next hnotPositive =>
      have hfalls : peakFalls (front ++ [value]) = peakFalls front := by
        ext other
        simp only [hmem, hnotPositive, false_and, or_false]
      rw [hfalls]
      exact hkept.fall_isGreatest

/-- Reading on keeps the peak and the largest fall of all that has been read. -/
theorem Kept.drawdownFrom {front : List ℚ} {peak fall : ℚ} (hkept : Kept front peak fall)
    (rest : List ℚ) : ∃ peak', Kept (front ++ rest) peak' (drawdownFrom peak fall rest) := by
  induction rest generalizing front peak fall with
  | nil => exact ⟨peak, by rwa [List.append_nil]⟩
  | cons value rest ih =>
      have hnext := hkept.next value
      rw [List.append_cons]
      simp only [Backtest.drawdownFrom, lt_iff, zero_eq]
      split
      · next hhigher =>
        rw [max_eq_left hhigher.le, sub_self, zero_div] at hnext
        rw [max_eq_right (hkept.fall_isGreatest.2 (Set.mem_insert 0 _)), ite_self] at hnext
        exact ih hnext
      · next hnotHigher =>
        rw [max_eq_right (not_lt.mp hnotHigher)] at hnext
        split
        · next hpositive =>
          rw [if_pos hpositive, max_comm, max_def_lt] at hnext
          exact ih hnext
        · next hnotPositive =>
          rw [if_neg hnotPositive] at hnext
          exact ih hnext

theorem maxDrawdown_isGreatest_peakFalls (curve : List ℚ) :
    IsGreatest (insert 0 (peakFalls curve)) (maxDrawdown curve) := by
  cases curve with
  | nil =>
      have hempty : peakFalls [] = ∅ := by simp [peakFalls]
      simp [hempty, maxDrawdown]
  | cons first rest =>
      have hagain : maxDrawdown (first :: rest) = drawdownFrom first 0 rest := by
        simp [maxDrawdown, drawdownFrom]
      obtain ⟨peak, hkept⟩ := (kept_singleton first).drawdownFrom rest
      rw [hagain]
      exact hkept.fall_isGreatest

section Pairs

variable {curve : List ℚ}

theorem exists_isPeak {index : ℕ} (hinside : index < curve.length) :
    ∃ peak, IsPeak curve index peak := by
  have hmem : curve[index] ∈ curve.take (index + 1) :=
    List.mem_take_iff_getElem.mpr ⟨index, by omega, rfl⟩
  obtain ⟨peak, hfound, hhighest⟩ :=
    Set.exists_max_image {value | value ∈ curve.take (index + 1)} id (List.finite_toSet _) ⟨_, hmem⟩
  exact ⟨peak, hfound, hhighest⟩

theorem mem_pairFalls_of_mem_peakFalls {fall : ℚ} (hmem : fall ∈ peakFalls curve) :
    fall ∈ pairFalls curve := by
  obtain ⟨last, low, peak, hfound, hhighest, hpositive, rfl⟩ := hmem
  obtain ⟨first, hinside, rfl⟩ := List.mem_take_iff_getElem.mp hhighest.1
  exact ⟨first, last, _, low, by omega, List.getElem?_eq_getElem _, hfound, hpositive, rfl⟩

/-- To a value that is not negative, the fall from the peak before it is the greatest one. -/
theorem exists_peakFall_ge (hnonneg : ∀ value ∈ curve, 0 ≤ value) {fall : ℚ}
    (hmem : fall ∈ pairFalls curve) : ∃ greater ∈ peakFalls curve, fall ≤ greater := by
  obtain ⟨first, last, high, low, horder, hfoundHigh, hfoundLow, hpositive, rfl⟩ := hmem
  obtain ⟨hinside, rfl⟩ := List.getElem?_eq_some_iff.mp hfoundLow
  obtain ⟨hinside', rfl⟩ := List.getElem?_eq_some_iff.mp hfoundHigh
  obtain ⟨peak, hhighest⟩ := exists_isPeak hinside
  have hbelow : curve[first] ≤ peak :=
    hhighest.2 (List.mem_take_iff_getElem.mpr ⟨first, by omega, rfl⟩)
  have hpositive' : 0 < peak := hpositive.trans_le hbelow
  refine ⟨_, ⟨last, _, peak, hfoundLow, hhighest, hpositive', rfl⟩, ?_⟩
  rw [sub_div, sub_div, div_self hpositive.ne', div_self hpositive'.ne']
  have hkept : curve[last] / peak ≤ curve[last] / curve[first] :=
    div_le_div_of_nonneg_left (hnonneg _ (List.getElem_mem hinside)) hpositive hbelow
  exact sub_le_sub_left hkept 1

theorem zero_mem_pairFalls (hnonempty : (pairFalls curve).Nonempty) : 0 ∈ pairFalls curve := by
  obtain ⟨_, first, last, high, low, horder, hfound, -, hpositive, -⟩ := hnonempty
  exact ⟨first, first, high, high, le_rfl, hfound, hfound, hpositive, by simp⟩

theorem maxDrawdown_isGreatest_pairFalls (hnonneg : ∀ value ∈ curve, 0 ≤ value)
    (hnonempty : (pairFalls curve).Nonempty) :
    IsGreatest (pairFalls curve) (maxDrawdown curve) := by
  obtain ⟨hmem, hgreatest⟩ := maxDrawdown_isGreatest_peakFalls curve
  refine ⟨?_, fun fall hpair => ?_⟩
  · rcases hmem with hzero | hmem
    · rw [hzero]
      exact zero_mem_pairFalls hnonempty
    · exact mem_pairFalls_of_mem_peakFalls hmem
  · obtain ⟨greater, hmem', hle⟩ := exists_peakFall_ge hnonneg hpair
    exact hle.trans (hgreatest (Set.mem_insert_of_mem 0 hmem'))

theorem maxDrawdown_eq_zero_of_empty (hempty : pairFalls curve = ∅) : maxDrawdown curve = 0 := by
  rcases (maxDrawdown_isGreatest_peakFalls curve).1 with hzero | hmem
  · exact hzero
  · exact absurd (mem_pairFalls_of_mem_peakFalls hmem) (hempty ▸ Set.notMem_empty _)

theorem maxDrawdown_eq_zero_iff (hnonneg : ∀ value ∈ curve, 0 ≤ value) :
    maxDrawdown curve = 0 ↔ curve.Pairwise (· ≤ ·) := by
  rw [List.pairwise_iff_getElem]
  constructor
  · intro hzero first last hinside hinside' horder
    by_contra hfalls
    have hpositive : 0 < curve[first] :=
      (hnonneg _ (List.getElem_mem hinside')).trans_lt (not_le.mp hfalls)
    have hpair : (curve[first] - curve[last]) / curve[first] ∈ pairFalls curve :=
      ⟨first, last, _, _, horder.le, List.getElem?_eq_getElem hinside,
        List.getElem?_eq_getElem hinside', hpositive, rfl⟩
    have hle := (maxDrawdown_isGreatest_pairFalls hnonneg ⟨_, hpair⟩).2 hpair
    rw [hzero] at hle
    exact absurd (div_pos (sub_pos.mpr (not_le.mp hfalls)) hpositive) (not_lt.mpr hle)
  · intro hrises
    obtain ⟨hmem, hgreatest⟩ := maxDrawdown_isGreatest_peakFalls curve
    refine le_antisymm ?_ (hgreatest (Set.mem_insert 0 _))
    rcases hmem with hzero | hmem
    · exact hzero.le
    · obtain ⟨first, last, high, low, horder, hfoundHigh, hfoundLow, hpositive, hfall⟩ :=
        mem_pairFalls_of_mem_peakFalls hmem
      obtain ⟨hinside, rfl⟩ := List.getElem?_eq_some_iff.mp hfoundHigh
      obtain ⟨hinside', rfl⟩ := List.getElem?_eq_some_iff.mp hfoundLow
      rw [hfall]
      refine div_nonpos_of_nonpos_of_nonneg (sub_nonpos.mpr ?_) hpositive.le
      rcases horder.eq_or_lt with rfl | hearlier
      · exact le_rfl
      · exact hrises first last hinside hinside' hearlier

end Pairs

theorem maxDrawdown_le_append (curve later : List ℚ) :
    maxDrawdown curve ≤ maxDrawdown (curve ++ later) :=
  (maxDrawdown_isGreatest_peakFalls curve).mono (maxDrawdown_isGreatest_peakFalls _)
    (Set.insert_subset_insert (peakFalls_subset_append curve later))

/-- The largest fall of a curve is the greatest of zero and of the falls from its running peak, and
more values never make it smaller. If no value is negative, it is the greatest of the falls from a
value to a later one, a fraction between none and all, and none exactly if the curve never falls. -/
theorem maxDrawdown_isGreatest (curve : List ℚ) :
    IsGreatest (insert 0 (peakFalls curve)) (maxDrawdown curve) ∧
      ((∀ value ∈ curve, 0 ≤ value) →
        ((pairFalls curve).Nonempty → IsGreatest (pairFalls curve) (maxDrawdown curve)) ∧
        (pairFalls curve = ∅ → maxDrawdown curve = 0) ∧
        (0 ≤ maxDrawdown curve ∧ maxDrawdown curve ≤ 1) ∧
        (maxDrawdown curve = 0 ↔ curve.Pairwise (· ≤ ·))) ∧
      ∀ later, maxDrawdown curve ≤ maxDrawdown (curve ++ later) :=
  ⟨maxDrawdown_isGreatest_peakFalls curve,
    fun hnonneg => ⟨maxDrawdown_isGreatest_pairFalls hnonneg, maxDrawdown_eq_zero_of_empty,
      maxDrawdown_mem hnonneg, maxDrawdown_eq_zero_iff hnonneg⟩,
    maxDrawdown_le_append curve⟩

def twoPeaks : List ℚ := [0, 2, 2, 1 / 2, 3, 2, 3]

theorem maxDrawdown_isGreatest_twoPeaks :
    (∀ value ∈ twoPeaks, 0 ≤ value) ∧ maxDrawdown twoPeaks = 3 / 4 ∧
      IsGreatest (pairFalls twoPeaks) (3 / 4) ∧
      IsGreatest (insert 0 (peakFalls twoPeaks)) (3 / 4) ∧
      ∀ later, 3 / 4 ≤ maxDrawdown (twoPeaks ++ later) := by
  have hnonneg : ∀ value ∈ twoPeaks, 0 ≤ value := by decide +kernel
  have hfall : maxDrawdown twoPeaks = 3 / 4 := by decide +kernel
  obtain ⟨hpeaks, hbounded, hgrows⟩ := maxDrawdown_isGreatest twoPeaks
  have hpairs :=
    (hbounded hnonneg).1 ⟨0, 1, 1, 2, 2, le_rfl, rfl, rfl, by decide, by decide +kernel⟩
  rw [hfall] at hpeaks hpairs hgrows
  exact ⟨hnonneg, hfall, hpairs, hpeaks, hgrows⟩

end Backtest.Proofs.LargestFall
