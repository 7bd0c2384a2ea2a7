import Backtest.Series

namespace Backtest.Proofs.SeriesPrefix

open Backtest.Series

variable {α : Type}

@[simp] theorem length_ofValues (values : List α) : (ofValues values).length = values.length :=
  List.length_map _

theorem take_ofValues (count : Nat) (values : List α) :
    (ofValues values).take count = ofValues (values.take count) :=
  List.map_take.symm

@[simp] theorem length_shift (series : Series α) : series.shift.length = series.length := by
  simp [shift]

theorem shift_eq_take (series : Series α) :
    series.shift = (none :: series).take series.length := by
  rw [shift, List.dropLast_eq_take, List.length_cons, Nat.add_sub_cancel]

theorem take_shift (count : Nat) (series : Series α) :
    series.shift.take count = shift (series.take count) := by
  rw [shift_eq_take, shift_eq_take, List.take_take, List.length_take]
  cases hmin : min count series.length with
  | zero => rfl
  | succ size =>
      rw [List.take_succ_cons, List.take_succ_cons, List.take_take,
        Nat.min_eq_left (by omega)]

theorem window_take {β : Type} {size index count : Nat} (h : index < count) (xs : List β) :
    window size index (xs.take count) = window size index xs := by
  rw [window, window, List.take_take, Nat.min_eq_left h]

@[simp] theorem length_overWindows {β : Type} (size first : Nat) (f : List α → β)
    (series : Series α) : (overWindows size first f series).length = series.length := by
  simp [overWindows]

theorem take_overWindows {β : Type} (size first count : Nat) (f : List α → β)
    (series : Series α) :
    (overWindows size first f series).take count =
      overWindows size first f (series.take count) := by
  rw [overWindows, overWindows, ← List.map_take, List.take_range, List.length_take]
  apply List.map_congr_left
  intro index hindex
  have hlt : index < count := by
    rw [List.mem_range] at hindex
    omega
  rw [window_take hlt]

theorem length_crossings (relation : α → α → α → α → Bool) (a b : Series α) :
    (crossings relation a b).length = min a.length b.length := by
  simp [crossings]

theorem take_crossings (relation : α → α → α → α → Bool) (count : Nat) (a b : Series α) :
    (crossings relation a b).take count = crossings relation (a.take count) (b.take count) := by
  simp only [crossings, List.zip, List.take_zipWith, take_shift]

variable [Scalar α]

@[simp] theorem length_sma (period : Nat) (series : Series α) :
    (sma period series).length = series.length :=
  length_overWindows _ _ _ _

theorem take_sma (period count : Nat) (series : Series α) :
    (sma period series).take count = sma period (series.take count) :=
  take_overWindows _ _ _ _ _

theorem length_emaFrom (period : Nat) (state : EmaState α) (series : Series α) :
    (emaFrom period state series).length = series.length := by
  induction series generalizing state with
  | nil => rfl
  | cons value rest ih =>
      cases value with
      | none => simp [emaFrom, ih]
      | some value => simp [emaFrom, ih]

theorem take_emaFrom (period count : Nat) (state : EmaState α) (series : Series α) :
    (emaFrom period state series).take count = emaFrom period state (series.take count) := by
  induction series generalizing state count with
  | nil => simp [emaFrom]
  | cons value rest ih =>
      cases count with
      | zero => rfl
      | succ count =>
          cases value with
          | none => simp [emaFrom, ih]
          | some value => simp [emaFrom, ih]

@[simp] theorem length_ema (period : Nat) (series : Series α) :
    (ema period series).length = series.length :=
  length_emaFrom _ _ _

theorem take_ema (period count : Nat) (series : Series α) :
    (ema period series).take count = ema period (series.take count) :=
  take_emaFrom _ _ _ _

@[simp] theorem length_quarterChanges (series : Series α) :
    series.quarterChanges.length = series.length := by
  simp [quarterChanges]

theorem take_quarterChanges (count : Nat) (series : Series α) :
    series.quarterChanges.take count = quarterChanges (series.take count) := by
  rw [quarterChanges, quarterChanges, List.take_zipWith, take_shift]

@[simp] theorem length_rsi (period : Nat) (series : Series α) :
    (rsi period series).length = series.length := by
  simp [rsi]

theorem take_rsi (period count : Nat) (series : Series α) :
    (rsi period series).take count = rsi period (series.take count) := by
  rw [rsi, rsi, take_overWindows, take_quarterChanges]

end Backtest.Proofs.SeriesPrefix
