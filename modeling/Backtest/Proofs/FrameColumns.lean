import Backtest.Frame

namespace Backtest.Proofs.FrameColumns

theorem daysInMonth_le (year : Int) (month : Nat) : daysInMonth year month ≤ 31 := by
  unfold daysInMonth
  split
  · split <;> omega
  · split <;> omega

theorem daysInMonth_pos (year : Int) (month : Nat) : 1 ≤ daysInMonth year month := by
  unfold daysInMonth
  split
  · split <;> omega
  · split <;> omega

theorem eq_of_rank_eq {a b : Date} (h : a.rank = b.rank) : a = b := by
  obtain ⟨year, month, day, hyear, hmonth, hday⟩ := a
  obtain ⟨year', month', day', hyear', hmonth', hday'⟩ := b
  have hbound := daysInMonth_le year month
  have hbound' := daysInMonth_le year' month'
  simp only [Date.rank] at h
  have hsame : year = year' ∧ month = month' ∧ day = day' := by omega
  obtain ⟨rfl, rfl, rfl⟩ := hsame
  rfl

theorem lt_of_le_of_ne {a b : Date} (h : a ≤ b) (hne : a ≠ b) : a < b :=
  Int.lt_iff_le_and_ne.mpr ⟨h, fun hrank => hne (eq_of_rank_eq hrank)⟩

theorem of?_eq_some {year : Int} {month day : Nat} {d : Date} :
    Date.of? year month day = some d ↔ d.year = year ∧ d.month = month ∧ d.day = day := by
  unfold Date.of?
  constructor
  · intro h
    split at h
    · cases h
      exact ⟨rfl, rfl, rfl⟩
    · cases h
  · rintro ⟨rfl, rfl, rfl⟩
    exact dif_pos d.isDate

theorem of?_eq_none {year : Int} {month day : Nat} :
    Date.of? year month day = none ↔ ¬IsDate year month day := by
  unfold Date.of?
  split
  · next h => exact iff_of_false (fun hnone => Option.some_ne_none _ hnone) (not_not_intro h)
  · next h => exact iff_of_true rfl h

/-- The day after is the least of the later days. -/
theorem lt_iff_next?_le {d next : Date} (h : d.next? = some next) (other : Date) :
    d < other ↔ next ≤ other := by
  obtain ⟨hyear, hmonth, hday⟩ := d.isDate
  obtain ⟨-, hmonth', hday'⟩ := other.isDate
  have hbound := daysInMonth_le d.year d.month
  have hbound' := daysInMonth_le other.year other.month
  have hlastDay (hnone : Date.of? d.year d.month (d.day + 1) = none) :
      ¬d.day + 1 ≤ daysInMonth d.year d.month := fun hnext =>
    of?_eq_none.mp hnone ⟨hyear, hmonth, Nat.le_add_left 1 d.day, hnext⟩
  have hlastMonth (hnone : Date.of? d.year (d.month + 1) 1 = none) : ¬d.month + 1 ≤ 12 :=
    fun hnext => of?_eq_none.mp hnone
      ⟨hyear, ⟨Nat.le_add_left 1 d.month, hnext⟩, Nat.le_refl 1, daysInMonth_pos _ _⟩
  have hsame (hyear : other.year = d.year) (hmonth : other.month = d.month) :
      other.day ≤ daysInMonth d.year d.month := hyear ▸ hmonth ▸ hday'.2
  change d.rank < other.rank ↔ next.rank ≤ other.rank
  simp only [Date.next?, Option.orElse_eq_orElse, Option.orElse_eq_or, Option.or_eq_some_iff,
    of?_eq_some] at h
  unfold Date.rank
  rcases h with ⟨hyear, hmonth, hday⟩ | ⟨hnone, ⟨hyear, hmonth, hday⟩ |
    ⟨hnone', hyear, hmonth, hday⟩⟩
  · omega
  · have := hlastDay hnone
    omega
  · have := hlastDay hnone
    have := hlastMonth hnone'
    omega

theorem le_of_mem_daily {first d : Date} {count : Nat} (h : d ∈ first.daily count) :
    first ≤ d := by
  induction count generalizing first with
  | zero => cases h
  | succ count ih =>
      rw [Date.daily] at h
      rcases List.mem_cons.mp h with rfl | h
      · exact Int.le_refl _
      · split at h
        · next next hnext => exact Int.le_of_lt ((lt_iff_next?_le hnext d).mpr (ih h))
        · cases h

theorem pairwise_daily (first : Date) (count : Nat) : (first.daily count).Pairwise (· < ·) := by
  induction count generalizing first with
  | zero => exact .nil
  | succ count ih =>
      rw [Date.daily]
      split
      · next next hnext =>
          exact .cons (fun d hd => (lt_iff_next?_le hnext d).mpr (le_of_mem_daily hd)) (ih next)
      · exact List.pairwise_singleton _ _

variable {α : Type}

theorem frame_ext {frame frame' : Frame α} (hdates : frame.dates = frame'.dates)
    (hcolumns : frame.columns = frame'.columns) : frame = frame' := by
  cases frame
  cases frame'
  cases hdates
  cases hcolumns
  rfl

theorem firstUnordered?_eq_none {dates : List Date} (h : dates.Pairwise (· < ·)) (index : Nat) :
    Frame.firstUnordered? index dates = none := by
  induction dates generalizing index with
  | nil => rfl
  | cons a rest ih =>
      cases rest with
      | nil => rfl
      | cons b rest =>
          obtain ⟨hfirst, hrest⟩ := List.pairwise_cons.mp h
          have hlt : a.rank < b.rank := hfirst b List.mem_cons_self
          have hnot : ¬b ≤ a := Int.not_le.mpr hlt
          rw [Frame.firstUnordered?, if_neg hnot]
          exact ih hrest (index + 1)

theorem firstMisaligned?_eq_none {columns : Columns α} {dates : List Date}
    (h : columns.Aligned dates) (order : List Column) :
    Frame.firstMisaligned? columns dates.length order = none := by
  induction order with
  | nil => rfl
  | cons column rest ih =>
      rw [Frame.firstMisaligned?]
      split
      · next values hvalues => rw [if_pos (h column values hvalues), ih]
      · exact ih

theorem ofColumns_eq_ok {dates : List Date} {columns : Columns α} {frame : Frame α} :
    Frame.ofColumns dates columns = .ok frame ↔
      ((columns .close).isSome ∧ columns.Aligned dates ∧ dates.Pairwise (· < ·)) ∧
        frame.dates = dates ∧ frame.columns = columns := by
  constructor
  · intro h
    have hframe : frame.dates = dates ∧ frame.columns = columns := by
      unfold Frame.ofColumns at h
      split at h
      · split at h
        · cases h
        · split at h
          · cases h
          · obtain rfl := Except.ok.inj h
            exact ⟨rfl, rfl⟩
      · cases h
    obtain ⟨rfl, rfl⟩ := hframe
    exact ⟨⟨frame.close_isSome, frame.aligned, frame.increasing⟩, rfl, rfl⟩
  · rintro ⟨⟨hclose, haligned, hincreasing⟩, hdates, hcolumns⟩
    unfold Frame.ofColumns
    rw [dif_pos hclose]
    split
    · next error herror =>
        cases herror.symm.trans (firstMisaligned?_eq_none haligned Column.all)
    · split
      · next index hindex => cases hindex.symm.trans (firstUnordered?_eq_none hincreasing 0)
      · exact congrArg _ (frame_ext hdates.symm hcolumns.symm)

/-- Over days in a row nothing but the columns can keep a frame from being built. -/
theorem ofColumns_daily {first : Date} {count : Nat} {columns : Columns α} {frame : Frame α} :
    Frame.ofColumns (first.daily count) columns = .ok frame ↔
      ((columns .close).isSome ∧ columns.Aligned (first.daily count)) ∧
        frame.dates = first.daily count ∧ frame.columns = columns := by
  simp only [ofColumns_eq_ok, pairwise_daily, and_true]

end Backtest.Proofs.FrameColumns
