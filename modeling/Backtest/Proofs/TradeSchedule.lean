import Backtest.Trading

/-!
Trades as a greedy schedule. From a start index, the first eligible entry and the first exit after
it make a trade, and the schedule goes on behind that exit; a position without an exit is sold on
the last bar. The trades of a frame are exactly its schedule from index 0.
-/

namespace Backtest.Proofs.TradeSchedule

/-- Whether a signal holds at an index, which it does not past its end. -/
def Holds (signal : List Bool) (index : Nat) : Prop := signal.getD index false = true

instance (signal : List Bool) (index : Nat) : Decidable (Holds signal index) :=
  inferInstanceAs (Decidable (_ = true))

def NoneIn (signal : List Bool) (start stop : Nat) : Prop :=
  ∀ index, start ≤ index → index < stop → ¬ Holds signal index

/-- The index is the least one from `start` on and before `stop` at which a signal holds. -/
structure FirstIn (signal : List Bool) (start stop index : Nat) : Prop where
  start_le : start ≤ index
  lt_stop : index < stop
  holds : Holds signal index
  none_before : NoneIn signal start index

theorem noneIn_of_le {signal : List Bool} {start stop : Nat} (h : stop ≤ start) :
    NoneIn signal start stop := by
  intro index hstart hstop
  omega

theorem NoneIn.cons {signal : List Bool} {start stop : Nat}
    (hstart : start < stop → ¬ Holds signal start) (h : NoneIn signal (start + 1) stop) :
    NoneIn signal start stop := by
  intro index hle hlt
  rcases Nat.eq_or_lt_of_le hle with rfl | hlt'
  · exact hstart hlt
  · exact h index hlt' hlt

theorem NoneIn.mono {signal : List Bool} {start start' stop stop' : Nat}
    (h : NoneIn signal start stop) (hstart : start ≤ start') (hstop : stop' ≤ stop) :
    NoneIn signal start' stop' :=
  fun index hle hlt => h index (Nat.le_trans hstart hle) (Nat.lt_of_lt_of_le hlt hstop)

theorem firstIn_self {signal : List Bool} {start stop : Nat} (hlt : start < stop)
    (hstart : Holds signal start) : FirstIn signal start stop start :=
  ⟨Nat.le_refl _, hlt, hstart, noneIn_of_le (Nat.le_refl _)⟩

theorem FirstIn.cons {signal : List Bool} {start stop index : Nat}
    (hstart : start < stop → ¬ Holds signal start)
    (h : FirstIn signal (start + 1) stop index) : FirstIn signal start stop index :=
  ⟨Nat.le_of_succ_le h.start_le, h.lt_stop, h.holds,
    h.none_before.cons fun hlt => hstart (Nat.lt_trans hlt h.lt_stop)⟩

theorem FirstIn.le_of_holds {signal : List Bool} {start stop first index : Nat}
    (h : FirstIn signal start stop first) (hstart : start ≤ index)
    (hholds : Holds signal index) : first ≤ index :=
  Nat.le_of_not_lt fun hlt => h.none_before index hstart hlt hholds

theorem FirstIn.not_noneIn {signal : List Bool} {start stop index : Nat}
    (h : FirstIn signal start stop index) : ¬ NoneIn signal start stop :=
  fun hnone => hnone index h.start_le h.lt_stop h.holds

theorem FirstIn.unique {signal : List Bool} {start stop index index' : Nat}
    (h : FirstIn signal start stop index) (h' : FirstIn signal start stop index') :
    index = index' :=
  Nat.le_antisymm (h.le_of_holds h'.start_le h'.holds) (h'.le_of_holds h.start_le h.holds)

theorem holds_take {signal : List Bool} {count index : Nat} :
    Holds (signal.take count) index ↔ index < count ∧ Holds signal index := by
  rw [Holds, Holds, List.getD_eq_getElem?_getD, List.getD_eq_getElem?_getD, List.getElem?_take]
  by_cases hlt : index < count
  · simp [hlt]
  · simp [hlt]

theorem NoneIn.take {signal : List Bool} {start stop : Nat} (h : NoneIn signal start stop)
    (count : Nat) : NoneIn (signal.take count) start stop :=
  fun index hle hlt hholds => h index hle hlt (holds_take.mp hholds).2

theorem FirstIn.take {signal : List Bool} {start stop stop' count index : Nat}
    (h : FirstIn signal start stop index) (hlt : index < stop') (hle : stop' ≤ count) :
    FirstIn (signal.take count) start stop' index :=
  ⟨h.start_le, hlt, holds_take.mpr ⟨Nat.lt_of_lt_of_le hlt hle, h.holds⟩, h.none_before.take count⟩

variable {α : Type}

def dateAt (frame : Frame α) (bar : Fin frame.size) : Date := frame.dates.get bar

def priceAt (frame : Frame α) (bar : Fin frame.size) : α :=
  frame.close.get (bar.cast frame.length_close.symm)

/-- The bar at the index has the date and the closing price. -/
def ClosesAt (frame : Frame α) (index : Nat) (date : Date) (price : α) : Prop :=
  frame.dates[index]? = some date ∧
    ∃ closes, frame.columns .close = some closes ∧ closes[index]? = some price

theorem closesAt (frame : Frame α) (bar : Fin frame.size) :
    ClosesAt frame bar (dateAt frame bar) (priceAt frame bar) :=
  ⟨List.getElem?_eq_getElem _, frame.close, (Option.some_get frame.close_isSome).symm,
    List.getElem?_eq_getElem _⟩

def positionAt (frame : Frame α) (bar : Fin frame.size) : Position α :=
  ⟨bar, dateAt frame bar, priceAt frame bar⟩

variable [Scalar α]

/-- The trade bought at the close of one bar and sold at the close of another. -/
def tradeBetween (frame : Frame α) (opened closed : Fin frame.size) (forced : Bool) : Trade α where
  entryIndex := opened
  entryDate := dateAt frame opened
  entryPrice := priceAt frame opened
  exitIndex := closed
  exitDate := dateAt frame closed
  exitPrice := priceAt frame closed
  profit := priceAt frame closed - priceAt frame opened
  gain :=
    if Scalar.lt Scalar.zero (priceAt frame opened) then
      (priceAt frame closed - priceAt frame opened) / priceAt frame opened
    else Scalar.zero
  forced := forced

theorem close_positionAt (frame : Frame α) (opened closed : Fin frame.size) (forced : Bool) :
    (positionAt frame opened).close closed (dateAt frame closed) (priceAt frame closed) forced =
      tradeBetween frame opened closed forced :=
  rfl

/-- The greedy schedule of a frame from a start index on. An entry on the last bar does not count,
since no bar is left to sell on. -/
inductive Schedule (frame : Frame α) (entry exit : List Bool) : Nat → List (Trade α) → Prop
  | done {start : Nat} (hentry : NoneIn entry start (frame.size - 1)) :
      Schedule frame entry exit start []
  | closed {start : Nat} {opened closed : Fin frame.size} {rest : List (Trade α)}
      (hentry : FirstIn entry start (frame.size - 1) opened)
      (hexit : FirstIn exit (opened + 1) frame.size closed)
      (hrest : Schedule frame entry exit (closed + 1) rest) :
      Schedule frame entry exit start (tradeBetween frame opened closed false :: rest)
  | forced {start : Nat} {opened last : Fin frame.size}
      (hentry : FirstIn entry start (frame.size - 1) opened)
      (hexit : NoneIn exit (opened + 1) frame.size) (hlast : last + 1 = frame.size) :
      Schedule frame entry exit start [tradeBetween frame opened last true]

theorem Schedule.unique {frame : Frame α} {entry exit : List Bool} {start : Nat}
    {trades trades' : List (Trade α)} (h : Schedule frame entry exit start trades)
    (h' : Schedule frame entry exit start trades') : trades = trades' := by
  induction h generalizing trades' with
  | done hentry =>
      cases h' with
      | done => rfl
      | closed hentry' => exact absurd hentry hentry'.not_noneIn
      | forced hentry' => exact absurd hentry hentry'.not_noneIn
  | closed hentry hexit _ ih =>
      cases h' with
      | done hentry' => exact absurd hentry' hentry.not_noneIn
      | closed hentry' hexit' hrest' =>
          obtain rfl := Fin.ext (hentry.unique hentry')
          obtain rfl := Fin.ext (hexit.unique hexit')
          rw [ih hrest']
      | forced hentry' hexit' =>
          obtain rfl := Fin.ext (hentry.unique hentry')
          exact absurd hexit' hexit.not_noneIn
  | forced hentry hexit hlast =>
      cases h' with
      | done hentry' => exact absurd hentry' hentry.not_noneIn
      | closed hentry' hexit' =>
          obtain rfl := Fin.ext (hentry.unique hentry')
          exact absurd hexit hexit'.not_noneIn
      | forced hentry' _ hlast' =>
          obtain rfl := Fin.ext (hentry.unique hentry')
          obtain rfl := Fin.ext (Nat.succ.inj (hlast.trans hlast'.symm))
          rfl

theorem Schedule.skip {frame : Frame α} {entry exit : List Bool} {start : Nat}
    {trades : List (Trade α)} (hstart : start < frame.size - 1 → ¬ Holds entry start)
    (h : Schedule frame entry exit (start + 1) trades) :
    Schedule frame entry exit start trades := by
  cases h with
  | done hentry => exact .done (hentry.cons hstart)
  | closed hentry hexit hrest => exact .closed (hentry.cons hstart) hexit hrest
  | forced hentry hexit hlast => exact .forced (hentry.cons hstart) hexit hlast

theorem Schedule.of_mem {frame : Frame α} {entry exit : List Bool} {start : Nat}
    {trades : List (Trade α)} (h : Schedule frame entry exit start trades) {trade : Trade α}
    (hmem : trade ∈ trades) :
    ∃ opened closed : Fin frame.size, ∃ forced : Bool,
      trade = tradeBetween frame opened closed forced ∧ start ≤ opened ∧ opened < closed.val ∧
        Holds entry opened ∧ NoneIn exit (opened + 1) closed ∧
        if forced then ¬ Holds exit closed ∧ closed + 1 = frame.size else Holds exit closed := by
  induction h with
  | done => simp at hmem
  | closed hentry hexit hrest ih =>
      rcases List.mem_cons.mp hmem with rfl | hmem
      · exact ⟨_, _, false, rfl, hentry.start_le, hexit.start_le, hentry.holds,
          hexit.none_before, by simpa using hexit.holds⟩
      · obtain ⟨opened, closed, forced, heq, hstart, hrest⟩ := ih hmem
        have := hentry.start_le
        have := hexit.start_le
        exact ⟨opened, closed, forced, heq, by omega, hrest⟩
  | @forced start opened last hentry hexit hlast =>
      obtain rfl := List.mem_singleton.mp hmem
      have hlt := hentry.lt_stop
      have hlt' : opened < last.val := by omega
      refine ⟨opened, last, true, rfl, hentry.start_le, hlt', hentry.holds,
        hexit.mono (Nat.le_refl _) (Nat.le_of_lt last.isLt), ?_⟩
      simpa using ⟨hexit last hlt' last.isLt, hlast⟩

theorem Schedule.pairwise {frame : Frame α} {entry exit : List Bool} {start : Nat}
    {trades : List (Trade α)} (h : Schedule frame entry exit start trades) :
    trades.Pairwise fun before after => before.exitIndex < after.entryIndex := by
  induction h with
  | done => exact List.Pairwise.nil
  | closed hentry hexit hrest ih =>
      refine List.pairwise_cons.mpr ⟨?_, ih⟩
      intro trade hmem
      obtain ⟨opened, closed, forced, rfl, hstart, -⟩ := hrest.of_mem hmem
      exact hstart
  | forced => exact List.pairwise_singleton _ _

theorem Schedule.forced_eq_false {frame : Frame α} {entry exit : List Bool} {start : Nat}
    {trades : List (Trade α)} (h : Schedule frame entry exit start trades) {trade : Trade α}
    (hmem : trade ∈ trades.dropLast) : trade.forced = false := by
  induction h with
  | done => simp at hmem
  | @closed start opened closed rest hentry hexit hrest ih =>
      cases rest with
      | nil => simp at hmem
      | cons next rest =>
          rcases List.mem_cons.mp hmem with rfl | hmem
          · rfl
          · exact ih hmem
  | forced => simp at hmem

/-- Every entry before the last bar opens a trade or falls within one. -/
theorem Schedule.exists_of_holds {frame : Frame α} {entry exit : List Bool} {start : Nat}
    {trades : List (Trade α)} (h : Schedule frame entry exit start trades) {index : Nat}
    (hstart : start ≤ index) (hlt : index < frame.size - 1) (hentry : Holds entry index) :
    ∃ trade ∈ trades, trade.entryIndex ≤ index ∧ index ≤ trade.exitIndex := by
  induction h with
  | done hnone => exact absurd hentry (hnone index hstart hlt)
  | @closed start opened closed rest hfirst hexit hrest ih =>
      have hopened : opened ≤ index := hfirst.le_of_holds hstart hentry
      by_cases hclosed : index ≤ closed
      · exact ⟨_, List.mem_cons_self, hopened, hclosed⟩
      · obtain ⟨trade, hmem, hspan⟩ := ih (Nat.lt_of_not_le hclosed)
        exact ⟨trade, List.mem_cons_of_mem _ hmem, hspan⟩
  | @forced start opened last hfirst hexit hlast =>
      have hopened : opened ≤ index := hfirst.le_of_holds hstart hentry
      have hclosed : index ≤ last := by omega
      exact ⟨_, List.mem_singleton_self _, hopened, hclosed⟩

end Backtest.Proofs.TradeSchedule
