import Mathlib.Data.List.Perm.Basic
import Mathlib.Data.List.ReduceOption
import Backtest.Proofs.Outcome
import Backtest.Proofs.PriceTable

namespace Backtest.Proofs.PriceReading

open Backtest.PriceFile
open Backtest.Text (trim)
open Backtest.Proofs.Outcome
open Backtest.Proofs.FrameColumns
open Backtest.Proofs.PriceTable

theorem mapM_eq_ok {α β ε : Type} {f : α → Except ε β} {xs : List α} {ys : List β} :
    xs.mapM f = .ok ys ↔ List.Forall₂ (fun x y => f x = .ok y) xs ys := by
  induction xs generalizing ys with
  | nil =>
      rw [List.mapM_nil, List.forall₂_nil_left_iff]
      exact ⟨fun h => (Except.ok.inj h).symm, fun h => congrArg _ h.symm⟩
  | cons x xs ih =>
      rw [List.mapM_cons, bind_eq_ok, List.forall₂_cons_left_iff]
      constructor
      · rintro ⟨y, hy, h⟩
        obtain ⟨rest, hrest, ⟨⟩⟩ := bind_eq_ok.mp h
        exact ⟨y, rest, hy, ih.mp hrest, rfl⟩
      · rintro ⟨y, rest, hy, hrest, rfl⟩
        exact ⟨y, hy, bind_eq_ok.mpr ⟨rest, ih.mpr hrest, rfl⟩⟩

theorem exists_of_mapM_eq_error {α β ε : Type} {f : α → Except ε β} {xs : List α} {error : ε}
    (h : xs.mapM f = .error error) : ∃ x ∈ xs, f x = .error error := by
  induction xs with
  | nil => cases h
  | cons x xs ih =>
      rw [List.mapM_cons] at h
      rcases bind_eq_error.mp h with hx | ⟨y, -, h⟩
      · exact ⟨x, List.mem_cons_self, hx⟩
      · rcases bind_eq_error.mp h with hxs | ⟨ys, -, h⟩
        · obtain ⟨x', hmem, hx'⟩ := ih hxs
          exact ⟨x', List.mem_cons_of_mem x hmem, hx'⟩
        · cases h

section Header

variable {header : Fields} {name : String} {index : Nat}

theorem fieldNamed?_eq_some : fieldNamed? header name = some index ↔ NamedAt header name index := by
  rw [fieldNamed?, List.findIdx?_eq_some_iff_getElem]
  constructor
  · rintro ⟨hindex, hnames, hfirst⟩
    refine ⟨⟨header[index], List.getElem?_eq_getElem hindex, beq_iff_eq.mp hnames⟩, ?_⟩
    intro earlier hearlier field hfield hfieldNames
    obtain ⟨hlt, rfl⟩ := List.getElem?_eq_some_iff.mp hfield
    exact hfirst earlier hearlier (beq_iff_eq.mpr hfieldNames)
  · rintro ⟨⟨field, hfield, hnames⟩, hfirst⟩
    obtain ⟨hindex, rfl⟩ := List.getElem?_eq_some_iff.mp hfield
    refine ⟨hindex, beq_iff_eq.mpr hnames, fun earlier hearlier hearlierNames => ?_⟩
    exact hfirst earlier hearlier _ (List.getElem?_eq_getElem (Nat.lt_trans hearlier hindex))
      (beq_iff_eq.mp hearlierNames)

theorem fieldNamed?_eq_none :
    fieldNamed? header name = none ↔ ∀ index, ¬NamedAt header name index := by
  rw [Option.eq_none_iff_forall_ne_some]
  exact forall_congr' fun index => not_congr fieldNamed?_eq_some

def named (header : Fields) : List (Column × Nat) :=
  Column.all.filterMap fun column =>
    (fieldNamed? header column.name).map fun index => (column, index)

theorem mem_named {column : Column} :
    (column, index) ∈ named header ↔ NamedAt header column.name index := by
  rw [named, List.mem_filterMap]
  constructor
  · rintro ⟨column', -, h⟩
    obtain ⟨index', hindex, ⟨⟩⟩ := Option.map_eq_some_iff.mp h
    exact fieldNamed?_eq_some.mp hindex
  · intro h
    exact ⟨column, column.mem_all, by rw [fieldNamed?_eq_some.mpr h, Option.map_some]⟩

theorem lookup_named (header : Fields) (column : Column) :
    (named header).lookup column = fieldNamed? header column.name := by
  cases hlookup : (named header).lookup column with
  | none =>
      refine (fieldNamed?_eq_none.mpr fun index hnamed => ?_).symm
      have hother := List.lookup_eq_none_iff.mp hlookup _ (mem_named.mpr hnamed)
      exact bne_iff_ne.mp hother rfl
  | some index =>
      obtain ⟨before, after, hsplit, -⟩ := List.lookup_eq_some_iff.mp hlookup
      have hmem : (column, index) ∈ named header :=
        hsplit ▸ List.mem_append_right before List.mem_cons_self
      exact (fieldNamed?_eq_some.mpr (mem_named.mp hmem)).symm

theorem ofHeader_eq_ok {layout : Layout} :
    Layout.ofHeader header = .ok layout ↔ NamedAt header "date" layout.date ∧
      (∃ index, NamedAt header "close" index) ∧ layout.columns = named header := by
  have hclose : (named header).any (fun slot => slot.1 == .close) = true ↔
      ∃ index, NamedAt header "close" index := by
    rw [List.any_eq_true]
    constructor
    · rintro ⟨⟨column, index⟩, hmem, hcolumn⟩
      obtain rfl : column = .close := beq_iff_eq.mp hcolumn
      exact ⟨index, mem_named.mp hmem⟩
    · rintro ⟨index, hindex⟩
      exact ⟨(.close, index), mem_named.mpr hindex, rfl⟩
  rw [Layout.ofHeader]
  split
  · next hdate =>
      exact ⟨nofun, fun h => absurd h.1 (fieldNamed?_eq_none.mp hdate _)⟩
  · next date hdate =>
      have hnamed := fieldNamed?_eq_some.mp hdate
      change (if (named header).any (fun slot => slot.1 == .close) = true
        then .ok ⟨date, named header⟩ else _ : Except PriceError Layout) = _ ↔ _
      split
      · next hany =>
          constructor
          · rintro ⟨⟩
            exact ⟨hnamed, hclose.mp hany, rfl⟩
          · rintro ⟨hdate', -, hcolumns⟩
            obtain ⟨date', columns⟩ := layout
            obtain rfl := hnamed.unique hdate'
            obtain rfl : columns = named header := hcolumns
            rfl
      · next hany => exact ⟨nofun, fun h => absurd (hclose.mpr h.2.1) hany⟩

end Header

section Row

variable {layout : Layout} {range : DateRange} {fields : Fields}

/-- The entry is the number of a row in the slot of a column. -/
def Holds (fields : Fields) (slot : Column × Nat) (entry : Column × Float) : Prop :=
  entry.1 = slot.1 ∧ NumberAt slot.2 fields entry.2 ∧ IsPrice slot.1 entry.2

/-- The date and the numbers of a row, as a layout finds them. -/
def RowAt (layout : Layout) (fields : Fields) (row : Row) : Prop :=
  DateAt layout.date fields row.date ∧ List.Forall₂ (Holds fields) layout.columns row.values

/-- A row gives its values if its date is in a range, and nothing if its date is not. -/
def Reads (layout : Layout) (range : DateRange) (fields : Fields) : Option Row → Prop
  | some row => RowAt layout fields row ∧ Within range row.date
  | none => ∃ date, DateAt layout.date fields date ∧ ¬Within range date

theorem getD_iff {index : Nat} {p : List Char → Prop} (hempty : ¬p []) :
    p (fields.getD index []) ↔ ∃ field, fields[index]? = some field ∧ p field := by
  rw [List.getD_eq_getElem?_getD]
  cases hfield : fields[index]? with
  | none => exact ⟨fun hp => absurd hp hempty, nofun⟩
  | some field =>
      exact ⟨fun hp => ⟨field, rfl, hp⟩, fun ⟨_, hsome, hp⟩ => Option.some.inj hsome ▸ hp⟩

theorem dateAt_iff {index : Nat} {date : Date} :
    Date.read (trim (fields.getD index [])) = .ok date ↔ DateAt index fields date :=
  getD_iff (p := fun field => Date.read (trim field) = .ok date) nofun

theorem numberAt_iff {index : Nat} {value : Float} :
    readNumeral (trim (fields.getD index [])) = .ok value ↔ NumberAt index fields value :=
  getD_iff (p := fun field => readNumeral (trim field) = .ok value) nofun

theorem readValue_eq_ok {line : Nat} {column : Column} {field : List Char} {value : Float} :
    readValue line column field = .ok value ↔
      readNumeral (trim field) = .ok value ∧ IsPrice column value := by
  rw [readValue, IsPrice]
  split
  · next error herror => exact ⟨nofun, fun h => nomatch herror.symm.trans h.1⟩
  · next number hnumber =>
      rw [hnumber, Except.ok.injEq]
      cases hfinite : number.isFinite with
      | false =>
          refine ⟨nofun, fun h => ?_⟩
          obtain ⟨rfl, hfinite', -⟩ := h
          cases hfinite.symm.trans hfinite'
      | true =>
          by_cases hvolume : column = .volume ∧ number < 0
          · rw [if_pos hvolume]
            refine ⟨nofun, fun h => ?_⟩
            obtain ⟨rfl, -, hsign⟩ := h
            exact absurd hvolume.2 (hsign hvolume.1)
          · rw [if_neg hvolume]
            constructor
            · rintro ⟨⟩
              exact ⟨rfl, hfinite, fun hcolumn hsign => hvolume ⟨hcolumn, hsign⟩⟩
            · rintro ⟨rfl, -⟩
              rfl

theorem readValues_eq_ok {line : Nat} {slots : List (Column × Nat)}
    {values : List (Column × Float)} :
    (slots.mapM fun (column, index) => do
        return (column, ← readValue line column (fields.getD index []))) = .ok values ↔
      List.Forall₂ (Holds fields) slots values := by
  rw [mapM_eq_ok]
  refine iff_of_eq (congrArg (List.Forall₂ · slots values) (funext₂ fun slot entry => ?_))
  obtain ⟨column, index⟩ := slot
  obtain ⟨column', value⟩ := entry
  refine propext (bind_eq_ok.trans ?_)
  constructor
  · rintro ⟨value', hvalue, ⟨⟩⟩
    obtain ⟨hnumber, hprice⟩ := readValue_eq_ok.mp hvalue
    exact ⟨rfl, numberAt_iff.mp hnumber, hprice⟩
  · rintro ⟨hcolumn, hnumber, hprice⟩
    obtain rfl : column' = column := hcolumn
    exact ⟨value, readValue_eq_ok.mpr ⟨numberAt_iff.mpr hnumber, hprice⟩, rfl⟩

theorem readRow_eq_ok {record : Csv.Record} {row? : Option Row} :
    readRow layout range record = .ok row? ↔ Reads layout range record.fields row? := by
  refine bind_eq_ok.trans ?_
  constructor
  · rintro ⟨date, hdate, h⟩
    have hdate := dateAt_iff.mp (mapError_eq_ok.mp hdate)
    split at h
    · next hrange =>
        obtain ⟨values, hvalues, ⟨⟩⟩ := bind_eq_ok.mp h
        exact ⟨⟨hdate, readValues_eq_ok.mp hvalues⟩, contains_iff.mp hrange⟩
    · next hrange =>
        cases h
        exact ⟨date, hdate, fun hwithin => hrange (contains_iff.mpr hwithin)⟩
  · intro h
    cases row? with
    | none =>
        obtain ⟨date, hdate, hout⟩ := h
        refine ⟨date, mapError_eq_ok.mpr (dateAt_iff.mpr hdate), ?_⟩
        rw [if_neg fun hrange => hout (contains_iff.mp hrange)]
        rfl
    | some row =>
        obtain ⟨⟨hdate, hvalues⟩, hwithin⟩ := h
        refine ⟨row.date, mapError_eq_ok.mpr (dateAt_iff.mpr hdate), ?_⟩
        rw [if_pos (contains_iff.mpr hwithin)]
        exact bind_eq_ok.mpr ⟨row.values, readValues_eq_ok.mpr hvalues, rfl⟩

theorem exists_forall₂_iff {α β : Type} {r : α → β → Prop} {xs : List α} :
    (∃ ys, List.Forall₂ r xs ys) ↔ ∀ x ∈ xs, ∃ y, r x y := by
  induction xs with
  | nil => exact ⟨fun _ => nofun, fun _ => ⟨[], .nil⟩⟩
  | cons x xs ih =>
      rw [List.forall_mem_cons, ← ih]
      constructor
      · rintro ⟨_, hpairs⟩
        cases hpairs with
        | cons hy hys => exact ⟨⟨_, hy⟩, _, hys⟩
      · rintro ⟨⟨y, hy⟩, ys, hys⟩
        exact ⟨y :: ys, .cons hy hys⟩

theorem exists_reads_iff : (∃ row?, Reads layout range fields row?) ↔
    (∃ date, DateAt layout.date fields date) ∧ (InRange range layout.date fields →
      ∀ slot ∈ layout.columns, ∃ value, NumberAt slot.2 fields value ∧ IsPrice slot.1 value) := by
  constructor
  · rintro ⟨row?, hrow⟩
    cases row? with
    | none =>
        obtain ⟨date, hdate, hout⟩ := hrow
        exact ⟨⟨date, hdate⟩, fun hin => absurd ((inRange_iff hdate).mp hin) hout⟩
    | some row =>
        obtain ⟨⟨hdate, hvalues⟩, -⟩ := hrow
        refine ⟨⟨row.date, hdate⟩, fun _ slot hslot => ?_⟩
        obtain ⟨entry, -, hentry⟩ := exists_forall₂_iff.mp ⟨row.values, hvalues⟩ slot hslot
        exact ⟨entry.2, hentry⟩
  · rintro ⟨⟨date, hdate⟩, hprices⟩
    by_cases hwithin : Within range date
    · have hentries : ∀ slot ∈ layout.columns, ∃ entry, Holds fields slot entry := by
        intro slot hslot
        obtain ⟨value, hvalue⟩ := hprices ⟨date, hdate, hwithin⟩ slot hslot
        exact ⟨(slot.1, value), rfl, hvalue⟩
      obtain ⟨values, hvalues⟩ := exists_forall₂_iff.mpr hentries
      exact ⟨some ⟨date, values⟩, ⟨hdate, hvalues⟩, hwithin⟩
    · exact ⟨none, date, hdate, hwithin⟩

end Row

section Rows

variable {layout : Layout} {range : DateRange} {table : List Fields} {rows? : List (Option Row)}

theorem readRows_eq_ok {count : Nat} {records : List Csv.Record} {rows : List Row}
    (hequal : ∀ record ∈ records, record.fields.length = count) (index : Nat) :
    readRows layout range count index records = .ok rows ↔
      ∃ rows?, List.Forall₂ (Reads layout range) (records.map (·.fields)) rows? ∧
        rows?.reduceOption = rows := by
  induction records generalizing index rows with
  | nil =>
      constructor
      · rintro ⟨⟩
        exact ⟨[], .nil, rfl⟩
      · rintro ⟨rows?, hrows, rfl⟩
        cases hrows
        rfl
  | cons record records ih =>
      obtain ⟨hcount, hequal⟩ := List.forall_mem_cons.mp hequal
      rw [readRows, Csv.Record.unequal?, if_pos hcount]
      refine bind_eq_ok.trans ?_
      constructor
      · rintro ⟨row?, hrow, h⟩
        obtain ⟨rest, hrest, ⟨⟩⟩ := bind_eq_ok.mp h
        obtain ⟨rest?, hreads, rfl⟩ := (ih hequal (index + 1)).mp hrest
        refine ⟨row? :: rest?, .cons (readRow_eq_ok.mp hrow) hreads, ?_⟩
        cases row? <;> rfl
      · rintro ⟨rows?, hreads, rfl⟩
        cases hreads with
        | @cons _ row? _ rest? hrow hrest =>
            refine ⟨row?, readRow_eq_ok.mpr hrow, bind_eq_ok.mpr ⟨_, (ih hequal (index + 1)).mpr
              ⟨rest?, hrest, rfl⟩, ?_⟩⟩
            cases row? <;> rfl

/-- The rows read are those of the range. -/
theorem exists_partition (h : List.Forall₂ (Reads layout range) table rows?) :
    ∃ bars others, (bars ++ others).Perm table ∧ (∀ row ∈ bars, InRange range layout.date row) ∧
      (∀ row ∈ others, ¬InRange range layout.date row) ∧
      List.Forall₂ (RowAt layout) bars rows?.reduceOption := by
  induction h with
  | nil => exact ⟨[], [], .nil, nofun, nofun, .nil⟩
  | @cons fields row? table rows? hrow _ ih =>
      obtain ⟨bars, others, hperm, hbars, hothers, hrows⟩ := ih
      cases row? with
      | none =>
          obtain ⟨date, hdate, hout⟩ := hrow
          have hfields : ¬InRange range layout.date fields :=
            fun hin => hout ((inRange_iff hdate).mp hin)
          exact ⟨bars, fields :: others, List.perm_middle.trans (hperm.cons fields), hbars,
            List.forall_mem_cons.mpr ⟨hfields, hothers⟩, hrows⟩
      | some row =>
          obtain ⟨hrow, hwithin⟩ := hrow
          have hfields : InRange range layout.date fields := ⟨row.date, hrow.1, hwithin⟩
          exact ⟨fields :: bars, others, hperm.cons fields,
            List.forall_mem_cons.mpr ⟨hfields, hbars⟩, hothers, .cons hrow hrows⟩

theorem mem_dates_iff (h : List.Forall₂ (Reads layout range) table rows?) {date : Date} :
    date ∈ rows?.reduceOption.map Row.date ↔
      ∃ fields ∈ table, DateAt layout.date fields date ∧ Within range date := by
  induction h with
  | nil => exact ⟨nofun, nofun⟩
  | @cons fields row? table rows? hrow _ ih =>
      simp only [List.mem_cons, exists_eq_or_imp, ← ih]
      cases row? with
      | none =>
          obtain ⟨date', hdate', hout⟩ := hrow
          refine ⟨.inr, ?_⟩
          rintro (⟨hdate, hwithin⟩ | hmem)
          · exact absurd (hdate.unique hdate' ▸ hwithin) hout
          · exact hmem
      | some row =>
          obtain ⟨⟨hdate', -⟩, hwithin'⟩ := hrow
          rw [List.reduceOption_cons_of_some, List.map_cons, List.mem_cons]
          refine or_congr ?_ Iff.rfl
          constructor
          · rintro rfl
            exact ⟨hdate', hwithin'⟩
          · rintro ⟨hdate, -⟩
            exact hdate.unique hdate'

theorem nodup_dates_iff (h : List.Forall₂ (Reads layout range) table rows?) :
    (rows?.reduceOption.map Row.date).Nodup ↔ table.Pairwise fun fields fields' =>
      ∀ date, DateAt layout.date fields date → DateAt layout.date fields' date →
        ¬Within range date := by
  induction h with
  | nil => exact ⟨fun _ => .nil, fun _ => .nil⟩
  | @cons fields row? table rows? hrow hrest ih =>
      rw [List.pairwise_cons, ← ih]
      cases row? with
      | none =>
          obtain ⟨date', hdate', hout⟩ := hrow
          refine ⟨fun hnodup => ⟨fun _ _ date hdate _ => ?_, hnodup⟩, And.right⟩
          exact hdate'.unique hdate ▸ hout
      | some row =>
          obtain ⟨⟨hdate', -⟩, -⟩ := hrow
          rw [List.reduceOption_cons_of_some, List.map_cons, List.nodup_cons, mem_dates_iff hrest]
          refine and_congr_left' ?_
          constructor
          · intro hnone fields' hmem date hdate hshared hwithin
            obtain rfl := hdate'.unique hdate
            exact hnone ⟨fields', hmem, hshared, hwithin⟩
          · rintro hapart ⟨fields', hmem, hshared, hwithin⟩
            exact hapart fields' hmem row.date hdate' hshared hwithin

end Rows

section Sorted

variable {rows : List Row}

def sorted (rows : List Row) : List Row :=
  rows.mergeSort fun a b => decide (a.date ≤ b.date)

theorem sorted_perm (rows : List Row) : (sorted rows).Perm rows := List.mergeSort_perm rows _

theorem sorted_pairwise (rows : List Row) : (sorted rows).Pairwise fun a b => a.date ≤ b.date := by
  refine (List.pairwise_mergeSort ?_ ?_ rows).imp of_decide_eq_true
  · intro a b c hab hbc
    exact decide_eq_true (Int.le_trans (of_decide_eq_true hab) (of_decide_eq_true hbc))
  · intro a b
    rw [Bool.or_eq_true, decide_eq_true_iff, decide_eq_true_iff]
    exact Int.le_total a.date.rank b.date.rank

theorem pairwise_of_firstDuplicate?_eq_none (hsorted : rows.Pairwise fun a b => a.date ≤ b.date)
    (h : firstDuplicate? rows = none) : (rows.map Row.date).Pairwise (· < ·) := by
  induction rows with
  | nil => exact .nil
  | cons a rest ih =>
      cases rest with
      | nil => exact List.pairwise_singleton _ _
      | cons b rest =>
          obtain ⟨hfirst, hsorted⟩ := List.pairwise_cons.mp hsorted
          rw [firstDuplicate?] at h
          split at h
          · cases h
          · next hne =>
              have hrest := ih hsorted h
              have hlt : a.date < b.date := lt_of_le_of_ne (hfirst b List.mem_cons_self) hne
              refine .cons (List.forall_mem_cons.mpr ⟨hlt, fun date hdate => ?_⟩) hrest
              exact Int.lt_trans hlt ((List.pairwise_cons.mp hrest).1 date hdate)

theorem firstDuplicate?_eq_none (h : (rows.map Row.date).Nodup) : firstDuplicate? rows = none := by
  induction rows with
  | nil => rfl
  | cons a rest ih =>
      cases rest with
      | nil => rfl
      | cons b rest =>
          obtain ⟨hfirst, hrest⟩ := List.nodup_cons.mp h
          have hne : a.date ≠ b.date := fun heq => hfirst (heq ▸ List.mem_cons_self)
          rw [firstDuplicate?, if_neg hne]
          exact ih hrest

theorem firstDuplicate?_sorted :
    firstDuplicate? (sorted rows) = none ↔ (rows.map Row.date).Nodup := by
  rw [← ((sorted_perm rows).map Row.date).nodup_iff]
  refine ⟨fun h => ?_, firstDuplicate?_eq_none⟩
  refine (pairwise_of_firstDuplicate?_eq_none (sorted_pairwise rows) h).imp ?_
  rintro date _ hlt rfl
  exact Int.lt_irrefl date.rank hlt

end Sorted

section Columns

variable {layout : Layout} {fields : Fields} {bars : List Fields} {rows : List Row}
variable {column : Column} {index : Nat}

theorem exists_lookup {slots : List (Column × Nat)} {entries : List (Column × Float)}
    (h : List.Forall₂ (Holds fields) slots entries) (hindex : slots.lookup column = some index) :
    ∃ value, entries.lookup column = some value ∧ NumberAt index fields value := by
  induction h with
  | nil => cases hindex
  | @cons slot entry slots entries hentry _ ih =>
      obtain ⟨slotColumn, slotIndex⟩ := slot
      obtain ⟨entryColumn, value⟩ := entry
      obtain ⟨hsame, hnumber, -⟩ := hentry
      obtain rfl : entryColumn = slotColumn := hsame
      rw [List.lookup_cons] at hindex ⊢
      by_cases hcolumn : column == entryColumn
      · rw [hcolumn] at hindex ⊢
        obtain rfl := Option.some.inj hindex
        exact ⟨value, rfl, hnumber⟩
      · rw [Bool.not_eq_true] at hcolumn
        rw [hcolumn] at hindex ⊢
        exact ih hindex

theorem columnsOf_eq_some (h : List.Forall₂ (RowAt layout) bars rows)
    (hindex : layout.columns.lookup column = some index) :
    ∃ values, columnsOf layout rows column = some values ∧
      List.Forall₂ (NumberAt index) bars values := by
  rw [columnsOf, hindex, Option.bind_some]
  induction h with
  | nil => exact ⟨[], rfl, .nil⟩
  | cons hrow _ ih =>
      obtain ⟨value, hvalue, hnumber⟩ := exists_lookup hrow.2 hindex
      obtain ⟨values, hvalues, hnumbers⟩ := ih
      refine ⟨value :: values, ?_, .cons hnumber hnumbers⟩
      rw [List.mapM_cons, hvalue, hvalues]
      rfl

theorem columnsOf_eq_none (h : layout.columns.lookup column = none) :
    columnsOf layout rows column = none := by
  rw [columnsOf, h, Option.bind_none]

end Columns

end Backtest.Proofs.PriceReading
