import Backtest.Csv.Record
import Backtest.Csv.Table

namespace Backtest.Proofs.RecordText

open Backtest.Csv

variable {p p' : Partial} {field : List Char} {fields : List (List Char)}

def feed? (p : Partial) (chars : List Char) : Option Partial := chars.foldlM Partial.next? p

theorem feed?_append (p : Partial) (front back : List Char) :
    feed? p (front ++ back) = (feed? p front).bind fun next => feed? next back :=
  List.foldlM_append

theorem recordsFrom_append {chars : List Char} (h : feed? p chars = some p') (place : Place)
    (rest : List Char) :
    ∃ place', recordsFrom p place (chars ++ rest) = recordsFrom p' place' rest := by
  induction chars generalizing p place with
  | nil =>
      obtain rfl : p = p' := Option.some.inj h
      exact ⟨place, rfl⟩
  | cons c chars ih =>
      rw [feed?, List.foldlM_cons] at h
      obtain ⟨next, hnext, h⟩ := Option.bind_eq_some_iff.mp h
      obtain ⟨place', heq⟩ := ih h (place.after c)
      refine ⟨place', ?_⟩
      rw [List.cons_append, recordsFrom, hnext]
      exact heq

def AtField (p : Partial) : Prop := (p.mode = .before ∨ p.mode = .fieldStart) ∧ p.current = []

theorem needsQuotes_cons {c : Char} :
    needsQuotes (c :: field) = false ↔ needsQuotes [c] = false ∧ needsQuotes field = false := by
  simp [needsQuotes]

theorem next?_plain {c : Char} (hc : needsQuotes [c] = false)
    (hmode : p.mode = .before ∨ p.mode = .fieldStart ∨ p.mode = .field) :
    p.next? c = some (p.push .field c) := by
  simp [needsQuotes] at hc
  rcases hmode with hmode | hmode | hmode <;>
    simp [Partial.next?, Partial.unquoted?, isLineEnd, hmode, hc]

theorem feed?_plain (hfield : needsQuotes field = false)
    (hmode : p.mode = .before ∨ p.mode = .fieldStart ∨ p.mode = .field) :
    feed? p field = some { p with
      mode := if field = [] then p.mode else .field
      current := field.reverse ++ p.current } := by
  induction field generalizing p with
  | nil => rfl
  | cons c field ih =>
      obtain ⟨hc, hrest⟩ := needsQuotes_cons.mp hfield
      rw [feed?, List.foldlM_cons, next?_plain hc hmode]
      change feed? (p.push .field c) field = _
      rw [ih hrest (.inr (.inr rfl))]
      simp [Partial.push]

theorem feed?_doubleQuotes (hmode : p.mode = .quoted) (field : List Char) :
    feed? p (doubleQuotes field) = some { p with current := field.reverse ++ p.current } := by
  induction field generalizing p with
  | nil => rfl
  | cons c field ih =>
      have hfirst : feed? p (if c = '"' then ['"', '"'] else [c]) = some (p.push .quoted c) := by
        split
        · next hc => simp [feed?, Partial.next?, Partial.push, hmode, hc]
        · next hc => simp [feed?, Partial.next?, hmode, hc]
      rw [doubleQuotes, List.flatMap_cons, feed?_append, hfirst, Option.bind_some]
      change feed? (p.push .quoted c) (doubleQuotes field) = _
      rw [ih rfl]
      simp [Partial.push, hmode]

/-- What has been read of a text since an earlier state ends outside quotes. It has not come to the
record yet only if the text is empty. -/
structure AtEnd (p : Partial) (text : List Char) (p' : Partial) : Prop where
  outside : p'.mode ≠ .quoted
  begun : p'.mode = .before → p.mode = .before ∧ text = []

theorem feed?_fieldText (hp : AtField p) (field : List Char) :
    ∃ p', feed? p (fieldText field) = some p' ∧ AtEnd p (fieldText field) p' ∧
      p'.fields = p.fields ∧ p'.current = field.reverse := by
  obtain ⟨hmode, hcurrent⟩ := hp
  cases hquotes : needsQuotes field with
  | false =>
      have htext : fieldText field = field := by rw [fieldText, if_neg (by simp [hquotes])]
      have hfeed := feed?_plain (p := p) hquotes (hmode.imp_right .inl)
      rw [htext]
      refine ⟨_, hfeed, ⟨?_, ?_⟩, rfl, by simp [hcurrent]⟩
      · rcases hmode with hmode | hmode <;> by_cases hempty : field = [] <;> simp [hmode, hempty]
      · by_cases hempty : field = [] <;> simp [hempty]
  | true =>
      have htext : fieldText field = '"' :: (doubleQuotes field ++ ['"']) := by
        rw [fieldText, if_pos hquotes, List.cons_append]
      have hopen : p.next? '"' = some { p with mode := .quoted } := by
        rcases hmode with hmode | hmode <;> simp [Partial.next?, isLineEnd, hmode]
      have hfeed : feed? p (fieldText field) =
          some { p with mode := .quoteInQuoted, current := field.reverse } := by
        rw [htext, feed?, List.foldlM_cons, hopen]
        change feed? { p with mode := .quoted } (doubleQuotes field ++ ['"']) = _
        rw [feed?_append, feed?_doubleQuotes rfl, Option.bind_some]
        simp [feed?, Partial.next?, hcurrent]
      exact ⟨_, hfeed, ⟨nofun, nofun⟩, rfl, rfl⟩

theorem next?_comma (hp : p.mode ≠ .quoted) : p.next? ',' = some p.endField := by
  cases hmode : p.mode <;> simp [Partial.next?, Partial.unquoted?, isLineEnd, hmode] at hp ⊢

theorem next?_lineFeed (hp : p.mode ≠ .quoted) (hbegun : p.mode ≠ .before) :
    p.next? '\n' = none := by
  cases hmode : p.mode <;> simp [Partial.next?, Partial.unquoted?, isLineEnd, hmode] at hp hbegun ⊢

theorem feed?_joined (hp : AtField p) (hfields : fields ≠ []) :
    ∃ p', feed? p (joined fields) = some p' ∧ AtEnd p (joined fields) p' ∧
      p'.record.fields = p.fields.reverse ++ fields := by
  induction fields generalizing p with
  | nil => exact absurd rfl hfields
  | cons field rest ih =>
      obtain ⟨next, hfeed, hend, hdone, hcurrent⟩ := feed?_fieldText hp field
      have hfinished : next.endField.fields = field :: p.fields := by
        simp [Partial.endField, hdone, hcurrent]
      cases rest with
      | nil =>
          refine ⟨next, hfeed, hend, ?_⟩
          rw [Partial.record, hfinished, List.reverse_cons]
      | cons field' rest =>
          obtain ⟨p', hfeed', hend', hrecord⟩ := ih (p := next.endField) ⟨.inr rfl, rfl⟩ nofun
          refine ⟨p', ?_, ⟨hend'.outside, fun hbefore => ?_⟩, ?_⟩
          · rw [joined, feed?_append, hfeed, Option.bind_some, feed?, List.foldlM_cons,
              next?_comma hend.outside]
            · exact hfeed'
            · exact nofun
          · exact nomatch (hend'.begun hbefore).1
          · rw [hrecord, hfinished, List.reverse_cons, List.append_assoc]
            rfl

theorem eq_singleton_of_joined_eq_nil (hfields : fields ≠ []) (h : joined fields = []) :
    fields = [[]] := by
  match fields, hfields with
  | [field], _ =>
      rw [joined, fieldText] at h
      split at h
      · exact nomatch h
      · rw [h]
  | field :: field' :: rest, _ =>
      rw [joined] at h
      · exact absurd (List.append_eq_nil_iff.mp h).2 nofun
      · exact nofun

theorem recordsFrom_recordText (hfields : fields ≠ []) (start place : Place) (rest : List Char) :
    ∃ record start' place', record.fields = fields ∧
      recordsFrom { start } place (recordText fields ++ rest) =
        record :: recordsFrom { start := start' } place' rest := by
  obtain ⟨line, hline⟩ : ∃ line, line = if joined fields = [] then ['"', '"'] else joined fields :=
    ⟨_, rfl⟩
  have hread : ∃ p, feed? { start } line = some p ∧ p.mode ≠ .quoted ∧ p.mode ≠ .before ∧
      p.record.fields = fields := by
    by_cases hempty : joined fields = []
    · obtain rfl := eq_singleton_of_joined_eq_nil hfields hempty
      rw [hline, if_pos hempty]
      exact ⟨_, rfl, nofun, nofun, rfl⟩
    · obtain ⟨p, hfeed, hend, hrecord⟩ := feed?_joined (p := { start }) ⟨.inl rfl, rfl⟩ hfields
      rw [hline, if_neg hempty]
      exact ⟨p, hfeed, hend.outside, fun hbefore => hempty (hend.begun hbefore).2, hrecord⟩
  obtain ⟨p, hfeed, houtside, hbegun, hrecord⟩ := hread
  obtain ⟨place', heq⟩ := recordsFrom_append hfeed place ('\n' :: rest)
  refine ⟨p.record, place'.after '\n', place'.after '\n', hrecord, ?_⟩
  rw [recordText, ← hline, List.append_assoc, List.singleton_append, heq, recordsFrom,
    next?_lineFeed houtside hbegun]

theorem fields_recordsFrom {rows : List (List (List Char))} (hrows : ∀ row ∈ rows, row ≠ [])
    (start place : Place) :
    (recordsFrom { start } place (rows.map recordText).flatten).map Record.fields = rows := by
  induction rows generalizing start place with
  | nil => rfl
  | cons row rows ih =>
      obtain ⟨hrow, hrest⟩ := List.forall_mem_cons.mp hrows
      obtain ⟨record, start', place', hfields, heq⟩ :=
        recordsFrom_recordText hrow start place (rows.map recordText).flatten
      rw [List.map_cons, List.flatten_cons, heq, List.map_cons, hfields, ih hrest]

/-- The records of a written table are those it was written from. -/
theorem fields_records_tableText {rows : List (List String)} (hrows : ∀ row ∈ rows, row ≠ [])
    (hmark : (tableText rows).toList.head? ≠ some '\ufeff') :
    (records (tableText rows)).map Record.fields = rows.map (List.map String.toList) := by
  have htext : (tableText rows).toList =
      ((rows.map (List.map String.toList)).map recordText).flatten := by
    rw [tableText, String.toList_ofList, List.map_map]
    rfl
  have hrows' : ∀ row ∈ rows.map (List.map String.toList), row ≠ [] := by
    simpa using hrows
  unfold records
  dsimp only
  split
  · next hmarked =>
      rw [hmarked] at hmark
      exact absurd rfl hmark
  · rw [htext]
    exact fields_recordsFrom hrows' _ _

end Backtest.Proofs.RecordText
