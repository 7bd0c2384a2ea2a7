import Backtest.Proofs.Checked.Scan

namespace Backtest.Proofs.Checked

open Backtest.Text
open Backtest.Proofs.Spelling

/-- The byte of the last character of a text that satisfies a condition. -/
def lastByte? (p : Char → Bool) : List Char → Option Nat
  | [] => none
  | c :: rest =>
    match lastByte? p rest with
    | some byte => some (c.utf8Size + byte)
    | none => if p c then some 0 else none

def caretBelow (line : List Char) (column : Nat) (message : String) : String :=
  String.ofList line ++ "\n" ++ String.ofList (List.replicate column ' ') ++ "^\n" ++ message

/-- The line around a byte, with a caret and a message below it. A byte past the end counts as the
end. -/
def pointAt (text : List Char) (byte : Nat) (message : String) : Option String := do
  let byte := min byte (byteLength text)
  let before ← textBefore text byte
  let first := match lastByte? (· == '\n') before with
    | some feed => feed + 1
    | none => 0
  let last ← passWhile (· != '\n') text byte
  let line ← textBetween text first last
  let margin ← textBetween text first byte
  return caretBelow line margin.length message

/-- A text cut inside a line, into the lines above, the two parts of the line, and the lines
below. -/
structure Cut (text above start finish below : List Char) : Prop where
  text_eq : text = above ++ start ++ (finish ++ below)
  above_ends : ∀ c ∈ above.getLast?, c = '\n'
  start_line : ∀ c ∈ start, c ≠ '\n'
  finish_line : ∀ c ∈ finish, c ≠ '\n'
  below_begins : ∀ c ∈ below.head?, c = '\n'

section Cut

variable {p : Char → Bool} {text rest above start finish below : List Char} {byte : Nat}

theorem lastByte?_eq_none (h : ∀ c ∈ text, p c = false) : lastByte? p text = none := by
  induction text with
  | nil => rfl
  | cons c text ih =>
      obtain ⟨hc, htext⟩ := List.forall_mem_cons.mp h
      rw [lastByte?, ih htext]
      exact if_neg (Bool.eq_false_iff.mp hc)

theorem lastByte?_append_cons {c : Char} (hc : p c = true) (h : ∀ c ∈ rest, p c = false)
    (front : List Char) : lastByte? p (front ++ c :: rest) = some (byteLength front) := by
  induction front with
  | nil =>
      rw [List.nil_append, lastByte?, lastByte?_eq_none h]
      exact if_pos hc
  | cons d front ih =>
      rw [List.cons_append, lastByte?, ih]
      rfl

theorem exists_line (text : List Char) : ∃ line others, text = line ++ others ∧
    (∀ c ∈ line, c ≠ '\n') ∧ ∀ c ∈ others.head?, c = '\n' := by
  refine ⟨text.takeWhile (· != '\n'), text.dropWhile (· != '\n'),
    List.takeWhile_append_dropWhile.symm, fun c hc => ?_, fun c hc => ?_⟩
  · have hpass := List.mem_takeWhile_imp hc
    exact bne_iff_ne.mp hpass
  · have hstop := List.head?_dropWhile_not (· != '\n') text
    rw [Option.mem_def.mp hc] at hstop
    exact bne_eq_false_iff_eq.mp hstop

/-- Every boundary of a text cuts it inside a line. -/
theorem exists_cut (h : At text byte rest) : ∃ above start finish below,
    Cut text above start finish below ∧ byte = byteLength (above ++ start) ∧
      rest = finish ++ below := by
  obtain ⟨before, rfl, rfl⟩ := h
  obtain ⟨finish, below, rfl, hfinish, hbelow⟩ := exists_line rest
  -- the part of the line before the boundary is found backwards
  obtain ⟨start, above, hbefore, hstart, habove⟩ := exists_line before.reverse
  obtain rfl : before = above.reverse ++ start.reverse := by
    rw [← List.reverse_append, ← hbefore, List.reverse_reverse]
  refine ⟨_, _, finish, below, ⟨rfl, ?_, ?_, hfinish, hbelow⟩, rfl, rfl⟩
  · rw [List.getLast?_reverse]
    exact habove
  · exact fun c hc => hstart c (List.mem_reverse.mp hc)

theorem splitAtByte_append (front rest : List Char) :
    splitAtByte (byteLength front) (front ++ rest) = (front, rest) := by
  induction front with
  | nil => cases rest <;> rfl
  | cons c front ih =>
      obtain ⟨byte, hbyte⟩ := exists_byteLength_cons c front
      rw [hbyte, List.cons_append, splitAtByte, ← hbyte, byteLength, Nat.add_sub_cancel_left, ih]

theorem Cut.takeWhile_finish (h : Cut text above start finish below) :
    (finish ++ below).takeWhile (· != '\n') = finish :=
  (takeWhile_append_of_stops (fun c hc => bne_iff_ne.mpr (h.finish_line c hc))
    (fun c hc => bne_eq_false_iff_eq.mpr (h.below_begins c hc))).1

theorem Cut.takeWhile_start (h : Cut text above start finish below) :
    ((above ++ start).reverse.takeWhile (· != '\n')).reverse = start := by
  rw [List.reverse_append, (takeWhile_append_of_stops _ _).1, List.reverse_reverse]
  · intro c hc
    exact bne_iff_ne.mpr (h.start_line c (List.mem_reverse.mp hc))
  · intro c hc
    rw [List.head?_reverse] at hc
    exact bne_eq_false_iff_eq.mpr (h.above_ends c hc)

theorem Cut.text_pointAt {text : String} (h : Cut text.toList above start finish below)
    (message : String) : Text.pointAt text (byteLength (above ++ start)) message =
      caretBelow (start ++ finish) start.length message := by
  rw [Text.pointAt, h.text_eq, splitAtByte_append]
  dsimp only
  rw [h.takeWhile_start, h.takeWhile_finish, caretBelow]

theorem Cut.lineStart (h : Cut text above start finish below) :
    (match lastByte? (· == '\n') (above ++ start) with
      | some feed => feed + 1
      | none => 0) = byteLength above := by
  have hstart : ∀ c ∈ start, (c == '\n') = false := fun c hc =>
    beq_eq_false_iff_ne.mpr (h.start_line c hc)
  rcases List.eq_nil_or_concat' above with rfl | ⟨lines, feed, rfl⟩
  · rw [List.nil_append, lastByte?_eq_none hstart]
    rfl
  · obtain rfl : feed = '\n' := h.above_ends feed (by simp)
    rw [← List.append_cons, lastByte?_append_cons rfl hstart, byteLength_append]
    rfl

/-- The checked slices are allowed where the text is cut, and show the same. -/
theorem Cut.pointAt_eq (h : Cut text above start finish below) (message : String) :
    pointAt text (byteLength (above ++ start)) message =
      some (caretBelow (start ++ finish) start.length message) := by
  have hcut : At text (byteLength (above ++ start)) (finish ++ below) := ⟨_, h.text_eq, rfl⟩
  have hline : At text (byteLength above) (start ++ finish ++ below) :=
    ⟨above, by rw [h.text_eq]; simp only [List.append_assoc], rfl⟩
  have hmin : min (byteLength (above ++ start)) (byteLength text) =
      byteLength (above ++ start) := by
    rw [h.text_eq, byteLength_append (above ++ start)]
    exact Nat.min_eq_left (Nat.le_add_right _ _)
  have hbefore : textBefore text (byteLength (above ++ start)) = some (above ++ start) := by
    rw [h.text_eq]
    exact textBefore_append _ _
  have hlast : passWhile (· != '\n') text (byteLength (above ++ start)) =
      some (byteLength above + byteLength (start ++ finish)) := by
    rw [passWhile_eq _ hcut, h.takeWhile_finish, byteLength_append, byteLength_append,
      Nat.add_assoc]
  have hmargin : textBetween text (byteLength above) (byteLength (above ++ start)) =
      some start := by
    rw [byteLength_append]
    rw [List.append_assoc] at hline
    exact hline.textBetween_eq
  simp only [pointAt, hmin, hbefore, hlast, h.lineStart, hline.textBetween_eq, hmargin,
    Option.bind_eq_bind, Option.bind_some]
  rfl

theorem Cut.getElem?_column (h : Cut text above start finish below)
    (hnoFeed : ∀ c ∈ (finish ++ below).head?, c ≠ '\n') :
    (start ++ finish)[start.length]? = (finish ++ below).head? := by
  rw [List.getElem?_append_right (Nat.le_refl _), Nat.sub_self]
  cases finish with
  | nil =>
      cases below with
      | nil => rfl
      | cons c below => exact absurd (h.below_begins c rfl) (hnoFeed c rfl)
  | cons c finish => rfl

end Cut

end Backtest.Proofs.Checked
