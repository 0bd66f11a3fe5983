import Mathlib.Data.List.Forall2
import SyncEndpoint.Proofs.Text.Digits

set_option autoImplicit false

/-! # Numbers in columns

A text that shows numbers in columns of fixed width, each with a mark behind it, has one shape
whatever the numbers are (`matches_layout`), and such texts come in the order of their numbers, the
first column first (`layout_lt_layout`). -/

namespace SyncEndpoint.Text

/-- A character of a text is the one that a pattern has there, or any digit for a `#`. -/
def MatchesChar (p c : Char) : Prop :=
  if p = '#' then c.isDigit = true else c = p

/-- A text has the shape of a pattern. -/
def Matches (pattern s : String) : Prop :=
  List.Forall₂ MatchesChar pattern.toList s.toList

/-- A column of digits and the mark behind it. -/
structure Column where
  width : Nat
  mark : Char

/-- A number has a column's width at most. -/
def Column.Fits (column : Column) (n : Nat) : Prop :=
  0 < column.width ∧ n < 10 ^ column.width

/-- The text of some numbers in columns. -/
def layout : List Column → List Nat → List Char
  | column :: columns, n :: ns =>
    (padded column.width n).toList ++ column.mark :: layout columns ns
  | _, _ => []

/-- The pattern of texts in some columns. -/
def columnsPattern (columns : List Column) : List Char :=
  columns.flatMap fun column => List.replicate column.width '#' ++ [column.mark]

variable {columns : List Column} {ns ms : List Nat}

theorem forall₂_replicate {cs : List Char} (h : ∀ c ∈ cs, c.isDigit = true) :
    List.Forall₂ MatchesChar (List.replicate cs.length '#') cs := by
  induction cs with
  | nil => exact List.Forall₂.nil
  | cons c cs ih =>
    obtain ⟨hc, hcs⟩ := List.forall_mem_cons.mp h
    exact List.Forall₂.cons hc (ih hcs)

theorem matches_layout (hmarks : ∀ column ∈ columns, column.mark ≠ '#')
    (h : List.Forall₂ Column.Fits columns ns) :
    List.Forall₂ MatchesChar (columnsPattern columns) (layout columns ns) := by
  induction h with
  | nil => exact List.Forall₂.nil
  | @cons column n columns ns hfits _ ih =>
    obtain ⟨hmark, hmarks⟩ := List.forall_mem_cons.mp hmarks
    have hdigits := forall₂_replicate fun c (hc : c ∈ (padded column.width n).toList) =>
      isDigit_of_mem_padded hc
    rw [length_padded hfits.2 hfits.1] at hdigits
    rw [columnsPattern, List.flatMap_cons, layout, List.append_assoc]
    refine List.rel_append hdigits (List.Forall₂.cons ?_ (ih hmarks))
    rw [MatchesChar, if_neg hmark]

theorem layout_lt_layout (h : List.Forall₂ Column.Fits columns ns)
    (h' : List.Forall₂ Column.Fits columns ms) (hlt : ns < ms) :
    layout columns ns < layout columns ms := by
  induction h generalizing ms with
  | nil =>
    cases h'
    exact absurd hlt (List.lt_irrefl _)
  | @cons column n columns ns hfits _ ih =>
    cases h' with
    | @cons _ m _ ms hfits' hrest' =>
      rw [List.cons_lt_cons_iff] at hlt
      rw [layout, layout]
      rcases hlt with hless | ⟨rfl, hless⟩
      · refine append_lt_append ?_ ?_ _ _
        · rw [length_padded hfits.2 hfits.1, length_padded hfits'.2 hfits'.1]
        · obtain ⟨width, hwidth⟩ := Nat.exists_eq_add_of_lt hfits.1
          rw [Nat.zero_add] at hwidth
          rw [hwidth]
          exact padded_lt_padded hless (hwidth ▸ hfits'.2)
      · exact List.append_left_lt (List.cons_lt_cons_iff.mpr (Or.inr ⟨rfl, ih hrest' hless⟩))

end SyncEndpoint.Text
