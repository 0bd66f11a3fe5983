import SyncEndpoint.Ignore.List

set_option autoImplicit false

/-! # The rules of lines

Lines have rules if each of them has a rule or says nothing, and then the rules are those of the
lines in order. -/

namespace SyncEndpoint.IgnoreList

open Ignore

variable {line : String} {lines lines' : List String} {rules : List Rule}

theorem rulesOfLines_cons_eq_ok_iff : rulesOfLines (line :: lines) = .ok rules ↔
    ∃ rule? rest, Rule.ofLine? line = .ok rule? ∧ rulesOfLines lines = .ok rest ∧
      rules = rule?.toList ++ rest := by
  rw [rulesOfLines]
  cases Rule.ofLine? line with
  | error e => simp
  | ok rule? => cases rulesOfLines lines <;> simp [eq_comm]

theorem rulesOfLines_append_eq_ok_iff : rulesOfLines (lines ++ lines') = .ok rules ↔
    ∃ front back, rulesOfLines lines = .ok front ∧ rulesOfLines lines' = .ok back ∧
      rules = front ++ back := by
  induction lines generalizing rules with
  | nil => simp [rulesOfLines]
  | cons line lines ih =>
    simp only [List.cons_append, rulesOfLines_cons_eq_ok_iff, ih]
    constructor
    · rintro ⟨rule?, rest, hline, ⟨front, back, hfront, hback, rfl⟩, rfl⟩
      exact ⟨_, back, ⟨rule?, front, hline, hfront, rfl⟩, hback, by simp⟩
    · rintro ⟨-, back, ⟨rule?, front, hline, hfront, rfl⟩, hback, rfl⟩
      exact ⟨rule?, _, hline, ⟨front, back, hfront, hback, rfl⟩, by simp⟩

theorem ofLines_eq_ok_iff {list : IgnoreList} : ofLines lines = .ok list ↔
    ∃ builtin user, rulesOfLines builtinLines = .ok builtin ∧ rulesOfLines lines = .ok user ∧
      list = ⟨builtin ++ user⟩ := by
  have hmap : ofLines lines = .ok list ↔ rulesOfLines (builtinLines ++ lines) = .ok list.rules := by
    rw [ofLines]
    cases rulesOfLines (builtinLines ++ lines) with
    | error e => simp [Except.map]
    | ok rules =>
      obtain ⟨rules'⟩ := list
      simp [Except.map]
  rw [hmap, rulesOfLines_append_eq_ok_iff]
  obtain ⟨rules'⟩ := list
  simp

/-- The rules of lines are those that some line stands for. -/
theorem mem_rulesOfLines_iff (h : rulesOfLines lines = .ok rules) {rule : Rule} :
    rule ∈ rules ↔ ∃ line ∈ lines, Rule.ofLine? line = .ok (some rule) := by
  induction lines generalizing rules with
  | nil =>
    simp only [rulesOfLines, Except.ok.injEq] at h
    simp [← h]
  | cons line lines ih =>
    obtain ⟨rule?, rest, hrule, hrest, rfl⟩ := rulesOfLines_cons_eq_ok_iff.mp h
    simp [ih hrest, hrule]

end SyncEndpoint.IgnoreList
