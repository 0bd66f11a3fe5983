import SyncEndpoint.Proofs.Ignore.Marker

set_option autoImplicit false

/-! # Lists that grow

A rule that brings nothing back can only turn the verdict of a level into "hidden", wherever it
stands (`verdict?_insert`). So a line that is no negation adds to what a list hides. Without any
negation a level is hidden as soon as some rule applies to it, and the order of the lines is of no
account. -/

namespace SyncEndpoint

open Ignore

namespace Ignore

variable {rules rules' before middle after : List Rule} {path : Bytes} {isDir : Bool}

/-! ## Verdicts of more rules -/

/-- Rules that bring nothing back leave a verdict as it was, or hide. -/
theorem verdict?_insert (h : ∀ rule ∈ middle, rule.negated = false) :
    verdict? (before ++ (middle ++ after)) path isDir = verdict? (before ++ after) path isDir ∨
      verdict? (before ++ (middle ++ after)) path isDir = some .hidden := by
  simp only [verdict?_append, verdict?_eq_ite h]
  cases verdict? after path isDir with
  | some v => simp
  | none => split <;> simp

/-! ## From the verdicts of the levels to that of a path -/

/-- The levels that are asked for a verdict: a path as what it is, then the directories above. -/
def levels (path : Bytes) (isDir : Bool) : List (Bytes × Bool) :=
  (path, isDir) :: (NativePath.ancestors path).map (·, true)

theorem nearestVerdict?_eq_findSome? (rules : List Rule) (path : Bytes) (isDir : Bool) :
    nearestVerdict? rules path isDir =
      (levels path isDir).findSome? fun level => verdict? rules level.1 level.2 := by
  simp only [nearestVerdict?, levels, List.findSome?_cons, List.findSome?_map, Function.comp_def]
  cases verdict? rules path isDir <;> rfl

/-- A level that is newly hidden comes before the one that decided, or is that one. -/
theorem findSome?_eq_hidden {α : Type} {f g : α → Option Verdict} {xs : List α}
    (h : ∀ x ∈ xs, g x = f x ∨ g x = some .hidden) (hf : xs.findSome? f = some .hidden) :
    xs.findSome? g = some .hidden := by
  induction xs with
  | nil => simp at hf
  | cons x xs ih =>
    obtain ⟨hx, hxs⟩ := List.forall_mem_cons.mp h
    rcases hx with hsame | hhidden
    · rw [List.findSome?_cons] at hf ⊢
      rw [hsame]
      cases hfx : f x with
      | some v => simpa [hfx] using hf
      | none =>
        simp only [hfx] at hf ⊢
        exact ih hxs hf
    · simp [hhidden]

theorem nearestVerdict?_insert (h : ∀ rule ∈ middle, rule.negated = false)
    (hhidden : nearestVerdict? (before ++ after) path isDir = some .hidden) :
    nearestVerdict? (before ++ (middle ++ after)) path isDir = some .hidden := by
  rw [nearestVerdict?_eq_findSome?] at hhidden ⊢
  exact findSome?_eq_hidden (fun _ _ => verdict?_insert h) hhidden

theorem nearestVerdict?_perm (hperm : rules.Perm rules')
    (h : ∀ rule ∈ rules, rule.negated = false) :
    nearestVerdict? rules path isDir = nearestVerdict? rules' path isDir := by
  have h' : ∀ rule ∈ rules', rule.negated = false := fun rule hrule =>
    h rule (hperm.mem_iff.mpr hrule)
  simp only [nearestVerdict?_eq_findSome?, verdict?_eq_ite h, verdict?_eq_ite h', hperm.mem_iff]

/-! ## The rules of lines -/

/-- A line that brings paths back. -/
def IsNegation (line : String) : Prop :=
  ['!'] <+: line.toList

instance (line : String) : Decidable (IsNegation line) :=
  inferInstanceAs (Decidable (_ <+: _))

theorem prefix_trimLine (line : List Char) : trimLine line <+: line := by
  rw [trimLine]
  split
  · exact List.prefix_rfl
  · rw [Text.trimEnd, ← List.reverse_suffix, List.reverse_reverse]
    exact List.dropWhile_suffix _

theorem prefix_of_readMarks {line : List Char} (h : (readMarks line).1 = true) :
    ['!'] <+: line := by
  unfold readMarks at h
  split at h <;> simp_all

/-- What the rule of a line says. -/
theorem of_ofLine?_eq_some {line : String} {rule : Rule} (h : Rule.ofLine? line = .ok (some rule)) :
    rule.negated = (readMarks (trimLine line.toList)).1 ∧
      rule.directoriesOnly = (readDirectoryMark (readMarks (trimLine line.toList)).2.2).1 ∧
      Glob.parse (fullGlob (readMarks (trimLine line.toList)).2.1
        (readDirectoryMark (readMarks (trimLine line.toList)).2.2).2) = .ok rule.glob := by
  simp only [Rule.ofLine?] at h
  split at h
  · simp at h
  · split at h
    · simp at h
    · next glob hglob =>
      simp only [Except.ok.injEq, Option.some.injEq] at h
      subst h
      exact ⟨rfl, rfl, hglob⟩

/-- The rule of a line brings nothing back, unless the line is a negation. -/
theorem negated_of_ofLine? {line : String} {rule : Rule} (hline : ¬ IsNegation line)
    (h : Rule.ofLine? line = .ok (some rule)) : rule.negated = false := by
  obtain ⟨hnegated, -⟩ := of_ofLine?_eq_some h
  rw [hnegated, ← Bool.not_eq_true]
  intro hmark
  exact hline ((prefix_of_readMarks hmark).trans (prefix_trimLine _))

end Ignore

namespace IgnoreList

variable {line : String} {lines lines' : List String} {rules rules' : List Rule}

theorem negated_of_rulesOfLines (hlines : ∀ line ∈ lines, ¬ IsNegation line)
    (h : rulesOfLines lines = .ok rules) : ∀ rule ∈ rules, rule.negated = false := by
  intro rule hmem
  obtain ⟨line, hline, hrule⟩ := (mem_rulesOfLines_iff h).mp hmem
  exact negated_of_ofLine? (hlines line hline) hrule

/-- Lines in another order have the same rules in another order. -/
theorem exists_rulesOfLines_of_perm (hperm : lines.Perm lines') (h : rulesOfLines lines = .ok rules) :
    ∃ rules', rulesOfLines lines' = .ok rules' ∧ rules.Perm rules' := by
  induction hperm generalizing rules with
  | nil => exact ⟨rules, h, .rfl⟩
  | cons line _ ih =>
    obtain ⟨rule?, rest, hrule, hrest, rfl⟩ := rulesOfLines_cons_eq_ok_iff.mp h
    obtain ⟨rest', hrest', hperm⟩ := ih hrest
    exact ⟨_, rulesOfLines_cons_eq_ok_iff.mpr ⟨rule?, rest', hrule, hrest', rfl⟩,
      hperm.append_left _⟩
  | swap line line' lines =>
    obtain ⟨rule?, rest, hrule, hrest, rfl⟩ := rulesOfLines_cons_eq_ok_iff.mp h
    obtain ⟨rule?', rest', hrule', hrest', rfl⟩ := rulesOfLines_cons_eq_ok_iff.mp hrest
    have hfirst := rulesOfLines_cons_eq_ok_iff.mpr ⟨rule?, rest', hrule, hrest', rfl⟩
    refine ⟨_, rulesOfLines_cons_eq_ok_iff.mpr ⟨rule?', _, hrule', hfirst, rfl⟩, ?_⟩
    simp only [← List.append_assoc]
    exact List.perm_append_comm.append_right _
  | trans _ _ ih ih' =>
    obtain ⟨rules₁, hrules₁, hperm₁⟩ := ih h
    obtain ⟨rules₂, hrules₂, hperm₂⟩ := ih' hrules₁
    exact ⟨rules₂, hrules₂, hperm₁.trans hperm₂⟩

/-! ## Lists -/

/-- A list hides all that another one hides. -/
def Covers (list list' : IgnoreList) : Prop :=
  ∀ path isDir, list'.isIgnored path isDir = true → list.isIgnored path isDir = true

/-- Two lists hide the same. -/
def Agrees (list list' : IgnoreList) : Prop :=
  ∀ path isDir, list.isIgnored path isDir = list'.isIgnored path isDir

theorem covers_insert (before after : List Rule) {middle : List Rule}
    (h : ∀ rule ∈ middle, rule.negated = false) :
    (⟨before ++ (middle ++ after)⟩ : IgnoreList).Covers ⟨before ++ after⟩ := by
  intro path isDir hignored
  simp only [isIgnored] at hignored ⊢
  split at hignored
  · simp at hignored
  · next hbelow =>
    rw [beq_iff_eq] at hignored
    simp [hbelow, nearestVerdict?_insert h hignored]

theorem agrees_of_perm (hperm : rules.Perm rules') (h : ∀ rule ∈ rules, rule.negated = false) :
    (⟨rules⟩ : IgnoreList).Agrees ⟨rules'⟩ := by
  intro path isDir
  simp only [isIgnored, nearestVerdict?_perm hperm h]

theorem covers_of_insert {before after : List String} {list list' : IgnoreList}
    (hline : ¬ IsNegation line) (h : ofLines (before ++ after) = .ok list)
    (h' : ofLines (before ++ line :: after) = .ok list') : list'.Covers list := by
  obtain ⟨builtin, user, hbuiltin, huser, rfl⟩ := ofLines_eq_ok_iff.mp h
  obtain ⟨builtin', user', hbuiltin', huser', rfl⟩ := ofLines_eq_ok_iff.mp h'
  obtain ⟨front, back, hfront, hback, rfl⟩ := rulesOfLines_append_eq_ok_iff.mp huser
  obtain ⟨front', back', hfront', hback', rfl⟩ := rulesOfLines_append_eq_ok_iff.mp huser'
  obtain ⟨rule?, rest, hrule, hrest, rfl⟩ := rulesOfLines_cons_eq_ok_iff.mp hback'
  cases hbuiltin.symm.trans hbuiltin'
  cases hfront.symm.trans hfront'
  cases hback.symm.trans hrest
  have hmiddle : ∀ rule ∈ rule?.toList, rule.negated = false := by
    intro rule hmem
    rw [Option.mem_toList] at hmem
    exact negated_of_ofLine? hline (hrule.trans (congrArg Except.ok hmem))
  simpa using covers_insert (builtin ++ front) back hmiddle

/-- The list without lines of the user. -/
theorem exists_builtin_list : ∃ builtin, rulesOfLines builtinLines = .ok builtin ∧
    ofLines [] = .ok ⟨builtin⟩ ∧ ∀ rule ∈ builtin, rule.negated = false := by
  obtain ⟨builtin, hbuiltin, -⟩ := exists_builtin
  refine ⟨_, hbuiltin, ofLines_eq_ok_iff.mpr ⟨_, [], hbuiltin, rfl, by simp⟩, ?_⟩
  exact negated_of_rulesOfLines (by decide) hbuiltin

/-- A line that is no negation only adds to what a list hides, wherever it is put in. Without any
negation all stays hidden that the built-in lines hide, and the lines may stand in any order. -/
theorem hides_more :
    (∀ before after line list list', ¬ IsNegation line →
      ofLines (before ++ after) = .ok list → ofLines (before ++ line :: after) = .ok list' →
        list'.Covers list) ∧
    ∀ lines list, (∀ line ∈ lines, ¬ IsNegation line) → ofLines lines = .ok list →
      (∃ builtin, ofLines [] = .ok builtin ∧ list.Covers builtin) ∧
      ∀ lines', lines'.Perm lines → ∃ list', ofLines lines' = .ok list' ∧ list'.Agrees list := by
  refine ⟨fun before after line list list' => covers_of_insert, fun lines list hlines h => ?_⟩
  obtain ⟨builtin, hbuiltin, hempty, hkeeps⟩ := exists_builtin_list
  obtain ⟨builtin', user, hbuiltin', huser, rfl⟩ := ofLines_eq_ok_iff.mp h
  cases hbuiltin.symm.trans hbuiltin'
  have huserKeeps := negated_of_rulesOfLines hlines huser
  constructor
  · refine ⟨_, hempty, ?_⟩
    simpa using covers_insert builtin [] huserKeeps
  · intro lines' hperm
    obtain ⟨user', huser', hperm'⟩ := exists_rulesOfLines_of_perm hperm.symm huser
    refine ⟨_, ofLines_eq_ok_iff.mpr ⟨builtin, user', hbuiltin, huser', rfl⟩, ?_⟩
    have hall : ∀ rule ∈ builtin ++ user', rule.negated = false :=
      List.forall_mem_append.mpr ⟨hkeeps, fun rule hmem =>
        huserKeeps rule (hperm'.mem_iff.mpr hmem)⟩
    exact agrees_of_perm (hperm'.symm.append_left builtin) hall

/-- A line before a negation, and lines that are swapped. -/
theorem hides_more_logs :
    (∃ list list', ofLines ["!keep.log"] = .ok list ∧
      ofLines ["*.log", "!keep.log"] = .ok list' ∧ list'.Covers list) ∧
    ∃ list list', ofLines ["*.log", "build/"] = .ok list ∧
      ofLines ["build/", "*.log"] = .ok list' ∧ list'.Agrees list := by
  have hlog : ¬ IsNegation "*.log" := by decide
  have hbuild : ¬ IsNegation "build/" := by decide
  obtain ⟨list, h⟩ : ∃ list, ofLines ["!keep.log"] = .ok list := ⟨_, rfl⟩
  obtain ⟨list', h'⟩ : ∃ list, ofLines ["*.log", "!keep.log"] = .ok list := ⟨_, rfl⟩
  obtain ⟨logs, hlogs⟩ : ∃ list, ofLines ["*.log", "build/"] = .ok list := ⟨_, rfl⟩
  refine ⟨⟨list, list', h, h', hides_more.1 [] ["!keep.log"] "*.log" list list' hlog h h'⟩, logs, ?_⟩
  obtain ⟨-, hswap⟩ := hides_more.2 ["*.log", "build/"] logs (by simp [hlog, hbuild]) hlogs
  obtain ⟨list', hswapped, hagrees⟩ := hswap ["build/", "*.log"] (.swap _ _ _)
  exact ⟨list', hlogs, hswapped, hagrees⟩

end IgnoreList

end SyncEndpoint
