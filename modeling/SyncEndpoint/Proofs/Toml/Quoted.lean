import Mathlib.Data.List.Basic
import Mathlib.Data.List.Infix
import SyncEndpoint.Toml.Quoted

set_option autoImplicit false

/-! # Strings read back

Whichever of the ways to write a string is chosen, reading gives the text back, and what follows it
(`string?_write`). For each way there are two steps: the body is cut off at its closing quotes, since
quotes in it are escaped or too few in a row, and then stands for the text. -/

namespace SyncEndpoint.Toml.Quoted

variable {multiline : Bool} {c : Char} {cs body rest : List Char}

/-! ## Escapes -/

section Escapes

theorem escape_quote_zero (cs : List Char) :
    escape multiline 0 ('"' :: cs) =
      '\\' :: '"' :: escape multiline (if multiline then 2 else 0) cs := rfl

theorem escape_quote_succ (n : Nat) (cs : List Char) :
    escape multiline (n + 1) ('"' :: cs) = '"' :: escape multiline n cs := rfl

theorem escape_cons (hc : c ≠ '"') (n : Nat) (cs : List Char) :
    escape multiline n (c :: cs) =
      escapeChar multiline c ++ escape multiline (if multiline then 2 else 0) cs := by
  cases n <;> rw [escape, if_neg (by simpa using hc)]

/-- A character that may stand in a body as it is, as far as control characters go. -/
def MayStand (multiline : Bool) (c : Char) : Prop :=
  isControl c = false ∨ multiline = true ∧ c = '\n'

theorem MayStand.ne_return (hc : MayStand multiline c) : c ≠ '\r' := by
  rintro rfl
  rcases hc with hc | ⟨-, hc⟩
  · cases hc
  · exact absurd hc (by decide)

theorem MayStand.of_not_lineEnd (hc : MayStand true c) (hline : c ≠ '\n') (multiline : Bool) :
    MayStand multiline c :=
  Or.inl (hc.resolve_right fun h => hline h.2)

/-- A control character is one of the first 128. -/
theorem toNat_lt_of_isControl (hc : isControl c = true) : c.toNat < 128 := by
  simp only [isControl, Bool.or_eq_true, Bool.and_eq_true, decide_eq_true_eq, beq_iff_eq] at hc
  omega

/-- A control character is the one that its two digits number. -/
theorem numbered?_hex2 (hc : c.toNat < 128) :
    numbered? ('0' :: '0' :: hex2 c.toNat) = some c := by
  have hall : ∀ n < 128, numbered? ('0' :: '0' :: hex2 n) = some (Char.ofNat n) := by
    decide +kernel
  rw [hall c.toNat hc, Char.ofNat_toNat]

/-- The ways in which a character is written: as it is, by a letter, or by its number. -/
theorem escapeChar_cases (multiline : Bool) (hc : c ≠ '"') :
    escapeChar multiline c = [c] ∧ c ≠ '\\' ∧ MayStand multiline c ∨
      (∃ e, escapeChar multiline c = ['\\', e] ∧ shortEscape? e = some c ∧
        e ≠ 'x' ∧ e ≠ 'u' ∧ e ≠ 'U') ∨
      escapeChar multiline c = '\\' :: 'u' :: '0' :: '0' :: hex2 c.toNat ∧ c.toNat < 128 := by
  rw [escapeChar]
  simp only [beq_iff_eq]
  split
  · next h => exact Or.inr (Or.inl ⟨'b', rfl, h ▸ rfl, by decide⟩)
  split
  · next h => exact Or.inr (Or.inl ⟨'t', rfl, h ▸ rfl, by decide⟩)
  split
  · next h =>
    subst h
    cases multiline with
    | true => exact Or.inl ⟨rfl, by decide, Or.inr ⟨rfl, rfl⟩⟩
    | false => exact Or.inr (Or.inl ⟨'n', rfl, rfl, by decide⟩)
  split
  · next h => exact Or.inr (Or.inl ⟨'f', rfl, h ▸ rfl, by decide⟩)
  split
  · next h => exact Or.inr (Or.inl ⟨'r', rfl, h ▸ rfl, by decide⟩)
  split
  · next h =>
    subst h
    exact Or.inr (Or.inl ⟨'\\', rfl, rfl, by decide⟩)
  · next hbackslash =>
    split
    · next hcontrol => exact Or.inr (Or.inr ⟨rfl, toNat_lt_of_isControl hcontrol⟩)
    · next hplain => exact Or.inl ⟨rfl, hbackslash, Or.inl (by simpa using hplain)⟩

/-- A character is written with a backslash in front, or begins itself what it is written as. -/
theorem escapeChar_eq_cons (multiline : Bool) (hc : c ≠ '"') :
    ∃ d t, escapeChar multiline c = d :: t ∧ (d = '\\' ∨ d = c ∧ MayStand multiline c) := by
  rcases escapeChar_cases multiline hc with
    ⟨heq, -, hplain⟩ | ⟨e, heq, -, -⟩ | ⟨heq, -⟩
  · exact ⟨c, [], heq, Or.inr ⟨rfl, hplain⟩⟩
  · exact ⟨'\\', [e], heq, Or.inl rfl⟩
  · exact ⟨'\\', _, heq, Or.inl rfl⟩

theorem not_quote_prefix_escape_cons (hc : c ≠ '"') (n : Nat) (cs : List Char) :
    ¬['"'] <+: escape multiline n (c :: cs) := by
  obtain ⟨d, t, heq, hd⟩ := escapeChar_eq_cons multiline hc
  rw [escape_cons hc, heq, List.cons_append, List.cons_prefix_cons]
  rintro ⟨rfl, -⟩
  rcases hd with hd | ⟨hd, -⟩
  · exact absurd hd (by decide)
  · exact hc hd.symm

theorem unescape?_plain (hbackslash : c ≠ '\\') (hc : MayStand multiline c) :
    unescape? multiline false (c :: rest) = consChar c (unescape? multiline false rest) := by
  rw [unescape?.eq_8 _ _ _ _ hbackslash fun _ h _ => hc.ne_return h]
  rcases hc with hc | ⟨rfl, rfl⟩
  · have hline : c ≠ '\n' := by
      rintro rfl
      cases hc
    simp [hline, hc]
  · rfl

theorem unescape?_short {e : Char} (he : shortEscape? e = some c)
    (hne : e ≠ 'x' ∧ e ≠ 'u' ∧ e ≠ 'U') :
    unescape? multiline false ('\\' :: e :: rest) = consChar c (unescape? multiline false rest) := by
  obtain ⟨hx, hu, hU⟩ := hne
  rw [unescape?.eq_6 _ _ _ _ (fun _ _ _ h _ => hx h) (fun _ _ _ _ _ h _ => hu h)
    (fun _ _ _ _ _ _ _ _ _ h _ => hU h), he]

theorem unescape?_escapeChar (hc : c ≠ '"') :
    unescape? multiline false (escapeChar multiline c ++ rest) =
      consChar c (unescape? multiline false rest) := by
  rcases escapeChar_cases multiline hc with
    ⟨heq, hbackslash, hplain⟩ | ⟨e, heq, he, hne⟩ | ⟨heq, hlow⟩
  · rw [heq]
    exact unescape?_plain hbackslash hplain
  · rw [heq]
    exact unescape?_short he hne
  · rw [heq, hex2]
    simp only [List.cons_append, List.nil_append]
    rw [unescape?.eq_4, ← hex2.eq_1, numbered?_hex2 hlow]
    rfl

/-- What a text is written as stands for it. -/
theorem unescape?_escape (n : Nat) (cs : List Char) :
    unescape? multiline false (escape multiline n cs) = some cs := by
  induction cs generalizing n with
  | nil => rw [escape, unescape?]
  | cons c cs ih =>
    by_cases hc : c = '"'
    · subst hc
      cases n with
      | zero =>
        rw [escape_quote_zero, unescape?_short (c := '"') rfl (by decide), ih]
        rfl
      | succ n =>
        rw [escape_quote_succ, unescape?_plain (by decide) (Or.inl rfl), ih]
        rfl
    · rw [escape_cons hc, unescape?_escapeChar hc, ih]
      rfl

end Escapes

/-! ## Closing quotes -/

section Cuts

/-- A way to cut a text at its closing quotes that passes over escapes and over all characters that
are not special. -/
structure PassesEscapes (cut? : List Char → Option (List Char × List Char)) : Prop where
  plain : ∀ {c t body rest}, c ≠ '"' → c ≠ '\\' → cut? t = some (body, rest) →
    cut? (c :: t) = some (c :: body, rest)
  escaped : ∀ {c t body rest}, cut? t = some (body, rest) →
    cut? ('\\' :: c :: t) = some ('\\' :: c :: body, rest)

theorem PassesEscapes.plains {cut? : List Char → Option (List Char × List Char)}
    (hcut : PassesEscapes cut?) {ds t : List Char} (hds : ∀ d ∈ ds, d ≠ '"' ∧ d ≠ '\\')
    (ht : cut? t = some (body, rest)) : cut? (ds ++ t) = some (ds ++ body, rest) := by
  induction ds with
  | nil => exact ht
  | cons d ds ih =>
    obtain ⟨⟨hquote, hbackslash⟩, hds⟩ := List.forall_mem_cons.mp hds
    exact hcut.plain hquote hbackslash (ih hds)

theorem PassesEscapes.escapeChar {cut? : List Char → Option (List Char × List Char)}
    (hcut : PassesEscapes cut?) (hc : c ≠ '"') {t : List Char} (ht : cut? t = some (body, rest)) :
    cut? (escapeChar multiline c ++ t) = some (escapeChar multiline c ++ body, rest) := by
  rcases escapeChar_cases multiline hc with
    ⟨heq, hbackslash, -⟩ | ⟨e, heq, -, -⟩ | ⟨heq, hlow⟩
  · rw [heq]
    exact hcut.plain hc hbackslash ht
  · rw [heq]
    exact hcut.escaped ht
  · have hall : (List.range 128).all (fun n => ('0' :: '0' :: hex2 n).all fun d =>
        d != '"' && d != '\\') = true := by decide +kernel
    have hdigits : ∀ d ∈ '0' :: '0' :: hex2 c.toNat, d ≠ '"' ∧ d ≠ '\\' := fun d hd => by
      simpa using List.all_eq_true.mp (List.all_eq_true.mp hall _ (List.mem_range.mpr hlow)) d hd
    rw [heq]
    exact hcut.escaped (hcut.plains hdigits ht)

/-- A way to cut a text at three quotes in a row, where up to two more in front of them belong to
the string. -/
structure CutsAtThree (quote : Char) (cut? : List Char → Option (List Char × List Char)) :
    Prop where
  three : ∀ {rest}, rest.head? ≠ some quote →
    cut? (quote :: quote :: quote :: rest) = some ([], rest)
  four : ∀ {rest}, rest.head? ≠ some quote →
    cut? (quote :: quote :: quote :: quote :: rest) = some ([quote], rest)
  five : ∀ rest,
    cut? (quote :: quote :: quote :: quote :: quote :: rest) = some ([quote, quote], rest)
  quote : ∀ {t body rest}, ¬[quote, quote] <+: t → cut? t = some (body, rest) →
    cut? (quote :: t) = some (quote :: body, rest)

/-- A quote in front of a body that does not begin with two more belongs to the body. -/
theorem CutsAtThree.quote_cons {quote : Char}
    {cut? : List Char → Option (List Char × List Char)} (hcut : CutsAtThree quote cut?)
    (hbody : ¬[quote, quote] <+: body) (hrest : rest.head? ≠ some quote)
    (hcons : cut? (body ++ quote :: quote :: quote :: rest) = some (body, rest)) :
    cut? (quote :: (body ++ quote :: quote :: quote :: rest)) = some (quote :: body, rest) := by
  match body with
  | [] => exact hcut.four hrest
  | [c] =>
    by_cases hc : c = quote
    · subst hc
      exact hcut.five rest
    · exact hcut.quote (by simp [Ne.symm hc]) hcons
  | c :: d :: body => exact hcut.quote (by simpa using hbody) hcons

theorem passesEscapes_cutBasic? : PassesEscapes cutBasic? where
  plain hquote hbackslash h := by
    rw [cutBasic?.eq_4 _ _ hquote fun _ _ hc _ => hbackslash hc, h]
    rfl
  escaped h := by
    rw [cutBasic?, h]
    rfl

theorem passesEscapes_cutBasicLines? : PassesEscapes cutBasicLines? where
  plain hquote hbackslash h := by
    rw [cutBasicLines?.eq_6 _ _ (fun _ hc _ => hquote hc) (fun _ hc _ => hquote hc)
      (fun _ hc _ => hquote hc) fun _ _ hc _ => hbackslash hc, h]
    rfl
  escaped h := by
    rw [cutBasicLines?, h]
    rfl

theorem cutsAtThree_cutBasicLines? : CutsAtThree '"' cutBasicLines? where
  three hrest :=
    cutBasicLines?.eq_4 _ (fun _ h => hrest (by rw [h]; rfl)) fun _ h => hrest (by rw [h]; rfl)
  four hrest := cutBasicLines?.eq_3 _ fun _ h => hrest (by rw [h]; rfl)
  five := cutBasicLines?.eq_2
  quote ht h := by
    rw [cutBasicLines?.eq_6 _ _ (fun _ _ heq => ht (by simp [heq]))
      (fun _ _ heq => ht (by simp [heq])) (fun _ _ heq => ht (by simp [heq]))
      fun _ _ hc _ => absurd hc (by decide), h]
    rfl

theorem cutsAtThree_cutLiteralLines? : CutsAtThree '\'' cutLiteralLines? where
  three hrest :=
    cutLiteralLines?.eq_4 _ (fun _ h => hrest (by rw [h]; rfl)) fun _ h => hrest (by rw [h]; rfl)
  four hrest := cutLiteralLines?.eq_3 _ fun _ h => hrest (by rw [h]; rfl)
  five := cutLiteralLines?.eq_2
  quote ht h := by
    rw [cutLiteralLines?.eq_5 _ _ (fun _ _ heq => ht (by simp [heq]))
      (fun _ _ heq => ht (by simp [heq])) (fun _ _ heq => ht (by simp [heq])), h]
    rfl

theorem cutBasic?_escape (cs rest : List Char) :
    cutBasic? (escape false 0 cs ++ '"' :: rest) = some (escape false 0 cs, rest) := by
  induction cs with
  | nil => rfl
  | cons c cs ih =>
    by_cases hc : c = '"'
    · subst hc
      exact passesEscapes_cutBasic?.escaped ih
    · rw [escape_cons hc, List.append_assoc]
      exact passesEscapes_cutBasic?.escapeChar hc ih

/-- Where no quote may stand as it is, the next character is not one. -/
theorem not_quote_prefix_escape (multiline : Bool) (cs : List Char) :
    ¬['"'] <+: escape multiline 0 cs := by
  cases cs with
  | nil => simp [escape]
  | cons c cs =>
    by_cases hc : c = '"'
    · subst hc
      simp [escape_quote_zero]
    · exact not_quote_prefix_escape_cons hc 0 cs

/-- Where one quote may stand as it is, two do not follow. -/
theorem not_quotes_prefix_escape {n : Nat} (hn : n ≤ 1) (cs : List Char) :
    ¬['"', '"'] <+: escape multiline n cs := by
  have hfirst : ['"'] <+: ['"', '"'] := List.prefix_append ['"'] ['"']
  match n, hn with
  | 0, _ => exact fun h => not_quote_prefix_escape multiline cs (hfirst.trans h)
  | 1, _ =>
    cases cs with
    | nil => simp [escape]
    | cons c cs =>
      by_cases hc : c = '"'
      · subst hc
        simpa [escape_quote_succ] using not_quote_prefix_escape multiline cs
      · exact fun h => not_quote_prefix_escape_cons hc 1 cs (hfirst.trans h)

/-- At most two quotes in a row are left as they are, so that three in a row stand only at the end:
the closing ones, with at most two of the body in front of them. -/
theorem cutBasicLines?_escape {n : Nat} (hn : n ≤ 2) (cs : List Char)
    (hrest : rest.head? ≠ some '"') :
    cutBasicLines? (escape true n cs ++ '"' :: '"' :: '"' :: rest) =
      some (escape true n cs, rest) := by
  induction cs generalizing n with
  | nil => exact cutsAtThree_cutBasicLines?.three hrest
  | cons c cs ih =>
    by_cases hc : c = '"'
    · subst hc
      cases n with
      | zero => exact passesEscapes_cutBasicLines?.escaped (ih le_rfl)
      | succ n =>
        exact cutsAtThree_cutBasicLines?.quote_cons (not_quotes_prefix_escape (by omega) cs) hrest
          (ih (by omega))
    · rw [escape_cons hc, List.append_assoc]
      exact passesEscapes_cutBasicLines?.escapeChar hc (ih le_rfl)

theorem cutLiteral?_append (hcs : '\'' ∉ cs) (rest : List Char) :
    cutLiteral? (cs ++ '\'' :: rest) = some (cs, rest) := by
  induction cs with
  | nil => rfl
  | cons c cs ih =>
    rw [List.mem_cons, not_or] at hcs
    obtain ⟨hc, hcs⟩ := hcs
    rw [List.cons_append, cutLiteral?.eq_3 _ _ (Ne.symm hc), ih hcs]
    rfl

theorem cutLiteralLines?_append (hcs : ¬['\'', '\'', '\''] <:+: cs)
    (hrest : rest.head? ≠ some '\'') :
    cutLiteralLines? (cs ++ '\'' :: '\'' :: '\'' :: rest) = some (cs, rest) := by
  induction cs with
  | nil => exact cutsAtThree_cutLiteralLines?.three hrest
  | cons c cs ih =>
    rw [List.infix_cons_iff, not_or] at hcs
    obtain ⟨hstart, hcs⟩ := hcs
    by_cases hc : c = '\''
    · subst hc
      exact cutsAtThree_cutLiteralLines?.quote_cons (by simpa using hstart) hrest (ih hcs)
    · rw [List.cons_append, cutLiteralLines?.eq_5 _ _ (fun _ h _ => hc h) (fun _ h _ => hc h)
        (fun _ h _ => hc h), ih hcs]
      rfl

end Cuts

/-! ## Runs of quotes -/

section Runs

/-- How `longestRun` counts: the longest run so far, and the one that goes on. -/
def countRun (c : Char) (runs : Nat × Nat) (x : Char) : Nat × Nat :=
  if x == c then (max runs.1 (runs.2 + 1), runs.2 + 1) else (runs.1, 0)

theorem longestRun_eq (c : Char) (cs : List Char) :
    longestRun c cs = (cs.foldl (countRun c) (0, 0)).1 := rfl

theorem le_foldl_countRun (c : Char) (cs : List Char) (runs : Nat × Nat) :
    runs.1 ≤ (cs.foldl (countRun c) runs).1 := by
  induction cs generalizing runs with
  | nil => exact le_rfl
  | cons x cs ih =>
    refine le_trans ?_ (ih _)
    rw [countRun]
    split
    · exact le_max_left _ _
    · exact le_rfl

/-- A run at the head of a text goes on with the one before it. -/
theorem add_le_foldl_countRun {k : Nat} (hrun : List.replicate (k + 1) c <+: cs)
    (runs : Nat × Nat) : runs.2 + (k + 1) ≤ (cs.foldl (countRun c) runs).1 := by
  induction cs generalizing k runs with
  | nil => simp [List.replicate_succ] at hrun
  | cons x cs ih =>
    rw [List.replicate_succ, List.cons_prefix_cons] at hrun
    obtain ⟨rfl, hrun⟩ := hrun
    have hstep : countRun c runs c = (max runs.1 (runs.2 + 1), runs.2 + 1) :=
      if_pos (beq_self_eq_true c)
    rw [List.foldl_cons, hstep]
    cases k with
    | zero => exact (le_max_right _ _).trans (le_foldl_countRun c cs (max runs.1 _, _))
    | succ k =>
      have hrest := ih hrun (max runs.1 (runs.2 + 1), runs.2 + 1)
      simp only at hrest
      omega

theorem le_longestRun {k : Nat} (hrun : List.replicate (k + 1) c <:+: cs) :
    k + 1 ≤ longestRun c cs := by
  obtain ⟨before, after, rfl⟩ := hrun
  rw [longestRun_eq, List.append_assoc, List.foldl_append]
  exact le_trans (Nat.le_add_left _ _) (add_le_foldl_countRun (List.prefix_append _ _) _)

end Runs

/-! ## Whole strings -/

section Strings

theorem plain?_eq (hcs : ∀ x ∈ cs, MayStand multiline x) : plain? multiline cs = some cs := by
  induction cs with
  | nil => rw [plain?]
  | cons c cs ih =>
    obtain ⟨hc, hcs⟩ := List.forall_mem_cons.mp hcs
    rw [plain?.eq_3 _ _ _ fun _ h _ => hc.ne_return h, ih hcs]
    rcases hc with hc | ⟨rfl, rfl⟩
    · rw [hc, if_neg Bool.false_ne_true, ite_self]
      rfl
    · rfl

theorem trimFirstLineEnd_eq (hline : cs.head? ≠ some '\n') (hreturn : cs.head? ≠ some '\r') :
    trimFirstLineEnd cs = cs :=
  trimFirstLineEnd.eq_3 _ (fun _ h => hline (by rw [h]; rfl)) fun _ h => hreturn (by rw [h]; rfl)

/-- The line end that a body may start on a line of its own with is not a part of the text. -/
theorem trimFirstLineEnd_opened (hline : '\n' ∉ cs → body.head? ≠ some '\n')
    (hreturn : body.head? ≠ some '\r') :
    trimFirstLineEnd ((if cs.contains '\n' then ['\n'] else []) ++ body) = body := by
  split
  · rfl
  · next hcs => exact trimFirstLineEnd_eq (hline (by simpa using hcs)) hreturn

/-- An escaped body begins with a line end only where the text does, and never with a return. -/
theorem head?_escape (multiline : Bool) (n : Nat) (cs : List Char) :
    ('\n' ∉ cs → (escape multiline n cs).head? ≠ some '\n') ∧
      (escape multiline n cs).head? ≠ some '\r' := by
  cases cs with
  | nil => simp [escape]
  | cons c cs =>
    by_cases hc : c = '"'
    · subst hc
      cases n <;> simp [escape_quote_zero, escape_quote_succ]
    · obtain ⟨d, t, heq, hd⟩ := escapeChar_eq_cons multiline hc
      rw [escape_cons hc, heq, List.cons_append, List.head?_cons]
      rcases hd with rfl | ⟨rfl, hd⟩
      · simp
      · refine ⟨fun hline h => hline ?_, fun h => ?_⟩
        · rw [Option.some.inj h]
          exact List.mem_cons_self
        · exact hd.ne_return (Option.some.inj h)

theorem string?_basic (cs : List Char) (hrest : rest.head? ≠ some '"') :
    string? ('"' :: escape false 0 cs ++ '"' :: rest) = some (cs, rest) := by
  have hquotes : ¬['"', '"'] <+: escape false 0 cs ++ '"' :: rest := by
    cases hbody : escape false 0 cs with
    | nil =>
      cases rest with
      | nil => simp
      | cons r rest => simpa [eq_comm] using hrest
    | cons b body =>
      have hfirst := not_quote_prefix_escape false cs
      rw [hbody, List.cons_prefix_cons] at hfirst
      simp_all
  rw [List.cons_append, string?.eq_3 _ (fun _ h => hquotes (by simp_all)) (by simp), line?,
    cutBasic?_escape]
  simp [unescape?_escape]

theorem string?_literal (hempty : cs ≠ []) (hquote : '\'' ∉ cs)
    (hplain : ∀ x ∈ cs, MayStand false x) :
    string? ('\'' :: cs ++ '\'' :: rest) = some (cs, rest) := by
  obtain ⟨c, cs, rfl⟩ := List.exists_cons_of_ne_nil hempty
  have hc : c ≠ '\'' := fun h => hquote (by simp [h])
  rw [List.cons_append, string?.eq_3 _ (by simp) (by simp [hc]), line?, cutLiteral?_append hquote]
  simp [plain?_eq hplain]

theorem string?_basicLines (cs : List Char) (hrest : rest.head? ≠ some '"') :
    string? (lines '"' cs (escape true 2 cs) ++ rest) = some (cs, rest) := by
  have hcut : cutBasicLines?
      ((if cs.contains '\n' then ['\n'] else []) ++ escape true 2 cs ++ '"' :: '"' :: '"' :: rest) =
        some ((if cs.contains '\n' then ['\n'] else []) ++ escape true 2 cs, rest) := by
    rw [List.append_assoc]
    refine passesEscapes_cutBasicLines?.plains (fun d hd => ?_)
      (cutBasicLines?_escape le_rfl cs hrest)
    have hd : d = '\n' := by
      split at hd <;> simp_all
    subst hd
    exact ⟨by decide, by decide⟩
  obtain ⟨hline, hreturn⟩ := head?_escape true 2 cs
  have htrim := trimFirstLineEnd_opened hline hreturn
  simp only [lines, List.cons_append, List.nil_append, List.append_assoc] at hcut htrim ⊢
  rw [string?, hcut]
  simp only [Option.bind_eq_bind, Option.bind_some, htrim, unescape?_escape]
  rfl

theorem string?_literalLines (hquotes : ¬['\'', '\'', '\''] <:+: cs)
    (hplain : ∀ x ∈ cs, MayStand true x) (hrest : rest.head? ≠ some '\'') :
    string? (lines '\'' cs cs ++ rest) = some (cs, rest) := by
  have hquotes' : ¬['\'', '\'', '\''] <:+: (if cs.contains '\n' then ['\n'] else []) ++ cs := by
    split
    · simpa [List.infix_cons_iff] using hquotes
    · exact hquotes
  have hcut := cutLiteralLines?_append hquotes' hrest
  have htrim : trimFirstLineEnd ((if cs.contains '\n' then ['\n'] else []) ++ cs) = cs := by
    refine trimFirstLineEnd_opened (fun h heq => h (List.mem_of_mem_head? heq)) fun heq => ?_
    exact (hplain '\r' (List.mem_of_mem_head? heq)).ne_return rfl
  simp only [lines, List.cons_append, List.nil_append, List.append_assoc] at hcut htrim ⊢
  rw [string?, hcut]
  simp only [Option.bind_eq_bind, Option.bind_some, htrim, plain?_eq hplain]
  rfl

theorem mayStand_of_any (hcontrol : (cs.any fun c => isControl c && c != '\n') = false) :
    ∀ x ∈ cs, MayStand true x := by
  intro x hx
  by_cases hline : x = '\n'
  · exact Or.inr ⟨rfl, hline⟩
  · have hnot := List.any_eq_false.mp hcontrol x hx
    exact Or.inl (by simpa [hline] using hnot)

/-- A text that is written is read back, with all that follows it. -/
theorem string?_write (cs rest : List Char) (hdouble : rest.head? ≠ some '"')
    (hsingle : rest.head? ≠ some '\'') : string? (write cs ++ rest) = some (cs, rest) := by
  have hbasic : string? ('"' :: escape false 0 cs ++ ['"'] ++ rest) = some (cs, rest) := by
    rw [List.append_assoc]
    exact string?_basic cs hdouble
  rw [write]
  simp only [Bool.and_eq_true, Bool.not_eq_true', beq_iff_eq, decide_eq_true_eq]
  split
  · exact hbasic
  split
  · next hneeds h =>
    obtain ⟨⟨hcontrol, hrun⟩, hline⟩ := h
    -- The empty text needs no escape.
    have hempty : cs ≠ [] := by
      rintro rfl
      exact hneeds (by simp [longestRun])
    have hquote : '\'' ∉ cs := by
      intro hmem
      have hone := le_longestRun (k := 0) ((List.singleton_infix_iff _ cs).mpr hmem)
      omega
    rw [List.append_assoc]
    refine string?_literal hempty hquote fun x hx =>
      (mayStand_of_any hcontrol x hx).of_not_lineEnd ?_ false
    rintro rfl
    simp [hx] at hline
  split
  · exact string?_basicLines cs hdouble
  split
  · next h =>
    obtain ⟨hcontrol, hrun⟩ := h
    refine string?_literalLines (fun hquotes => ?_) (mayStand_of_any hcontrol) hsingle
    have hlong := le_longestRun (k := 2) hquotes
    omega
  split
  · exact string?_basicLines cs hdouble
  · exact hbasic

/-- A string begins with a quote. -/
theorem write_eq_cons (cs : List Char) : ∃ q t, write cs = q :: t ∧ (q = '"' ∨ q = '\'') := by
  rw [write]
  split_ifs
  · exact ⟨'"', _, rfl, Or.inl rfl⟩
  · exact ⟨'\'', _, rfl, Or.inr rfl⟩
  · exact ⟨'"', _, rfl, Or.inl rfl⟩
  · exact ⟨'\'', _, rfl, Or.inr rfl⟩
  · exact ⟨'"', _, rfl, Or.inl rfl⟩
  · exact ⟨'"', _, rfl, Or.inl rfl⟩

end Strings

end SyncEndpoint.Toml.Quoted
