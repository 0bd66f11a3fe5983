import SyncEndpoint.Json.Printer
import SyncEndpoint.Proofs.Json.Strings

set_option autoImplicit false

/-! # JSON values read back

A value that is built from texts, natural numbers and truth values is read back from its compact
form (`parse?_compact`). What follows a value or its list of items is kept open, so that the steps of
the reader can be put together. -/

namespace SyncEndpoint.Json

open Text

/-- A value is built from texts, natural numbers, truth values and null. -/
inductive Built : Json → Prop where
  | null : Built .null
  | bool (b : Bool) : Built (.bool b)
  | number (n : Nat) : Built (.ofNat n)
  | text (s : String) : Built (.ofString s)
  | list (items : List Json) (h : ∀ v ∈ items, Built v) : Built (.arr items)
  | record (members : List (List Char × Json)) (hkeys : ∀ m ∈ members, ∃ k, m.1 = escape k)
      (h : ∀ m ∈ members, Built m.2) : Built (.obj members)

theorem built_ofMembers {members : List (String × Json)} (h : ∀ m ∈ members, Built m.2) :
    Built (.ofMembers members) := by
  refine Built.record _ ?_ ?_
  · simp only [List.forall_mem_map]
    exact fun m _ => ⟨_, rfl⟩
  · simpa only [List.forall_mem_map] using h

variable {v : Json} {cs rest : List Char} {c : Char} {fuel : Nat}

@[simp]
theorem compactItems_cons_cons (v w : Json) (vs : List Json) :
    compactItems (v :: w :: vs) = compactChars v ++ ',' :: compactItems (w :: vs) := by
  rw [compactItems]
  simp

@[simp]
theorem compactMembers_cons_cons (k : List Char) (v : Json) (m : List Char × Json)
    (ms : List (List Char × Json)) : compactMembers ((k, v) :: m :: ms) =
      quoted k ++ ':' :: compactChars v ++ ',' :: compactMembers (m :: ms) := by
  rw [compactMembers]
  simp

namespace Reader

@[simp]
theorem skipSpace_cons (hc : isSpace c = false) : skipSpace (c :: cs) = c :: cs := by
  simp [skipSpace, hc]

theorem isSpace_of_isDigit (hc : c.isDigit = true) : isSpace c = false := by
  have hne : ∀ d : Char, d.isDigit = false → c ≠ d := fun _ => ne_of_holds hc
  simp [isSpace, hne ' ' rfl, hne '\t' rfl, hne '\n' rfl, hne '\r' rfl]

theorem endsNumber_cons (hc : c.isDigit = false ∧ c ≠ '.' ∧ c ≠ 'e' ∧ c ≠ 'E') (cs : List Char) :
    EndsNumber (c :: cs) := by
  rintro d hd
  cases hd
  exact hc

/-- A value is read from its compact form, whatever follows that no number goes on with. -/
def Reads (v : Json) : Prop :=
  ∀ (fuel : Nat) (rest : List Char), 2 * (compactChars v).length ≤ fuel → EndsNumber rest →
    value? fuel (compactChars v ++ rest) = some (v, rest)

/-- The first character of a value is no blank, and does not close a list. -/
theorem exists_compactChars_eq_cons (h : Built v) :
    ∃ c cs, compactChars v = c :: cs ∧ isSpace c = false ∧ c ≠ ']' := by
  cases h with
  | null => exact ⟨'n', _, rfl, rfl, by decide⟩
  | bool b => cases b <;> exact ⟨_, _, rfl, rfl, by decide⟩
  | number n =>
    obtain ⟨d, ds, heq, hd⟩ := toDigits_eq_cons n
    exact ⟨d, ds, heq, isSpace_of_isDigit hd, ne_of_holds hd rfl⟩
  | text s => exact ⟨'"', _, rfl, rfl, by decide⟩
  | list items _ => exact ⟨'[', _, rfl, rfl, by decide⟩
  | record members _ _ => exact ⟨'\x7b', _, rfl, rfl, by decide⟩

/-- Some fuel is there whenever there is enough. -/
theorem reads_of_succ (h : Built v) (hread : ∀ (fuel : Nat) (rest : List Char),
    2 * (compactChars v).length ≤ fuel + 1 → EndsNumber rest →
      value? (fuel + 1) (compactChars v ++ rest) = some (v, rest)) : Reads v := by
  intro fuel rest hfuel hrest
  obtain ⟨c, cs, heq, -⟩ := exists_compactChars_eq_cons h
  cases fuel with
  | zero => simp [heq] at hfuel
  | succ fuel => exact hread fuel rest hfuel hrest

/-! ## Values without parts -/

theorem reads_null : Reads .null :=
  reads_of_succ .null fun _ _ _ _ => rfl

theorem reads_bool (b : Bool) : Reads (.bool b) := by
  refine reads_of_succ (.bool b) fun fuel rest _ _ => ?_
  cases b <;> rfl

theorem reads_number (n : Nat) : Reads (.ofNat n) := by
  refine reads_of_succ (.number n) fun fuel rest _ hrest => ?_
  obtain ⟨d, ds, heq, hd⟩ := toDigits_eq_cons n
  have hread := number?_toDigits n hrest
  have hne : ∀ c : Char, c.isDigit = false → d ≠ c := fun _ => ne_of_holds hd
  rw [ofNat, compactChars, heq]
  rw [heq] at hread
  simp only [List.cons_append] at hread ⊢
  simp [value?, isSpace_of_isDigit hd, hne, hread]

theorem reads_text (s : String) : Reads (.ofString s) := by
  refine reads_of_succ (.text s) fun fuel rest _ _ => ?_
  rw [ofString, compactChars, quoted]
  simp [value?, isSpace, stringBody?_escape]

/-! ## Lists and records -/

theorem items?_compactItems {vs : List Json} (hempty : vs ≠ []) (hread : ∀ v ∈ vs, Reads v) :
    ∀ (fuel : Nat) (rest : List Char), 2 * (compactItems vs).length < fuel →
      items? fuel (compactItems vs ++ ']' :: rest) = some (vs, rest) := by
  induction vs with
  | nil => exact absurd rfl hempty
  | cons v vs ih =>
    obtain ⟨hv, hvs⟩ := List.forall_mem_cons.mp hread
    rintro (_ | fuel) rest hfuel
    · exact absurd hfuel (Nat.not_lt_zero _)
    · cases vs with
      | nil =>
        have hclose : EndsNumber (']' :: rest) := endsNumber_cons (by decide) rest
        rw [compactItems] at hfuel ⊢
        rw [items?, hv fuel _ (by omega) hclose]
        simp [isSpace]
      | cons w vs =>
        have hcomma : EndsNumber (',' :: (compactItems (w :: vs) ++ ']' :: rest)) :=
          endsNumber_cons (by decide) _
        rw [compactItems_cons_cons, List.length_append, List.length_cons] at hfuel
        rw [compactItems_cons_cons, List.append_assoc, List.cons_append, items?,
          hv fuel _ (by omega) hcomma]
        simp [isSpace, ih (by simp) hvs fuel rest (by omega)]

theorem members?_compactMembers {ms : List (List Char × Json)} (hempty : ms ≠ [])
    (hkeys : ∀ m ∈ ms, ∃ k, m.1 = escape k) (hread : ∀ m ∈ ms, Reads m.2) :
    ∀ (fuel : Nat) (rest : List Char), 2 * (compactMembers ms).length < fuel →
      members? fuel (compactMembers ms ++ '\x7d' :: rest) = some (ms, rest) := by
  induction ms with
  | nil => exact absurd rfl hempty
  | cons m ms ih =>
    obtain ⟨k, v⟩ := m
    obtain ⟨⟨key, rfl⟩, hmore⟩ := List.forall_mem_cons.mp hkeys
    obtain ⟨hv, hms⟩ := List.forall_mem_cons.mp hread
    rintro (_ | fuel) rest hfuel
    · exact absurd hfuel (Nat.not_lt_zero _)
    · cases ms with
      | nil =>
        have hclose : EndsNumber ('\x7d' :: rest) := endsNumber_cons (by decide) rest
        simp only [compactMembers, List.length_append, List.length_cons] at hfuel
        have hvalue := hv fuel _ (by simp only; omega) hclose
        simp [compactMembers, quoted, members?, isSpace, stringBody?_escape, hvalue]
      | cons m ms =>
        have hcomma : EndsNumber (',' :: (compactMembers (m :: ms) ++ '\x7d' :: rest)) :=
          endsNumber_cons (by decide) _
        simp only [compactMembers_cons_cons, List.length_append, List.length_cons] at hfuel
        have hvalue := hv fuel _ (by simp only; omega) hcomma
        have hrest := ih (by simp) hmore hms fuel rest (by omega)
        simp [quoted, members?, isSpace, stringBody?_escape, hvalue, hrest]

theorem exists_compactItems_eq_cons {vs : List Json} (h : Built v) :
    ∃ c cs, compactItems (v :: vs) = c :: cs ∧ isSpace c = false ∧ c ≠ ']' := by
  obtain ⟨c, cs, heq, hc⟩ := exists_compactChars_eq_cons h
  cases vs with
  | nil => exact ⟨c, cs, heq, hc⟩
  | cons w vs => exact ⟨c, _, by rw [compactItems_cons_cons, heq, List.cons_append], hc⟩

theorem reads_list {items : List Json} (hbuilt : ∀ v ∈ items, Built v)
    (hread : ∀ v ∈ items, Reads v) : Reads (.arr items) := by
  refine reads_of_succ (.list items hbuilt) fun fuel rest hfuel _ => ?_
  cases items with
  | nil => rfl
  | cons v vs =>
    obtain ⟨c, cs, heq, hc, hopen⟩ := exists_compactItems_eq_cons (hbuilt v List.mem_cons_self)
    rw [compactChars] at hfuel ⊢
    have hitems := items?_compactItems (by simp) hread fuel rest (by simp at hfuel; omega)
    rw [heq] at hitems ⊢
    simp only [List.cons_append, List.append_assoc, List.nil_append] at hitems ⊢
    have hbracket : isSpace '[' = false := rfl
    simp [value?, hbracket, hc, hopen, hitems]

theorem reads_record {members : List (List Char × Json)}
    (hkeys : ∀ m ∈ members, ∃ k, m.1 = escape k) (hbuilt : ∀ m ∈ members, Built m.2)
    (hread : ∀ m ∈ members, Reads m.2) : Reads (.obj members) := by
  refine reads_of_succ (.record members hkeys hbuilt) fun fuel rest hfuel _ => ?_
  cases members with
  | nil => rfl
  | cons m ms =>
    obtain ⟨cs, heq⟩ : ∃ cs, compactMembers (m :: ms) = '"' :: cs := by
      cases ms <;> exact ⟨_, rfl⟩
    rw [compactChars] at hfuel ⊢
    have hmembers := members?_compactMembers (by simp) hkeys hread fuel rest
      (by simp at hfuel; omega)
    rw [heq] at hmembers ⊢
    simp only [List.cons_append, List.append_assoc, List.nil_append] at hmembers ⊢
    simp [value?, isSpace, hmembers]

end Reader

/-- What is built is read as what it is, whatever follows. -/
theorem Built.reads (h : Built v) : Reader.Reads v := by
  induction h with
  | null => exact Reader.reads_null
  | bool b => exact Reader.reads_bool b
  | number n => exact Reader.reads_number n
  | text s => exact Reader.reads_text s
  | list items hbuilt ih => exact Reader.reads_list hbuilt ih
  | record members hkeys hbuilt ih => exact Reader.reads_record hkeys hbuilt ih

/-- What is built is read back from its compact form. -/
theorem parse?_compact (h : Built v) : parse? v.compact = some v := by
  have hread := h.reads (2 * (compactChars v).length + 2) [] (by omega) (by simp [Reader.EndsNumber])
  rw [List.append_nil] at hread
  rw [parse?, compact, String.toList_ofList, parseChars?, hread]
  rfl

end SyncEndpoint.Json
