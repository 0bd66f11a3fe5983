import SyncEndpoint.Proofs.Toml.Value
import SyncEndpoint.Toml.Document

set_option autoImplicit false

/-! # Documents read back

A document of sections is read back as one table for each, with the values of its keys
(`Document.parse?_writeSections`). The reader sees one statement a line; what the rest of the text
reads as is kept in `Reader.Reads`, and is extended line by line from the end. -/

namespace SyncEndpoint.Toml

open Text (ne_of_holds takeWhile_append_stop)

variable {cs rest : List Char} {c : Char}

/-- A key that is written without quotes. -/
def IsBare (key : String) : Prop :=
  key.toList ≠ [] ∧ key.toList.all Reader.isBareKeyChar = true

instance (key : String) : Decidable (IsBare key) := inferInstanceAs (Decidable (_ ∧ _))

theorem IsBare.eq_cons {key : String} (hkey : IsBare key) :
    ∃ k ks, key.toList = k :: ks ∧ Reader.isBareKeyChar k = true := by
  obtain ⟨k, ks, heq⟩ := List.exists_cons_of_ne_nil hkey.1
  exact ⟨k, ks, heq, List.all_eq_true.mp hkey.2 k (by simp [heq])⟩

/-- Where a bare key stands, nothing begins that a character of another kind begins. -/
theorem IsBare.append_ne {key : String} (hkey : IsBare key) {q : Char} {t : List Char}
    (hq : Reader.isBareKeyChar q = false) : key.toList ++ cs ≠ q :: t := by
  obtain ⟨k, ks, heq, hk⟩ := hkey.eq_cons
  rw [heq]
  exact fun h => ne_of_holds hk hq (List.cons.inj h).1

namespace Section

/-- The header and the keys are bare, and no key is there twice. -/
structure WellFormed (s : Section) : Prop where
  bare : IsBare s.name
  keysBare : ∀ entry ∈ s.entries, IsBare entry.1
  keysDistinct : (s.entries.map Prod.fst).Nodup

def entryStatement (entry : String × Plain) : Statement := .pair [] entry.1 entry.2.value

/-- The statements on the lines of a section. -/
def statements (s : Section) : List Statement :=
  .table [] s.name :: s.entries.map entryStatement

/-- The members of the table that a section is read as. -/
def members (s : Section) : Members :=
  s.entries.map fun entry => (entry.1, entry.2.value)

end Section

namespace Reader

/-! ## Keys -/

theorem isInk_of_isBareKeyChar (hc : isBareKeyChar c = true) : isInk c = true := by
  have hne : ∀ d : Char, isBareKeyChar d = false → ¬c = d := fun _ => ne_of_holds hc
  simp [isInk, isBlank, hne ' ' rfl, hne '\t' rfl, hne '\n' rfl, hne '\r' rfl, hne '#' rfl]

theorem keyPart?_bare {key : String} (hkey : IsBare key) (hc : isBareKeyChar c = false)
    (rest : List Char) :
    keyPart? (key.toList ++ c :: rest) = some (key, c :: rest) := by
  rw [keyPart?.eq_3 _ (fun _ => hkey.append_ne rfl) fun _ => hkey.append_ne rfl,
    takeWhile_append_stop (List.all_eq_true.mp hkey.2) hc]
  split
  · next hempty => exact absurd hempty hkey.1
  · rw [List.drop_left, String.ofList_toList]

theorem key?_bare (fuel : Nat) {key : String} {d : Char} {after : List Char} (hkey : IsBare key)
    (hc : isBareKeyChar c = false) (hskip : skipBlanks (c :: rest) = d :: after) (hd : d ≠ '.') :
    key? (fuel + 1) (key.toList ++ c :: rest) = some (([], key), d :: after) := by
  have hpart := keyPart?_bare hkey hc rest
  obtain ⟨k, ks, heq, hk⟩ := hkey.eq_cons
  rw [heq, List.cons_append] at hpart ⊢
  rw [key?, skipBlanks_ink (isInk_of_isBareKeyChar hk), hpart]
  simp only [Option.bind_eq_bind, Option.bind_some, hskip]
  split
  · next h => exact absurd (List.cons.inj h).1 hd
  · rfl

/-! ## Lines -/

theorem statement?_header {name : String} (hname : IsBare name) :
    statement? ('[' :: (name.toList ++ ']' :: '\n' :: rest)) = some (.table [] name, rest) := by
  rw [statement?.eq_2 _ fun _ => hname.append_ne rfl,
    key?_bare _ hname rfl (skipBlanks_ink rfl) (by decide)]
  rfl

theorem statement?_entry {entry : String × Plain} (hkey : IsBare entry.1) :
    statement? (Section.entryLine entry ++ rest) = some (Section.entryStatement entry, rest) := by
  have hline : Section.entryLine entry ++ rest =
      entry.1.toList ++ ' ' :: '=' :: ' ' :: (entry.2.write ++ '\n' :: rest) := by
    simp [Section.entryLine]
  obtain ⟨c, t, hwrite, hc⟩ := write_eq_cons entry.2
  have hskip : skipBlanks (' ' :: (entry.2.write ++ '\n' :: rest)) =
      entry.2.write ++ '\n' :: rest := by
    rw [hwrite, List.cons_append]
    exact skipBlanks_ink hc
  rw [hline, statement?.eq_3 _ (fun _ => hkey.append_ne rfl) fun _ => hkey.append_ne rfl,
    key?_bare _ hkey rfl rfl (by decide)]
  simp only [Option.bind_eq_bind, Option.bind_some, hskip]
  rw [mostNested, value?_write]
  · rfl
  · simp
    omega

/-! ## Statements to the end -/

/-- The statements that a text is read as, with any fuel that is enough for its length. -/
def Reads (cs : List Char) (ss : List Statement) : Prop :=
  ∀ fuel, cs.length < fuel → statements? fuel cs = some ss

theorem reads_nil : Reads [] [] := by
  intro fuel hfuel
  obtain ⟨fuel, rfl⟩ : ∃ f, fuel = f + 1 := ⟨fuel - 1, by simp at hfuel; omega⟩
  rfl

theorem Reads.lineEnd {ss : List Statement} (h : Reads cs ss) : Reads ('\n' :: cs) ss := by
  intro fuel hfuel
  obtain ⟨fuel, rfl⟩ : ∃ f, fuel = f + 1 := ⟨fuel - 1, by simp at hfuel; omega⟩
  have hrest := h (fuel + 1) (by simp at hfuel; omega)
  rw [statements?] at hrest ⊢
  rwa [skipLines?]

/-- A line that begins a statement is read before what follows it. -/
theorem Reads.cons {ss : List Statement} {s : Statement} {line t : List Char}
    (hline : line = c :: t) (hc : isInk c = true)
    (hs : statement? (line ++ rest) = some (s, rest)) (h : Reads rest ss) :
    Reads (line ++ rest) (s :: ss) := by
  subst hline
  intro fuel hfuel
  simp only [List.cons_append, List.length_cons, List.length_append] at hfuel hs ⊢
  obtain ⟨fuel, rfl⟩ : ∃ f, fuel = f + 1 := ⟨fuel - 1, by omega⟩
  rw [statements?, skipLines?_ink hc]
  simp only [Option.bind_eq_bind, Option.bind_some, hs, h fuel (by omega)]
  rfl

theorem Reads.entries {ss : List Statement} {entries : List (String × Plain)}
    (hkeys : ∀ entry ∈ entries, IsBare entry.1) (h : Reads rest ss) :
    Reads (entries.flatMap Section.entryLine ++ rest)
      (entries.map Section.entryStatement ++ ss) := by
  induction entries with
  | nil => exact h
  | cons entry entries ih =>
    obtain ⟨hkey, hkeys⟩ := List.forall_mem_cons.mp hkeys
    obtain ⟨k, ks, heq, hk⟩ := hkey.eq_cons
    have hline : Section.entryLine entry =
        k :: (ks ++ [' ', '=', ' '] ++ entry.2.write ++ ['\n']) := by
      rw [Section.entryLine, heq]
      rfl
    rw [List.flatMap_cons, List.append_assoc]
    exact Reads.cons hline (isInk_of_isBareKeyChar hk) (statement?_entry hkey) (ih hkeys)

theorem Reads.section {ss : List Statement} {s : Section} (hs : s.WellFormed) (h : Reads rest ss) :
    Reads (s.write ++ rest) (s.statements ++ ss) := by
  have hwrite : s.write ++ rest =
      '[' :: s.name.toList ++ [']', '\n'] ++ (s.entries.flatMap Section.entryLine ++ rest) := by
    simp [Section.write]
  rw [hwrite]
  refine Reads.cons (c := '[') rfl rfl ?_ (h.entries hs.keysBare)
  rw [List.cons_append, List.cons_append, List.append_assoc]
  exact statement?_header hs.bare

theorem reads_sections {sections : List Section} (hs : ∀ s ∈ sections, s.WellFormed) :
    Reads (List.intercalate ['\n'] (sections.map Section.write))
      (sections.flatMap Section.statements) := by
  induction sections with
  | nil => exact reads_nil
  | cons s sections ih =>
    obtain ⟨hfirst, hs⟩ := List.forall_mem_cons.mp hs
    cases sections with
    | nil => simpa [List.intercalate_singleton] using reads_nil.section hfirst
    | cons s' sections =>
      rw [List.map_cons, List.map_cons, List.intercalate_cons_cons, List.append_assoc,
        List.flatMap_cons]
      exact (ih hs).lineEnd.section hfirst

end Reader

/-! ## Members -/

namespace Members

variable {ms : Members} {key : String} {v w : Value}

theorem get?_eq_none : ms.get? key = none ↔ key ∉ ms.map Prod.fst := by
  simp only [get?, Option.map_eq_none_iff, List.find?_eq_none, List.mem_map, beq_iff_eq]
  exact ⟨fun h ⟨m, hm, heq⟩ => h m hm heq, fun h m hm heq => h ⟨m, hm, heq⟩⟩

theorem get?_append_self (hkey : ms.get? key = none) : get? (ms ++ [(key, v)]) key = some v := by
  rw [get?, Option.map_eq_none_iff] at hkey
  simp [get?, List.find?_append, hkey]

theorem replace_append_self (hkey : ms.get? key = none) :
    replace (ms ++ [(key, v)]) key w = ms ++ [(key, w)] := by
  rw [get?_eq_none] at hkey
  have hsame : ∀ m ∈ ms, (if m.1 == key then (key, w) else m) = m := fun m hm =>
    if_neg fun heq => hkey (List.mem_map.mpr ⟨m, hm, beq_iff_eq.mp heq⟩)
  rw [replace, List.map_append, List.map_congr_left hsame, List.map_id', List.map_singleton,
    if_pos (beq_self_eq_true key)]

end Members

theorem Section.get?_members (s : Section) (key : String) :
    Members.get? s.members key = (s.entries.find? (·.1 == key)).map (·.2.value) := by
  rw [Members.get?, Section.members, List.find?_map, Option.map_map]
  rfl

namespace Document

theorem add?_table {ms : Members} {name : String} (current : List String)
    (hname : ms.get? name = none) :
    add? ⟨ms, current⟩ (.table [] name) =
      some ⟨ms ++ [(name, .table .header [])], [name]⟩ := by
  simp [add?, Members.updateAt, openTable?, hname]

theorem add?_pair {ms inner : Members} {name key : String} {v : Value}
    (hname : ms.get? name = none) (hkey : Members.get? inner key = none) :
    add? ⟨ms ++ [(name, .table .header inner)], [name]⟩ (.pair [] key v) =
      some ⟨ms ++ [(name, .table .header (inner ++ [(key, v)]))], [name]⟩ := by
  have hpair : Members.addPair? inner [] key v = some (inner ++ [(key, v)]) := by
    simp [Members.addPair?, Members.updateAt, Members.add?, hkey]
  simp [add?, Members.updateAt, Members.get?_append_self hname, Members.mayExtend, hpair,
    Members.replace_append_self hname]

/-- The entries of the section that was opened last go into its table. -/
theorem foldlM_entries {ms : Members} {name : String} (hname : ms.get? name = none)
    {entries : List (String × Plain)} {inner : Members}
    (hkeys : (inner.map Prod.fst ++ entries.map Prod.fst).Nodup) :
    (entries.map Section.entryStatement).foldlM add?
        ⟨ms ++ [(name, .table .header inner)], [name]⟩ =
      some ⟨ms ++ [(name, .table .header (inner ++ entries.map fun e => (e.1, e.2.value)))],
        [name]⟩ := by
  induction entries generalizing inner with
  | nil => simp
  | cons entry entries ih =>
    have hkey : Members.get? inner entry.1 = none := Members.get?_eq_none.mpr fun hmem =>
      (List.nodup_append.mp hkeys).2.2 _ hmem _ (by simp) rfl
    rw [List.map_cons, List.foldlM_cons, Section.entryStatement, add?_pair hname hkey]
    simp only [Option.bind_eq_bind, Option.bind_some]
    rw [ih (by simpa using hkeys)]
    simp

/-- Sections with new names are added behind the members that are there. -/
theorem foldlM_sections {sections : List Section} (hs : ∀ s ∈ sections, s.WellFormed)
    (ms : Members) (current : List String)
    (hnames : (ms.map Prod.fst ++ sections.map Section.name).Nodup) :
    ∃ last, (sections.flatMap Section.statements).foldlM add? ⟨ms, current⟩ =
      some ⟨ms ++ sections.map fun s => (s.name, .table .header s.members), last⟩ := by
  induction sections generalizing ms current with
  | nil => exact ⟨current, by simp⟩
  | cons s sections ih =>
    obtain ⟨hfirst, hs⟩ := List.forall_mem_cons.mp hs
    have hname : ms.get? s.name = none := Members.get?_eq_none.mpr fun hmem =>
      (List.nodup_append.mp hnames).2.2 _ hmem _ (by simp) rfl
    obtain ⟨last, hrest⟩ := ih hs (ms ++ [(s.name, .table .header s.members)]) [s.name]
      (by simpa using hnames)
    refine ⟨last, ?_⟩
    rw [List.flatMap_cons, List.foldlM_append, Section.statements, List.foldlM_cons,
      add?_table _ hname]
    simp only [Option.bind_eq_bind, Option.bind_some]
    rw [foldlM_entries hname (by simpa using hfirst.keysDistinct)]
    simpa [Section.members] using hrest

theorem parse?_writeSections {sections : List Section} (hs : ∀ s ∈ sections, s.WellFormed)
    (hnames : (sections.map Section.name).Nodup) :
    parse? (writeSections sections) =
      some (sections.map fun s => (s.name, .table .header s.members)) := by
  obtain ⟨last, hfold⟩ := foldlM_sections hs [] [] (by simpa using hnames)
  have htrim : trimByteOrderMark (List.intercalate ['\n'] (sections.map Section.write)) =
      List.intercalate ['\n'] (sections.map Section.write) := by
    match sections with
    | [] => rfl
    | [s] => rfl
    | s :: s' :: sections => rfl
  rw [parse?, writeSections, String.toList_ofList, Toml.statements?, htrim,
    Reader.reads_sections hs _ (Nat.lt_succ_self _)]
  simp only [Option.bind_eq_bind, Option.bind_some, empty, hfold]
  simp

end Document

end SyncEndpoint.Toml
