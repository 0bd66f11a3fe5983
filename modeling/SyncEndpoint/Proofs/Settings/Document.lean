import Mathlib.Data.Finset.Image
import SyncEndpoint.Proofs.Text.Lossy
import SyncEndpoint.Proofs.Toml.Document
import SyncEndpoint.Settings.Files

set_option autoImplicit false

/-! # Settings read back

Settings that can be written are read back as they were (`ofDocument_toDocument`). A key may be left
out of the document, which then stands for the default of that setting, unless it is the log level:
its section has to give it (`mayLeaveOut_iff`). Both follow from what a document is read as that
lacks some of the keys (`ofText?_toTextWithout`). -/

namespace SyncEndpoint

namespace Settings

open Toml (Members Section Value)

/-! ## Keys left out -/

/-- The keys of a document of settings. -/
inductive Key where
  | logLevel
  | root
  | bufferCapacity
  | eventChannelCapacity
  | ignorePatterns
  deriving DecidableEq

/-- How a key is written. -/
def Key.name : Key → String
  | .logLevel => "log_level"
  | .root => "root"
  | .bufferCapacity => "buffer_capacity"
  | .eventChannelCapacity => "event_channel_capacity"
  | .ignorePatterns => "ignore_patterns"

theorem Key.name_injective : Function.Injective Key.name := by
  intro k l h
  cases k <;> cases l <;> first | rfl | (revert h; decide)

/-- A section without the lines of some keys. -/
def without (dropped : Finset Key) (s : Section) : Section :=
  { s with entries := s.entries.filter fun entry => entry.1 ∉ dropped.image Key.name }

/-- The document of settings without the lines of some keys; all headers stay. -/
def toTextWithout? (s : Settings) (dropped : Finset Key) : Option String :=
  s.sections?.map fun sections => Toml.writeSections (sections.map (without dropped))

/-- Settings with the defaults in some places. -/
def withDefaults (s : Settings) (dropped : Finset Key) : Settings where
  logLevel := if .logLevel ∈ dropped then default.logLevel else s.logLevel
  root := if .root ∈ dropped then default.root else s.root
  bufferCapacity := if .bufferCapacity ∈ dropped then default.bufferCapacity else s.bufferCapacity
  eventChannelCapacity :=
    if .eventChannelCapacity ∈ dropped then default.eventChannelCapacity else s.eventChannelCapacity
  ignorePatterns := if .ignorePatterns ∈ dropped then default.ignorePatterns else s.ignorePatterns

variable {s : Settings} {dropped : Finset Key}

theorem toTextWithout?_empty (s : Settings) : s.toTextWithout? ∅ = s.toText? := by
  have hsame : without ∅ = id := by
    funext s
    simp [without]
  simp [toTextWithout?, toText?, hsame]

theorem withDefaults_empty (s : Settings) : s.withDefaults ∅ = s := by
  simp [withDefaults]

/-! ## Sections -/

def generalSection (s : Settings) : Section := ⟨"general", [(Key.logLevel.name, .text s.logLevel)]⟩

def endpointSection (root : Option String) : Section :=
  ⟨"endpoint", root.toList.map fun text => (Key.root.name, .text text)⟩

def watchSection (s : Settings) : Section :=
  ⟨"watch",
    [(Key.bufferCapacity.name, .number s.bufferCapacity.toNat),
      (Key.eventChannelCapacity.name, .number s.eventChannelCapacity.toNat),
      (Key.ignorePatterns.name, .texts s.ignorePatterns)]⟩

/-- The sections of settings, with a root that is text. -/
def sectionsWith (s : Settings) (root : Option String) : List Section :=
  [s.generalSection, endpointSection root, s.watchSection]

theorem sections?_eq {sections : List Section} (h : s.sections? = some sections) :
    ∃ root : Option String, s.root = root.map NativePath.ofString ∧
      sections = s.sectionsWith root := by
  rw [Settings.sections?] at h
  cases hroot : s.root with
  | none =>
    rw [hroot] at h
    exact ⟨none, rfl, (Option.some.inj h).symm⟩
  | some path =>
    cases htext : Text.Utf8.decode? path with
    | none => simp [hroot, htext] at h
    | some text =>
      simp only [hroot, htext, Option.map_some, Option.bind_eq_bind, Option.bind_some] at h
      refine ⟨some text, ?_, (Option.some.inj h).symm⟩
      rw [Option.map_some, NativePath.ofString, Text.Utf8.encode_of_decode? htext]

theorem wellFormed_without {sec : Section} (h : sec.WellFormed) :
    (without dropped sec).WellFormed where
  bare := h.bare
  keysBare entry hentry := h.keysBare entry (List.mem_of_mem_filter hentry)
  keysDistinct := h.keysDistinct.sublist (List.filter_sublist.map Prod.fst)

theorem wellFormed_of_keys {sec : Section} (keys : List Key) (hname : sec.name ∈ sectionNames)
    (hkeys : sec.entries.map Prod.fst = keys.map Key.name) (hdistinct : keys.Nodup) :
    sec.WellFormed where
  bare := by
    have hbare : ∀ name ∈ sectionNames, Toml.IsBare name := by decide
    exact hbare _ hname
  keysBare entry hentry := by
    have hmem : entry.1 ∈ keys.map Key.name := hkeys ▸ List.mem_map_of_mem hentry
    obtain ⟨key, -, heq⟩ := List.mem_map.mp hmem
    rw [← heq]
    cases key <;> decide
  keysDistinct := by
    rw [hkeys]
    exact hdistinct.map Key.name_injective

theorem wellFormed_sections (s : Settings) (root : Option String) :
    ∀ sec ∈ s.sectionsWith root, sec.WellFormed := by
  have hgeneral : s.generalSection.WellFormed :=
    wellFormed_of_keys [.logLevel] (by simp [generalSection, sectionNames]) rfl (by decide)
  have hendpoint : (endpointSection root).WellFormed := by
    cases root with
    | none =>
      exact wellFormed_of_keys [] (by simp [endpointSection, sectionNames]) rfl (by decide)
    | some text =>
      exact wellFormed_of_keys [.root] (by simp [endpointSection, sectionNames]) rfl (by decide)
  have hwatch : s.watchSection.WellFormed :=
    wellFormed_of_keys [.bufferCapacity, .eventChannelCapacity, .ignorePatterns]
      (by simp [watchSection, sectionNames]) rfl (by decide)
  simp only [sectionsWith, List.forall_mem_cons]
  exact ⟨hgeneral, hendpoint, hwatch, nofun⟩

theorem get?_members_without (sec : Section) (key : Key) :
    Members.get? (without dropped sec).members key.name =
      if key ∈ dropped then none else Members.get? sec.members key.name := by
  have hkey : key.name ∈ dropped.image Key.name ↔ key ∈ dropped :=
    Key.name_injective.mem_finset_image
  rw [Section.get?_members, Section.get?_members, without, List.find?_filter]
  split
  · next hdropped =>
    rw [List.find?_eq_none.mpr, Option.map_none]
    intro entry _ h
    simp only [decide_eq_true_eq, beq_iff_eq] at h
    exact h.1 (h.2 ▸ hkey.mpr hdropped)
  · next hkept =>
    congr 2
    funext entry
    by_cases heq : entry.1 = key.name
    · simp [heq, hkey, hkept]
    · simp [heq]

/-! ## Reading -/

/-- There is nothing to pass over among known keys. -/
theorem all_isReadable_of_known {ms : Members} {keys : List String}
    (hkeys : ∀ m ∈ ms, m.1 ∈ keys) :
    (ms.filter fun m => !keys.contains m.1).all (isReadable ·.2) = true := by
  have hnone : ms.filter (fun m => !keys.contains m.1) = [] :=
    List.filter_eq_nil_iff.mpr fun m hm => by simp [hkeys m hm]
  rw [hnone]
  rfl

theorem sectionValues?_without (dropped : Finset Key) (sec : Section) (keys : List Key)
    (hkeys : ∀ entry ∈ sec.entries, entry.1 ∈ keys.map Key.name) :
    sectionValues? (keys.map Key.name) (.table .header (without dropped sec).members) =
      some (keys.map fun key =>
        if key ∈ dropped then none else Members.get? sec.members key.name) := by
  have hknown : ∀ m ∈ (without dropped sec).members, m.1 ∈ keys.map Key.name := by
    intro m hm
    obtain ⟨entry, hentry, rfl⟩ := List.mem_map.mp hm
    exact hkeys entry (List.mem_of_mem_filter hentry)
  rw [sectionValues?, if_pos (all_isReadable_of_known hknown), List.map_map]
  simp only [Function.comp_def, get?_members_without]

theorem readGeneral?_without (t : Settings) :
    readGeneral? (.table .header (without dropped s.generalSection).members) t =
      if .logLevel ∈ dropped then none else some { t with logLevel := s.logLevel } := by
  have hvalues := sectionValues?_without dropped s.generalSection [.logLevel]
    (by simp [generalSection])
  have hkey : [Key.logLevel].map Key.name = ["log_level"] := rfl
  have hget : Members.get? s.generalSection.members Key.logLevel.name =
      some (.text s.logLevel) := rfl
  rw [hkey] at hvalues
  rw [readGeneral?, hvalues, List.map_singleton, hget]
  split_ifs <;> rfl

theorem readEndpoint?_without (root : Option String) (t : Settings) :
    readEndpoint? (.table .header (without dropped (endpointSection root)).members) t =
      some { t with root := if .root ∈ dropped then none else root.map NativePath.ofString } := by
  have hvalues := sectionValues?_without dropped (endpointSection root) [.root]
    (by cases root <;> simp [endpointSection])
  have hkey : [Key.root].map Key.name = ["root"] := rfl
  have hget : Members.get? (endpointSection root).members Key.root.name = root.map Value.text := by
    cases root <;> rfl
  rw [hkey] at hvalues
  rw [readEndpoint?, hvalues, List.map_singleton, hget]
  split_ifs <;> cases root <;> rfl

theorem capacity?_toNat (n : UInt64) : capacity? (.integer n.toNat) = some n := by
  have hfits : (0 : Int) ≤ n.toNat ∧ (n.toNat : Int) < UInt64.size :=
    ⟨by omega, by exact_mod_cast n.toNat_lt_size⟩
  rw [capacity?, if_pos hfits, Int.toNat_natCast, UInt64.ofNat_toNat]

theorem texts?_map (ss : List String) : texts? (.array (ss.map .text)) = some ss := by
  rw [texts?, List.mapM_map]
  induction ss with
  | nil => rfl
  | cons s ss ih => 
    rw [List.mapM_cons, ih]
    rfl

/-- A value that may be left out is read as itself or the default. -/
theorem orDefault_ite {α : Type} {read : Value → Option α} {v : Value} {x : α}
    (hread : read v = some x) (d : α) (p : Prop) [Decidable p] :
    orDefault read d (if p then none else some v) = some (if p then d else x) := by
  split_ifs
  · rfl
  · exact hread

theorem readWatch?_without (t : Settings) :
    readWatch? (.table .header (without dropped s.watchSection).members) t =
      some { t with 
        bufferCapacity :=
          if .bufferCapacity ∈ dropped then default.bufferCapacity else s.bufferCapacity
        eventChannelCapacity :=
          if .eventChannelCapacity ∈ dropped then default.eventChannelCapacity
          else s.eventChannelCapacity
        ignorePatterns :=
          if .ignorePatterns ∈ dropped then default.ignorePatterns else s.ignorePatterns } := by
  have hvalues := sectionValues?_without dropped s.watchSection
    [.bufferCapacity, .eventChannelCapacity, .ignorePatterns] (by simp [watchSection])
  have hkeys : [Key.bufferCapacity, .eventChannelCapacity, .ignorePatterns].map Key.name =
      ["buffer_capacity", "event_channel_capacity", "ignore_patterns"] := rfl
  have hbuffer : Members.get? s.watchSection.members Key.bufferCapacity.name =
      some (.integer s.bufferCapacity.toNat) := rfl
  have hevents : Members.get? s.watchSection.members Key.eventChannelCapacity.name =
      some (.integer s.eventChannelCapacity.toNat) := rfl
  have hpatterns : Members.get? s.watchSection.members Key.ignorePatterns.name =
      some (.array (s.ignorePatterns.map .text)) := rfl
  rw [hkeys] at hvalues
  rw [readWatch?, hvalues]
  simp only [List.map_cons, List.map_nil, hbuffer, hevents, hpatterns, Option.bind_eq_bind,
    Option.bind_some, orDefault_ite (capacity?_toNat _), orDefault_ite (texts?_map _)]
  rfl

/-- The three sections are read one after the other. -/
theorem ofMembers?_sections (general endpoint watch : Value) :
    ofMembers? [("general", general), ("endpoint", endpoint), ("watch", watch)] =
      ((readGeneral? general default).bind (readEndpoint? endpoint)).bind (readWatch? watch) := by
  rw [ofMembers?, if_pos (all_isReadable_of_known (by simp [sectionNames])), Option.bind_assoc]
  rfl

/-- What a document without some of the keys is read as. -/
theorem ofText?_toTextWithout {text : String} (h : s.toTextWithout? dropped = some text) :
    ofText? text = if .logLevel ∈ dropped then none else some (s.withDefaults dropped) := by
  obtain ⟨sections, hsections, rfl⟩ := Option.map_eq_some_iff.mp h
  obtain ⟨root, hroot, rfl⟩ := sections?_eq hsections
  have hwf : ∀ sec ∈ (s.sectionsWith root).map (without dropped), sec.WellFormed :=
    List.forall_mem_map.mpr fun sec hsec => wellFormed_without (wellFormed_sections s root sec hsec)
  have hnames : ((s.sectionsWith root).map (without dropped)).map Section.name = sectionNames := rfl
  rw [ofText?, Toml.Document.parse?_writeSections hwf (by rw [hnames]; decide), Option.bind_some]
  refine (ofMembers?_sections _ _ _).trans ?_
  rw [readGeneral?_without]
  split_ifs with hlevel
  · rfl
  · rw [Option.bind_some, readEndpoint?_without, Option.bind_some, readWatch?_without, ← hroot]
    simp [withDefaults, hlevel, default]

/-! ## Documents -/

theorem toDocument_eq_ok {text : String} : s.toDocument = .ok text ↔ s.toText? = some text := by
  rw [toDocument]
  cases s.toText? <;> simp

/-- Settings that are written are read back, and are as fit for use as they were. -/
theorem ofDocument_toDocument {text : String} (h : s.toDocument = .ok text) :
    ∃ s', ofDocument text = .ok s' ∧ s' = s ∧ (s'.validate = .ok () ↔ s.validate = .ok ()) := by
  have htext : s.toTextWithout? ∅ = some text := by
    rw [toTextWithout?_empty, toDocument_eq_ok.mp h]
  have hread := ofText?_toTextWithout htext
  rw [if_neg (Finset.notMem_empty _), withDefaults_empty] at hread
  exact ⟨s, by rw [ofDocument, hread], rfl, Iff.rfl⟩

/-- Settings with texts that need different ways of writing them. -/
def quoted : Settings where
  logLevel := "a\"\"\"b\\'''\n\x00"
  root := some (NativePath.ofString "/srv/it's \"ü\"")
  bufferCapacity := 18446744073709551615
  eventChannelCapacity := 0
  ignorePatterns := ["", "C:\\*", "\t"]

theorem toDocument_quoted : quoted.toDocument =
    .ok ("[general]\nlog_level = \"\"\"\na\"\"\\\"b\\\\'''\n\\u0000\"\"\"\n\n" ++
      "[endpoint]\nroot = \"\"\"/srv/it's \"ü\"\"\"\"\n\n" ++
      "[watch]\nbuffer_capacity = 18446744073709551615\nevent_channel_capacity = 0\n" ++
      "ignore_patterns = [\n    \"\",\n    'C:\\*',\n    \"\\t\",\n]\n") :=
  toDocument_eq_ok.mpr (by decide +kernel)

theorem ofDocument_toDocument_quoted :
    ∃ text, quoted.toDocument = .ok text ∧
      ∃ s', ofDocument text = .ok s' ∧ s' = quoted ∧
        (s'.validate = .ok () ↔ quoted.validate = .ok ()) :=
  ⟨_, toDocument_quoted, ofDocument_toDocument toDocument_quoted⟩

/-- Some keys may be left out of the document of settings: it is read, and they have their default
values. -/
def MayLeaveOut (s : Settings) (dropped : Finset Key) : Prop :=
  ∃ text, s.toTextWithout? dropped = some text ∧ ofDocument text = .ok (s.withDefaults dropped)

theorem exists_toTextWithout {text : String} (h : s.toDocument = .ok text) (dropped : Finset Key) :
    ∃ text, s.toTextWithout? dropped = some text := by
  obtain ⟨sections, hsections, -⟩ := Option.map_eq_some_iff.mp (toDocument_eq_ok.mp h)
  exact ⟨_, by rw [toTextWithout?, hsections, Option.map_some]⟩

/-- All keys may be left out, in any combination, but the log level. A document without that is not
read. -/
theorem mayLeaveOut_iff {text : String} (h : s.toDocument = .ok text) (dropped : Finset Key) :
    (s.MayLeaveOut dropped ↔ .logLevel ∉ dropped) ∧
      (.logLevel ∈ dropped → ∃ text, s.toTextWithout? dropped = some text ∧
        ofDocument text = .error .notDocument) := by
  obtain ⟨text, htext⟩ := exists_toTextWithout h dropped
  have hread := ofText?_toTextWithout htext
  by_cases hlevel : .logLevel ∈ dropped
  · rw [if_pos hlevel] at hread
    refine ⟨⟨?_, fun hkept => absurd hlevel hkept⟩,
      fun _ => ⟨text, htext, by rw [ofDocument, hread]⟩⟩
    rintro ⟨text', htext', hread'⟩
    obtain rfl := Option.some.inj (htext.symm.trans htext')
    rw [ofDocument, hread] at hread'
    cases hread'
  · rw [if_neg hlevel] at hread
    exact ⟨⟨fun _ => hlevel, fun _ => ⟨text, htext, by rw [ofDocument, hread]⟩⟩,
      fun hdropped => absurd hdropped hlevel⟩

theorem mayLeaveOut_quoted :
    (∃ text, quoted.toDocument = .ok text) ∧ quoted.MayLeaveOut {.root, .bufferCapacity} ∧
      ∃ text, quoted.toTextWithout? {.logLevel, .root} = some text ∧
        ofDocument text = .error .notDocument :=
  ⟨⟨_, toDocument_quoted⟩, (mayLeaveOut_iff toDocument_quoted _).1.mpr (by decide),
    (mayLeaveOut_iff toDocument_quoted _).2 (by decide)⟩

/-- The default settings are not read back from their document without the log level, though the
default log level is what is left out. -/
theorem not_mayLeaveOut_logLevel :
    (∃ text, default.toDocument = .ok text) ∧ ¬default.MayLeaveOut {.logLevel} := by
  refine ⟨⟨_, rfl⟩, ?_⟩
  rintro ⟨text, htext, hread⟩
  have hnone := ofText?_toTextWithout htext
  rw [if_pos (Finset.mem_singleton_self _)] at hnone
  rw [ofDocument, hnone] at hread
  cases hread

end Settings

end SyncEndpoint
