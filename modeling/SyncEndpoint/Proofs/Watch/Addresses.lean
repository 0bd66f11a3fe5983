import Mathlib.Data.Set.List
import SyncEndpoint.Proofs.Endpoint.Walk.Reports
import SyncEndpoint.Proofs.Watch.Interpretation

set_option autoImplicit false

/-! # What reported paths lead to

A walk shows the entries that it comes to, and a watch shows what notifications are on, under
canonical paths, which are texts. A name that is no text is shown as another one, so that its path
leads to what has that name, or to nothing. -/

namespace SyncEndpoint

open Storage
open Text.Utf8

namespace NativePath

/-- A path whose names are texts is a text. -/
theorem exists_eq_encode {p : NativePath} (h : ∀ name ∈ names p, ∃ text : String, name = encode text) :
    ∃ text : String, p = encode text := by
  have hparts : ∀ part ∈ p.splitOn slash, part ∈ Set.range encode := by
    intro part hpart
    by_cases hdropped : isDropped part = true
    · rw [isDropped, isVoid, Bool.or_eq_true, Bool.or_eq_true, List.isEmpty_iff, beq_iff_eq,
        beq_iff_eq] at hdropped
      rcases hdropped with (rfl | rfl) | rfl
      · exact ⟨"", rfl⟩
      · exact ⟨".", rfl⟩
      · exact ⟨"..", rfl⟩
    · have hname : part ∈ names p := by
        rw [names_eq, List.mem_filter]
        exact ⟨hpart, by simpa using hdropped⟩
      obtain ⟨text, htext⟩ := h part hname
      exact ⟨text, htext.symm⟩
  have hsplit : p.splitOn slash ∈ Set.range (List.map encode) := by
    rw [Set.range_list_map]
    exact hparts
  obtain ⟨ss, hss⟩ := hsplit
  refine ⟨String.intercalate (String.singleton CanonicalPath.separator) ss, ?_⟩
  rw [← ofNames_map_encode, hss, ofNames, List.intercalate_splitOn]

end NativePath

namespace Endpoint

open NativePath (display)

/-- The canonical spelling of a native path leads to the same key exactly if the names are texts. -/
theorem keyOf_nativePath_toCanonical_iff (p : NativePath) :
    keyOf (nativePath (Platform.native.toCanonical (display p))) = keyOf p ↔ IsTextual (keyOf p) := by
  constructor
  · intro hsame
    rw [← hsame, keyOf_nativePath]
    exact isTextual_keyAt _
  · intro htext
    obtain ⟨text, rfl⟩ := NativePath.exists_eq_encode htext
    rw [display, decodeLossy_encode, Platform.toCanonical_eq_clean, keyOf_nativePath, ← key, key_eq,
      keyOfSegments_names, keyOf_encode]

end Endpoint

/-! ## Events -/

/-- An event says of what is at a key what it is, unless it is about a removal. -/
def ChangeEvent.Tells (event : ChangeEvent) (m : Memory) (key : Key) : Prop :=
  event.changeType = .remove ∧ event.size = none ∧ event.isFolder = none ∨
    ∃ entry, m.get? key = some entry ∧ event.size = some entry.metadata.length ∧
      event.isFolder = some entry.isDir

namespace Watch.Interpreter

open NativePath (display)

variable {t : Interpreter} {now : Timestamp} {canonical : String} {event : ChangeEvent}
  {below : NativePath} {w w' : World Memory}

theorem tells_of_removal? (h : t.removal? now canonical = some event) (m : Memory) (key : Key) :
    event.path = canonical ∧ event.Tells m key := by
  obtain ⟨-, rfl⟩ := removal?_eq_some_iff.mp h
  exact ⟨rfl, Or.inl ⟨rfl, rfl, rfl⟩⟩

theorem of_run_confirm {type : ChangeType}
    (hrun : (t.confirm now type below canonical).run.run Memory.backend w = (.ok (some event), w')) :
    event.path = canonical ∧ event.Tells w.storage (keyOf below) := by
  have hstat : (stat below : Attempt Bytes Key IoError Metadata).run.run Memory.backend w =
      (w.storage.stat (keyOf below), w) := rfl
  rw [confirm, Attempt.run_bind, Attempt.run_lift, hstat, Memory.stat] at hrun
  cases hget : w.storage.get? (keyOf below) with
  | some entry =>
    rw [hget] at hrun
    dsimp only at hrun
    rw [Entry.isDir_metadata] at hrun
    split at hrun
    · cases hrun
    · cases hrun
      exact ⟨rfl, Or.inr ⟨entry, hget, rfl, rfl⟩⟩
  | none =>
    rw [hget] at hrun
    dsimp only at hrun
    rw [Memory.notFound, if_pos rfl, Attempt.run_pure, Prod.mk.injEq, Except.ok.injEq] at hrun
    obtain ⟨hevent, -⟩ := hrun
    split at hevent
    · exact tells_of_removal? hevent _ _
    · cases hevent

/-- The event that a notification comes to is on what the path has below the root of the watch. -/
theorem of_run_interpret {raw : RawEvent}
    (hrun : (t.interpret now raw).run.run Memory.backend w = (.ok (some event), w'))
    (hbelow : NativePath.below? raw.path t.root = some below) :
    event.path = Platform.native.toCanonical (display below) ∧
      event.Tells w.storage (keyOf below) := by
  simp only [interpret, hbelow] at hrun
  split at hrun
  · exact of_run_confirm hrun
  · rw [Attempt.run_pure, Prod.mk.injEq, Except.ok.injEq] at hrun
    exact tells_of_removal? hrun.1 _ _
  · cases hrun

end Watch.Interpreter

/-! ## Both -/

open Endpoint (Covers GetsMarkers Leads Reported Resolves ShownTextual entryPath walk nativePath
  inMemory oneFile oneFile_wellFormed)
open Watch (Interpreter RawEvent)

/-- The paths that a walk of a whole tree reports lead to the entries that they are reported for
exactly if all names that are not ignored are texts, and so does the path of an event exactly if the
names that its notification is on are. -/
theorem reported_paths_resolve_iff (e : Endpoint) {w : World Memory} (h : w.storage.WellFormed) :
    (∃ visits w', (walk e []).run Memory.backend w = (visits, w') ∧ Covers e w'.storage visits ∧
      (Resolves e w'.storage ↔ ShownTextual e w.storage)) ∧
    ∀ (t : Interpreter) (now : Timestamp) (raw : RawEvent) (below : NativePath) (event : ChangeEvent)
      (w' : World Memory), NativePath.below? raw.path t.root = some below →
      (t.interpret now raw).run.run Memory.backend w = (.ok (some event), w') →
      event.Tells w.storage (keyOf below) ∧
        (keyOf (nativePath event.path) = keyOf below ↔ IsTextual (keyOf below)) := by
  constructor
  · obtain ⟨visits, w', hrun, hgets, hcovers⟩ := Endpoint.run_walk_covers e h
    refine ⟨visits, w', hrun, hcovers, ?_⟩
    rw [Endpoint.resolves_iff hgets.wellFormed, hgets.shownTextual_iff h]
  · intro t now raw below event w' hbelow hrun
    obtain ⟨hpath, htells⟩ := Watch.Interpreter.of_run_interpret hrun hbelow
    rw [hpath]
    exact ⟨htells, Endpoint.keyOf_nativePath_toCanonical_iff below⟩

/-- A watch without patterns. -/
def plainWatch : Interpreter where
  root := encode "/mnt"
  ignored := ⟨[]⟩
  source := 0

/-- A notification that something was written. -/
def written (path : NativePath) : RawEvent where
  path := path
  mask := { write := true }

theorem reported_paths_resolve_oneFile :
    oneFile.WellFormed ∧
      (∃ visits w', (walk inMemory []).run Memory.backend ⟨oneFile, 0⟩ = (visits, w') ∧
        Covers inMemory w'.storage visits ∧ Resolves inMemory w'.storage) ∧
      ∃ event w', (plainWatch.interpret ⟨0, 0⟩ (written (encode "/mnt/a/f"))).run.run Memory.backend
          ⟨oneFile, 0⟩ = (.ok (some event), w') ∧
        keyOf (nativePath event.path) = [encode "a", encode "f"] := by
  obtain ⟨⟨visits, w', hwalk, hcovers, hiff⟩, hevents⟩ :=
    reported_paths_resolve_iff inMemory (w := ⟨oneFile, 0⟩) oneFile_wellFormed
  have hresolves := hiff.mpr fun k hne _ => Endpoint.oneFile_textual k hne
  have hbelow : NativePath.below? (written (encode "/mnt/a/f")).path plainWatch.root =
      some (encode "a/f") := by decide
  have hkey : keyOf (encode "a/f") = [encode "a", encode "f"] := by decide
  have hrun : ∃ event w', (plainWatch.interpret ⟨0, 0⟩ (written (encode "/mnt/a/f"))).run.run
      Memory.backend ⟨oneFile, 0⟩ = (.ok (some event), w') := ⟨_, _, rfl⟩
  obtain ⟨event, w'', hrun⟩ := hrun
  refine ⟨oneFile_wellFormed, ⟨visits, w', hwalk, hcovers, hresolves⟩, event, w'', hrun, ?_⟩
  have hiff := (hevents _ _ _ _ _ _ hbelow hrun).2
  rw [hkey] at hiff
  exact hiff.mpr (by simp [IsTextual])

/-- Two files that are shown alike: the name of one is a byte that is no text, and that of the other
what is shown for it. -/
def shownAlike : Memory where
  entries := [([], .dir ⟨0, 0⟩), ([[0xFF]], .file (encode "longer") ⟨1, 0⟩),
    ([encode "\uFFFD"], .file (encode "x") ⟨1, 0⟩)]
  clock := fun look => ⟨look + 2, 0⟩

theorem shownAlike_wellFormed : shownAlike.WellFormed := by
  decide

/-- A walk changes nothing there, and comes to both. -/
theorem reported_shownAlike {m : Memory} (hgets : GetsMarkers shownAlike m) (name : Bytes)
    {entry : Entry} (hget : shownAlike.get? [name] = some entry) :
    Reported inMemory m ⟨entryPath CanonicalPath.root name, [name], entry⟩ := by
  have hsame : ∀ k, m.get? k = shownAlike.get? k := by
    intro k
    refine (hgets.get?_eq_or k).resolve_right ?_
    rintro ⟨dir, hne, -, ⟨t, hdir⟩, -⟩
    -- There is no directory but the root.
    have hmem := Memory.mem_entries_of_get? _ _ hdir
    simp [shownAlike, hne] at hmem
  have hkey : keyOf (nativePath CanonicalPath.root) = [] := by
    rw [Endpoint.keyOf_nativePath, Endpoint.keyAt_root]
  have hleads : Leads inMemory m ⟨CanonicalPath.root, [], .dir ⟨0, 0⟩⟩ _ :=
    .entry (Entry.isDir_dir _) (by rw [hkey, hsame]; exact hget) (Ignore.isIgnored_nil _ _)
  rw [hkey] at hleads
  exact ⟨.dir ⟨0, 0⟩, (hsame []).trans rfl, .single hleads⟩

/-- Both files are reported under one path, and so is a notification on the first, of which the event
tells the size. -/
theorem reported_as_another :
    shownAlike.WellFormed ∧
      (∃ visits w', (walk inMemory []).run Memory.backend ⟨shownAlike, 0⟩ = (visits, w') ∧
        Covers inMemory w'.storage visits ∧
        ∃ r r', Reported inMemory w'.storage r ∧ Reported inMemory w'.storage r' ∧
          r.path = "/\uFFFD" ∧ r'.path = "/\uFFFD" ∧ r.key = [[0xFF]] ∧ r'.key = [encode "\uFFFD"] ∧
          keyOf (nativePath r.path) = r'.key) ∧
      ∃ event w', (plainWatch.interpret ⟨0, 0⟩ (written (encode "/mnt/" ++ [0xFF]))).run.run
          Memory.backend ⟨shownAlike, 0⟩ = (.ok (some event), w') ∧
        event.size = some 6 ∧ keyOf (nativePath event.path) = [encode "\uFFFD"] := by
  obtain ⟨visits, w', hwalk, hgets, hcovers⟩ :=
    Endpoint.run_walk_covers (w := ⟨shownAlike, 0⟩) inMemory shownAlike_wellFormed
  have hfirst := reported_shownAlike hgets [0xFF] rfl
  have hsecond := reported_shownAlike hgets (encode "\uFFFD") rfl
  have hpath : entryPath CanonicalPath.root [0xFF] = "/\uFFFD" := by decide
  have hpath' : entryPath CanonicalPath.root (encode "\uFFFD") = "/\uFFFD" := by decide
  have hkey : keyOf (nativePath "/\uFFFD") = [encode "\uFFFD"] := by decide
  rw [hpath] at hfirst
  rw [hpath'] at hsecond
  exact ⟨shownAlike_wellFormed, ⟨visits, w', hwalk, hcovers, _, _, hfirst, hsecond, rfl, rfl, rfl, rfl,
    hkey⟩, _, _, rfl, rfl, by decide⟩

end SyncEndpoint
