import SyncEndpoint.Proofs.Storage.Tree

set_option autoImplicit false

/-! # Calls that fail

In a tree a call that fails leaves everything as it was (`failed_leaves_unchanged`). Only making
directories has to be thought about: it goes down from the root and makes what is missing on its
way, but below the first thing that is missing nothing can be in its way. -/

namespace SyncEndpoint.Storage

/-- The error of an answer, if it is one. -/
def errorOf {α : Type} : Except IoError α → Option IoError
  | .ok _ => none
  | .error e => some e

/-- The error that a call fails with, if it does. -/
def Call.error? {R W : Type} : (c : Call R W) → c.Reply → Option IoError
  | .stat _, reply => errorOf reply
  | .openRead _, reply => errorOf reply
  | .create _, reply => errorOf reply
  | .openWrite _, reply => errorOf reply
  | .createDirAll _, reply => errorOf reply
  | .removeAll _, reply => errorOf reply
  | .rename _ _, reply => errorOf reply
  | .readDir _, reply => errorOf reply
  | .read _ _, reply => errorOf reply
  | .write _ _, reply => errorOf reply.1
  | .flush _, reply => errorOf reply
  | .shutdown _, reply => errorOf reply
  | .bytesLeft _, _ => none
  | .depthBound, _ => none

namespace Memory

open NativePath (ofString)
open Text.Utf8 (encode)

variable {m : Memory} {key k : Key} {data : Bytes} {t : Timestamp}

/-! ## Making directories -/

/-- On the way down to a file everything is there, so that nothing has been made when it is
reached. -/
theorem WellFormed.createDirs_of_file (h : m.WellFormed) {above : Key} {names : List Bytes}
    (hbelow : above <+: k) (hne : above ≠ k) (hk : k <+: above ++ names)
    (hfile : m.get? k = some (.file data t)) :
    createDirs above names m = (.error (fileExists k), m) := by
  induction names generalizing above with
  | nil =>
    rw [List.append_nil] at hk
    exact absurd (hbelow.eq_of_length (le_antisymm hbelow.length_le hk.length_le)) hne
  | cons name names ih =>
    rw [List.append_cons] at hk
    -- The next directory on the way is at or above the file, since it is longer than `above`.
    have hnext : above ++ [name] <+: k := by
      refine List.prefix_of_prefix_length_le (List.prefix_append _ names) hk ?_
      rw [List.length_append, List.length_singleton]
      exact Nat.lt_of_le_of_ne hbelow.length_le fun hlen => hne (hbelow.eq_of_length hlen)
    rw [createDirs]
    by_cases heq : above ++ [name] = k
    · rw [heq, hfile]
    · obtain ⟨t', hdir⟩ := h.isDirAt_above (by simp [hfile]) hnext heq
      rw [hdir]
      exact ih hnext heq hk

/-- If a file is in the way, that is said, and nothing is made. -/
theorem WellFormed.createDirAll_of_file (h : m.WellFormed) (hk : k <+: key)
    (hfile : m.get? k = some (.file data t)) : m.createDirAll key = (.error (fileExists k), m) := by
  refine h.createDirs_of_file (List.nil_prefix) ?_ hk hfile
  rintro rfl
  obtain ⟨t', hroot⟩ := h.root
  cases hroot.symm.trans hfile

/-- Making directories fails exactly if a file is in the way. -/
theorem WellFormed.createDirAll_fails_iff (h : m.WellFormed) :
    (errorOf (m.createDirAll key).1).isSome ↔ m.Blocked key := by
  constructor
  · intro hfails
    by_contra hfree
    rw [createDirAll_ok hfree] at hfails
    cases hfails
  · rintro ⟨k, data, t, hk, hfile⟩
    rw [h.createDirAll_of_file hk hfile]
    rfl

/-! ## Any call -/

/-- A change that fails is not made. -/
theorem change_of_errorOf {α : Type} {a : α} {result : Except IoError Memory} {e : IoError}
    (hfail : errorOf (m.change a result).1 = some e) : (m.change a result).2 = m := by
  cases result with
  | ok m' => cases hfail
  | error x => rfl

theorem WellFormed.backend_of_error? (h : m.WellFormed) {c : Call Bytes Key} {e : IoError}
    (hfail : c.error? (backend c m).1 = some e) : (backend c m).2 = m := by
  cases c with
  | create path => exact change_of_errorOf (a := keyOf path) hfail
  | openWrite path => exact change_of_errorOf (a := keyOf path) hfail
  | removeAll path => exact change_of_errorOf (a := ()) hfail
  | rename source target => exact change_of_errorOf (a := ()) hfail
  | write key data => exact change_of_errorOf (a := ()) hfail
  | createDirAll path =>
    have hfails : (errorOf (m.createDirAll (keyOf path)).1).isSome :=
      Option.isSome_iff_exists.mpr ⟨e, hfail⟩
    obtain ⟨k, data, t, hk, hfile⟩ := h.createDirAll_fails_iff.mp hfails
    change (m.createDirAll (keyOf path)).2 = m
    rw [h.createDirAll_of_file hk hfile]
  | _ => rfl

/-- In a tree a call that fails changes nothing. Making directories fails at the file that is in
the way, before it has made any. -/
theorem failed_leaves_unchanged (h : m.WellFormed) :
    (∀ (c : Call Bytes Key) e, c.error? (backend c m).1 = some e → (backend c m).2 = m) ∧
      ∀ path k data t, k <+: keyOf path → m.get? k = some (.file data t) →
        backend (.createDirAll path) m = (.error (fileExists k), m) :=
  ⟨fun _ _ hfail => h.backend_of_error? hfail,
    fun _ _ _ _ hk hfile => h.createDirAll_of_file hk hfile⟩

/-- A directory with a file in it. -/
def occupied : Memory where
  entries := [([], .dir ⟨0, 0⟩), ([encode "a"], .dir ⟨0, 0⟩),
    ([encode "a", encode "f"], .file [1] ⟨0, 0⟩)]
  clock := fun look => ⟨look + 9, 0⟩

/-- A directory that is not empty is not renamed, and nothing is made below a file. -/
theorem failed_leaves_unchanged_occupied :
    occupied.WellFormed ∧
      Call.error? (.rename (ofString "/a") (ofString "/b"))
          (backend (.rename (ofString "/a") (ofString "/b")) occupied).1 =
        some (sourceNotEmpty [encode "a"]) ∧
      (backend (.rename (ofString "/a") (ofString "/b")) occupied).2 = occupied ∧
      [encode "a", encode "f"] <+: keyOf (ofString "/a/f/x/y") ∧
      occupied.get? [encode "a", encode "f"] = some (.file [1] ⟨0, 0⟩) ∧
      backend (.createDirAll (ofString "/a/f/x/y")) occupied =
        (.error (fileExists [encode "a", encode "f"]), occupied) := by
  have h : occupied.WellFormed := by decide
  have hrename : Call.error? (.rename (ofString "/a") (ofString "/b"))
      (backend (.rename (ofString "/a") (ofString "/b")) occupied).1 =
        some (sourceNotEmpty [encode "a"]) := by decide
  have hkey : [encode "a", encode "f"] <+: keyOf (ofString "/a/f/x/y") := by decide
  have hfile : occupied.get? [encode "a", encode "f"] = some (.file [1] ⟨0, 0⟩) := by decide
  exact ⟨h, hrename, (failed_leaves_unchanged h).1 _ _ hrename, hkey, hfile,
    (failed_leaves_unchanged h).2 _ _ _ _ hkey hfile⟩

/-- Where a directory is missing above an entry, part of the way to it can stay behind. -/
example :
    (createDirAll
      { entries := [([], .dir ⟨0, 0⟩), ([encode "a", encode "f"], .file [] ⟨0, 0⟩)]
        clock := fun _ => ⟨9, 0⟩ }
      [encode "a", encode "f", encode "x"]).2.get? [encode "a"] = some (.dir ⟨9, 0⟩) := by decide

end Memory

end SyncEndpoint.Storage
