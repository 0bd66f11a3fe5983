import SyncEndpoint.Proofs.Endpoint.Move
import SyncEndpoint.Proofs.Endpoint.Walk.Run

set_option autoImplicit false

/-! # Walks with failures

A failing call stays with the path that it is about. Two walks through one tree, of which calls
fail in the second, say the same of all that no failing call concerns, up to what they mint and
when they do; and whatever is reached and cannot be looked at is visited with an error. -/

namespace SyncEndpoint.Endpoint

open NativePath (display)
open Storage
open Text.Utf8

variable {e : Endpoint} {f f₁ f₂ : Failures} {m m' m₁ m₂ : Memory} {start : String}
  {founds founds₁ founds₂ : List Found} {found found₁ found₂ : Found}

/-! ## What no failing call concerns -/

/-- No call fails on the way from the start of a walk to a key: neither a look at what is on it nor
a listing. -/
structure Clear (f : Failures) (start k : Key) : Prop where
  stat : f.stat start = none
  readDir : ∀ k', k' <+: k → k' ≠ k → f.readDir k' = none
  entry : ∀ k', k' <+: k → f.entry k' = none

/-- No call fails that reads or makes a file. -/
structure Usable (f : Failures) (k : Key) : Prop where
  openRead : f.openRead k = none
  create : f.create k = none

/-- No failing call concerns a key, the marker in it, or what is listed on the way to it. -/
structure Spared (f : Failures) (start k : Key) : Prop where
  clear : Clear f start k
  usable : Usable f k
  listed : f.readDir k = none
  marker : Usable f (k ++ [encode markerName])

section Decide

variable (f : Failures) (start k : Key)

instance : Decidable (Clear f start k) :=
  decidable_of_iff (f.stat start = none ∧ (∀ k' ∈ k.inits, k' ≠ k → f.readDir k' = none) ∧
      ∀ k' ∈ k.inits, f.entry k' = none)
    ⟨fun h => ⟨h.1, fun k' hk' => h.2.1 k' ((List.mem_inits k' k).mpr hk'),
      fun k' hk' => h.2.2 k' ((List.mem_inits k' k).mpr hk')⟩,
    fun h => ⟨h.stat, fun k' hk' => h.readDir k' ((List.mem_inits k' k).mp hk'),
      fun k' hk' => h.entry k' ((List.mem_inits k' k).mp hk')⟩⟩

instance : Decidable (Usable f k) :=
  decidable_of_iff (f.openRead k = none ∧ f.create k = none)
    ⟨fun h => ⟨h.1, h.2⟩, fun h => ⟨h.openRead, h.create⟩⟩

instance : Decidable (Spared f start k) :=
  decidable_of_iff (Clear f start k ∧ Usable f k ∧ f.readDir k = none ∧
      Usable f (k ++ [encode markerName]))
    ⟨fun h => ⟨h.1, h.2.1, h.2.2.1, h.2.2.2⟩, fun h => ⟨h.clear, h.usable, h.listed, h.marker⟩⟩

end Decide

theorem spared_calm (start k : Key) : Spared .calm start k :=
  ⟨⟨rfl, fun _ _ _ => rfl, fun _ _ => rfl⟩, ⟨rfl, rfl⟩, rfl, ⟨rfl, rfl⟩⟩

section Clear

variable {s k : Key} {name : Bytes} (h : Clear f s (k ++ [name]))

include h

theorem Clear.above : Clear f s k where
  stat := h.stat
  readDir := fun k' hk' hne => h.readDir k' (hk'.trans (List.prefix_append _ _)) fun heq => by
    have := hk'.length_le
    rw [heq, List.length_append, List.length_singleton] at this
    omega
  entry := fun k' hk' => h.entry k' (hk'.trans (List.prefix_append _ _))

theorem Clear.listed : f.readDir k = none :=
  h.readDir k (List.prefix_append _ _) (by simp)

end Clear

/-! ## One walk -/

section Walked

variable (hw : Walked e f m start founds m')

include hw

theorem Walked.exists_path_eq {a : Found} (ha : a ∈ founds) : ∃ names,
    (∀ name ∈ names, IsTextName name) ∧
      a.path = pathBelow (CanonicalPath.clean start) names :=
  ((hw.reached a).mp ha).exists_path_eq hw.marked.wellFormed hw.marked.textual

theorem Walked.nodup_map_path : (founds.map Found.path).Nodup :=
  nodup_of_pairwise_precedes (List.pairwise_map.mpr hw.ordered)

/-- What is found at one key is one thing. -/
theorem Walked.eq_of_keyAt_eq {a b : Found} (ha : a ∈ founds) (hb : b ∈ founds)
    (heq : keyAt a.path = keyAt b.path) : a = b := by
  obtain ⟨names, hnames, hpath⟩ := hw.exists_path_eq ha
  obtain ⟨names', hnames', hpath'⟩ := hw.exists_path_eq hb
  rw [hpath, hpath', keyAt_pathBelow hnames, keyAt_pathBelow hnames', List.append_cancel_left_eq]
    at heq
  exact List.inj_on_of_nodup_map hw.nodup_map_path ha hb (by rw [hpath, hpath', heq])

/-- The start of a walk is left as it is. -/
theorem Walked.get?_start : m'.get? (key start) = m.get? (key start) := by
  refine hw.marked.unmarked _ fun a ha hmarks => ?_
  have hpre := ((hw.reached a).mp ha).prefix_keyAt hw.marked.wellFormed hw.marked.textual
  have hlength := hpre.length_le
  have heq : key start = keyAt a.path ++ [encode markerName] := hmarks.2.2.1
  have hstart : keyAt (startOf f m start).path = key start := rfl
  rw [hstart, heq, List.length_append, List.length_singleton] at hlength
  omega

/-- Only what was found can mark what is directly in it. -/
theorem Walked.get?_child (hfound : found ∈ founds) {name : Bytes}
    (hmarks : ¬ Marks f m found (keyAt found.path ++ [name])) :
    m'.get? (keyAt found.path ++ [name]) = m.get? (keyAt found.path ++ [name]) := by
  refine hw.marked.unmarked _ fun a ha hmarks' => hmarks ?_
  have hkey : keyAt found.path = keyAt a.path := List.append_inj_left' hmarks'.2.2.1 rfl
  rw [hw.eq_of_keyAt_eq hfound ha hkey] at hmarks' ⊢
  exact hmarks'

theorem Walked.isRight (hfound : found ∈ founds) : found.IsRight m' := by
  have h' := hw.marked.wellFormed
  have ht' := hw.marked.textual
  rcases Relation.ReflTransGen.cases_tail ((hw.reached found).mp hfound) with
    heq | ⟨above, -, hchild⟩
  · intro md hmd
    rw [heq] at hmd ⊢
    obtain ⟨entry, hget, hentry⟩ := startOf_isRight f m start md hmd
    exact ⟨entry, hw.get?_start.trans hget, hentry⟩
  · obtain ⟨name, entry, hchild⟩ := (mem_foundIn_iff h' ht').mp hchild
    exact hchild.isRight h' ht'

/-- Only a start that is missing has no metadata although no call fails on the way. -/
theorem Walked.get?_eq_none_of_clear (hfound : found ∈ founds)
    (hclear : Clear f (key start) (keyAt found.path)) {x : SyncError}
    (hx : found.metadata = .error x) : m'.get? (keyAt found.path) = none := by
  have h' := hw.marked.wellFormed
  have ht' := hw.marked.textual
  rcases Relation.ReflTransGen.cases_tail ((hw.reached found).mp hfound) with
    heq | ⟨above, -, hchild⟩
  · rw [heq] at hx ⊢
    refine hw.get?_start.trans ?_
    unfold startOf Failures.guarded Memory.stat at hx
    rw [hclear.stat] at hx
    cases hget : m.get? (key start) with
    | none => rfl
    | some entry => simp [hget, Except.mapError] at hx
  · obtain ⟨name, entry, hchild⟩ := (mem_foundIn_iff h' ht').mp hchild
    have hname := hchild.isTextName h' ht'
    rw [hchild.keyAt_eq h' ht'] at hclear
    obtain ⟨-, -, rfl⟩ | ⟨y, hy, -, -⟩ := hchild.eq_of_look
    · cases hx
    · rw [hname.encode_display, hclear.entry _ (List.prefix_refl _)] at hy
      cases hy

end Walked

/-! ## Two walks -/

/-- What two walks through one tree have at a key is the same, or was minted by both, each at a time
of its own. -/
inductive Agree (m m₁ m₂ : Memory) (k : Key) : Prop
  | kept (h₁ : m₁.get? k = m.get? k) (h₂ : m₂.get? k = m.get? k)
  | minted (n₁ n₂ : Nat) (t₁ t₂ : Timestamp) (h : Unidentified m k)
      (h₁ : m₁.get? k = some (.file (encode (Uuid.ofNat n₁)) t₁))
      (h₂ : m₂.get? k = some (.file (encode (Uuid.ofNat n₂)) t₂))

/-- What was minted is not what was there. -/
theorem get?_ne_of_minted {k : Key} {n : Nat} {t : Timestamp} (h : Unidentified m k)
    (hget : m'.get? k = some (.file (encode (Uuid.ofNat n)) t)) : m'.get? k ≠ m.get? k := by
  intro hkept
  refine not_unidentified_of_file hget ?_
  rwa [Unidentified, hkept]

/-- What two walks find in one place. The times differ of a marker file that both have made: the
tree was `m`, and the first walk has made it into `m'`. -/
inductive Twins (m m' : Memory) : Found → Found → Prop
  | same (found : Found) : Twins m m' found found
  | minted {path : String} {md : Metadata} (t : Option Timestamp) (hfile : md.isDir = false)
      (hmade : m'.get? (keyAt path) ≠ m.get? (keyAt path)) :
      Twins m m' ⟨path, .ok md⟩ ⟨path, .ok { md with modified := t }⟩

namespace Twins

variable {found' : Found} (h : Twins m m' found found')

include h

theorem path_eq : found'.path = found.path := by
  cases h <;> rfl

/-- Of a directory there is one time. -/
theorem eq_of_isDir (hdir : ∃ md, found.metadata = .ok md ∧ md.isDir = true) : found' = found := by
  cases h with
  | same => rfl
  | minted t hfile hmade =>
    obtain ⟨md, hmd, hdir⟩ := hdir
    cases hmd
    cases hfile.symm.trans hdir

end Twins

/-- Only in its time can an entry differ on which two walks agree. -/
theorem Agree.exists_entry {path : String} {entry : Entry} (h : Agree m m₁ m₂ (keyAt path))
    (hget : m₁.get? (keyAt path) = some entry) :
    ∃ entry', m₂.get? (keyAt path) = some entry' ∧ entry'.isDir = entry.isDir ∧
      Twins m m₁ ⟨path, .ok entry.metadata⟩ ⟨path, .ok entry'.metadata⟩ := by
  cases h with
  | kept h₁ h₂ => exact ⟨entry, h₂.trans (h₁.symm.trans hget), rfl, .same _⟩
  | minted n₁ n₂ t₁ t₂ hun h₁ h₂ =>
    have hmade := get?_ne_of_minted hun h₁
    cases hget.symm.trans h₁
    refine ⟨_, h₂, by rw [Entry.isDir, Entry.isDir], ?_⟩
    have hmd : (Entry.file (encode (Uuid.ofNat n₂)) t₂).metadata =
        { (Entry.file (encode (Uuid.ofNat n₁)) t₁).metadata with modified := some t₂ } := by
      simp only [Entry.metadata, Uuid.length_encode_ofNat]
    rw [hmd]
    exact .minted _ (by rw [Entry.isDir_metadata, Entry.isDir]) hmade

section TwoWalks

variable (hw₁ : Walked e f₁ m start founds₁ m₁) (hw₂ : Walked e f₂ m start founds₂ m₂)

include hw₁ hw₂

theorem Walked.agree_child (hfound₁ : found ∈ founds₁) (hfound₂ : found ∈ founds₂) {name : Bytes}
    (hu₁ : Usable f₁ (keyAt found.path ++ [name])) (hu₂ : Usable f₂ (keyAt found.path ++ [name])) :
    Agree m m₁ m₂ (keyAt found.path ++ [name]) := by
  have hlacks : f₂.Lacks m (keyAt found.path ++ [name]) ↔
      f₁.Lacks m (keyAt found.path ++ [name]) := by
    rw [lacks_iff_unidentified hu₁.openRead hu₁.create,
      lacks_iff_unidentified hu₂.openRead hu₂.create]
  by_cases hmarks : Marks f₁ m found (keyAt found.path ++ [name])
  · have hmarks₂ : Marks f₂ m found (keyAt found.path ++ [name]) :=
      ⟨hmarks.1, hmarks.2.1, hmarks.2.2.1, hlacks.mpr hmarks.2.2.2⟩
    obtain ⟨n₁, t₁, h₁⟩ := hw₁.marked.marked found hfound₁ _ hmarks
    obtain ⟨n₂, t₂, h₂⟩ := hw₂.marked.marked found hfound₂ _ hmarks₂
    exact .minted n₁ n₂ t₁ t₂ ((lacks_iff_unidentified hu₁.openRead hu₁.create).mp hmarks.2.2.2)
      h₁ h₂
  · have hmarks₂ : ¬ Marks f₂ m found (keyAt found.path ++ [name]) :=
      fun h => hmarks ⟨h.1, h.2.1, h.2.2.1, hlacks.mp h.2.2.2⟩
    exact .kept (hw₁.get?_child hfound₁ hmarks) (hw₂.get?_child hfound₂ hmarks₂)

/-- What one walk finds on a way that is clear for both, the other one finds too. -/
theorem Walked.exists_twin (hfound : found ∈ founds₁)
    (hc₁ : Clear f₁ (key start) (keyAt found.path)) (hc₂ : Clear f₂ (key start) (keyAt found.path))
    (husable : (∃ md, found.metadata = .ok md ∧ md.isDir = true) ∨
      Usable f₁ (keyAt found.path) ∧ Usable f₂ (keyAt found.path)) :
    ∃ found' ∈ founds₂, Twins m m₁ found found' := by
  have h₁ := hw₁.marked.wellFormed
  have ht₁ := hw₁.marked.textual
  have h₂ := hw₂.marked.wellFormed
  have ht₂ := hw₂.marked.textual
  rw [hw₁.reached] at hfound
  induction hfound with
  | refl =>
    have hstart : startOf f₁ m start = startOf f₂ m start := by
      rw [startOf, startOf, hc₁.stat, hc₂.stat]
    refine ⟨_, (hw₂.reached _).mpr ?_, .same _⟩
    rw [hstart]
    exact .refl
  | @tail above child hreach hmem ih =>
    obtain ⟨name, entry, hchild⟩ := (mem_foundIn_iff h₁ ht₁).mp hmem
    have hname := hchild.isTextName h₁ ht₁
    rw [hchild.keyAt_eq h₁ ht₁] at hc₁ hc₂ husable
    have habove₂ : above ∈ founds₂ := by
      obtain ⟨above', hmem', htwins⟩ := ih hc₁.above hc₂.above (Or.inl hchild.isDir)
      rwa [htwins.eq_of_isDir hchild.isDir] at hmem'
    -- The look at the entry succeeds, and shows the same but for its time.
    obtain ⟨-, hshown, heq⟩ | ⟨x, hx, -, -⟩ := hchild.eq_of_look
    case inr =>
      rw [hname.encode_display, hc₁.entry _ (List.prefix_refl _)] at hx
      cases hx
    obtain ⟨entry₂, hget₂, hisDir, htwins⟩ : ∃ entry₂,
        m₂.get? (keyAt above.path ++ [name]) = some entry₂ ∧ entry₂.isDir = entry.isDir ∧
          Twins m m₁ child ⟨entryPath above.path name, .ok entry₂.metadata⟩ := by
      rw [heq]
      rcases husable with ⟨md, hmd, hdir⟩ | ⟨hu₁, hu₂⟩
      · rw [heq] at hmd
        cases hmd
        have hget := hchild.get?_eq
        cases entry with
        | file data t => cases hdir
        | dir t =>
          rw [hw₁.marked.get?_eq_dir_iff, ← hw₂.marked.get?_eq_dir_iff] at hget
          exact ⟨_, hget, rfl, .same _⟩
      · have hagree := hw₁.agree_child hw₂ ((hw₁.reached above).mpr hreach) habove₂ hu₁ hu₂
        have hget := hchild.get?_eq
        rw [← keyAt_entryPath hname] at hagree hget ⊢
        exact hagree.exists_entry hget
    refine ⟨_, (hw₂.reached _).mpr (.tail ((hw₂.reached _).mp habove₂) ((mem_foundIn_iff h₂ ht₂).mpr
      ⟨name, entry₂, hchild.isDir, hc₂.listed, h₂.parent _ _ (by rw [hget₂]; simp), hget₂, ?_⟩)),
      htwins⟩
    rw [foundIn?_look_eq_some_iff, hname.encode_display, hisDir]
    exact Or.inl ⟨hc₂.entry _ (List.prefix_refl _), hshown, rfl⟩

/-- One finds the directories that the other one finds. -/
theorem Walked.mem_of_isDir (hfound : found ∈ founds₁)
    (hc₁ : Clear f₁ (key start) (keyAt found.path)) (hc₂ : Clear f₂ (key start) (keyAt found.path))
    (hdir : ∃ md, found.metadata = .ok md ∧ md.isDir = true) : found ∈ founds₂ := by
  obtain ⟨found', hmem, htwins⟩ := hw₁.exists_twin hw₂ hfound hc₁ hc₂ (Or.inl hdir)
  rwa [htwins.eq_of_isDir hdir] at hmem

theorem Walked.agree (hfound : found ∈ founds₁)
    (hc₁ : Clear f₁ (key start) (keyAt found.path)) (hc₂ : Clear f₂ (key start) (keyAt found.path))
    (hu₁ : Usable f₁ (keyAt found.path)) (hu₂ : Usable f₂ (keyAt found.path)) :
    Agree m m₁ m₂ (keyAt found.path) := by
  have h₁ := hw₁.marked.wellFormed
  have ht₁ := hw₁.marked.textual
  rcases Relation.ReflTransGen.cases_tail ((hw₁.reached found).mp hfound) with
    heq | ⟨above, hreach, hmem⟩
  · rw [heq]
    exact .kept hw₁.get?_start hw₂.get?_start
  · obtain ⟨name, entry, hchild⟩ := (mem_foundIn_iff h₁ ht₁).mp hmem
    rw [hchild.keyAt_eq h₁ ht₁] at hc₁ hc₂ hu₁ hu₂ ⊢
    have habove := (hw₁.reached above).mpr hreach
    exact hw₁.agree_child hw₂ habove
      (hw₁.mem_of_isDir hw₂ habove hc₁.above hc₂.above hchild.isDir) hu₁ hu₂

end TwoWalks

/-! ## What is said -/

/-- Two nodes at one path that differ in nothing but what a walk has minted: the time and the content
of a marker file that was made into that of `m'` then, and the identifier of a collection without
one before. -/
structure SameButMinted (m m' : Memory) (n n' : Node) : Prop where
  path : n'.path = n.path
  nodeType : n'.nodeType = n.nodeType
  size : n'.size = n.size
  mode : n'.mode = n.mode
  mtime : m'.get? (keyAt n.path) = m.get? (keyAt n.path) → n'.mtime = n.mtime
  contentSignature : m'.get? (keyAt n.path) = m.get? (keyAt n.path) →
    n'.contentSignature = n.contentSignature
  identifier : ¬ Unidentified m (markerKey n.path) → n'.identifier = n.identifier

section SameButMinted

variable {path id id' : String} {md md' : Metadata}

theorem SameButMinted.leaf (htwins : Twins m m' ⟨path, .ok md⟩ ⟨path, .ok md'⟩)
    (h : m'.get? (keyAt path) = m.get? (keyAt path) → id' = id)
    (hid : ¬ Unidentified m (markerKey path) → id' = id) :
    SameButMinted m m' (withStat md (Node.leaf path id)) (withStat md' (Node.leaf path id')) := by
  cases htwins with
  | same => exact
    { path := rfl
      nodeType := rfl
      size := rfl
      mode := rfl
      mtime := fun _ => rfl
      contentSignature := fun hkept => congrArg some (h hkept)
      identifier := hid }
  | minted t hfile hmade => exact
    { path := rfl
      nodeType := rfl
      size := rfl
      mode := rfl
      mtime := fun hkept => absurd hkept hmade
      contentSignature := fun hkept => congrArg some (h hkept)
      identifier := hid }

theorem SameButMinted.collection (hid : ¬ Unidentified m (markerKey path) → id' = id) :
    SameButMinted m m' (withStat md (Node.collection path id))
      (withStat md (Node.collection path id')) where
  path := rfl
  nodeType := rfl
  size := rfl
  mode := rfl
  mtime := fun _ => rfl
  contentSignature := fun _ => rfl
  identifier := hid

end SameButMinted

/-- Two visits of one path that say the same, up to what was minted. An error is said of what is not
there, and of a collection whose marker is a directory. -/
inductive Alike (m m' : Memory) : Visit → Visit → Prop
  | node {path : String} {n n' : Node} (hpath : n.path = path) (h : SameButMinted m m' n n') :
      Alike m m' ⟨path, .ok n⟩ ⟨path, .ok n'⟩
  | error {path : String} (x : SyncError)
      (h : m'.get? (keyAt path) = none ∨ m.IsDirAt (markerKey path)) :
      Alike m m' ⟨path, .error x⟩ ⟨path, .error x⟩

section Identities

variable {k : Key} {path : String}

theorem identityIn_leaf (hread : f.openRead (keyAt path) = none) {data : Bytes} {t : Timestamp}
    (hget : m.get? (keyAt path) = some (.file data t)) :
    identityIn f m path true = .ok (Node.leaf path (Digest.hexDigest data)) := by
  rw [identityIn, if_pos rfl, Failures.content, hread, Memory.openRead, hget]
  rfl

/-- Where no failing call is in the way, an identifier is what there is. -/
theorem Usable.identifier_eq (hu : Usable f k) :
    f.identifier m k = Failures.calm.identifier m k := by
  unfold Failures.identifier Failures.marker Failures.content
  rw [hu.openRead, hu.create]
  rfl

theorem identifier_of_file {n : Nat} {t : Timestamp}
    (hget : m.get? k = some (.file (encode (Uuid.ofNat n)) t)) :
    Failures.calm.identifier m k = .ok (Uuid.ofNat n) := by
  have hmarker : Failures.calm.marker m k = .ok (some (Uuid.ofNat n)) := by
    rw [Failures.marker, Failures.content, Memory.openRead, hget, ← Uuid.identifierOf?_encode_ofNat]
    rfl
  rw [Failures.identifier, hmarker]

theorem isDirAt_of_identifier_eq_error (hidentified : ¬ Unidentified m k) {x : IoError}
    (hx : Failures.calm.identifier m k = .error x) : m.IsDirAt k := by
  cases hget : m.get? k with
  | none => exact absurd (Or.inl hget) hidentified
  | some entry =>
    cases entry with
    | dir t => exact ⟨t, hget⟩
    | file data t =>
      cases hdata : Identity.identifierOf? data with
      | none => exact absurd (Or.inr ⟨data, t, hget, hdata⟩) hidentified
      | some id =>
        have hmarker : Failures.calm.marker m k = .ok (some id) := by
          rw [Failures.marker, Failures.content, Memory.openRead, hget, ← hdata]
          rfl
        rw [Failures.identifier, hmarker] at hx
        cases hx

end Identities

/-- The identity of a collection is new if it had none, and else what it was. -/
theorem Walked.identifier (hw : Walked e f m start founds m') (hfound : found ∈ founds)
    (hdir : ∃ md, found.metadata = .ok md ∧ md.isDir = true)
    (hroot : CanonicalPath.isRoot found.path = false) (hu : Usable f (markerKey found.path)) :
    (Unidentified m (markerKey found.path) ∧
        ∃ n, f.identifier m' (markerKey found.path) = .ok (Uuid.ofNat n)) ∨
      ¬ Unidentified m (markerKey found.path) ∧ f.identifier m' (markerKey found.path) =
        Failures.calm.identifier m (markerKey found.path) := by
  have hlacks := lacks_iff_unidentified (m := m) hu.openRead hu.create
  rw [hu.identifier_eq]
  by_cases hun : Unidentified m (markerKey found.path)
  · obtain ⟨n, t, hn⟩ := hw.marked.marked found hfound _ ⟨hdir, hroot, rfl, hlacks.mpr hun⟩
    exact Or.inl ⟨hun, n, identifier_of_file hn⟩
  · refine Or.inr ⟨hun, Failures.identifier_congr ?_⟩
    exact hw.get?_child hfound fun hmarks => hun (hlacks.mp hmarks.2.2.2)

/-- A directory that no failing call concerns is listed. -/
theorem Walked.listingVisits_eq_nil (hw : Walked e f m start founds m') {path : String}
    {md : Metadata} (hfound : ⟨path, .ok md⟩ ∈ founds) (hlisted : f.readDir (keyAt path) = none) :
    listingVisits f m' path md = [] := by
  unfold listingVisits
  split
  case isFalse => rfl
  case isTrue hdir =>
    obtain ⟨entry, hget, rfl⟩ := hw.isRight hfound md rfl
    rw [Entry.isDir_metadata] at hdir
    cases entry with
    | file data t => cases hdir
    | dir t =>
      obtain ⟨listed, hread, -⟩ := hw.marked.wellFormed.readDir_eq hw.marked.textual ⟨t, hget⟩
      simp only [Failures.list, hlisted, hread]
      rfl

/-- What no failing call concerns is visited once at most. -/
theorem Walked.visitsOf_eq_nil_or (hw : Walked e f m start founds m') (hfound : found ∈ founds)
    (hspared : Spared f (key start) (keyAt found.path)) :
    visitsOf f m' found = [] ∨ ∃ v, visitsOf f m' found = [v] := by
  obtain ⟨path, metadata⟩ := found
  cases metadata with
  | error x => exact Or.inr ⟨_, rfl⟩
  | ok md =>
    unfold visitsOf ownVisits
    dsimp only
    rw [hw.listingVisits_eq_nil hfound hspared.listed, List.append_nil]
    split
    · exact Or.inl rfl
    · exact Or.inr ⟨_, rfl⟩

section Alike

variable (hw₁ : Walked e f₁ m start founds₁ m₁) (hw₂ : Walked e f₂ m start founds₂ m₂)

include hw₁ hw₂

theorem Walked.alike_leaf (h : m.WellFormed) {path : String} {md md' : Metadata}
    (hfound : ⟨path, .ok md⟩ ∈ founds₁) (htwins : Twins m m₁ ⟨path, .ok md⟩ ⟨path, .ok md'⟩)
    (hdir : md.isDir = false) (hs₁ : Spared f₁ (key start) (keyAt path))
    (hs₂ : Spared f₂ (key start) (keyAt path)) :
    Alike m m₁ ⟨path, (identityIn f₁ m₁ path true).map (withStat md)⟩
      ⟨path, (identityIn f₂ m₂ path true).map (withStat md')⟩ := by
  obtain ⟨entry, hget, rfl⟩ := hw₁.isRight hfound md rfl
  rw [Entry.isDir_metadata] at hdir
  cases entry with
  | dir t => cases hdir
  | file data t =>
    rw [identityIn_leaf hs₁.usable.openRead hget]
    cases hw₁.agree hw₂ hfound hs₁.clear hs₂.clear hs₁.usable hs₂.usable with
    | kept h₁ h₂ =>
      rw [identityIn_leaf hs₂.usable.openRead (h₂.trans (h₁.symm.trans hget))]
      exact .node rfl (.leaf htwins (fun _ => rfl) fun _ => rfl)
    | minted n₁ n₂ t₁ t₂ hun h₁ h₂ =>
      rw [identityIn_leaf hs₂.usable.openRead h₂]
      refine .node rfl (.leaf htwins (fun hkept => ?_) fun hidentified => ?_)
      · exact absurd hkept (get?_ne_of_minted hun h₁)
      · -- Nothing is in a file.
        refine absurd (Or.inl (h.get?_below ?_)) hidentified
        rintro ⟨t', hdir⟩
        rcases hun with hnone | ⟨data', t'', hfile, -⟩
        · cases hdir.symm.trans hnone
        · cases hdir.symm.trans hfile

theorem Walked.alike_collection {path : String} {md : Metadata}
    (hfound₁ : ⟨path, .ok md⟩ ∈ founds₁) (hfound₂ : ⟨path, .ok md⟩ ∈ founds₂)
    (hdir : md.isDir = true) (hroot : CanonicalPath.isRoot path = false)
    (hs₁ : Spared f₁ (key start) (keyAt path)) (hs₂ : Spared f₂ (key start) (keyAt path)) :
    Alike m m₁ ⟨path, (identityIn f₁ m₁ path false).map (withStat md)⟩
      ⟨path, (identityIn f₂ m₂ path false).map (withStat md)⟩ := by
  have hidentity₁ := hw₁.identifier hfound₁ ⟨md, rfl, hdir⟩ hroot hs₁.marker
  have hidentity₂ := hw₂.identifier hfound₂ ⟨md, rfl, hdir⟩ hroot hs₂.marker
  rw [identityIn, identityIn, if_neg (by decide), if_neg (by decide)]
  rcases hidentity₁ with ⟨hun, n₁, h₁⟩ | ⟨hidentified, h₁⟩
  · rcases hidentity₂ with ⟨-, n₂, h₂⟩ | ⟨hidentified, -⟩
    · rw [h₁, h₂]
      exact .node rfl (.collection fun hidentified => absurd hun hidentified)
    · exact absurd hun hidentified
  · rcases hidentity₂ with ⟨hun, -⟩ | ⟨-, h₂⟩
    · exact absurd hun hidentified
    · rw [h₁, h₂]
      cases hidentifier : Failures.calm.identifier m (markerKey path) with
      | ok id => exact .node rfl (.collection fun _ => rfl)
      | error x => exact .error _ (Or.inr (isDirAt_of_identifier_eq_error hidentified hidentifier))

/-- Of what is there and no failing call concerns two walks say the same. -/
theorem Walked.alike_ok (h : m.WellFormed) {path : String} {md md' : Metadata}
    (hfound₁ : ⟨path, .ok md⟩ ∈ founds₁) (hfound₂ : ⟨path, .ok md'⟩ ∈ founds₂)
    (htwins : Twins m m₁ ⟨path, .ok md⟩ ⟨path, .ok md'⟩)
    (hs₁ : Spared f₁ (key start) (keyAt path)) (hs₂ : Spared f₂ (key start) (keyAt path)) :
    List.Forall₂ (Alike m m₁) (visitsOf f₁ m₁ ⟨path, .ok md⟩) (visitsOf f₂ m₂ ⟨path, .ok md'⟩) := by
  unfold visitsOf
  dsimp only
  rw [hw₁.listingVisits_eq_nil hfound₁ hs₁.listed, hw₂.listingVisits_eq_nil hfound₂ hs₂.listed,
    List.append_nil, List.append_nil]
  unfold ownVisits
  by_cases hroot : CanonicalPath.isRoot path = true
  · rw [if_pos hroot, if_pos hroot]
    exact .nil
  · rw [if_neg hroot, if_neg hroot]
    refine .cons ?_ .nil
    cases hdir : md.isDir with
    | false =>
      have hdir' : md'.isDir = false := by
        cases htwins <;> exact hdir
      rw [hdir']
      exact hw₁.alike_leaf hw₂ h hfound₁ htwins hdir hs₁ hs₂
    | true =>
      cases htwins.eq_of_isDir ⟨md, rfl, hdir⟩
      rw [hdir]
      exact hw₁.alike_collection hw₂ hfound₁ hfound₂ hdir (eq_false_of_ne_true hroot) hs₁ hs₂

theorem Walked.alike (h : m.WellFormed) (hfound₁ : found₁ ∈ founds₁) (hfound₂ : found₂ ∈ founds₂)
    (htwins : Twins m m₁ found₁ found₂) (hs₁ : Spared f₁ (key start) (keyAt found₁.path))
    (hs₂ : Spared f₂ (key start) (keyAt found₁.path)) :
    List.Forall₂ (Alike m m₁) (visitsOf f₁ m₁ found₁) (visitsOf f₂ m₂ found₂) := by
  cases htwins with
  | minted t hfile hmade => exact hw₁.alike_ok hw₂ h hfound₁ hfound₂ (.minted t hfile hmade) hs₁ hs₂
  | same =>
    obtain ⟨path, metadata⟩ := found₁
    cases metadata with
    | ok md => exact hw₁.alike_ok hw₂ h hfound₁ hfound₂ (.same _) hs₁ hs₂
    | error x =>
      have hgone := hw₁.get?_eq_none_of_clear hfound₁ hs₁.clear rfl
      exact .cons (.error x (Or.inl hgone)) .nil

end Alike

/-! ## What fails -/

/-- What a walk comes to: its start, and what is listed and not ignored in a directory that it has
come to and that can be listed; what cannot be looked at is ignored if it would be as a file or as a
directory. -/
inductive Reached (e : Endpoint) (f : Failures) (m m' : Memory) (start : String) : Found → Prop
  | start : Reached e f m m' start (startOf f m start)
  | seen {found : Found} {md : Metadata} {name : Bytes} {entry : Entry}
      (h : Reached e f m m' start found) (hmd : found.metadata = .ok md) (hdir : md.isDir = true)
      (hlisted : f.readDir (keyAt found.path) = none)
      (hget : m'.get? (keyAt found.path ++ [name]) = some entry)
      (hseen : f.entry (keyAt found.path ++ [name]) = none)
      (hshown : e.ignored.isIgnored (entryPath found.path name) entry.isDir = false) :
      Reached e f m m' start ⟨entryPath found.path name, .ok entry.metadata⟩
  | unseen {found : Found} {md : Metadata} {name : Bytes} {entry : Entry} {x : IoError}
      (h : Reached e f m m' start found) (hmd : found.metadata = .ok md) (hdir : md.isDir = true)
      (hlisted : f.readDir (keyAt found.path) = none)
      (hget : m'.get? (keyAt found.path ++ [name]) = some entry)
      (hunseen : f.entry (keyAt found.path ++ [name]) = some x)
      (hshown : e.ignored.isIgnoredAny (entryPath found.path name) = false) :
      Reached e f m m' start ⟨entryPath found.path name,
        .error (SyncError.ofStorage (entryPath found.path name) x)⟩

theorem Reached.reaches (h' : m'.WellFormed) (ht' : m'.Textual)
    (hreached : Reached e f m m' start found) : Reaches e f m' (startOf f m start) found := by
  induction hreached with
  | start => exact .refl
  | @seen above md name entry _ hmd hdir hlisted hget hseen hshown ih =>
    have hname : IsTextName name := isTextName_of_get? h' ht' (by rw [hget]; simp)
    refine .tail ih ((mem_foundIn_iff h' ht').mpr ⟨name, entry, ⟨md, hmd, hdir⟩, hlisted,
      h'.parent _ _ (by rw [hget]; simp), hget, foundIn?_look_eq_some_iff.mpr (Or.inl ?_)⟩)
    rw [hname.encode_display]
    exact ⟨hseen, hshown, rfl⟩
  | @unseen above md name entry x _ hmd hdir hlisted hget hunseen hshown ih =>
    have hname : IsTextName name := isTextName_of_get? h' ht' (by rw [hget]; simp)
    refine .tail ih ((mem_foundIn_iff h' ht').mpr ⟨name, entry, ⟨md, hmd, hdir⟩, hlisted,
      h'.parent _ _ (by rw [hget]; simp), hget, foundIn?_look_eq_some_iff.mpr (Or.inr ⟨x, ?_⟩)⟩)
    rw [hname.encode_display]
    exact ⟨hunseen, hshown, rfl⟩

/-- The metadata of something, its identity or its listing fails, in the tree `m` before a walk. -/
inductive Fails (f : Failures) (m : Memory) : Found → Prop
  | metadata (path : String) (x : SyncError) : Fails f m ⟨path, .error x⟩
  | content {path : String} {md : Metadata} {x : IoError} (hdir : md.isDir = false)
      (hroot : CanonicalPath.isRoot path = false) (h : f.openRead (keyAt path) = some x) :
      Fails f m ⟨path, .ok md⟩
  | marker {path : String} {md : Metadata} {x : IoError} (hdir : md.isDir = true)
      (hroot : CanonicalPath.isRoot path = false) (h : f.marker m (markerKey path) = .error x) :
      Fails f m ⟨path, .ok md⟩
  | mint {path : String} {md : Metadata} (hdir : md.isDir = true)
      (hroot : CanonicalPath.isRoot path = false) (h : f.marker m (markerKey path) = .ok none)
      (hcreate : f.create (markerKey path) ≠ none ∨ m.IsDirAt (markerKey path)) :
      Fails f m ⟨path, .ok md⟩
  | listing {path : String} {md : Metadata} {x : IoError} (hdir : md.isDir = true)
      (h : f.readDir (keyAt path) = some x) : Fails f m ⟨path, .ok md⟩

/-- A missing marker that cannot be made leaves a collection without an identity. -/
theorem exists_identifier_eq_error {k : Key} (hmarker : f.marker m k = .ok none)
    (hcreate : f.create k ≠ none ∨ m.IsDirAt k) : ∃ x, f.identifier m k = .error x := by
  rw [Failures.identifier, hmarker]
  cases hc : f.create k with
  | some x => exact ⟨x, rfl⟩
  | none =>
    obtain ⟨t, hdir⟩ := hcreate.resolve_left (not_not.mpr hc)
    refine ⟨Memory.isADirectory k, ?_⟩
    simp only [Failures.guarded, Failures.written, Memory.openRead, hdir]
    rfl

/-- A walk does not hide what fails. -/
theorem Marked.exists_error (hmarked : Marked f m founds m') (hfails : Fails f m found) :
    ∃ v ∈ visitsOf f m' found, ∃ x, v.node = .error x := by
  -- What fails to be marked is as it was.
  have hsame : ∀ path, ¬ f.Lacks m (markerKey path) →
      m'.get? (markerKey path) = m.get? (markerKey path) :=
    fun path hlacks => hmarked.unmarked _ fun a _ hmarks => hlacks hmarks.2.2.2
  have hown : ∀ {path md x}, CanonicalPath.isRoot path = false →
      identityIn f m' path (!md.isDir) = .error x →
        ∃ v ∈ visitsOf f m' ⟨path, .ok md⟩, ∃ y, v.node = .error y := by
    intro path md x hroot hx
    refine ⟨⟨path, .error x⟩, List.mem_append_left _ ?_, x, rfl⟩
    rw [ownVisits, if_neg (by simp [hroot]), hx]
    exact List.mem_singleton.mpr rfl
  cases hfails with
  | metadata path x => exact ⟨_, List.mem_singleton.mpr rfl, x, rfl⟩
  | @content path md x hdir hroot hread =>
    refine hown hroot (x := SyncError.ofStorage path x) ?_
    rw [identityIn, hdir, Bool.not_false, if_pos rfl, Failures.content, hread]
    rfl
  | @marker path md x hdir hroot hread =>
    have hlacks : ¬ f.Lacks m (markerKey path) := by
      rintro ⟨hmarker, -⟩
      cases hread.symm.trans hmarker
    refine hown hroot (x := SyncError.ofStorage path x) ?_
    rw [identityIn, hdir, Bool.not_true, if_neg (by decide),
      Failures.identifier_congr (hsame _ hlacks), Failures.identifier, hread]
    rfl
  | @mint path md hdir hroot hmarker hcreate =>
    have hlacks : ¬ f.Lacks m (markerKey path) := by
      rintro ⟨-, hnone, hfree⟩
      exact hcreate.elim (· hnone) hfree
    obtain ⟨x, hx⟩ := exists_identifier_eq_error hmarker hcreate
    refine hown hroot (x := SyncError.ofStorage path x) ?_
    rw [identityIn, hdir, Bool.not_true, if_neg (by decide),
      Failures.identifier_congr (hsame _ hlacks), hx]
    rfl
  | @listing path md x hdir hread =>
    refine ⟨⟨path, .error (SyncError.ofStorage path x)⟩, List.mem_append_right _ ?_, _, rfl⟩
    rw [listingVisits, if_pos hdir, Failures.list, hread]
    exact List.mem_singleton.mpr rfl

/-! ## Confinement -/

/-- The visits of a walk that no failing call concerns. -/
def sparedVisits (f : Failures) (start : String) (visits : List Visit) : List Visit :=
  visits.filter fun v => Spared f (key start) (keyAt v.path)

def sparedBy (f : Failures) (start : String) (found : Found) : Bool :=
  Spared f (key start) (keyAt found.path)

/-- What a walk has found and no failing call concerns. -/
def sparedFounds (f : Failures) (start : String) (founds : List Found) : List Found :=
  founds.filter (sparedBy f start)

theorem mem_sparedFounds_iff : found ∈ sparedFounds f start founds ↔
    found ∈ founds ∧ Spared f (key start) (keyAt found.path) := by
  rw [sparedFounds, List.mem_filter, sparedBy, decide_eq_true_eq]

theorem sparedVisits_flatMap (f' : Failures) (founds : List Found) :
    sparedVisits f start (founds.flatMap (visitsOf f' m)) =
      (sparedFounds f start founds).flatMap (visitsOf f' m) := by
  unfold sparedVisits sparedFounds
  induction founds with
  | nil => rfl
  | cons found founds ih =>
    rw [List.flatMap_cons, List.filter_append, ih, List.filter_cons, sparedBy]
    by_cases hspared : Spared f (key start) (keyAt found.path)
    · rw [if_pos (by simpa using hspared), List.flatMap_cons, List.filter_eq_self.mpr]
      intro v hv
      simpa [path_of_mem_visitsOf hv] using hspared
    · rw [if_neg (by simpa using hspared), List.filter_eq_nil_iff.mpr, List.nil_append]
      intro v hv
      simpa [path_of_mem_visitsOf hv] using hspared

/-- Two walks through the tree `m`, the second one with failing calls, that have made it into `m₁`
and `m₂`. What no failing call concerns is visited by both alike, in one order and once; and what
the second one reaches and what fails there is visited with an error. -/
structure Confines (e : Endpoint) (f : Failures) (start : String) (m m₁ m₂ : Memory)
    (calm rough : List Visit) : Prop where
  alike : List.Forall₂ (Alike m m₁) (sparedVisits f start calm) (sparedVisits f start rough)
  once : ((sparedVisits f start rough).map Visit.path).Nodup
  reported : ∀ found, Reached e f m m₂ start found → Fails f m found →
    ∃ v ∈ rough, v.path = found.path ∧ ∃ x, v.node = .error x

section Confines

variable (hw₁ : Walked e .calm m start founds₁ m₁) (hw₂ : Walked e f m start founds₂ m₂)

include hw₁ hw₂

/-- What no failing call concerns is found by both walks, in the same order. -/
theorem Walked.map_path_spared_eq :
    (sparedFounds f start founds₁).map Found.path =
      (sparedFounds f start founds₂).map Found.path := by
  have hordered₁ := List.pairwise_map.mpr (hw₁.ordered.filter (sparedBy f start))
  have hordered₂ := List.pairwise_map.mpr (hw₂.ordered.filter (sparedBy f start))
  refine List.Perm.eq_of_pairwise (fun a b _ _ hab hba => absurd hba (not_precedes_of_precedes hab))
    hordered₁ hordered₂ ((List.perm_ext_iff_of_nodup (nodup_of_pairwise_precedes hordered₁)
      (nodup_of_pairwise_precedes hordered₂)).mpr ?_)
  -- Each has a twin, which is at the same path.
  intro path
  rw [List.mem_map, List.mem_map]
  constructor
  · rintro ⟨found, hmem, rfl⟩
    obtain ⟨hfound, hspared⟩ := mem_sparedFounds_iff.mp hmem
    have hcalm := spared_calm (key start) (keyAt found.path)
    obtain ⟨found', hfound', htwins⟩ := hw₁.exists_twin hw₂ hfound hcalm.clear hspared.clear
      (Or.inr ⟨hcalm.usable, hspared.usable⟩)
    exact ⟨found', mem_sparedFounds_iff.mpr ⟨hfound', htwins.path_eq ▸ hspared⟩, htwins.path_eq⟩
  · rintro ⟨found, hmem, rfl⟩
    obtain ⟨hfound, hspared⟩ := mem_sparedFounds_iff.mp hmem
    have hcalm := spared_calm (key start) (keyAt found.path)
    obtain ⟨found', hfound', htwins⟩ := hw₂.exists_twin hw₁ hfound hspared.clear hcalm.clear
      (Or.inr ⟨hspared.usable, hcalm.usable⟩)
    exact ⟨found', mem_sparedFounds_iff.mpr ⟨hfound', htwins.path_eq ▸ hspared⟩, htwins.path_eq⟩

/-- What the two walks find stands in pairs, of which the two visits are alike. -/
theorem Walked.forall₂_alike (h : m.WellFormed) :
    List.Forall₂ (fun found₁ found₂ => List.Forall₂ (Alike m m₁) (visitsOf .calm m₁ found₁)
        (visitsOf f m₂ found₂)) (sparedFounds f start founds₁) (sparedFounds f start founds₂) := by
  have hpaths : List.Forall₂ (· = ·) ((sparedFounds f start founds₁).map Found.path)
      ((sparedFounds f start founds₂).map Found.path) := by
    rw [List.forall₂_eq_eq_eq]
    exact hw₁.map_path_spared_eq hw₂
  rw [List.forall₂_map_left_iff, List.forall₂_map_right_iff] at hpaths
  refine List.forall₂_iff_get.mpr ⟨hpaths.length_eq, fun i hi₁ hi₂ => ?_⟩
  have hpath := hpaths.get hi₁ hi₂
  obtain ⟨hfound₁, hspared⟩ := mem_sparedFounds_iff.mp (List.get_mem _ ⟨i, hi₁⟩)
  obtain ⟨hfound₂, -⟩ := mem_sparedFounds_iff.mp (List.get_mem _ ⟨i, hi₂⟩)
  have hcalm := spared_calm (key start) (keyAt ((sparedFounds f start founds₁).get ⟨i, hi₁⟩).path)
  obtain ⟨found', hfound', htwins⟩ := hw₁.exists_twin hw₂ hfound₁ hcalm.clear hspared.clear
    (Or.inr ⟨hcalm.usable, hspared.usable⟩)
  -- There is one thing only at its path.
  cases hw₂.eq_of_keyAt_eq hfound' hfound₂ (by rw [htwins.path_eq, hpath])
  exact hw₁.alike hw₂ h hfound₁ hfound₂ htwins hcalm hspared

theorem Walked.confines (h : m.WellFormed) :
    Confines e f start m m₁ m₂ (founds₁.flatMap (visitsOf .calm m₁))
      (founds₂.flatMap (visitsOf f m₂)) := by
  constructor
  case alike =>
    rw [sparedVisits_flatMap, sparedVisits_flatMap]
    exact List.rel_flatMap (hw₁.forall₂_alike hw₂ h) fun _ _ halike => halike
  case once =>
    rw [sparedVisits_flatMap]
    refine nodup_of_pairwise_precedes (pairwise_visits (hw₂.ordered.filter _) fun found hmem => ?_)
    obtain ⟨hfound, hspared⟩ := mem_sparedFounds_iff.mp hmem
    exact hw₂.visitsOf_eq_nil_or hfound hspared
  case reported =>
    intro found hreached hfails
    have hfound := (hw₂.reached found).mpr
      (hreached.reaches hw₂.marked.wellFormed hw₂.marked.textual)
    obtain ⟨v, hv, herror⟩ := hw₂.marked.exists_error hfails
    exact ⟨v, List.mem_flatMap.mpr ⟨found, hfound, hv⟩, path_of_mem_visitsOf hv, herror⟩

end Confines

/-- What a walk makes of a tree does not depend on the clock. -/
theorem Walked.of_clock {clock : Nat → Timestamp}
    (hw : Walked e f { m with clock := clock } start founds m') : Walked e f m start founds m' where
  marked := ⟨hw.marked.wellFormed, hw.marked.textual, hw.marked.unmarked, hw.marked.marked⟩
  ordered := hw.ordered
  reached := hw.reached

/-- Whatever calls fail, a walk from a path, or through the whole, comes to an end, and a failure is
confined to the path that it is about. The two walks have clocks of their own. -/
theorem walk_confines (e : Endpoint) (f : Failures) (start : Option String) {m : Memory}
    (h : m.WellFormed) (ht : m.Textual) (clock : Nat → Timestamp) (minted₁ minted₂ : Nat) :
    ∃ calm rough w₁ w₂, (walk e start.toList).run Memory.backend ⟨m, minted₁⟩ = (calm, w₁) ∧
      (walk e start.toList).run f.backend ⟨{ m with clock := clock }, minted₂⟩ = (rough, w₂) ∧
        Confines e f (start.getD CanonicalPath.root) m w₁.storage w₂.storage calm rough := by
  obtain ⟨founds₁, m₁, minted₁', hrun₁, hw₁⟩ := run_walkTree (e := e) (f := .calm)
    (w := ⟨m, minted₁⟩) h ht (start.getD CanonicalPath.root)
  obtain ⟨founds₂, m₂, minted₂', hrun₂, hw₂⟩ := run_walkTree (e := e) (f := f)
    (w := ⟨{ m with clock := clock }, minted₂⟩) (h.of_entries_eq rfl) ht
    (start.getD CanonicalPath.root)
  refine ⟨_, _, ⟨m₁, minted₁'⟩, ⟨m₂, minted₂'⟩, ?_, (run_walk start).trans hrun₂,
    hw₁.confines hw₂.of_clock h⟩
  rw [← Failures.backend_calm]
  exact (run_walk start).trans hrun₁

/-- The file cannot be read. -/
def unreadable : Failures where
  openRead := fun k => if k = [encode "a", encode "f"] then some ⟨.permissionDenied, "denied"⟩
    else none

theorem walk_confines_unreadable : ∃ calm rough w₁ w₂,
    (walk inMemory []).run Memory.backend ⟨oneFile, 0⟩ = (calm, w₁) ∧
      (walk inMemory []).run unreadable.backend
          ⟨{ oneFile with clock := fun look => ⟨look + 60, 0⟩ }, 7⟩ = (rough, w₂) ∧
        Confines inMemory unreadable CanonicalPath.root oneFile w₁.storage w₂.storage calm rough :=
  walk_confines inMemory unreadable none oneFile_wellFormed oneFile_textual
    (fun look => ⟨look + 60, 0⟩) 0 7

/-! ## What cannot be asked for

Where a collection has a directory in the place of its marker, no walk gives its identity. And no
two walks mint the same or at the same time: where a marker is blank, they differ in the identifier,
and in the content and the time of the marker, for those that get to see it. -/

/-- An endpoint that shows the markers. -/
def showsMarkers : Endpoint :=
  match IgnoreList.ofLines ["!.__tandem"] with
  | .ok ignored => { inMemory with ignored := ignored }
  | .error _ => inMemory

/-- A directory whose marker is a directory, and that one's marker is blank. -/
def nestedMarkers (seconds : Int) : Memory where
  entries := [([], .dir ⟨0, 0⟩), ([encode "d"], .dir ⟨0, 0⟩),
    ([encode "d", encode markerName], .dir ⟨0, 0⟩),
    ([encode "d", encode markerName, encode markerName], .file (encode " ") ⟨1, 0⟩)]
  clock := fun look => ⟨seconds + look, 0⟩

/-- The identifiers and the times that a walk through it gives, or none in the place of an error. -/
def nestedNodes (seconds : Int) (minted : Nat) :
    List (String × Option (String × Option Timestamp)) :=
  ((walk showsMarkers []).run Memory.backend ⟨nestedMarkers seconds, minted⟩).1.map fun v =>
    (v.path, v.node.toOption.map fun node => (node.identifier, node.mtime))

/-- No call fails here. Still the first directory has no identity, and two walks differ in the
identifier of the second, whose marker was there before, and in the content and the time of that
marker. -/
theorem walks_differ_nestedMarkers :
    (nestedMarkers 2).WellFormed ∧ (nestedMarkers 2).Textual ∧
      (nestedMarkers 2).get? (markerKey "/d/.__tandem") ≠ none ∧
      nestedNodes 2 0 = [("/d", none), ("/d/.__tandem", some (Uuid.ofNat 0, some ⟨0, 0⟩)),
        ("/d/.__tandem/.__tandem",
          some (Digest.hexDigest (encode (Uuid.ofNat 0)), some ⟨3, 0⟩))] ∧
      nestedNodes 9 1 = [("/d", none), ("/d/.__tandem", some (Uuid.ofNat 1, some ⟨0, 0⟩)),
        ("/d/.__tandem/.__tandem",
          some (Digest.hexDigest (encode (Uuid.ofNat 1)), some ⟨10, 0⟩))] ∧
      Uuid.ofNat 0 ≠ Uuid.ofNat 1 ∧
      Digest.hexDigest (encode (Uuid.ofNat 0)) ≠ Digest.hexDigest (encode (Uuid.ofNat 1)) := by
  have htextual : (nestedMarkers 2).Textual := .of_entries (by simp [nestedMarkers])
  refine ⟨?_, htextual, ?_, ?_, ?_, ?_, ?_⟩ <;> decide +kernel

end SyncEndpoint.Endpoint
