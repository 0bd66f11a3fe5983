import SyncEndpoint.Proofs.Endpoint.Keeping
import SyncEndpoint.Proofs.Endpoint.Requests
import SyncEndpoint.Proofs.Storage.Spared

set_option autoImplicit false

/-! # Identifiers stay

Once a collection has been loaded, its marker holds its identifier, and nothing that an endpoint is
asked to do replaces it, but for what names the marker or a directory above it: loads and walks read
it, and whoever makes the collection again finds it there. So all later loads that succeed give the
same identifier (`loadNode_identifier_stable`). A call that is refused as if something was missing is
left out, since a marker that seems to be missing is written anew. -/

namespace SyncEndpoint

open Text.Utf8

/-! ## Identities -/

namespace Identity

open Storage

variable {key : Key} {data : Bytes} {id : String} {dir : NativePath}

/-- What is read of the marker is the identifier in it, if anything. -/
theorem keepsFile_readMarker (hid : identifierOf? data = some id) :
    KeepsFile .noticed key data (readMarker dir)
      fun id? => keyOf (markerPath dir) = key → id? = some id := by
  by_cases hkey : keyOf (markerPath dir) = key
  · intro w h
    obtain ⟨t, hget⟩ := h.file
    have hread : Ensures (unreliable Memory.backend .noticed) w (contentOf (markerPath dir))
        (fun content w' => content = data ∧ w' = w) fun x w' => x.kind ≠ .notFound ∧ w' = w := by
      refine ensures_contentOf (fun content t' hcontent => ?_) (fun x hfails => ?_) fun c x href =>
        ⟨href, rfl⟩
      · rw [hkey, hget] at hcontent
        cases hcontent
        exact ⟨rfl, rfl⟩
      · rw [hkey, Memory.openRead_eq_ok_iff.mpr ⟨t, hget⟩] at hfails
        cases hfails
    refine Program.every_bind.mpr (Program.Every.mono hread fun res w' hpost => ?_)
    cases res with
    | ok content =>
      obtain ⟨rfl, rfl⟩ := hpost
      exact ⟨h, fun _ => hid⟩
    | error x =>
      obtain ⟨hkind, rfl⟩ := hpost
      dsimp only
      rw [if_neg hkind]
      exact ⟨h, trivial⟩
  · exact keeps_readMarker.mono fun _ _ heq => absurd heq hkey

theorem keepsFile_folderId (hid : identifierOf? data = some id) :
    KeepsFile .noticed key data (folderId dir)
      fun found => keyOf (markerPath dir) = key → found = id := by
  refine (keepsFile_readMarker hid).bind fun id? hread => ?_
  cases id? with
  | some found => exact .pure fun hkey => Option.some.inj (hread hkey)
  | none =>
    -- Only another marker can be missing.
    have hother : keyOf (markerPath dir) ≠ key := fun hkey => nomatch hread hkey
    refine (KeepsOr.lift .mint).bind fun found _ => (keepsFile_putContent hother).bind fun _ _ => ?_
    exact .pure fun hkey => absurd hkey hother

/-- A directory has no digest. -/
theorem ensures_contentHash_of_isDirAt {refusal : Refusal Bytes Key} {w : World Memory}
    (hdir : w.storage.IsDirAt (keyOf dir)) :
    Ensures (unreliable Memory.backend refusal) w (contentHash dir) (fun _ _ => False)
      fun _ w' => w' = w := by
  rw [contentHash, Ensures.bind_iff]
  rintro reply s (hdone | ⟨x, -, rfl, rfl⟩)
  · obtain ⟨t, hget⟩ := hdir
    have hfails : w.storage.openRead (keyOf dir) = .error (Memory.isADirectory (keyOf dir)) := by
      rw [Memory.openRead, hget]
    rw [Memory.backend, hfails] at hdone
    cases hdone
    rfl
  · rfl

theorem keepsFile_contentHash {refusal : Refusal Bytes Key} {above : Key} {name : Bytes} :
    KeepsFile refusal (above ++ [name]) data (contentHash dir) fun _ => keyOf dir ≠ above := by
  by_cases heq : keyOf dir = above
  · intro w h
    have hdir : w.storage.IsDirAt (keyOf dir) :=
      heq ▸ h.above above (List.prefix_append _ _) (by simp)
    refine Program.Every.mono (ensures_contentHash_of_isDirAt hdir) fun res w' hpost => ?_
    cases res with
    | ok _ => exact hpost.elim
    | error x =>
      obtain rfl := hpost
      exact ⟨h, trivial⟩
  · exact keeps_contentHash.mono fun _ _ => heq

/-! ### The first time -/

section First

variable {refusal : Refusal Bytes Key} {w : World Memory}

theorem ensures_mint_iff {ε : Type} {ok : String → World Memory → Prop}
    {failed : ε → World Memory → Prop} :
    Ensures (unreliable Memory.backend refusal) w (ExceptT.lift mint : Attempt Bytes Key ε String)
      ok failed ↔ ok (Uuid.ofNat w.minted) { w with minted := w.minted + 1 } :=
  Iff.rfl

theorem ensures_readMarker (h : w.storage.WellFormed) :
    Ensures (unreliable Memory.backend refusal) w (readMarker dir)
      (fun id? w' => w' = w ∧ ∀ id, id? = some id →
        ∃ data, w.storage.IsFileAt (keyOf (markerPath dir)) data ∧ identifierOf? data = some id)
      fun _ _ => True := by
  have hread : Ensures (unreliable Memory.backend refusal) w (contentOf (markerPath dir))
      (fun data w' => w' = w ∧ w.storage.IsFileAt (keyOf (markerPath dir)) data)
      fun _ w' => w' = w :=
    ensures_contentOf (fun data t hget => ⟨rfl, h.isFileAt hget⟩) (fun _ _ => rfl) fun _ _ _ => rfl
  refine Program.every_bind.mpr (Program.Every.mono hread fun res w' hpost => ?_)
  cases res with
  | ok data =>
    obtain ⟨rfl, hfile⟩ := hpost
    exact ⟨rfl, fun id hid => ⟨data, hfile, hid⟩⟩
  | error x =>
    obtain rfl := hpost
    dsimp only
    split
    · exact ⟨rfl, fun _ hid => nomatch hid⟩
    · trivial

/-- Whoever is given the identifier of a collection finds it in the marker. -/
theorem ensures_folderId (h : w.storage.WellFormed) :
    Ensures (unreliable Memory.backend refusal) w (folderId dir)
      (fun id w' => ∃ data, w'.storage.IsFileAt (keyOf (markerPath dir)) data ∧
        identifierOf? data = some id)
      fun _ _ => True := by
  rw [folderId, Ensures.bind_iff]
  refine (ensures_readMarker h).mono ?_ fun _ _ _ => trivial
  rintro id? w' ⟨rfl, hmarker⟩
  cases id? with
  | some id => exact hmarker id rfl
  | none =>
    rw [Ensures.bind_iff, ensures_mint_iff, Ensures.bind_iff, writeMarker]
    have hminted : ({ w' with minted := w'.minted + 1 } : World Memory).storage.WellFormed := h
    refine (ensures_putContent hminted).mono (fun _ w'' hfile => ?_) fun _ _ _ => trivial
    exact ⟨_, hfile, Uuid.identifierOf?_encode_ofNat _⟩

end First

end Identity

namespace Endpoint

open CanonicalPath (segments names clean join startsWith)
open Storage

variable {refusal : Refusal Bytes Key} {k : Key} {data : Bytes} {id d path : String}

theorem markerKey_inj {p q : String} : markerKey p = markerKey q ↔ keyAt p = keyAt q := by
  rw [markerKey, markerKey, List.append_left_inj]

theorem keyAt_prefix_markerKey (path : String) : keyAt path <+: markerKey path :=
  List.prefix_append _ _

/-- Whoever asks for the identity of the collection gets the identifier in its marker. -/
theorem keepsFile_identify {isLeaf : Bool} (hid : Identity.identifierOf? data = some id) :
    KeepsFile .noticed (markerKey d) data (identify path isLeaf)
      fun node => keyAt path = keyAt d → node.identifier = id := by
  unfold identify
  split
  · refine Identity.keepsFile_contentHash.withError.map fun _ hother hkey => ?_
    rw [keyOf_nativePath] at hother
    exact absurd hkey hother
  · refine (Identity.keepsFile_folderId hid).withError.map fun found hfound hkey => ?_
    rw [keyOf_markerPath_nativePath] at hfound
    exact hfound (markerKey_inj.mpr hkey)

theorem keepsFile_loadNode {knownLeaf : Option Bool} (hid : Identity.identifierOf? data = some id) :
    KeepsFile .noticed (markerKey d) data (loadNode path knownLeaf)
      fun node => key path = keyAt d → node.identifier = id := by
  unfold loadNode
  cases knownLeaf with
  | some isLeaf => exact keepsFile_identify hid
  | none =>
    exact keeps_statNode.bind fun md _ => (keepsFile_identify hid).map fun _ hnode => hnode

/-! ## Walks -/

theorem keeps_visitNode {md : Metadata} (hid : Identity.identifierOf? data = some id) :
    (visitNode path md).Keeps (unreliable Memory.backend .noticed)
      (Memory.IsFileAt · (markerKey d) data) fun _ => True := by
  unfold visitNode
  split
  · exact .pure trivial
  · exact .bind (keepsFile_identify hid) fun _ _ => .pure trivial

theorem keepsFile_walk (e : Endpoint) (starts : List String)
    (hid : Identity.identifierOf? data = some id) :
    (walk e starts).Keeps (unreliable Memory.backend .noticed)
      (Memory.IsFileAt · (markerKey d) data) fun _ => True := by
  have hvisits : VisitsOnly (unreliable Memory.backend .noticed)
      (Memory.IsFileAt · (markerKey d) data) e (fun _ => True) fun _ => True := by
    refine ⟨fun _ _ _ => trivial, fun path md _ => ?_, fun path md _ => ?_⟩
    · exact (keeps_visitNode hid).mono fun _ _ _ _ => trivial
    · exact keeps_readDir.mono fun _ _ _ _ _ _ => trivial
  refine (hvisits.keeps_walk keeps_depthBound fun start _ => ?_).mono fun _ _ => trivial
  exact Program.Keeps.mono keeps_statNode fun _ _ => trivial

/-! ## Content -/

/-- Another path is another key. -/
theorem spares_of_key_ne (h : key path ≠ k) :
    Call.Spares k (.openWrite (nativePath (clean path))) := by
  rw [key, ← keyOf_nativePath] at h
  exact h

theorem keepsFile_writeAll {content : Bytes} (h : key path ≠ k) :
    KeepsFile refusal k data (writeAll path content) fun _ => True := by
  have hopen := spares_of_key_ne h
  have hcreate : Call.Spares k (.create (nativePath (clean path))) := hopen
  have hwrite : Call.Spares k (.write (key path) content) := h
  exact keeps_writeAll hopen.keeps hcreate.keeps hwrite.keeps

section Changing

-- Paths count by what is known of their segments; to compute these is of no use here.
attribute [local irreducible] segments clean

/-! ## Making and deleting -/

/-- What is found missing is not on the way to the file. -/
theorem keepsFile_statNode_missing :
    KeepsOr (unreliable Memory.backend .noticed) (Memory.IsFileAt · k data)
      (fun x => x.isNotFound = true → ¬ keyAt path <+: k) (statNode path) fun _ => True := by
  have hstat : KeepsOr (unreliable Memory.backend .noticed) (Memory.IsFileAt · k data)
      (fun x => x.kind = .notFound → ¬ keyAt path <+: k) (stat (nativePath path))
      fun _ => True := by
    rintro w h reply s hanswer
    have hspares : Call.Spares k (.stat (nativePath path)) := trivial
    refine ⟨hspares.keeps.of_unreliable h hanswer, ?_⟩
    cases reply with
    | ok md => trivial
    | error x =>
      intro hkind hpre
      rcases hanswer with hdone | ⟨x', hnoticed, heq, -⟩
      · obtain ⟨entry, hget⟩ := Option.ne_none_iff_exists'.mp (h.ne_none hpre)
        rw [Memory.backend, keyOf_nativePath, Memory.stat, hget] at hdone
        cases hdone
      · cases heq
        exact hnoticed hkind
  refine hstat.withError fun x hx hmissing => hx ?_
  by_contra hkind
  rw [SyncError.ofStorage, if_neg hkind] at hmissing
  cases hmissing

/-- A collection that is there is not made again, and the marker of another one is another file. -/
theorem keepsFile_createNode {n : Node} :
    KeepsFile .noticed (markerKey d) data (createNode n) fun _ => True := by
  have hmake : Call.Spares (markerKey d) (.createDirAll (nativePath (clean n.path))) := trivial
  refine keepsOr_createNode (fun _ => trivial) keepsFile_statNode_missing
    (fun _ hmissing => ⟨trivial, hmissing⟩) (fun _ => (keeps_createDirAll hmake.keeps).withError) fun hmissing => ?_
  refine (keepsFile_putContent ?_).withError
  rw [keyOf_markerPath_nativePath, Ne, markerKey_inj]
  intro hkey
  exact hmissing (hkey ▸ keyAt_prefix_markerKey d)

theorem spares_removeAll (h : ¬ keyAt path <+: k) :
    Call.Spares k (.removeAll (nativePath path)) := by
  rw [← keyOf_nativePath] at h
  exact h

theorem keepsFile_deleteNode (h : ¬ key path <+: k) :
    KeepsFile refusal k data (deleteNode path) fun _ => True :=
  keeps_deleteNode (spares_removeAll h).keeps

/-! ## Moving -/

variable {source target : String}

/-- What lies below something that is not on the way to the file is not on it either. -/
theorem not_below_keyAt {above p : String} {ss : List String}
    (h : segments p = segments above ++ ss) (hnot : ¬ keyAt above <+: k) : ¬ keyAt p <+: k := by
  intro hpre
  have habove : keyAt above <+: keyAt p := keyAt_prefix h
  exact hnot (habove.trans hpre)

theorem spares_rename {current moved : String} (h : ¬ keyAt current <+: k)
    (hmoved : ¬ keyAt moved <+: k) :
    Call.Spares k (.rename (nativePath current) (nativePath moved)) := by
  rw [← keyOf_nativePath] at h hmoved
  exact ⟨h, hmoved⟩

theorem keepsFile_ensureParent : KeepsFile refusal k data (ensureParent path) fun _ => True := by
  refine keepsOr_ensureParent fun above _ => ?_
  have hspares : Call.Spares k (.createDirAll (nativePath above)) := trivial
  exact (keeps_createDirAll hspares.keeps).withError

theorem keepsFile_moveBranch {b : Branch} (hsource : ¬ key source <+: k)
    (htarget : ¬ key target <+: k) (hb : IsBelow (clean source) b) :
    KeepsFile refusal k data (moveBranch (clean source) (clean target) b) fun _ => True := by
  obtain ⟨current, isDir⟩ := b
  obtain ⟨ss, hss⟩ := hb
  obtain ⟨moved, hmoved, hstep⟩ := exists_moveBranch_eq hss (clean target) isDir
  rw [CanonicalPath.names_clean, ← CanonicalPath.segments_clean] at hmoved
  have hcurrent : ¬ keyAt current <+: k := not_below_keyAt hss hsource
  rw [hstep]
  split
  · have hmake : Call.Spares k (.createDirAll (nativePath moved)) := trivial
    exact (keeps_createDirAll hmake.keeps).withError.bind fun _ _ =>
      (keeps_removeAll (spares_removeAll hcurrent).keeps).withError
  · exact keepsFile_ensureParent.bind fun _ _ =>
      (keeps_rename (spares_rename hcurrent (not_below_keyAt hmoved htarget)).keeps).withError

theorem keepsFile_moveNode {e : Endpoint} (hsource : ¬ key source <+: k)
    (htarget : ¬ key target <+: k) :
    KeepsFile refusal k data (moveNode e source target) fun _ => True :=
  keeps_moveNode keepsFile_ensureParent
    (fun _ _ => keepsFile_moveBranch hsource htarget)
    fun _ => (spares_rename hsource htarget).keeps

end Changing

/-! ## Requests -/

theorem names_join_markerName (d : String) :
    names (join d markerName) = names d ++ [markerName] := by
  rw [names, CanonicalPath.segments_join, List.filter_append]
  congr 1

section Requests

-- Paths count by what is known of their segments; to compute these is of no use here.
attribute [local irreducible] segments clean

/-- The first load of a collection leaves its identifier in the marker. -/
theorem ensures_loadNode {knownLeaf : Option Bool} {w : World Memory} (h : w.storage.WellFormed)
    (hdir : w.storage.IsDirAt (key d)) :
    Ensures (unreliable Memory.backend refusal) w (loadNode d knownLeaf)
      (fun node w' => ∃ data, w'.storage.IsFileAt (markerKey (clean d)) data ∧
        Identity.identifierOf? data = some node.identifier)
      fun _ _ => True := by
  have hidentify (isLeaf : Bool) :
      Ensures (unreliable Memory.backend refusal) w (identify (clean d) isLeaf)
        (fun node w' => ∃ data, w'.storage.IsFileAt (markerKey (clean d)) data ∧
          Identity.identifierOf? data = some node.identifier)
        fun _ _ => True := by
    cases isLeaf with
    | true =>
      have hdir' : w.storage.IsDirAt (keyOf (nativePath (clean d))) := by
        rw [keyOf_nativePath]
        exact hdir
      rw [identify, if_pos rfl, ← bind_pure_comp, Ensures.bind_iff, ensures_about_iff]
      exact (Identity.ensures_contentHash_of_isDirAt hdir').mono (fun _ _ hno => hno.elim)
        fun _ _ _ => trivial
    | false =>
      rw [identify, if_neg Bool.false_ne_true, ← bind_pure_comp, Ensures.bind_iff,
        ensures_about_iff]
      refine (Identity.ensures_folderId h).mono (fun id w' hmarker => ?_) fun _ _ _ => trivial
      rw [keyOf_markerPath_nativePath] at hmarker
      exact hmarker
  unfold loadNode
  cases knownLeaf with
  | some isLeaf => exact hidentify isLeaf
  | none =>
    rw [Ensures.bind_iff, statNode, ensures_about_iff]
    refine ensures_stat (fun entry _ => ?_) (fun _ => trivial) fun _ _ => trivial
    rw [← bind_pure_comp, Ensures.bind_iff]
    exact hidentify _

/-- A path without double dots that leads neither to the marker of a collection nor to anything
above it. -/
def AvoidsMarker (d path : String) : Prop :=
  NoDotDot path ∧ ¬ startsWith (clean (join d markerName)) (clean path)

instance (d path : String) : Decidable (AvoidsMarker d path) :=
  inferInstanceAs (Decidable (_ ∧ _))

theorem AvoidsMarker.key_not_above (h : AvoidsMarker d path) (hd : NoDotDot d) :
    ¬ key path <+: markerKey (clean d) := by
  have hmarker : markerKey (clean d) = (names (join d markerName)).map encode := by
    rw [markerKey, names_join_markerName, List.map_append, ← hd.key_eq_map]
    rfl
  rw [hmarker, h.1.key_eq_map, List.prefix_map_iff_of_injective encode_injective,
    ← CanonicalPath.startsWith_clean_iff]
  exact h.2

namespace Request

/-- A request that does not name the marker of a collection or anything above it, but to load it,
to read it, to make a collection of it, or to walk there. -/
def AvoidsMarker (d : String) : Request → Prop
  | load _ _ | walk _ | create _ | update _ | read _ => True
  | delete path | write path _ => Endpoint.AvoidsMarker d path
  | move source target => Endpoint.AvoidsMarker d source ∧ Endpoint.AvoidsMarker d target

end Request

theorem keeps_serve (e : Endpoint) {request : Request} (hd : NoDotDot d)
    (h : request.AvoidsMarker d) (hid : Identity.identifierOf? data = some id) :
    (request.serve e).Keeps (unreliable Memory.backend .noticed)
      (Memory.IsFileAt · (markerKey (clean d)) data) fun _ => True := by
  cases request with
  | load path knownLeaf => exact Program.Keeps.mono (keepsFile_loadNode hid) fun _ _ => trivial
  | walk starts => exact keepsFile_walk e starts hid
  | create n | update n => exact Program.Keeps.mono keepsFile_createNode fun _ _ => trivial
  | delete path =>
    exact Program.Keeps.mono (keepsFile_deleteNode (h.key_not_above hd)) fun _ _ => trivial
  | move source target =>
    exact Program.Keeps.mono
      (keepsFile_moveNode (h.1.key_not_above hd) (h.2.key_not_above hd)) fun _ _ => trivial
  | read path => exact Program.Keeps.mono keeps_readAll fun _ _ => trivial
  | write path content =>
    refine Program.Keeps.mono (keepsFile_writeAll fun heq => ?_) fun _ _ => trivial
    exact h.key_not_above hd (heq ▸ List.prefix_refl _)

/-- One request that avoids the marker of a collection, with calls that are refused on the way. -/
def ServedBeside (e : Endpoint) (d : String) (w w' : World Memory) : Prop :=
  ∃ (request : Request) (answer : request.Answer), request.AvoidsMarker d ∧
    (request.serve e).Runs (unreliable Memory.backend .noticed) w answer w'

theorem isFileAt_of_served {e : Endpoint} {w w' : World Memory} (hd : NoDotDot d)
    (hid : Identity.identifierOf? data = some id) (h : w.storage.IsFileAt (markerKey (clean d)) data)
    (hserved : Relation.ReflTransGen (ServedBeside e d) w w') :
    w'.storage.IsFileAt (markerKey (clean d)) data := by
  induction hserved with
  | refl => exact h
  | tail _ hstep ih =>
    obtain ⟨request, answer, havoids, hruns⟩ := hstep
    exact ((keeps_serve e hd havoids hid).of_runs ih hruns).1

/-- Once a collection was loaded, all its loads that succeed give the same identifier: nothing that
is done in between replaces the marker, whatever calls are refused on the way, if nothing that is
there is taken for missing. -/
theorem loadNode_identifier_stable (e : Endpoint) {knownLeaf knownLeaf' : Option Bool}
    {node node' : Node} {w₀ w₁ w₂ w₃ : World Memory} (hd : NoDotDot d)
    (h : w₀.storage.WellFormed) (hdir : w₀.storage.IsDirAt (key d))
    (hfirst : (loadNode d knownLeaf).run.Runs (unreliable Memory.backend .all) w₀ (.ok node) w₁)
    (hserved : Relation.ReflTransGen (ServedBeside e d) w₁ w₂)
    (hlater : (loadNode d knownLeaf').run.Runs (unreliable Memory.backend .noticed) w₂ (.ok node')
      w₃) :
    node'.identifier = node.identifier := by
  obtain ⟨data, hfile, hid⟩ := (ensures_loadNode h hdir).of_runs_ok hfirst
  exact (keepsFile_loadNode hid).of_runs_ok (isFileAt_of_served hd hid hfile hserved) hlater rfl

end Requests

theorem exists_ok_of_isOk {ε α : Type} {x : Except ε α} (h : x.isOk) : ∃ a, x = .ok a := by
  cases x with
  | ok a => exact ⟨a, rfl⟩
  | error e => cases h

/-- A collection that is made again, with another identifier, and out of which a file cannot be
moved. -/
theorem loadNode_identifier_stable_oneFile :
    let first := (loadNode "/a" none).run.run Memory.backend ⟨oneFile, 0⟩
    let made := (Request.serve inMemory (.update (.collection "/a" "other"))).run Memory.backend
      first.2
    let moved := (Request.serve inMemory (.move "/a/f" "/f")).run withoutRename made.2
    let later := (loadNode "/a" none).run.run Memory.backend moved.2
    ∃ node node', first.1 = .ok node ∧ later.1 = .ok node' ∧
      node'.identifier = node.identifier := by
  intro first made moved later
  have hmade : ServedBeside inMemory "/a" first.2 made.2 :=
    ⟨.update (.collection "/a" "other"), made.1, trivial, Program.runs_run _ _ _ _⟩
  have hmoved : ServedBeside inMemory "/a" made.2 moved.2 := by
    refine ⟨.move "/a/f" "/f", moved.1, ⟨by decide, by decide⟩, ?_⟩
    refine Program.runs_run_of_answers (fun c m => ?_) _ _
    cases c with
    | rename =>
      have hkind : ErrorKind.permissionDenied ≠ .notFound := by decide
      exact Or.inr ⟨⟨.permissionDenied, "permission denied"⟩, hkind, rfl, rfl⟩
    | _ => exact unreliable_backend Memory.backend .noticed _ m
  obtain ⟨node, hnode⟩ : ∃ node, first.1 = .ok node := exists_ok_of_isOk (by decide +kernel)
  obtain ⟨node', hnode'⟩ : ∃ node, later.1 = .ok node := exists_ok_of_isOk (by decide +kernel)
  refine ⟨node, node', hnode, hnode', ?_⟩
  have hdir : oneFile.IsDirAt (key "/a") := by
    rw [key_a]
    decide
  have hfirst := Program.runs_run Memory.backend .all (loadNode "/a" none).run ⟨oneFile, 0⟩
  have hlater := Program.runs_run Memory.backend .noticed (loadNode "/a" none).run moved.2
  exact loadNode_identifier_stable inMemory (by decide) oneFile_wellFormed hdir (hnode ▸ hfirst)
    ((Relation.ReflTransGen.single hmade).tail hmoved) (hnode' ▸ hlater)

end Endpoint

end SyncEndpoint
