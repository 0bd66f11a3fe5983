import SyncEndpoint.Proofs.Endpoint.Guards
import SyncEndpoint.Proofs.Endpoint.Keeping
import SyncEndpoint.Proofs.Endpoint.Walk.Confinement
import SyncEndpoint.Proofs.Ignore.Marker
import SyncEndpoint.Proofs.Watch.Interpretation

set_option autoImplicit false

/-! # Markers stay out of sight

Below the paths that it starts from a walk visits what the ignore list lets it see, and so do the
events of a watch. That hides the markers of an endpoint as long as the list hides their paths and
no walk starts at one: the list is not asked about the start of a walk. -/

namespace SyncEndpoint

open CanonicalPath (IsTidy clean names)
open Storage
open Text.Utf8

/-- The list hides the path of every marker. -/
def IgnoreList.HidesMarkers (list : IgnoreList) : Prop :=
  ∀ path isDir, clean path = path → IsMarker path → list.isIgnored path isDir = true

theorem IgnoreList.HidesMarkers.isIgnoredAny {list : IgnoreList} (h : list.HidesMarkers)
    {path : String} (hclean : clean path = path) (hmarker : IsMarker path) :
    list.isIgnoredAny path = true := by
  rw [IgnoreList.isIgnoredAny, h path false hclean hmarker, Bool.true_or]

namespace Endpoint

variable {σ R W : Type} {answers : Answers σ R W} {e : Endpoint}

/-! ## Walks -/

theorem not_isMarker_root : ¬ IsMarker (clean CanonicalPath.root) := by
  decide

-- Paths count by what is known of their segments; to compute these is of no use here.
attribute [local irreducible] CanonicalPath.segments clean

/-- What is found is not ignored, as a file or as a directory. -/
theorem of_foundIn?_eq_some {path : String} {entry : Listed} {child : Found}
    (hfound : e.foundIn? path entry = some child) :
    child.path = CanonicalPath.join path (clean entry.name) ∧
      ∃ isDir, e.ignored.isIgnored child.path isDir = false := by
  unfold foundIn? at hfound
  rw [Platform.toCanonical_eq_clean] at hfound
  dsimp only at hfound
  split at hfound
  · next md _ =>
    split at hfound
    · cases hfound
    · next hshown =>
      cases hfound
      exact ⟨rfl, md.isDir, by simpa using hshown⟩
  · split at hfound
    · cases hfound
    · next hshown =>
      cases hfound
      rw [IgnoreList.isIgnoredAny, Bool.or_eq_true, not_or] at hshown
      exact ⟨rfl, false, by simpa using hshown.1⟩

/-- What is found in a collection that is no marker is no marker. -/
theorem not_isMarker_of_foundIn? (hhides : e.ignored.HidesMarkers) {path : String}
    (htidy : IsTidy path) (hmarker : ¬ IsMarker path) {entry : Listed} {child : Found}
    (hfound : e.foundIn? path entry = some child) :
    IsTidy child.path ∧ ¬ IsMarker child.path := by
  obtain ⟨hpath, isDir, hshown⟩ := of_foundIn?_eq_some hfound
  rw [hpath] at hshown ⊢
  refine ⟨htidy.join, fun hchild => ?_⟩
  by_cases hname : names entry.name = []
  · -- A name that says nothing stands for the collection itself.
    rw [IsMarker, CanonicalPath.fileName, CanonicalPath.segments_join, CanonicalPath.segments_clean,
      hname, List.append_nil] at hchild
    exact hmarker hchild
  · rw [hhides _ isDir (htidy.clean_join hname) hchild] at hshown
    cases hshown

/-- On the way down paths stay tidy: the list judges them by the spelling that markers are known by. -/
theorem visitsOnly_unmarked (hhides : e.ignored.HidesMarkers) :
    VisitsOnly answers (fun _ => True) e (fun found => IsTidy found.path ∧ ¬ IsMarker found.path)
      fun v => ¬ IsMarker v.path where
  unseen path x hfound := hfound.2
  own path md hfound := by
    unfold visitNode
    split
    · exact .pure (List.forall_mem_nil _)
    · refine Program.keeps_true_iff.mpr fun w => Program.every_bind_of_forall fun node w' => ?_
      exact List.forall_mem_singleton.mpr hfound.2
  listed path md hfound := by
    refine Program.keeps_true_iff.mpr fun w => Program.every_of_forall fun res w' => ?_
    cases res with
    | ok entries =>
      exact fun entry _ child => not_isMarker_of_foundIn? hhides hfound.1 hfound.2
    | error x => exact hfound.2

/-- A walk that does not start at a marker visits none, whatever its storage answers. -/
theorem every_walk (hhides : e.ignored.HidesMarkers) {starts : List String}
    (hstarts : ∀ start ∈ starts, ¬ IsMarker (clean start)) (w : World σ) :
    (walk e starts : Program R W (List Visit)).Every answers
      (fun visits _ => ∀ v ∈ visits, ¬ IsMarker v.path) w := by
  have hdepth : (depthBound : Program R W Nat).Keeps answers (fun _ => True) fun _ => True :=
    Program.keeps_true_iff.mpr fun w => Program.every_of_forall fun _ _ => trivial
  refine Program.keeps_true_iff.mp ((visitsOnly_unmarked hhides).keeps_walk hdepth ?_) w
  intro start hstart
  have hmarker : ¬ IsMarker (clean start) := by
    rcases hstart with hstart | rfl
    · exact hstarts start hstart
    · exact not_isMarker_root
  exact Program.keeps_true_iff.mpr fun w => Program.every_of_forall fun _ _ =>
    ⟨CanonicalPath.isTidy_clean start, hmarker⟩

/-! ### Where a walk starts -/

theorem every_visitNode_self {path : String} {md : Metadata}
    (hroot : CanonicalPath.isRoot path = false) (w : World σ) :
    (visitNode path md : Program R W (List Visit)).Every answers
      (fun visits _ => ∃ v ∈ visits, v.path = path) w := by
  rw [visitNode, if_neg (by simp [hroot])]
  refine Program.every_bind_of_forall fun node w' => ?_
  exact ⟨_, List.mem_singleton.mpr rfl, rfl⟩

theorem every_walkFrom_self (depth : Nat) {found : Found}
    (hroot : CanonicalPath.isRoot found.path = false) (w : World σ) :
    (walkFrom e (depth + 1) found : Program R W (List Visit)).Every answers
      (fun visits _ => ∃ v ∈ visits, v.path = found.path) w := by
  obtain ⟨path, metadata⟩ := found
  cases metadata with
  | error x => exact ⟨_, List.mem_singleton.mpr rfl, rfl⟩
  | ok md =>
    refine Program.every_bind.mpr ((every_visitNode_self hroot w).mono fun own w' hown => ?_)
    obtain ⟨v, hv, hpath⟩ := hown
    split
    · refine Program.every_bind_of_forall fun res w'' => ?_
      cases res with
      | error x => exact ⟨v, List.mem_append_left _ hv, hpath⟩
      | ok entries =>
        refine Program.every_bind_of_forall fun below w₃ => ?_
        exact ⟨v, List.mem_append_left _ hv, hpath⟩
    · exact ⟨v, hv, hpath⟩

/-- What a walk starts from is visited, also if it is ignored. -/
theorem every_walk_self {starts : List String} {start : String} (hstart : start ∈ starts)
    (hroot : CanonicalPath.isRoot (clean start) = false) (w : World σ) :
    (walk e starts : Program R W (List Visit)).Every answers
      (fun visits _ => ∃ v ∈ visits, v.path = clean start) w := by
  have htree : ∀ s ∈ starts, ∀ w : World σ, (walkTree e s : Program R W (List Visit)).Every answers
      (fun visits _ => CanonicalPath.isRoot (clean s) = false → ∃ v ∈ visits, v.path = clean s) w := by
    intro s _ w
    refine Program.every_bind_of_forall fun metadata w' => ?_
    refine Program.every_bind_of_forall fun depth w'' => ?_
    by_cases hs : CanonicalPath.isRoot (clean s) = false
    · exact (every_walkFrom_self _ hs w'').mono fun visits _ hvisits _ => hvisits
    · exact Program.every_of_forall fun _ _ hnot => absurd hnot hs
  have hne : starts.isEmpty = false := by
    simpa using List.ne_nil_of_mem hstart
  rw [walk, hne, if_neg Bool.false_ne_true]
  refine Program.every_bind.mpr ((Program.every_mapM htree w).mono fun parts w' hparts => ?_)
  obtain ⟨part, hpart, hself⟩ := exists_right_of_mem hparts hstart
  obtain ⟨v, hv, hpath⟩ := hself hroot
  exact ⟨v, List.mem_flatten.mpr ⟨part, hpart, hv⟩, hpath⟩

end Endpoint

/-! ## Events -/

namespace Watch.Interpreter

variable {σ R W : Type} {answers : Answers σ R W} {t : Interpreter} {now : Timestamp}

theorem not_isMarker_of_removal? (hhides : t.ignored.HidesMarkers) {canonical : String}
    (hclean : clean canonical = canonical) {event : ChangeEvent}
    (h : t.removal? now canonical = some event) : ¬ IsMarker event.path := by
  obtain ⟨hshown, rfl⟩ := removal?_eq_some_iff.mp h
  intro hmarker
  rw [hhides.isIgnoredAny hclean hmarker] at hshown
  cases hshown

/-- What is looked at for an event is hidden as what it is; what is gone, as anything. -/
theorem ensures_confirm (hhides : t.ignored.HidesMarkers) {type : ChangeType} {below : NativePath}
    {canonical : String} (hclean : clean canonical = canonical) (w : World σ) :
    Ensures answers w (t.confirm now type below canonical : Attempt R W SyncError _)
      (fun event? _ => ∀ event ∈ event?, ¬ IsMarker event.path) fun _ _ => True := by
  rw [confirm, Ensures.bind_iff, Ensures.lift_run_iff]
  refine Program.every_of_forall fun res w' => ?_
  cases res with
  | ok md =>
    dsimp only
    split
    · rw [Ensures.pure_iff]
      simp
    · next hshown =>
      rw [Ensures.pure_iff]
      rintro event ⟨⟩ hmarker
      exact hshown (hhides canonical md.isDir hclean hmarker)
  | error x =>
    dsimp only
    split
    · rw [Ensures.pure_iff]
      intro event hevent
      split at hevent
      · exact not_isMarker_of_removal? hhides hclean hevent
      · cases hevent
    · split
      · rw [Ensures.pure_iff]
        simp
      · rw [Ensures.throw_iff]
        trivial

/-- No event is on a marker, whatever the storage answers. -/
theorem ensures_interpret (hhides : t.ignored.HidesMarkers) (raw : RawEvent) (w : World σ) :
    Ensures answers w (t.interpret now raw : Attempt R W SyncError _)
      (fun event? _ => ∀ event ∈ event?, ¬ IsMarker event.path) fun _ _ => True := by
  unfold interpret
  split
  · rw [Ensures.pure_iff]
    simp
  · next below _ =>
    rw [Platform.toCanonical_eq_clean]
    have hclean := CanonicalPath.clean_clean (NativePath.display below)
    dsimp only
    split
    · exact ensures_confirm hhides hclean w
    · rw [Ensures.pure_iff]
      exact fun event hevent => not_isMarker_of_removal? hhides hclean hevent
    · rw [Ensures.pure_iff]
      simp

end Watch.Interpreter

/-! ## What a marker that is brought back shows up in -/

open Endpoint (IsTextName)

/-- The key of the path of a marker ends in its name. -/
theorem Watch.exists_keyOf_eq {above : List String}
    (hss : ∀ s ∈ above ++ [markerName], CanonicalPath.IsSegment s ∧ s ≠ ".") :
    ∃ names, keyOf (NativePath.ofNames ((above ++ [markerName]).map encode)) =
        names ++ [encode markerName] ∧ ∀ n ∈ names ++ [encode markerName], IsTextName n := by
  have hparts := NativePath.isPart_of_mem_map hss
  have hkey : keyOf (NativePath.ofNames ((above ++ [markerName]).map encode)) =
      (above.map encode).filter (· ≠ NativePath.dotDot) ++ [encode markerName] := by
    rw [keyOf, NativePath.names_ofNames hparts, List.map_append, List.filter_append]
    congr 1
  refine ⟨_, hkey, fun n hn => ?_⟩
  rw [← hkey, keyOf, NativePath.names_ofNames hparts, List.mem_filter, decide_eq_true_eq] at hn
  obtain ⟨hmem, hdots⟩ := hn
  obtain ⟨s, -, rfl⟩ := List.mem_map.mp hmem
  obtain ⟨hne, hdot, hslash⟩ := hparts _ hmem
  exact ⟨⟨hne, hdot, hdots, hslash⟩, s, rfl⟩

/-- A notification on a marker that is brought back comes to an event. -/
theorem Watch.Interpreter.exists_event_of_bringsBack {lines : List String} {list : IgnoreList}
    (h : IgnoreList.ofLines lines = .ok list) {path : String} {isDir : Bool}
    (hclean : clean path = path) (hmarker : IsMarker path) (hback : list.BringsBack path isDir) :
    ∃ raw, ∃ w : World Memory, w.storage.WellFormed ∧ w.storage.Textual ∧ ∃ event : ChangeEvent,
      ((⟨[], list, 0⟩ : Interpreter).interpret ⟨0, 0⟩ raw).run.run Memory.backend w =
        (.ok (some event), w) ∧ event.path = path := by
  have hshown : list.isIgnored path isDir = false := by
    rw [← Bool.not_eq_true, IgnoreList.isIgnored_marker_iff h hclean hmarker isDir]
    exact not_not_intro hback
  obtain ⟨above, rfl, hss⟩ := exists_eq_ofSegments_of_isMarker hclean hmarker
  obtain ⟨names, hkey, htext⟩ := Watch.exists_keyOf_eq hss
  obtain ⟨m, hwf, hmtext, entry, hget, rfl⟩ := Endpoint.exists_tree htext isDir
  have hparts := NativePath.isPart_of_mem_map hss
  let raw : RawEvent := ⟨NativePath.ofNames ((above ++ [markerName]).map encode), { create := true }⟩
  have hbelow : NativePath.below? raw.path [] =
      some (NativePath.ofNames ((above ++ [markerName]).map encode)) :=
    NativePath.below?_eq_some (NativePath.components_ofNames hparts)
  have hrun : ((⟨[], list, 0⟩ : Interpreter).interpret ⟨0, 0⟩ raw).run.run Memory.backend ⟨m, 0⟩ =
      _ := run_interpret hss rfl hbelow (hkey ▸ hget)
  rw [hshown] at hrun
  exact ⟨raw, ⟨m, 0⟩, hwf, hmtext, _, hrun, rfl⟩

/-- On all trees, no walk from the given paths visits a marker and no event is on one, if no other
calls are refused than these. -/
structure MarkersUnseen (refusal : Refusal Bytes Key) (list : IgnoreList) (starts : List String) :
    Prop where
  walks : ∀ (e : Endpoint) (w w' : World Memory) (visits : List Endpoint.Visit), e.ignored = list →
    w.storage.WellFormed → w.storage.Textual →
      (Endpoint.walk e starts).Runs (unreliable Memory.backend refusal) w visits w' →
        ∀ v ∈ visits, ¬ IsMarker v.path
  events : ∀ (t : Watch.Interpreter) (now : Timestamp) (raw : Watch.RawEvent) (w w' : World Memory)
    (event : ChangeEvent), t.ignored = list → w.storage.WellFormed → w.storage.Textual →
      (t.interpret now raw).run.Runs (unreliable Memory.backend refusal) w (.ok (some event)) w' →
        ¬ IsMarker event.path

/-- The markers stay unseen exactly if no walk starts at one, and the user's rules bring the path of
none back. -/
theorem markersUnseen_iff {lines : List String} {list : IgnoreList}
    (h : IgnoreList.ofLines lines = .ok list) (refusal : Refusal Bytes Key) (starts : List String) :
    MarkersUnseen refusal list starts ↔
      (∀ start ∈ starts, ¬ IsMarker (clean start)) ∧
        ∀ path isDir, clean path = path → IsMarker path → ¬ list.BringsBack path isDir := by
  constructor
  · intro hunseen
    refine ⟨fun start hstart hmarker => ?_, fun path isDir hclean hmarker hback => ?_⟩
    · have hroot : CanonicalPath.isRoot (clean start) = false := by
        rw [← Bool.not_eq_true, CanonicalPath.isRoot_iff]
        intro hnil
        rw [IsMarker, CanonicalPath.fileName, hnil] at hmarker
        cases hmarker
      let e : Endpoint := { Endpoint.inMemory with ignored := list }
      have hruns := Program.runs_run Memory.backend refusal (Endpoint.walk e starts)
        ⟨Memory.empty ⟨0, 0⟩, 0⟩
      obtain ⟨v, hv, hpath⟩ := (Endpoint.every_walk_self hstart hroot _).of_runs hruns
      refine hunseen.walks e _ _ _ rfl (Memory.wellFormed_empty _) (Memory.textual_empty _) hruns v
        hv ?_
      rw [hpath]
      exact hmarker
    · obtain ⟨raw, w, hw, ht, event, hrun, rfl⟩ :=
        Watch.Interpreter.exists_event_of_bringsBack h hclean hmarker hback
      have hruns := Program.runs_run Memory.backend refusal
        ((⟨[], list, 0⟩ : Watch.Interpreter).interpret ⟨0, 0⟩ raw).run w
      rw [hrun] at hruns
      exact hunseen.events _ _ raw w w event rfl hw ht hruns hmarker
  · rintro ⟨hstarts, hback⟩
    have hhides : list.HidesMarkers := fun path isDir hclean hmarker =>
      (IgnoreList.isIgnored_marker_iff h hclean hmarker isDir).mpr
        (hback path isDir hclean hmarker)
    refine ⟨fun e w w' visits he _ _ hruns => ?_, fun t now raw w w' event ht _ _ hruns => ?_⟩
    · subst he
      exact (Endpoint.every_walk hhides hstarts w).of_runs hruns
    · subst ht
      exact (Watch.Interpreter.ensures_interpret hhides raw w).of_runs_ok hruns event rfl

/-- Nothing is brought back here, and the walk starts at no marker. -/
theorem markersUnseen_logs : ∃ list, IgnoreList.ofLines ["*.log"] = .ok list ∧
    MarkersUnseen .all list ["/d"] := by
  have hrules : (IgnoreList.ofLines ["*.log"]).toOption.map (·.rules.all (!·.negated)) =
      some true := by decide
  cases h : IgnoreList.ofLines ["*.log"] with
  | error x =>
    rw [h] at hrules
    cases hrules
  | ok list =>
    rw [h] at hrules
    have hkept : ∀ rule ∈ list.rules, rule.negated = false := by
      simpa [Except.toOption] using hrules
    have hstart : ∀ start ∈ ["/d"], ¬ IsMarker (clean start) := by decide +kernel
    refine ⟨list, rfl, (markersUnseen_iff h .all ["/d"]).mpr ⟨hstart, fun path isDir _ _ => ?_⟩⟩
    exact list.not_bringsBack hkept path isDir

open Endpoint (showsMarkers nestedMarkers inMemory) in
/-- A pattern that brings markers back shows them to walks and in events, and a walk that starts at
a marker visits it in any case. -/
theorem markers_seen_nestedMarkers :
    (nestedMarkers 2).WellFormed ∧ (nestedMarkers 2).Textual ∧
      IgnoreList.ofLines ["!.__tandem"] = .ok showsMarkers.ignored ∧
      (∃ v ∈ ((Endpoint.walk showsMarkers []).run Memory.backend ⟨nestedMarkers 2, 0⟩).1,
        IsMarker v.path) ∧
      (∃ v ∈ ((Endpoint.walk inMemory ["/d/.__tandem"]).run Memory.backend ⟨nestedMarkers 2, 0⟩).1,
        IsMarker v.path) := by
  refine ⟨by decide, .of_entries (by simp [nestedMarkers]), rfl, ?_, ?_⟩ <;> decide +kernel

end SyncEndpoint
