import Mathlib.Order.Defs.Unbundled
import SyncEndpoint.Proofs.Path.Canonical

set_option autoImplicit false

/-! # Rebased paths

Clean paths are ordered by what lies below what, with the root at the bottom. Rebasing carries what
lies below one path to what lies below another: nothing but the segments up to the first one changes,
so that the depth is shifted, the order is kept, two rebasings are one, and rebasing back leads back
(`rebase_isomorphic`). -/

namespace SyncEndpoint.CanonicalPath

variable {p q r s source target : String}

/-! ## The order of clean paths -/

theorem ofSegments_segments (hp : clean p = p) : ofSegments (segments p) = p := by
  rw [segments_eq_names hp]
  exact hp

/-- A clean path is given by its segments. -/
theorem segments_inj (hp : clean p = p) (hq : clean q = q) : segments p = segments q ↔ p = q := by
  refine ⟨fun h => ?_, fun h => by rw [h]⟩
  rw [← ofSegments_segments hp, h, ofSegments_segments hq]

theorem startsWith_refl (p : String) : startsWith p p = true :=
  (startsWith_iff p p).mpr (List.prefix_refl _)

theorem startsWith_trans (hpq : startsWith p q = true) (hqr : startsWith q r = true) :
    startsWith p r = true := by
  rw [startsWith_iff] at hpq hqr ⊢
  exact hqr.trans hpq

theorem startsWith_antisymm (hp : clean p = p) (hq : clean q = q) (hpq : startsWith p q = true)
    (hqp : startsWith q p = true) : p = q := by
  rw [startsWith_iff] at hpq hqp
  have hlength := hqp.length_le
  exact (segments_inj hp hq).mp (hpq.eq_of_length_le hlength).symm

theorem startsWith_root (p : String) : startsWith p root = true := by
  have hroot : segments root = [] := by decide
  rw [startsWith_iff, hroot]
  exact List.nil_prefix

theorem isPartialOrder_startsWith :
    IsPartialOrder {p : String // clean p = p} fun p q => startsWith q.1 p.1 = true where
  refl := by
    intro p
    exact startsWith_refl p.1
  trans := by
    intro p q r hpq hqr
    exact startsWith_trans hqr hpq
  antisymm := by
    intro p q hpq hqp
    exact Subtype.ext (startsWith_antisymm p.2 q.2 hqp hpq)

/-! ## What rebasing does -/

/-- The segments below `source` come to stand below the names of `target`. -/
theorem rebase_eq_some_iff (hp : clean p = p) : rebase p source target = some r ↔
    ∃ rest, segments p = segments source ++ rest ∧ r = ofSegments (names target ++ rest) := by
  constructor
  · intro hr
    obtain ⟨rest, hrest, hsegments⟩ := of_rebase_eq_some hr
    refine ⟨rest, hrest, ?_⟩
    rw [← hsegments, ofSegments_segments (clean_of_rebase hp hr)]
  · rintro ⟨rest, hrest, rfl⟩
    obtain ⟨moved, hmoved, hsegments⟩ := rebase_eq_some hrest target
    rw [hmoved, ← hsegments, ofSegments_segments (clean_of_rebase hp hmoved)]

theorem isSome_rebase_iff (p source target : String) :
    (rebase p source target).isSome = true ↔ startsWith p source = true := by
  rw [startsWith_iff]
  constructor
  · intro hsome
    obtain ⟨r, hr⟩ := Option.isSome_iff_exists.mp hsome
    obtain ⟨rest, hrest, -⟩ := of_rebase_eq_some hr
    rw [hrest]
    exact List.prefix_append _ _
  · rintro ⟨rest, hrest⟩
    obtain ⟨r, hr, -⟩ := rebase_eq_some hrest.symm target
    rw [hr]
    rfl

/-- What has become of a path that was rebased: it can be rebased back, and on to anywhere else as if
this had not happened. -/
structure Rebased (p source target r : String) : Prop where
  clean : clean r = r
  below : startsWith r target = true
  depth : depth r = depth p - depth source + depth target
  back : rebase r target source = some p
  onward : ∀ via, rebase r target via = rebase p source via

theorem rebased_of_eq_some (hsource : clean source = source) (htarget : clean target = target)
    (hp : clean p = p) (hr : rebase p source target = some r) : Rebased p source target r := by
  have hclean : clean r = r := clean_of_rebase hp hr
  obtain ⟨rest, hrest, hsegments⟩ := of_rebase_eq_some hr
  rw [← segments_eq_names htarget] at hsegments
  -- The rest below the target is the one below the source.
  have hrebase : ∀ via, rebase r target via = some (ofSegments (names via ++ rest)) := by
    intro via
    exact (rebase_eq_some_iff hclean).mpr ⟨rest, hsegments, rfl⟩
  refine ⟨hclean, ?_, ?_, ?_, ?_⟩
  · rw [startsWith_iff, hsegments]
    exact List.prefix_append _ _
  · simp only [depth, hrest, hsegments, List.length_append]
    omega
  · rw [hrebase, ← segments_eq_names hsource, ← hrest, ofSegments_segments hp]
  · intro via
    rw [hrebase]
    exact ((rebase_eq_some_iff hp).mpr ⟨rest, hrest, rfl⟩).symm

/-- What is below what stays so. -/
theorem startsWith_rebase_iff (hr : rebase p source target = some r)
    (hs : rebase q source target = some s) :
    startsWith p q = true ↔ startsWith r s = true := by
  obtain ⟨rest, hp, hr⟩ := of_rebase_eq_some hr
  obtain ⟨rest', hq, hs⟩ := of_rebase_eq_some hs
  rw [startsWith_iff, startsWith_iff, hp, hq, hr, hs, List.prefix_append_right_inj,
    List.prefix_append_right_inj]

/-- Rebasing is an isomorphism between what lies below one path and what lies below another, which
shifts the depth; and lying below is a partial order of the clean paths, with the root as the least
one. -/
theorem rebase_isomorphic (hsource : clean source = source) (htarget : clean target = target) :
    (∀ p, clean p = p →
      ((rebase p source target).isSome = true ↔ startsWith p source = true) ∧
      ∀ r, rebase p source target = some r → Rebased p source target r) ∧
    (∀ p q, startsWith p source = true → startsWith q source = true →
      ∃ r s, rebase p source target = some r ∧ rebase q source target = some s ∧
        (startsWith p q = true ↔ startsWith r s = true)) ∧
    IsPartialOrder {p : String // clean p = p} (fun p q => startsWith q.1 p.1 = true) ∧
    clean root = root ∧ ∀ p, startsWith p root = true := by
  refine ⟨fun p hp => ⟨isSome_rebase_iff p source target, fun r hr => ?_⟩, ?_,
    isPartialOrder_startsWith, by decide, startsWith_root⟩
  · exact rebased_of_eq_some hsource htarget hp hr
  · intro p q hbelow hbelow'
    obtain ⟨r, hr⟩ := Option.isSome_iff_exists.mp ((isSome_rebase_iff p source target).mpr hbelow)
    obtain ⟨s, hs⟩ := Option.isSome_iff_exists.mp ((isSome_rebase_iff q source target).mpr hbelow')
    exact ⟨r, s, hr, hs, startsWith_rebase_iff hr hs⟩

/-- A path with a double dot in it, which is a segment like any other. -/
theorem rebase_isomorphic_deeper :
    clean "/a" = "/a" ∧ clean "/b/c" = "/b/c" ∧ rebase "/a/../f" "/a" "/b/c" = some "/b/c/../f" ∧
      Rebased "/a/../f" "/a" "/b/c" "/b/c/../f" := by
  have hsource : clean "/a" = "/a" := by decide
  have htarget : clean "/b/c" = "/b/c" := by decide
  have hmoved : rebase "/a/../f" "/a" "/b/c" = some "/b/c/../f" := by decide
  exact ⟨hsource, htarget, hmoved,
    ((rebase_isomorphic hsource htarget).1 "/a/../f" (by decide)).2 _ hmoved⟩

end SyncEndpoint.CanonicalPath
