import SyncEndpoint.Node
import SyncEndpoint.Proofs.Json.Records
import SyncEndpoint.Proofs.Json.RoundTrip
import SyncEndpoint.Proofs.Time.Reading

set_option autoImplicit false

/-! # Nodes read back

A node is read back from the text of its JSON form (`parse?_compact_bind_ofJson?`): from its
members by their names, and from the text of a member by what it says. What the text of a time does
not say, it does not come back with. -/

namespace SyncEndpoint.Node

open Json

theorem built_ofOption {α : Type} {write : α → Json} (h : ∀ a, Built (write a)) (o : Option α) :
    Built (ofOption write o) := by
  cases o with
  | none => exact .null
  | some a => exact h a

theorem built_toJson (n : Node) : Built n.toJson := by
  refine built_ofMembers ?_
  simp only [List.forall_mem_cons, List.not_mem_nil, false_implies, implies_true, and_true]
  exact ⟨.text _, .text _, .text _, built_ofOption (fun _ => .text _) _,
    built_ofOption (fun _ => .text _) _, built_ofOption (fun _ => .number _) _,
    built_ofOption (fun _ => .number _) _⟩

theorem ofName?_name (t : NodeType) : NodeType.ofName? t.name = some t := by
  cases t <;> rfl

/-- A node with the time that is shown of it. -/
def shown (n : Node) : Node :=
  { n with mtime := n.mtime.map Timestamp.shown }

theorem shown_eq_self_iff (n : Node) : n.shown = n ↔ ∀ t ∈ n.mtime, ¬ t.IsStray := by
  obtain ⟨path, nodeType, identifier, contentSignature, mtime, size, mode⟩ := n
  cases mtime with
  | none => exact iff_of_true rfl nofun
  | some t =>
    rw [shown, Option.map_some]
    simp [Timestamp.shown_eq_self_iff]

theorem ofJson?_toJson (n : Node) (hmtime : ∀ t ∈ n.mtime, t.inRange = true) :
    ofJson? n.toJson = some n.shown := by
  have hfields : fieldValues? fieldNames n.toJson = some [some (.ofString n.path),
      some (.ofString n.nodeType.name), some (.ofString n.identifier),
      some (ofOption .ofString n.contentSignature),
      some (ofOption (fun t => .ofString t.toRfc3339) n.mtime),
      some (ofOption (fun s => .ofNat s.toNat) n.size),
      some (ofOption (fun m => .ofNat m.toNat) n.mode)] :=
    fieldValues?_ofMembers (show fieldNames.Nodup by decide)
  have hsignature : optional? string? (some (ofOption .ofString n.contentSignature)) =
      some n.contentSignature := by
    rw [optional?_ofOption (g := id) nofun fun s _ => string?_ofString s, Option.map_id, id]
  have htime : optional? (fun v => v.string?.bind Timestamp.ofRfc3339?)
      (some (ofOption (fun t => .ofString t.toRfc3339) n.mtime)) =
        some (n.mtime.map Timestamp.shown) := by
    refine optional?_ofOption nofun fun t ht => ?_
    rw [string?_ofString, Option.bind_some, Timestamp.ofRfc3339?_toRfc3339_eq_shown (hmtime t ht)]
  have hsize : optional? (natBelow? UInt64.size) (some (ofOption (fun s => .ofNat s.toNat) n.size)) =
      some (n.size.map UInt64.toNat) :=
    optional?_ofOption nofun fun s _ => natBelow?_ofNat s.toNat_lt_size
  have hmode : optional? (natBelow? UInt32.size) (some (ofOption (fun m => .ofNat m.toNat) n.mode)) =
      some (n.mode.map UInt32.toNat) :=
    optional?_ofOption nofun fun m _ => natBelow?_ofNat m.toNat_lt_size
  rw [ofJson?, hfields]
  simp [required?, hsignature, htime, hsize, hmode, ofName?_name, Option.map_map, Function.comp_def,
    shown]

/-- Whatever a node holds, with any time that there is, its JSON text is read as that node, but for a
leap second that does not end a minute: it comes back as the second that follows. -/
theorem parse?_compact_bind_ofJson? (n : Node) (hmtime : ∀ t ∈ n.mtime, t.inRange = true) :
    (Json.parse? n.toJson.compact).bind ofJson? = some n.shown ∧
      ((Json.parse? n.toJson.compact).bind ofJson? = some n ↔ ∀ t ∈ n.mtime, ¬ t.IsStray) := by
  have hread : (Json.parse? n.toJson.compact).bind ofJson? = some n.shown := by
    rw [parse?_compact n.built_toJson, Option.bind_some, n.ofJson?_toJson hmtime]
  refine ⟨hread, ?_⟩
  rw [hread, Option.some.injEq, shown_eq_self_iff]

/-- Escapes, the last leap second that there is room for, and the largest numbers. -/
theorem parse?_compact_bind_ofJson?_extremes :
    let n : Node :=
      ⟨"a \"b\"\\\n\x01\u00e9", .leaf, "", some "\t", some ⟨8210266876799, 1999999999⟩,
        some 18446744073709551615, some 4294967295⟩
    (∀ t ∈ n.mtime, t.inRange = true) ∧ (∀ t ∈ n.mtime, ¬ t.IsStray) ∧
      n.mtime.map Timestamp.toRfc3339 = some "+262142-12-31T23:59:60.999999999Z" ∧
      (Json.parse? n.toJson.compact).bind ofJson? = some n := by
  have hrange : ∀ t ∈ some (⟨8210266876799, 1999999999⟩ : Timestamp), t.inRange = true := by
    decide
  have hstray : ∀ t ∈ some (⟨8210266876799, 1999999999⟩ : Timestamp), ¬ t.IsStray := by
    decide
  exact ⟨hrange, hstray, by decide, (parse?_compact_bind_ofJson? _ hrange).2.mpr hstray⟩

/-- A leap second after the fourth second of a minute comes back as a part of the fifth one. -/
theorem not_read_back_stray :
    let n : Node := ⟨"/a", .leaf, "x", none, some ⟨4, 1333333333⟩, none, none⟩
    (∀ t ∈ n.mtime, t.inRange = true) ∧
      n.mtime.map Timestamp.toRfc3339 = some "1970-01-01T00:00:05.333333333Z" ∧
      (Json.parse? n.toJson.compact).bind ofJson? =
        some { n with mtime := some ⟨5, 333333333⟩ } ∧
      (Json.parse? n.toJson.compact).bind ofJson? ≠ some n := by
  have hrange : ∀ t ∈ some (⟨4, 1333333333⟩ : Timestamp), t.inRange = true := by decide
  have hread (n : Node) (hmtime : n.mtime = some ⟨4, 1333333333⟩) :
      (Json.parse? n.toJson.compact).bind ofJson? = some { n with mtime := some ⟨5, 333333333⟩ } := by
    rw [parse?_compact n.built_toJson, Option.bind_some, n.ofJson?_toJson (hmtime ▸ hrange), shown,
      hmtime]
    rfl
  refine ⟨hrange, by decide, hread _ rfl, ?_⟩
  rw [hread _ rfl]
  simp

end SyncEndpoint.Node
