import PixelTables.Proofs.Baking.Entries

namespace PixelTables

def Journal.warnings (noted : Journal) : Journal := noted.filter (·.level = .warn)

def Note.Names (note : Note) (e : TableEntry) : Prop := ∃ rest, note.text = e.id ++ ": " ++ rest

def unrendered (es : List TableEntry) : List TableEntry := es.filter (·.status ≠ .rendered)

/-- The warnings are about the entries that are not rendered, one for each and in their order. -/
def Told (noted : Journal) (es : List TableEntry) : Prop :=
  List.Forall₂ Note.Names (Journal.warnings noted) (unrendered es)

theorem warnings_append (noted more : Journal) :
    Journal.warnings (noted ++ more) = Journal.warnings noted ++ Journal.warnings more :=
  List.filter_append ..

theorem unrendered_append (es more : List TableEntry) :
    unrendered (es ++ more) = unrendered es ++ unrendered more := List.filter_append ..

theorem length_unrendered (es : List TableEntry) : (unrendered es).length =
    es.countP (·.status.isSubstituted) + es.countP (·.status.isDegraded) := by
  induction es with
  | nil => rfl
  | cons e rest ih =>
    rw [unrendered, List.filter_cons, List.countP_cons, List.countP_cons, ← unrendered]
    cases e.status <;> simp [Status.isSubstituted, Status.isDegraded, ih] <;> omega

namespace Told

theorem append {noted more : Journal} {es fs : List TableEntry} (first : Told noted es)
    (second : Told more fs) : Told (noted ++ more) (es ++ fs) := by
  rw [Told, warnings_append, unrendered_append]
  exact List.rel_append first second

end Told

namespace GlyphProfile

variable {σ : Type} {p : GlyphProfile} {source : GlyphSource σ}

theorem notes_told (p : GlyphProfile) (ch : Char) (picture : Except GlyphError (Raster UInt8)) :
    Told (p.notes ch picture) [p.entry ch picture] := by
  cases picture with
  | ok coverage => exact .nil
  | error why =>
    refine .cons ⟨why.message ++ "; emitting a blank cell", ?_⟩ .nil
    simp [entry, Note.substitute, toString, String.append_assoc]

theorem bakeChars_told {chars : List Char} {t u : Table} {s : σ}
    (baked : (p.bakeChars source chars t s).1 = .ok u) :
    ∃ made, u = t.extend made ∧ Told (p.bakeChars source chars t s).2.1 made := by
  induction chars generalizing t s with
  | nil => exact ⟨[], by rw [Table.extend_nil, ← Except.ok.inj baked], .nil⟩
  | cons ch rest ih =>
    obtain ⟨picture, _, _, rfl, later, noted⟩ := bakeChars_cons_ok baked
    obtain ⟨made, rfl, told⟩ := ih later
    rw [noted]
    exact ⟨p.entry ch picture :: made, t.extend_push _ made, (p.notes_told ch picture).append told⟩

theorem bake_told {s : σ} {t : Table} (baked : (p.bake source s).1 = .ok t) :
    Told (p.bake source s).2.1 t.entries.toList := by
  obtain ⟨made, rfl, told⟩ := bakeChars_told baked
  rw [Table.entries_extend]
  exact told

end GlyphProfile

namespace IconProfile

variable {p : IconProfile} {d : Disk} {dir : Path} {imaging : Icon.Imaging}

theorem bakeEntry_told {e : IconEntry} {entry : TableEntry}
    (baked : (p.bakeEntry d dir e imaging).1 = .ok entry) :
    Told (p.bakeEntry d dir e imaging).2 [entry] := by
  obtain ⟨picture, drawn, rfl⟩ := bakeEntry_eq baked
  rw [bakeEntry_of_ok rfl drawn]
  -- the literal behind the identifier goes on with the quotation mark
  have quote (text : String) : ": '" ++ text = ": " ++ ("'" ++ text) := by
    rw [← String.append_assoc]
    rfl
  cases Icon.source d (ownPath dir e) (p.fallbackPath dir) with
  | own path => exact .nil
  | fallback path =>
    refine .cons ⟨s!"'{(ownPath dir e).text}' not found, using '{path.text}'", ?_⟩ .nil
    simp [Note.substitute, toString, String.append_assoc, quote]
  | missing =>
    refine .cons ⟨s!"'{(ownPath dir e).text}' not found and no fallback available; " ++
      "emitting a transparent cell", ?_⟩ .nil
    simp [Note.substitute, toString, String.append_assoc, quote]

theorem bakeEntries_told {entries : List IconEntry} {t u : Table}
    (baked : (p.bakeEntries d dir entries t imaging).1 = .ok u) :
    ∃ made, u = t.extend made ∧ Told (p.bakeEntries d dir entries t imaging).2 made := by
  induction entries generalizing t with
  | nil => exact ⟨[], by rw [Table.extend_nil, ← Except.ok.inj baked], .nil⟩
  | cons e rest ih =>
    obtain ⟨entry, _, first, rfl, later, noted⟩ := bakeEntries_cons_ok baked
    obtain ⟨made, rfl, told⟩ := ih later
    rw [noted]
    exact ⟨entry :: made, t.extend_push _ made, (bakeEntry_told first).append told⟩

theorem bake_told {t : Table} (baked : (p.bake d dir imaging).1 = .ok t) :
    Told (p.bake d dir imaging).2 t.entries.toList := by
  obtain ⟨made, rfl, told⟩ := bakeEntries_told baked
  rw [Table.entries_extend]
  exact told

end IconProfile

end PixelTables
