import PixelTables.Proofs.Baking.Glyphs
import PixelTables.Proofs.Baking.Icons

namespace PixelTables

section Lists

variable {α β γ : Type} {R : α → β → Prop} {as : List α} {bs : List β}

theorem exists_of_mem_right (each : List.Forall₂ R as bs) {b : β} (member : b ∈ bs) :
    ∃ a ∈ as, R a b := by
  induction each with
  | nil => cases member
  | @cons a _ _ _ first _ ih =>
    rcases List.mem_cons.mp member with rfl | member
    · exact ⟨a, by simp, first⟩
    · obtain ⟨other, present, related⟩ := ih member
      exact ⟨other, by simp [present], related⟩

theorem map_eq_map_of_forall₂ {f : β → γ} {g : α → γ} (each : List.Forall₂ R as bs)
    (same : ∀ a b, R a b → f b = g a) : bs.map f = as.map g := by
  induction each with
  | nil => rfl
  | cons first _ ih => rw [List.map_cons, List.map_cons, same _ _ first, ih]

theorem mapIdx_eq_mapIdx_of_forall₂ {f : Nat → β → γ} {g : Nat → α → γ} (each : List.Forall₂ R as bs)
    (same : ∀ i a b, R a b → f i b = g i a) : bs.mapIdx f = as.mapIdx g := by
  induction each generalizing f g with
  | nil => rfl
  | cons first _ ih => rw [List.mapIdx_cons, List.mapIdx_cons, same _ _ _ first, ih fun i => same (i + 1)]

theorem forall₂_append_iff {as bs : List α} {cs : List β} :
    List.Forall₂ R (as ++ bs) cs ↔
      ∃ ds es, List.Forall₂ R as ds ∧ List.Forall₂ R bs es ∧ cs = ds ++ es := by
  induction as generalizing cs with
  | nil => simp
  | cons a as ih =>
    rw [List.cons_append, List.forall₂_cons_left_iff]
    constructor
    · rintro ⟨c, rest, first, later, rfl⟩
      obtain ⟨ds, es, front, back, rfl⟩ := ih.mp later
      exact ⟨c :: ds, es, .cons first front, back, rfl⟩
    · rintro ⟨_, es, front, back, rfl⟩
      obtain ⟨c, ds, first, later, rfl⟩ := List.forall₂_cons_left_iff.mp front
      exact ⟨c, ds ++ es, first, ih.mpr ⟨ds, es, later, back, rfl⟩, rfl⟩

end Lists

namespace GlyphProfile

variable {σ : Type} {p : GlyphProfile} {source : GlyphSource σ}

theorem bakeChars_cons_ok {ch : Char} {rest : List Char} {t u : Table} {s : σ}
    (baked : (p.bakeChars source (ch :: rest) t s).1 = .ok u) :
    ∃ picture later grown, grown = { t with entries := t.entries.push (p.entry ch picture) } ∧
      (p.bakeChars source rest grown later).1 = .ok u ∧
      (p.bakeChars source (ch :: rest) t s).2.1 =
        p.notes ch picture ++ (p.bakeChars source rest grown later).2.1 := by
  rcases drawn : p.geometry.rasterize source ch s with ⟨picture, later⟩
  simp only [bakeChars, drawn] at baked ⊢
  split at baked
  · cases baked
  · rename_i pushed
    obtain ⟨_, _, _, _, rfl⟩ := Table.push_eq_ok.mp pushed
    exact ⟨picture, later, _, rfl, baked, rfl⟩

theorem bakeChars_entries {chars : List Char} {t u : Table} {s : σ}
    (baked : (p.bakeChars source chars t s).1 = .ok u) :
    ∃ made, u = t.extend made ∧
      List.Forall₂ (fun ch e => ∃ picture, e = p.entry ch picture) chars made := by
  induction chars generalizing t s with
  | nil => exact ⟨[], by rw [Table.extend_nil, ← Except.ok.inj baked], .nil⟩
  | cons ch rest ih =>
    obtain ⟨picture, _, _, rfl, later, _⟩ := bakeChars_cons_ok baked
    obtain ⟨made, rfl, each⟩ := ih later
    exact ⟨p.entry ch picture :: made, t.extend_push _ made, .cons ⟨picture, rfl⟩ each⟩

theorem bake_entries {s : σ} {t : Table} (baked : (p.bake source s).1 = .ok t) :
    ∃ made, t = p.emptyTable.extend made ∧
      List.Forall₂ (fun ch e => ∃ picture, e = p.entry ch picture) p.chars made :=
  bakeChars_entries baked

theorem entry_of_bake {s : σ} {t : Table} {e : TableEntry} (baked : (p.bake source s).1 = .ok t)
    (member : e ∈ t.entries) : ∃ ch ∈ p.chars, ∃ picture, e = p.entry ch picture := by
  obtain ⟨made, rfl, each⟩ := bake_entries baked
  rw [← Array.mem_toList_iff, Table.entries_extend] at member
  exact exists_of_mem_right each member

theorem ids_of_bake {s : σ} {t : Table} (baked : (p.bake source s).1 = .ok t) :
    t.ids = p.chars.map p.index := by
  obtain ⟨made, rfl, each⟩ := bake_entries baked
  rw [Table.ids, Table.entries_extend]
  apply map_eq_map_of_forall₂ each
  rintro ch _ ⟨picture, rfl⟩
  rfl

end GlyphProfile

namespace IconProfile

variable {p : IconProfile} {d : Disk} {dir : Path} {imaging : Icon.Imaging}

theorem bakeEntries_cons_ok {e : IconEntry} {rest : List IconEntry} {t u : Table}
    (baked : (p.bakeEntries d dir (e :: rest) t imaging).1 = .ok u) :
    ∃ entry grown, (p.bakeEntry d dir e imaging).1 = .ok entry ∧
      grown = { t with entries := t.entries.push entry } ∧
      (p.bakeEntries d dir rest grown imaging).1 = .ok u ∧
      (p.bakeEntries d dir (e :: rest) t imaging).2 =
        (p.bakeEntry d dir e imaging).2 ++ (p.bakeEntries d dir rest grown imaging).2 := by
  rcases outcome : p.bakeEntry d dir e imaging with ⟨result, noted⟩
  cases result with
  | error failure =>
    simp only [bakeEntries, outcome] at baked
    cases baked
  | ok entry =>
    simp only [bakeEntries, outcome] at baked ⊢
    split at baked
    · cases baked
    · rename_i pushed
      obtain ⟨_, _, _, _, rfl⟩ := Table.push_eq_ok.mp pushed
      exact ⟨entry, _, rfl, rfl, baked, rfl⟩

theorem bakeEntries_entries {entries : List IconEntry} {t u : Table}
    (baked : (p.bakeEntries d dir entries t imaging).1 = .ok u) :
    ∃ made, u = t.extend made ∧
      List.Forall₂ (fun e entry => (p.bakeEntry d dir e imaging).1 = .ok entry) entries made := by
  induction entries generalizing t with
  | nil => exact ⟨[], by rw [Table.extend_nil, ← Except.ok.inj baked], .nil⟩
  | cons e rest ih =>
    obtain ⟨entry, _, first, rfl, later, _⟩ := bakeEntries_cons_ok baked
    obtain ⟨made, rfl, each⟩ := ih later
    exact ⟨entry :: made, t.extend_push _ made, .cons first each⟩

theorem bake_entries {t : Table} (baked : (p.bake d dir imaging).1 = .ok t) :
    ∃ made, t = p.emptyTable.extend made ∧
      List.Forall₂ (fun e entry => (p.bakeEntry d dir e imaging).1 = .ok entry) p.entries made :=
  bakeEntries_entries baked

theorem bakeEntry_eq {e : IconEntry} {entry : TableEntry}
    (baked : (p.bakeEntry d dir e imaging).1 = .ok entry) :
    ∃ picture, p.picture d e (Icon.source d (ownPath dir e) (p.fallbackPath dir)) imaging = .ok picture ∧
      entry = { id := p.index e
                label := e.file.text
                cell := p.encoding.encode picture
                status := status dir e (Icon.source d (ownPath dir e) (p.fallbackPath dir)) } := by
  simp only [bakeEntry] at baked
  split at baked
  · cases baked
  · rename_i picture drawn
    exact ⟨picture, drawn, (Except.ok.inj baked).symm⟩

theorem entry_of_bake {t : Table} {entry : TableEntry} (baked : (p.bake d dir imaging).1 = .ok t)
    (member : entry ∈ t.entries) : ∃ e ∈ p.entries, (p.bakeEntry d dir e imaging).1 = .ok entry := by
  obtain ⟨made, rfl, each⟩ := bake_entries baked
  rw [← Array.mem_toList_iff, Table.entries_extend] at member
  exact exists_of_mem_right each member

theorem exists_entry_of_bake {t : Table} {e : IconEntry} (baked : (p.bake d dir imaging).1 = .ok t)
    (member : e ∈ p.entries) : ∃ entry ∈ t.entries, (p.bakeEntry d dir e imaging).1 = .ok entry := by
  obtain ⟨made, rfl, each⟩ := bake_entries baked
  obtain ⟨entry, present, made⟩ := exists_of_mem_right each.flip member
  refine ⟨entry, ?_, made⟩
  rw [← Array.mem_toList_iff, Table.entries_extend]
  exact present

theorem ids_of_bake {t : Table} (baked : (p.bake d dir imaging).1 = .ok t) :
    t.ids = p.entries.map p.index := by
  obtain ⟨made, rfl, each⟩ := bake_entries baked
  rw [Table.ids, Table.entries_extend]
  apply map_eq_map_of_forall₂ each
  intro e entry made
  obtain ⟨_, _, rfl⟩ := bakeEntry_eq made
  rfl

end IconProfile

end PixelTables
