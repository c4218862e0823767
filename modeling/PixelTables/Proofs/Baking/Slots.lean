import PixelTables.Proofs.Baking.Glyphs
import PixelTables.Proofs.Encoding
import PixelTables.Proofs.Profile.Checked
import PixelTables.Proofs.Table.History

namespace PixelTables

structure GlyphCall where
  ch : Char
  size : Float32
  answer : Except GlyphError GlyphMask

/-- Nothing that could be drawn came back: an error, or a mask with fewer or more samples than its
    size asks for. -/
def GlyphCall.Failed (call : GlyphCall) : Prop :=
  match call.answer with
  | .error _ => True
  | .ok mask => mask.samples.size ≠ mask.width * mask.height

def GlyphSource.transcribed {σ : Type} (source : GlyphSource σ) : GlyphSource (σ × List GlyphCall) :=
  fun ch size (s, calls) =>
    let (answer, later) := source ch size s
    (answer, later, calls ++ [⟨ch, size, answer⟩])

namespace Geometry

def picture (g : Geometry) (canvas : UInt32 × UInt32) (call : GlyphCall) :
    Except GlyphError (Raster UInt8) :=
  match call.answer with
  | .error why => .error why
  | .ok mask => match Raster.ofSamples? mask.width mask.height mask.samples with
    | none => .error (.malformedMask call.ch)
    | some ink => .ok (g.drawInk canvas mask.left mask.top ink)

theorem rasterize_of_canvas {σ : Type} {g : Geometry} {canvas : UInt32 × UInt32}
    (found : g.canvasSize? = some canvas) (source : GlyphSource σ) (ch : Char) (s : σ) :
    g.rasterize source ch s =
      (g.picture canvas ⟨ch, g.fontSize, (source ch g.fontSize s).1⟩, (source ch g.fontSize s).2) := by
  simp only [rasterize, found]
  rcases source ch g.fontSize s with ⟨answer, later⟩
  cases answer with
  | error why => rfl
  | ok mask =>
    simp only [picture]
    cases Raster.ofSamples? mask.width mask.height mask.samples <;> rfl

theorem picture_error_iff (g : Geometry) (canvas : UInt32 × UInt32) (call : GlyphCall) :
    (∃ why, g.picture canvas call = .error why) ↔ call.Failed := by
  unfold picture GlyphCall.Failed
  cases call.answer with
  | error why => simp
  | ok mask =>
    simp only [Raster.ofSamples?]
    by_cases whole : mask.samples.size = mask.width * mask.height <;> simp [whole]

end Geometry

namespace GlyphProfile

variable {σ : Type}

def slot (p : GlyphProfile) (canvas : UInt32 × UInt32) (call : GlyphCall) : TableEntry :=
  p.entry call.ch (p.geometry.picture canvas call)

theorem slot_failed {p : GlyphProfile} {canvas : UInt32 × UInt32} {call : GlyphCall}
    (failed : call.Failed) : (p.slot canvas call).status.isDegraded = true := by
  obtain ⟨why, broken⟩ := (p.geometry.picture_error_iff canvas call).mpr failed
  simp [slot, entry, broken, Status.isDegraded]

theorem slot_rendered {p : GlyphProfile} {canvas : UInt32 × UInt32} {call : GlyphCall}
    (fine : ¬ call.Failed) : (p.slot canvas call).status = .rendered := by
  cases drawn : p.geometry.picture canvas call with
  | error why => exact absurd ((p.geometry.picture_error_iff canvas call).mp ⟨why, drawn⟩) fine
  | ok coverage => simp [slot, entry, drawn]

theorem slot_words {p : GlyphProfile} {canvas : UInt32 × UInt32} {call : GlyphCall} {w : UInt32}
    (member : w ∈ (p.slot canvas call).cell.samples) : ∃ coverage, w = p.encoding.word coverage := by
  have encoded : ∃ r : Raster UInt8, (p.slot canvas call).cell = p.encoding.encode r := by
    simp only [slot, entry]
    split
    · exact ⟨_, rfl⟩
    · exact ⟨_, rfl⟩
  obtain ⟨r, same⟩ := encoded
  rw [same, GlyphEncoding.encode, Raster.map] at member
  obtain ⟨coverage, _, word⟩ := Array.mem_map.mp member
  exact ⟨coverage, word.symm⟩

theorem bakeChars_slots {p : GlyphProfile} {canvas : UInt32 × UInt32}
    (found : p.geometry.canvasSize? = some canvas) (source : GlyphSource σ) {chars : List Char}
    {t : Table} (s : σ) (calls : List GlyphCall)
    (expects : t.Expects p.cellWidth.toNat p.cellHeight.toNat (chars.map p.index)) :
    ∃ noted final made,
      p.bakeChars source chars t s = (.ok (t.extend (made.map (p.slot canvas))), noted, final) ∧
      p.bakeChars source.transcribed chars t (s, calls) =
        (.ok (t.extend (made.map (p.slot canvas))), noted, final, calls ++ made) ∧
      made.map (fun call => (call.ch, call.size)) = chars.map (·, p.fontSize) := by
  induction chars generalizing t s calls with
  | nil => exact ⟨[], s, [], by simp [bakeChars], by simp [bakeChars], rfl⟩
  | cons ch rest ih =>
    obtain ⟨width, height⟩ := p.entry_size source ch s
    rcases reply : source ch p.fontSize s with ⟨answer, later⟩
    have first : p.geometry.rasterize source ch s =
        (p.geometry.picture canvas ⟨ch, p.fontSize, answer⟩, later) := by
      rw [Geometry.rasterize_of_canvas found]
      simp only [geometry, reply]
    have written : p.geometry.rasterize source.transcribed ch (s, calls) =
        (p.geometry.picture canvas ⟨ch, p.fontSize, answer⟩, later,
          calls ++ [⟨ch, p.fontSize, answer⟩]) := by
      rw [Geometry.rasterize_of_canvas found]
      simp only [geometry, GlyphSource.transcribed, reply]
    rw [first] at width height
    obtain ⟨u, pushed, grown, room⟩ :=
      Table.Expects.push (e := p.slot canvas ⟨ch, p.fontSize, answer⟩) expects width height
    obtain ⟨noted, final, made, plain, transcript, asked⟩ :=
      ih later (calls ++ [⟨ch, p.fontSize, answer⟩]) room
    rw [slot] at pushed
    refine ⟨p.notes ch (p.geometry.picture canvas ⟨ch, p.fontSize, answer⟩) ++ noted, final,
      ⟨ch, p.fontSize, answer⟩ :: made, ?_, ?_, by simp only [List.map_cons, asked]⟩
    · simp only [bakeChars, first, pushed, plain, grown, List.map_cons]
    · simp only [bakeChars, written, pushed, transcript, grown, List.map_cons, List.append_assoc,
        List.singleton_append]

structure KeepsSlots (p : GlyphProfile) (t : Table) (calls : List GlyphCall) : Prop where
  size : t.size = p.count.toNat
  first : t.defines = [(p.stem ++ "_FIRST", "0x" ++ Text.hexUpper 2 p.firstChar.toNat)]
  called : calls.map (fun call => (call.ch.toNat, call.size)) =
    (List.range p.count.toNat).map fun i => (p.firstChar.toNat + i, p.fontSize)
  index : ∀ i e, t.entries[i]? = some e →
    e.id = p.stem ++ "_U" ++ Text.hexUpper 4 (p.firstChar.toNat + i) ∧ t.indexOf? e.id = some i
  status : ∀ (i : Nat) (call : GlyphCall) (e : TableEntry), calls[i]? = some call → t.entries[i]? = some e →
    (call.Failed ↔ e.status.isDegraded = true) ∧ (¬ call.Failed → e.status = .rendered)
  format : t.format = .byte
  words : ∀ e ∈ t.entries, ∀ w ∈ e.cell.samples,
    w ≤ 255 ∧ ∀ threshold, p.encoding = .binary threshold → w = 0 ∨ w = 1

section Baked

variable {p : GlyphProfile} {canvas : UInt32 × UInt32} {made : List GlyphCall}

theorem baked_entries (p : GlyphProfile) (canvas : UInt32 × UInt32) (made : List GlyphCall) :
    (p.emptyTable.extend (made.map (p.slot canvas))).entries = (made.map (p.slot canvas)).toArray := by
  simp [Table.extend, emptyTable, Table.define]

theorem baked_at {i : Nat} {e : TableEntry}
    (stands : (p.emptyTable.extend (made.map (p.slot canvas))).entries[i]? = some e) :
    ∃ call, made[i]? = some call ∧ p.slot canvas call = e := by
  rw [baked_entries, List.getElem?_toArray, List.getElem?_map] at stands
  exact Option.map_eq_some_iff.mp stands

variable (asked : made.map (fun call => (call.ch, call.size)) = p.chars.map (·, p.fontSize))
include asked

theorem baked_distinct : (p.emptyTable.extend (made.map (p.slot canvas))).ids.Nodup := by
  have chars : made.map (·.ch) = p.chars := by
    have first := congrArg (List.map Prod.fst) asked
    rw [List.map_map, List.map_map] at first
    exact first.trans (List.map_id _)
  have ids : (p.emptyTable.extend (made.map (p.slot canvas))).ids = (made.map (·.ch)).map p.index := by
    rw [Table.ids, baked_entries, List.map_map, List.map_map]
    rfl
  rw [ids, chars]
  exact p.indices_nodup

theorem called_codes (full : p.chars.length = p.count.toNat) :
    made.map (fun call => (call.ch.toNat, call.size)) =
      (List.range p.count.toNat).map fun i => (p.firstChar.toNat + i, p.fontSize) := by
  calc made.map (fun call => (call.ch.toNat, call.size))
      = (made.map fun call => (call.ch, call.size)).map (Prod.map Char.toNat id) := by
        rw [List.map_map]; rfl
    _ = (p.chars.map Char.toNat).map (·, p.fontSize) := by
        rw [asked, List.map_map, List.map_map]; rfl
    _ = _ := by rw [chars_toNat full, List.range'_eq_map_range, List.map_map]; rfl

theorem code_of_call (full : p.chars.length = p.count.toNat) {i : Nat} {call : GlyphCall}
    (made : made[i]? = some call) : call.ch.toNat = p.firstChar.toNat + i := by
  have place := congrArg (·[i]?) (called_codes asked full)
  simp only [List.getElem?_map, made, Option.map_some] at place
  obtain ⟨j, inside, same⟩ := Option.map_eq_some_iff.mp place.symm
  obtain ⟨_, rfl⟩ := List.getElem?_eq_some_iff.mp inside
  rw [List.getElem_range] at same
  exact (Prod.mk.inj same).1.symm

theorem keepsSlots (full : p.chars.length = p.count.toNat) :
    KeepsSlots p (p.emptyTable.extend (made.map (p.slot canvas))) made := by
  have called := called_codes asked full
  refine ⟨?_, ?_, called, ?_, ?_, rfl, ?_⟩
  · have length := congrArg List.length called
    rw [List.length_map, List.length_map, List.length_range] at length
    rw [Table.size, baked_entries, List.size_toArray, List.length_map, length]
  · show [(p.stem ++ "_" ++ "FIRST", _)] = _
    rw [String.append_assoc]
    rfl
  · intro i e stands
    obtain ⟨call, there, rfl⟩ := baked_at stands
    have code := code_of_call asked full there
    exact ⟨by rw [← code]; rfl, Table.indexOf?_of_getElem? (baked_distinct asked) stands⟩
  · intro i call e there stands
    obtain ⟨other, same, rfl⟩ := baked_at stands
    obtain rfl := Option.some.inj (there.symm.trans same)
    refine ⟨⟨slot_failed, fun degraded => ?_⟩, slot_rendered⟩
    by_contra fine
    rw [slot_rendered fine] at degraded
    cases degraded
  · intro e member w word
    rw [baked_entries, List.mem_toArray, List.mem_map] at member
    obtain ⟨call, _, rfl⟩ := member
    obtain ⟨coverage, rfl⟩ := slot_words word
    refine ⟨p.encoding.word_le coverage, fun threshold binary => ?_⟩
    rw [binary]
    exact GlyphEncoding.word_binary threshold coverage

end Baked

/-- A valid profile is baked whatever its source answers: each of its characters is asked for once
    and in order, and has its own entry at its distance from the first. -/
theorem bake_keeps_slots {p : GlyphProfile} (checked : p.check = .ok ()) (source : GlyphSource σ)
    (s : σ) :
    ∃ t noted final calls, p.bake source s = (.ok t, noted, final) ∧
      p.bake source.transcribed (s, []) = (.ok t, noted, final, calls) ∧ KeepsSlots p t calls := by
  obtain ⟨_, ⟨width, height⟩, padding, _, full, _⟩ := check_eq_ok.mp checked
  obtain ⟨canvas, found⟩ := Geometry.canvasSize?_of_le (g := p.geometry) width height padding
  obtain ⟨noted, final, made, plain, transcript, asked⟩ :=
    bakeChars_slots found source s [] p.emptyTable_expects
  exact ⟨_, noted, final, made, plain, transcript, keepsSlots asked full⟩

def threeSigns : GlyphProfile :=
  { standard with
    firstChar := '/'
    count := 3
    cellWidth := 2
    cellHeight := 2
    encoding := .binary 128 }

def slowStart : GlyphSource Nat := fun ch _ asked =>
  (match asked with
    | 0 => .error (.renderFailed ch)
    | 1 => .ok ⟨0, 0, 1, 1, #[9, 9]⟩
    | _ => .ok ⟨0, 0, 2, 2, #[10, 127, 128, 255]⟩, asked + 1)

theorem bake_keeps_slots_slow_start :
    threeSigns.check = .ok () ∧ ∃ t noted final calls,
      threeSigns.bake slowStart 0 = (.ok t, noted, final) ∧
      threeSigns.bake slowStart.transcribed (0, []) = (.ok t, noted, final, calls) ∧
      KeepsSlots threeSigns t calls ∧ t.size = 3 ∧
      calls.map (fun call => (call.ch.toNat, call.size)) = [(0x2F, 12), (0x30, 12), (0x31, 12)] := by
  have checked : threeSigns.check = .ok () := by
    rw [← toOption_eq_some]
    decide +kernel
  obtain ⟨t, noted, final, calls, plain, transcript, keeps⟩ := bake_keeps_slots checked slowStart 0
  exact ⟨checked, t, noted, final, calls, plain, transcript, keeps, keeps.size, keeps.called⟩

end GlyphProfile

end PixelTables
