import PixelTables.Font.Render
import PixelTables.Proofs.Baking.Encodings

namespace PixelTables

theorem head?_append_of_head {s : String} {c : Char} (first : s.toList.head? = some c) (more : String) :
    (s ++ more).toList.head? = some c := by
  rw [String.toList_append, List.head?_append, first, Option.some_or]

theorem GlyphError.message_eq_iff_canvasTooLarge {why : GlyphError} :
    why.message = canvasTooLarge.message ↔ why = .canvasTooLarge := by
  refine ⟨fun same => ?_, fun large => by rw [large]⟩
  have start : canvasTooLarge.message.toList.head? = some 'c' :=
    head?_append_of_head (head?_append_of_head (by decide) _) _
  rw [← same] at start
  cases why with
  | canvasTooLarge => rfl
  | unsupported ch =>
    cases (head?_append_of_head (s := "no glyph for ") rfl _).symm.trans start
  | renderFailed ch =>
    cases (head?_append_of_head (s := "font driver failed to render ") rfl _).symm.trans start
  | malformedMask ch =>
    cases (head?_append_of_head (s := "malformed coverage mask for ") rfl _).symm.trans start

def Status.oversized : Status := .degraded GlyphError.canvasTooLarge.message

theorem Status.degraded_eq_oversized_iff {why : GlyphError} :
    degraded why.message = oversized ↔ why = .canvasTooLarge := by
  rw [oversized, degraded.injEq, GlyphError.message_eq_iff_canvasTooLarge]

theorem Font.render_ne_canvasTooLarge (f : Font) (ch : Char) (size : Float32) :
    f.render ch size ≠ .error .canvasTooLarge := by
  simp only [render]
  split
  · exact nofun
  · split <;> exact nofun

namespace GlyphProfile

variable {σ : Type} {p : GlyphProfile} {source : GlyphSource σ}

/-- Once there is a surface, only the source can speak of one that is too large. -/
theorem slot_oversized_iff {canvas : UInt32 × UInt32} {call : GlyphCall} :
    (p.slot canvas call).status = .oversized ↔ call.answer = .error .canvasTooLarge := by
  obtain ⟨ch, size, answer⟩ := call
  cases answer with
  | error why =>
    rw [Except.error.injEq, ← Status.degraded_eq_oversized_iff]
    rfl
  | ok mask =>
    rw [iff_false_right (by simp only [reduceCtorEq, not_false_eq_true])]
    by_cases whole : mask.samples.size = mask.width * mask.height
    · have fine : ¬ GlyphCall.Failed ⟨ch, size, .ok mask⟩ := fun failed => failed whole
      simp only [slot_rendered fine, Status.oversized, reduceCtorEq, not_false_eq_true]
    · have broken : p.geometry.picture canvas ⟨ch, size, .ok mask⟩ = .error (.malformedMask ch) := by
        simp only [Geometry.picture, Raster.ofSamples?, dif_neg whole]
      simp only [slot, entry, broken, Status.degraded_eq_oversized_iff, reduceCtorEq, not_false_eq_true]

section Transcript

variable {P : GlyphCall → Prop} (answers : ∀ ch size s, P ⟨ch, size, (source ch size s).1⟩)
include answers

theorem rasterize_answers (g : Geometry) (ch : Char) (s : σ) {calls : List GlyphCall}
    (before : ∀ call ∈ calls, P call) :
    ∀ call ∈ (g.rasterize source.transcribed ch (s, calls)).2.2, P call := by
  cases found : g.canvasSize? with
  | none => simpa only [Geometry.rasterize, found] using before
  | some canvas =>
    rw [Geometry.rasterize_of_canvas found]
    intro call member
    rcases List.mem_append.mp member with earlier | last
    · exact before call earlier
    · obtain rfl := List.mem_singleton.mp last
      exact answers ch g.fontSize s

theorem bakeChars_answers (p : GlyphProfile) (chars : List Char) (t : Table) (s : σ)
    (calls : List GlyphCall) (before : ∀ call ∈ calls, P call) :
    ∀ call ∈ (p.bakeChars source.transcribed chars t (s, calls)).2.2.2, P call := by
  induction chars generalizing t s calls with
  | nil => exact before
  | cons ch rest ih =>
    have after := rasterize_answers answers p.geometry ch s before
    rcases written : p.geometry.rasterize source.transcribed ch (s, calls) with ⟨picture, later, asked⟩
    rw [written] at after
    simp only [bakeChars, written]
    split
    · exact after
    · exact ih _ later asked after

end Transcript

/-- The entries stand for the calls one by one, and one of a cell that is too large stands for an answer
    that said so. -/
def OversizedAsTold (calls : List GlyphCall) (t : Table) : Prop :=
  List.Forall₂ (fun call e => e.status = .oversized ↔ call.answer = .error .canvasTooLarge)
    calls t.entries.toList

theorem canvas_of_checked (checked : p.check = .ok ()) :
    ∃ canvas, p.geometry.canvasSize? = some canvas := by
  obtain ⟨_, ⟨width, height⟩, padding, _⟩ := check_eq_ok.mp checked
  exact Geometry.canvasSize?_of_le width height padding

theorem oversizedAsTold_of_checked (checked : p.check = .ok ()) (source : GlyphSource σ) (s : σ) :
    ∃ t noted final calls, p.Leaves source s t noted final calls ∧
      calls.map (fun call => (call.ch, call.size)) = p.chars.map (·, p.fontSize) ∧
      OversizedAsTold calls t := by
  obtain ⟨canvas, found⟩ := canvas_of_checked checked
  obtain ⟨noted, final, made, plain, transcript, asked⟩ :=
    bakeChars_slots found source s [] p.emptyTable_expects
  refine ⟨_, noted, final, made, ⟨plain, transcript⟩, asked, ?_⟩
  rw [OversizedAsTold, baked_entries, List.forall₂_map_right_iff, List.forall₂_same]
  exact fun call _ => slot_oversized_iff

theorem OversizedAsTold.none {s final : σ} {t : Table} {noted : Journal} {calls : List GlyphCall}
    (told : OversizedAsTold calls t) (left : p.Leaves source s t noted final calls)
    (fine : ∀ ch size s, (source ch size s).1 ≠ .error .canvasTooLarge) :
    ∀ e ∈ t.entries, e.status ≠ .oversized := by
  intro e member
  obtain ⟨call, asked, same⟩ := exists_of_mem_right told (Array.mem_toList_iff.mpr member)
  have answers := bakeChars_answers (P := fun call => call.answer ≠ .error .canvasTooLarge) fine p
    p.chars p.emptyTable s [] (by simp)
  rw [show p.bakeChars source.transcribed p.chars p.emptyTable (s, []) = _ from left.transcript] at answers
  exact mt same.mp (answers call asked)

/-- The sides of a surface are the sums as numbers, or there is no surface. A valid profile has one, so
    that none of its characters is too large unless the source says so, which no font does. -/
theorem surface_suffices :
    (∀ g : Geometry, g.canvasSize?.map (Prod.map UInt32.toNat UInt32.toNat) =
        if g.Fits then some g.surface else none) ∧
      (∀ p : GlyphProfile, p.check = .ok () → p.geometry.canvasSize? ≠ none ∧
        ∀ (σ : Type) (source : GlyphSource σ) (s : σ),
          ∃ t noted final calls, p.Leaves source s t noted final calls ∧
            calls.map (fun call => (call.ch, call.size)) = p.chars.map (·, p.fontSize) ∧
            OversizedAsTold calls t ∧
            ((∀ ch size s, (source ch size s).1 ≠ .error .canvasTooLarge) →
              ∀ e ∈ t.entries, e.status ≠ .oversized)) ∧
      ∀ ch size f, (Font.source ch size f).1 ≠ .error .canvasTooLarge := by
  refine ⟨Geometry.canvasSize?_toNat, ?_, fun ch size f => f.render_ne_canvasTooLarge ch size⟩
  intro p checked
  obtain ⟨canvas, found⟩ := canvas_of_checked checked
  refine ⟨Option.ne_none_iff_exists'.mpr ⟨canvas, found⟩, ?_⟩
  intro σ source s
  obtain ⟨t, noted, final, calls, left, asked, told⟩ := oversizedAsTold_of_checked checked source s
  exact ⟨t, noted, final, calls, left, asked, told, told.none left⟩

def largest : GlyphProfile :=
  { threeSigns with
    cellWidth := 4096
    cellHeight := 4096
    padding := 1024 }

/-- Beside the largest cell stands one that is a row higher, and one whose doubled padding is no word. -/
theorem surface_suffices_largest :
    largest.check = .ok () ∧ largest.geometry.canvasSize? ≠ none ∧
      largest.geometry.canvasSize?.map (Prod.map UInt32.toNat UInt32.toNat) = some (6144, 6144) ∧
      (Geometry.mk 4096 4097 12 1024).canvasSize? = none ∧
      (Geometry.mk 1 1 12 0x80000000).canvasSize? = none ∧
      ∃ t noted final calls, largest.Leaves slowStart 0 t noted final calls ∧
        ∀ e ∈ t.entries, e.status ≠ .oversized := by
  obtain ⟨exactly, valid, _⟩ := surface_suffices
  have checked : largest.check = .ok () := by
    rw [← toOption_eq_some]
    decide +kernel
  obtain ⟨room, bakes⟩ := valid largest checked
  obtain ⟨t, noted, final, calls, left, _, _, fine⟩ := bakes Nat slowStart 0
  have high := exactly (Geometry.mk 4096 4097 12 1024)
  have doubled := exactly (Geometry.mk 1 1 12 0x80000000)
  rw [if_neg (by decide), Option.map_eq_none_iff] at high doubled
  refine ⟨checked, room, exactly largest.geometry, high, doubled, t, noted, final, calls, left,
    fine fun ch size asked => ?_⟩
  simp only [slowStart]
  split <;> exact nofun

def loneLetter : GlyphProfile :=
  { standard with
    firstChar := 'A'
    count := 1
    cellWidth := 1
    cellHeight := 1 }

def sulking : GlyphSource Unit := fun _ _ s => (.error .canvasTooLarge, s)

theorem oversized_on_word_of_source :
    loneLetter.check = .ok () ∧ loneLetter.geometry.canvasSize? = some (9, 9) ∧
      (loneLetter.bake sulking ()).1.toOption.map (fun t => t.entries.map (·.status)) =
        some #[.oversized] := by
  refine ⟨?_, by decide, by decide +kernel⟩
  rw [← toOption_eq_some]
  decide +kernel

end GlyphProfile

end PixelTables
