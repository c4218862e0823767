import PixelTables.Proofs.Listing.Comments
import PixelTables.Proofs.Baking.Blank
import PixelTables.Proofs.Baking.ChosenFiles
import PixelTables.Proofs.Path.Moves
import PixelTables.Proofs.Profile.Names

namespace PixelTables

namespace Text

theorem not_mem_hexDigits {upper : Bool} {width n : Nat} {c : Char} (other : c.isAlphanum = false) :
    c ∉ hexDigits upper width n := by
  intro member
  rw [Listing.isAlphanum_of_mem_hexDigits member] at other
  cases other

theorem not_mem_toString_of_ne {c d : Char} (other : d ≠ c) : c ∉ d.toString.toList := by
  simpa [Char.toString] using other.symm

theorem not_mem_codeEscape (c : Char) : '\n' ∉ (codeEscape c).toList := by
  have digits : '\n' ∉ (hexLower c.toNat).toList := by
    rw [hexLower, String.toList_ofList]
    exact not_mem_hexDigits (by decide)
  have frame : '\n' ∉ "\\u\x7b".toList ∧ '\n' ∉ "\x7d".toList := by decide
  simp only [codeEscape, String.toList_append, List.mem_append, not_or]
  exact ⟨⟨frame.1, digits⟩, frame.2⟩

theorem not_mem_escaped (style : QuoteStyle) (c : Char) : '\n' ∉ (escaped style c).toList := by
  rw [escaped]
  split_ifs with _ _ _ line
  · decide
  · decide
  · decide
  · decide
  · decide
  · decide
  · decide
  · exact not_mem_codeEscape c
  · exact not_mem_toString_of_ne line

end Text

open Listing

theorem oneLine_quotedChar (c : Char) : OneLine (Text.quotedChar c) := by
  have inside : OneLine (Text.escaped .character c) := Text.not_mem_escaped .character c
  exact (OneLine.append (a := "'") (by decide) inside).append (by decide)

theorem GlyphError.oneLine_message (why : GlyphError) : OneLine why.message := by
  cases why with
  | unsupported ch => exact OneLine.append (by decide) (oneLine_quotedChar ch)
  | renderFailed ch => exact OneLine.append (by decide) (oneLine_quotedChar ch)
  | malformedMask ch => exact OneLine.append (by decide) (oneLine_quotedChar ch)
  | canvasTooLarge => exact OneLine.append (OneLine.append (by decide) (oneLine_nat _)) (by decide)

theorem not_mem_charLabel {c : Char} (breaking : c = '\n' ∨ c = '\\') (ch : Char) :
    c ∉ (charLabel ch).toList := by
  have other : c.isAlphanum = false ∧ c ∉ "U+".toList := by rcases breaking with rfl | rfl <;> decide
  have control : Text.isControl '\n' = true := by decide
  rw [charLabel]
  split_ifs with _ backslash _ _ seen
  · rcases breaking with rfl | rfl <;> decide
  · rcases breaking with rfl | rfl <;> decide
  · rcases breaking with rfl | rfl <;> decide
  · rcases breaking with rfl | rfl <;> decide
  · have digits : c ∉ (Text.hexUpper 4 ch.toNat).toList := by
      rw [Text.hexUpper, String.toList_ofList]
      exact Text.not_mem_hexDigits other.1
    rw [String.toList_append, List.mem_append, not_or]
    exact ⟨other.2, digits⟩
  · apply Text.not_mem_toString_of_ne
    rintro rfl
    rcases breaking with rfl | rfl
    · exact seen control
    · exact backslash rfl

theorem GlyphProfile.contained_comment (p : GlyphProfile) (ch : Char)
    (picture : Except GlyphError (Raster UInt8)) (index : Nat) :
    Contained (comment index (p.entry ch picture)) := by
  have label : OneLine (charLabel ch) := not_mem_charLabel (.inl rfl) ch
  have texts : ∀ text ∈ (p.entry ch picture).status.texts, OneLine text := by
    cases picture with
    | ok coverage => simp [entry, Status.texts]
    | error why => simpa [entry, Status.texts] using why.oneLine_message
  refine ⟨(oneLine_comment index _).mpr ⟨label, texts⟩, ended_comment fun _ => ?_⟩
  exact ended_of_free (not_mem_charLabel (.inr rfl) ch)

theorem GlyphProfile.commentsStay {σ : Type} {p : GlyphProfile} {source : GlyphSource σ} {s : σ}
    {t : Table} (named : (Profile.glyphs p).WellNamed) (baked : (p.bake source s).1 = .ok t) :
    CommentsStay t := by
  refine (commentsStay_iff ((Profile.Bakes.glyphs baked).declarable named).ids).mpr ?_
  intro index e found
  obtain ⟨ch, _, picture, rfl⟩ := entry_of_bake baked (Array.mem_of_getElem? found)
  exact p.contained_comment ch picture index

namespace Icon

theorem extension_of_picture {p : Path} (picture : isPicture p = true) :
    ∃ ending, p.extension = some ending ∧
      String.ofList (ending.toList.map Text.lowerAscii) ∈ extensions := by
  simp only [isPicture] at picture
  split at picture
  · rename_i ending found
    exact ⟨ending, found, by simpa using picture⟩
  · cases picture

theorem getLast?_extensionOf {name ending : List Char} {c : Char}
    (found : Path.extensionOf name = some ending) (last : name.getLast? = some c) (dot : c ≠ '.') :
    ending.getLast? = some c := by
  obtain ⟨before, rfl⟩ := List.getLast?_eq_some_iff.mp last
  simp only [Path.extensionOf, Option.ite_none_right_eq_some, Option.some.injEq] at found
  rw [← found.2]
  simp [dot]

theorem ended_of_picture {dir file : Path} (picture : isPicture (dir.join file) = true) :
    Ended file.text.toList := by
  have letter : ∀ text ∈ extensions, text.toList.getLast? = some 'g' := by decide
  intro last
  have whole : (dir.join file).text.toList.getLast? = some '\\' := by
    obtain ⟨front, text⟩ := dir.text_join file
    rw [text, String.toList_append, List.getLast?_append, last, Option.some_or]
  obtain ⟨name, named, ends⟩ := Path.fileName_of_getLast? whole (by decide) (by decide)
  obtain ⟨ending, extension, known⟩ := extension_of_picture picture
  rw [Path.extension, named, Option.bind_some, Option.map_eq_some_iff] at extension
  obtain ⟨chars, found, rfl⟩ := extension
  have lower := letter _ known
  rw [String.toList_ofList, String.toList_ofList, List.getLast?_map,
    getLast?_extensionOf found ends (by decide)] at lower
  revert lower
  decide

theorem isPicture_of_load {d : Disk} {p : Path} {picture : Raster Rgba} (loaded : load d p = .ok picture) :
    isPicture p = true := by
  by_contra other
  rw [Bool.not_eq_true] at other
  simp only [load, decode, other, Bool.false_eq_true, if_false] at loaded
  split at loaded <;> cases loaded

end Icon

namespace IconProfile

variable {p : IconProfile} {d : Disk} {dir : Path}

/-- The texts that are quoted as they are in the comment of an entry: its file, and the fallback that
    stands in for it or the path at which nothing was found. -/
def quoted (p : IconProfile) (d : Disk) (dir : Path) (e : IconEntry) : List String :=
  e.file.text :: (status dir e (Icon.source d (ownPath dir e) (p.fallbackPath dir))).texts

theorem oneLine_comment_iff {e : IconEntry} {entry : TableEntry}
    (baked : (p.bakeEntry d dir e).1 = .ok entry) (index : Nat) :
    OneLine (comment index entry) ↔ ∀ text ∈ p.quoted d dir e, OneLine text := by
  obtain ⟨_, _, rfl⟩ := bakeEntry_eq baked
  rw [oneLine_comment, quoted, List.forall_mem_cons]

theorem ended_comment_of_bakeEntry {e : IconEntry} {entry : TableEntry}
    (baked : (p.bakeEntry d dir e).1 = .ok entry) (index : Nat) : Ended (comment index entry).toList := by
  obtain ⟨picture, drawn, rfl⟩ := bakeEntry_eq baked
  apply ended_comment
  intro rendered
  -- only a file that was decoded is called by its name alone
  rcases p.source_chosen d dir e with ⟨_, source⟩ | ⟨_, _, _, source⟩ | ⟨_, _, source⟩
  · rw [source] at drawn
    obtain ⟨raster, loaded, _⟩ := bind_eq_ok.mp drawn
    exact Icon.ended_of_picture (Icon.isPicture_of_load loaded)
  · rw [source] at rendered
    cases rendered
  · rw [source] at rendered
    cases rendered

theorem commentsStay_iff {t : Table} (named : (Profile.icons p).WellNamed)
    (baked : (p.bake d dir).1 = .ok t) :
    CommentsStay t ↔ ∀ e ∈ p.entries, ∀ text ∈ p.quoted d dir e, OneLine text := by
  rw [Listing.commentsStay_iff ((Profile.Bakes.icons baked).declarable named).ids]
  constructor
  · intro contained e member
    obtain ⟨entry, present, made⟩ := exists_entry_of_bake baked member
    obtain ⟨index, found⟩ := Array.mem_iff_getElem?.mp present
    exact (oneLine_comment_iff made index).mp (contained index entry found).oneLine
  · intro oneLine index entry found
    obtain ⟨e, member, made⟩ := entry_of_bake baked (Array.mem_of_getElem? found)
    exact ⟨(oneLine_comment_iff made index).mpr (oneLine e member), ended_comment_of_bakeEntry made index⟩

def twoLines : IconProfile where
  name := "t"
  stem := "T"
  sourceDir := ⟨"d"⟩
  fallback := none
  cellSize := 1
  contentSize := 1
  alphaCutoff := 128
  entries := [⟨"A", ⟨"a\nb.png"⟩, none⟩]
  shape := {}
  declarations := ⟨"t.h"⟩
  data := ⟨"t.c"⟩

end IconProfile

namespace Config

/-- The comments of a valid configuration. Those of a glyph stay comments whatever its source draws
    or fails with; those of an icon never draw the next line in, and stay comments exactly if no text
    that they quote has an end of line. -/
theorem comments_stay_iff {c : Config} (valid : c.check = .ok ()) :
    (∀ p ∈ c.glyphs, ∀ {σ : Type} (source : GlyphSource σ) (s : σ),
      ∃ t, (p.bake source s).1 = .ok t ∧ CommentsStay t) ∧
      (∀ p ∈ c.icons, ∀ d dir t, (p.bake d dir).1 = .ok t →
        (∀ index e, t.entries[index]? = some e → Ended (comment index e).toList) ∧
        (CommentsStay t ↔ ∀ e ∈ p.entries, ∀ text ∈ p.quoted d dir e, OneLine text)) ∧
      ∀ t header index e, t.entries[index]? = some e → ∃ before after : String,
        data t header = before ++ (opening e ++ "// " ++ comment index e ++ "\n") ++ after := by
  refine ⟨?_, ?_, fun t header index e found => data_comment found header⟩
  · intro p member σ source s
    have named : (Profile.glyphs p).WellNamed := Profile.wellNamed valid (by simp [profiles, member])
    obtain ⟨t, baked⟩ := p.bake_ok source s
    exact ⟨t, baked, GlyphProfile.commentsStay named baked⟩
  · intro p member d dir t baked
    have named : (Profile.icons p).WellNamed := Profile.wellNamed valid (by simp [profiles, member])
    refine ⟨?_, IconProfile.commentsStay_iff named baked⟩
    intro index entry found
    obtain ⟨e, _, made⟩ := IconProfile.entry_of_bake baked (Array.mem_of_getElem? found)
    exact IconProfile.ended_comment_of_bakeEntry made index

theorem comments_stay_iff_two_lines :
    Config.check { icons := [.twoLines] } = .ok () ∧
      ∃ t, (IconProfile.twoLines.bake withoutFiles ⟨"d"⟩).1 = .ok t ∧ ¬ CommentsStay t ∧
        "b.png (blank: missing d/a".toList ∈ code (data t "t.h") := by
  have valid : Config.check { icons := [.twoLines] } = .ok () := by
    rw [← toOption_eq_some]
    decide +kernel
  have read : ((IconProfile.twoLines.bake withoutFiles ⟨"d"⟩).1.toOption.any fun t =>
      decide ("b.png (blank: missing d/a".toList ∈ code (data t "t.h"))) = true := by
    decide +kernel
  obtain ⟨t, made, escaped⟩ := (Option.any_eq_true _ _).mp read
  have baked := toOption_eq_some.mp made
  obtain ⟨_, stay⟩ := (comments_stay_iff valid).2.1 .twoLines (by simp) withoutFiles ⟨"d"⟩ t baked
  refine ⟨valid, t, baked, ?_, of_decide_eq_true escaped⟩
  rw [stay]
  intro oneLine
  exact absurd (oneLine _ (List.mem_singleton_self _) _ List.mem_cons_self) (by decide)

end Config

end PixelTables
