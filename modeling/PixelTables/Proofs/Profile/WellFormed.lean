import PixelTables.Proofs.Baking.Profiles

namespace PixelTables

def IsLetter (c : Char) : Prop := 'A' ≤ c ∧ c ≤ 'Z' ∨ 'a' ≤ c ∧ c ≤ 'z'

def IsDigit (c : Char) : Prop := '0' ≤ c ∧ c ≤ '9'

/-- A name in C: a letter or an underscore, then letters, digits and underscores. -/
def CName (name : String) : Prop :=
  ∃ first rest, name.toList = first :: rest ∧ (IsLetter first ∨ first = '_') ∧
    ∀ c ∈ rest, IsLetter c ∨ IsDigit c ∨ c = '_'

theorem isAsciiLetter_iff (c : Char) : Text.isAsciiLetter c = true ↔ IsLetter c := by
  simp only [Text.isAsciiLetter, Bool.or_eq_true, Bool.and_eq_true, decide_eq_true_eq]
  exact Iff.rfl

theorem isAsciiAlphanumeric_iff (c : Char) :
    Text.isAsciiAlphanumeric c = true ↔ IsLetter c ∨ IsDigit c := by
  rw [Text.isAsciiAlphanumeric, Bool.or_eq_true, isAsciiLetter_iff]
  simp only [Text.isAsciiDigit, Bool.and_eq_true, decide_eq_true_eq]
  exact Iff.rfl

theorem isIdentifier_iff_cName (name : String) : isIdentifier name = true ↔ CName name := by
  rw [isIdentifier, CName]
  cases name.toList with
  | nil => simp
  | cons first rest =>
    simp only [Bool.and_eq_true, Bool.or_eq_true, decide_eq_true_eq, List.all_eq_true,
      isAsciiLetter_iff, isAsciiAlphanumeric_iff, or_assoc]
    exact ⟨fun ⟨start, others⟩ => ⟨first, rest, rfl, start, others⟩,
      fun ⟨_, _, same, start, others⟩ => by
        obtain ⟨rfl, rfl⟩ := List.cons.inj same
        exact ⟨start, others⟩⟩

theorem within_iff {size limit : UInt32} :
    (size ≠ 0 ∧ size ≤ limit) ↔ 1 ≤ size.toNat ∧ size.toNat ≤ limit.toNat := by
  rw [UInt32.le_iff_toNat_le, ne_eq, ← UInt32.toNat_inj]
  exact and_congr_left fun _ => Nat.one_le_iff_ne_zero.symm

structure Shape.WellFormed (s : Shape) (suffixes : List String) : Prop where
  countName : CName s.countName
  sizeName : CName s.sizeName
  apart : s.countName ≠ s.sizeName
  unreserved : ∀ name ∈ [s.countName, s.sizeName], name ∉ ["WIDTH", "HEIGHT", "FIRST", "TRANSPARENT"]
  free : ∀ suffix ∈ suffixes,
    suffix ∉ ["WIDTH", "HEIGHT", "FIRST", "TRANSPARENT", s.countName, s.sizeName]

theorem Shape.check_iff_wellFormed {s : Shape} {table stem : String} {suffixes : List String} :
    s.check table stem (suffixes.map (stem ++ "_" ++ ·)) = .ok () ↔ s.WellFormed suffixes := by
  have distinct : (reservedNames ++ [s.countName, s.sizeName]).Nodup ↔ s.countName ≠ s.sizeName ∧
      ∀ name ∈ [s.countName, s.sizeName], name ∉ reservedNames := by
    have reserved : reservedNames.Nodup := by decide
    have pair : [s.countName, s.sizeName].Nodup ↔ s.countName ≠ s.sizeName := by simp
    rw [List.nodup_append, pair]
    exact ⟨fun ⟨_, apart, fresh⟩ => ⟨apart, fun name own taken => fresh name taken name own rfl⟩,
      fun ⟨apart, unreserved⟩ => ⟨reserved, apart, fun name taken other own same =>
        unreserved other own (same ▸ taken)⟩⟩
  have free : (∀ index ∈ suffixes.map (stem ++ "_" ++ ·), index ∉ s.constants stem) ↔
      ∀ suffix ∈ suffixes, suffix ∉ reservedNames ++ [s.countName, s.sizeName] := by
    have injective : Function.Injective (stem ++ "_" ++ ·) := fun _ _ same =>
      (String.append_right_inj _).mp same
    simp only [List.forall_mem_map, constants, List.mem_map_of_injective injective]
  rw [check_eq_ok, isIdentifier_iff_cName, isIdentifier_iff_cName, distinct, free]
  exact ⟨fun ⟨count, size, ⟨apart, unreserved⟩, free⟩ => ⟨count, size, apart, unreserved, free⟩,
    fun formed => ⟨formed.countName, formed.sizeName, ⟨formed.apart, formed.unreserved⟩, formed.free⟩⟩

structure IconProfile.WellFormed (p : IconProfile) : Prop where
  cell : 1 ≤ p.cellSize.toNat ∧ p.cellSize.toNat ≤ 4096
  entries : p.entries ≠ []
  ids : ∀ e ∈ p.entries, CName e.id
  distinct : (p.entries.map (·.id)).Nodup
  contents : ∀ e ∈ p.entries, 1 ≤ (e.contentSize.getD p.contentSize).toNat ∧
    (e.contentSize.getD p.contentSize).toNat ≤ p.cellSize.toNat
  shape : p.shape.WellFormed (p.entries.map (·.id))

theorem IconProfile.check_iff_wellFormed (p : IconProfile) : p.check = .ok () ↔ p.WellFormed := by
  have indices : p.entries.map p.index = (p.entries.map (·.id)).map (p.stem ++ "_" ++ ·) := by
    rw [List.map_map]
    rfl
  have side : maxCellSide.toNat = 4096 := rfl
  rw [check_eq_ok, checkEntries_eq_ok, indices, Shape.check_iff_wellFormed, within_iff, side]
  simp only [isIdentifier_iff_cName, within_iff, List.isEmpty_eq_false_iff, contentSizeOf]
  constructor
  · rintro ⟨cell, entries, ⟨each, distinct⟩, shape⟩
    exact ⟨cell, entries, fun e member => (each e member).1, distinct,
      fun e member => (each e member).2, shape⟩
  · rintro ⟨cell, entries, ids, distinct, contents, shape⟩
    exact ⟨cell, entries, ⟨fun e member => ⟨ids e member, contents e member⟩, distinct⟩, shape⟩

namespace Config

theorem outputs_eq_profiles (c : Config) :
    c.outputs = c.profiles.flatMap fun p => [p.declarations, p.data] := by
  rw [outputs, profiles, List.flatMap_append, List.flatMap_map, List.flatMap_map]
  rfl

structure WellFormed (c : Config) : Prop where
  names : (c.profiles.map (·.name)).Nodup
  identifiers : ∀ p ∈ c.profiles, CName p.name ∧ CName p.stem
  outputs : (c.profiles.flatMap fun p => [p.declarations, p.data]).Pairwise fun p q => ¬ p.Same q
  profiles : ∀ p ∈ c.profiles, p.check = .ok ()

theorem check_iff_wellFormed (c : Config) : c.check = .ok () ↔ c.WellFormed := by
  have each : (∀ p ∈ c.profiles, p.check = .ok ()) ↔
      (∀ p ∈ c.glyphs, p.check = .ok ()) ∧ ∀ p ∈ c.icons, p.check = .ok () := by
    rw [profiles, List.forall_mem_append, List.forall_mem_map, List.forall_mem_map]
    rfl
  rw [check_eq_ok, checkNames_eq_ok, checkOutputs_eq_ok, ← each, outputs_eq_profiles, names_eq_profiles,
    List.map_map, List.forall_mem_map]
  simp only [isIdentifier_iff_cName]
  constructor
  · rintro ⟨⟨identifiers, names⟩, outputs, profiles⟩
    exact ⟨names, identifiers, outputs, profiles⟩
  · rintro ⟨names, identifiers, outputs, profiles⟩
    exact ⟨⟨identifiers, names⟩, outputs, profiles⟩

/-- Icons and whole configurations are accepted exactly if they are well formed, and a rejection
    always tells of a broken rule of the configuration. -/
theorem checks_accept_iff (c : Config) (p : IconProfile) :
    ((p.check = .ok () ↔ p.WellFormed) ∧
        ((∃ fault, p.check = .error (.config none (.fault fault))) ↔ ¬ p.WellFormed)) ∧
      (c.check = .ok () ↔ c.WellFormed) ∧
        ((∃ fault, c.check = .error (.config none (.fault fault))) ↔ ¬ c.WellFormed) := by
  refine ⟨⟨p.check_iff_wellFormed, ?_⟩, c.check_iff_wellFormed, ?_⟩
  · rw [← p.check_iff_wellFormed]
    exact (NamesFault.iconProfile p).rejected_iff
  · rw [← c.check_iff_wellFormed]
    exact (NamesFault.config c).rejected_iff

end Config

end PixelTables
