import PixelTables.Listing.Writer
import PixelTables.Proofs.Listing.Frames

namespace PixelTables

theorem take_append (a b : String) (n : Nat) :
    (a ++ b).toList.take n = a.toList.take n ++ b.toList.take (n - a.length) := by
  rw [String.toList_append, List.take_append, String.length_toList]

namespace Sink

/-- What comes of a text for which a sink has room for `n` characters. Of a text that does not fit the
    sink has as much as it can hold, and was offered nothing after the write that failed. -/
structure Fills (text : String) (n : Nat) (result : Except Unit Unit × Limited) : Prop where
  ok_iff : result.1 = .ok () ↔ text.length ≤ n
  taken : result.2.taken = String.ofList (text.toList.take (min n text.length))
  refused : result.2.refused = if text.length ≤ n then 0 else 1

/-- Writes that come to the same as one write of a text, wherever none has failed before. It is
    enough to know what text each part of a listing writes. -/
def Writes (w : Writing Limited Unit) (text : String) : Prop :=
  ∀ s, s.refused = 0 → w.into s = (limited.put text).into s

theorem put_fits {s : Limited} {text : String} (unfailed : s.refused = 0)
    (fits : text.length ≤ s.room) :
    (limited.put text).into s = (.ok (), ⟨s.taken ++ text, s.room - text.length, 0⟩) := by
  simp [Writing.into, put, limited, unfailed, fits]

theorem put_overflows {s : Limited} {text : String} (unfailed : s.refused = 0)
    (exceeds : s.room < text.length) :
    (limited.put text).into s =
      (.error (), ⟨s.taken ++ String.ofList (text.toList.take s.room), 0, 1⟩) := by
  simp [Writing.into, put, limited, unfailed, Nat.not_le.mpr exceeds]

theorem into_bind_ok {σ : Type} {w : Writing σ Unit} {s later : σ}
    (first : w.into s = (.ok (), later)) (v : Writing σ Unit) :
    (w >>= fun _ => v).into s = v.into later := by
  simp only [Writing.into, ExceptT.run] at first ⊢
  simp only [Bind.bind, ExceptT.bind, ExceptT.mk, StateT.bind, first]
  rfl

theorem into_bind_error {σ : Type} {w : Writing σ Unit} {s later : σ} {e : Unit}
    (first : w.into s = (.error e, later)) (v : Writing σ Unit) :
    (w >>= fun _ => v).into s = (.error e, later) := by
  simp only [Writing.into, ExceptT.run] at first ⊢
  simp only [Bind.bind, ExceptT.bind, ExceptT.mk, StateT.bind, first]
  rfl

namespace Writes

variable {w v : Writing Limited Unit} {a b : String}

theorem put (text : String) : Writes (limited.put text) text := fun _ _ => rfl

theorem nothing : Writes (pure ()) "" := by
  intro s unfailed
  rw [put_fits unfailed (by simp)]
  obtain ⟨taken, room, refused⟩ := s
  subst unfailed
  simp only [String.append_empty, String.length_empty, Nat.sub_zero]
  rfl

/-- Two texts come to the same as one: where the first fits and the second does not, they are cut at the
    same place. -/
theorem bind (first : Writes w a) (second : Writes v b) : Writes (w >>= fun _ => v) (a ++ b) := by
  intro s unfailed
  have length : (a ++ b).length = a.length + b.length := String.length_append ..
  by_cases fits : a.length ≤ s.room
  · rw [into_bind_ok ((first s unfailed).trans (put_fits unfailed fits)), second _ rfl]
    by_cases both : (a ++ b).length ≤ s.room
    · rw [put_fits unfailed both, put_fits rfl (by simp only; omega), length, Nat.sub_sub,
        String.append_assoc]
    · have whole : a.toList.take s.room = a.toList :=
        List.take_of_length_le (by rwa [String.length_toList])
      rw [put_overflows unfailed (by omega), put_overflows rfl (by simp only; omega), take_append,
        whole, String.ofList_append, String.ofList_toList, String.append_assoc]
  · have exceeds : s.room < a.length := Nat.not_le.mp fits
    rw [into_bind_error ((first s unfailed).trans (put_overflows unfailed exceeds)),
      put_overflows unfailed (by omega), take_append, Nat.sub_eq_zero_of_le (Nat.le_of_lt exceeds),
      List.take_zero, List.append_nil]

theorem of_text (writes : Writes w a) (same : a = b) : Writes w b := same ▸ writes

theorem forM {α : Type} {body : α → Writing Limited Unit} {text : α → String}
    (each : ∀ x, Writes (body x) (text x)) (xs : List α) :
    Writes (xs.forM body) (String.join (xs.map text)) := by
  induction xs with
  | nil => exact nothing
  | cons x rest ih =>
    rw [List.map_cons, String.join_cons]
    exact (each x).bind ih

theorem putAll (parts : List String) : Writes (limited.putAll parts) (String.join parts) := by
  have each := forM (fun part => Writes.put part) parts
  rwa [List.map_id'] at each

theorem fills (writes : Writes w a) (n : Nat) : Fills a n (w.into { room := n }) := by
  rw [writes _ rfl]
  by_cases fits : a.length ≤ n
  · rw [put_fits rfl fits]
    refine ⟨by simp [fits], ?_, by simp [fits]⟩
    rw [Nat.min_eq_right fits, ← String.length_toList, List.take_length, String.ofList_toList]
    exact String.empty_append
  · have exceeds : n < a.length := Nat.not_le.mp fits
    rw [put_overflows rfl exceeds]
    refine ⟨by simp [fits], ?_, by simp [fits]⟩
    rw [Nat.min_eq_left (Nat.le_of_lt exceeds)]
    exact String.empty_append

end Writes

end Sink

namespace Listing

open Sink

theorem writes_define (parts : List String) (value : String) :
    Writes (writeDefine limited parts value) (defineLine (String.join parts) value) := by
  refine Writes.of_text (Writes.putAll _) ?_
  simp [defineLine, toString, String.join_append, String.append_assoc]

theorem writes_sides (t : Table) :
    Writes (writeSides limited t)
      (String.join ((sideDefines t).map fun d => defineLine d.1 d.2)) := by
  rw [writeSides, sideDefines]
  split
  · refine Writes.of_text (writes_define _ _) ?_
    simp [Table.constant, String.append_assoc]
  · refine Writes.of_text ((writes_define _ _).bind (writes_define _ _)) ?_
    simp [Table.constant, String.append_assoc]

theorem writes_declarations (t : Table) (header : String) :
    Writes (writeDeclarations limited t header) (declarations t header) := by
  refine Writes.of_text ((Writes.putAll _).bind <| (Writes.putAll _).bind <| (Writes.putAll _).bind <|
    (writes_sides t).bind <| (writes_define _ _).bind <|
    (Writes.forM (fun d => writes_define _ _) _).bind <| (Writes.put _).bind <|
    (Writes.forM (fun e => Writes.putAll _) _).bind <| (Writes.put _).bind <|
    (Writes.putAll _).bind (Writes.put _)) ?_
  simp [declarations_eq, declarationsFront, declarationsBack, allDefines, countDefine, Table.constant,
    indexLine, toString, List.mapIdx_eq_zipIdx_map, String.append_assoc]

theorem writes_status (status : Status) : Writes (writeStatus limited status) (statusNote status) := by
  cases status with
  | rendered => exact Writes.nothing
  | substituted fallback =>
    refine Writes.of_text (Writes.putAll _) ?_
    simp [statusNote, toString, String.append_assoc]
  | degraded reason =>
    refine Writes.of_text (Writes.putAll _) ?_
    simp [statusNote, toString, String.append_assoc]

theorem writes_word (format : WordFormat) (w : UInt32) :
    Writes (writeWord limited format w) (word format w) := by
  cases format with
  | byte => exact Writes.put _
  | hex32 =>
    refine Writes.of_text (Writes.putAll _) ?_
    simp [word]

def wordAt (format : WordFormat) (w : UInt32 × Nat) : String :=
  if w.2 = 0 then word format w.1 else ", " ++ word format w.1

theorem writes_wordAt (format : WordFormat) (w : UInt32 × Nat) :
    Writes (writeWordAt limited format w.1 w.2) (wordAt format w) := by
  obtain ⟨w, x⟩ := w
  cases x with
  | zero => exact writes_word format w
  | succ x => exact (Writes.put ", ").bind (writes_word format w)

theorem wordAt_later (format : WordFormat) (row : List UInt32) (x : Nat) :
    (row.zipIdx (x + 1)).map (wordAt format) = row.map fun w => ", " ++ word format w := by
  induction row generalizing x with
  | nil => rfl
  | cons w rest ih => rw [List.zipIdx_cons, List.map_cons, List.map_cons, ih, wordAt, if_neg (by simp)]

theorem join_intersperse (separator first : String) (rest : List String) :
    String.join ((first :: rest).intersperse separator) =
      first ++ String.join (rest.map (separator ++ ·)) := by
  induction rest generalizing first with
  | nil => simp
  | cons next rest ih =>
    rw [List.intersperse_cons_cons, String.join_cons, String.join_cons, ih, List.map_cons,
      String.join_cons, String.append_assoc]

theorem join_wordAt (format : WordFormat) (row : List UInt32) :
    String.join (row.zipIdx.map (wordAt format)) =
      String.join ((row.map (word format)).intersperse ", ") := by
  cases row with
  | nil => rfl
  | cons w rest =>
    rw [List.zipIdx_cons, List.map_cons, String.join_cons, wordAt_later, List.map_cons,
      join_intersperse, List.map_map]
    rfl

theorem writes_row (t : Table) (row : List UInt32) :
    Writes (writeRow limited t row) (String.join (rowPieces t row)) := by
  refine Writes.of_text ((Writes.put _).bind <|
    (Writes.forM (writes_wordAt t.format) _).bind (Writes.put _)) ?_
  simp [rowPieces, join_wordAt, String.join_append]

theorem writes_entry (t : Table) (index : Nat) (e : TableEntry) :
    Writes (writeEntry limited t index e) (String.join (entryPieces t index e)) := by
  refine Writes.of_text ((Writes.putAll _).bind <| (writes_status e.status).bind <|
    (Writes.put _).bind <|
    (Writes.forM (fun row : Array UInt32 => writes_row t row.toList) _).bind (Writes.put _)) ?_
  simp [entryPieces, entryOpen, toString, String.join_append, String.append_assoc, List.flatMap_def,
    join_flatten, Function.comp_def]

theorem writes_data (t : Table) (header : String) :
    Writes (writeData limited t header) (data t header) := by
  refine Writes.of_text ((Writes.putAll _).bind <| (Writes.putAll _).bind <| (Writes.putAll _).bind <|
    (Writes.forM (fun e : TableEntry × Nat => writes_entry t e.2 e.1) _).bind (Writes.put _)) ?_
  simp [data, dataPieces, toString, String.join_append, join_flatten, List.mapIdx_eq_zipIdx_map,
    String.append_assoc, Function.comp_def]

theorem pour_eq (pieces : List String) (n : Nat) :
    pour pieces n = (String.ofList ((String.join pieces).toList.take n),
      decide ((String.join pieces).length ≤ n)) := by
  induction pieces generalizing n with
  | nil => simp [pour]
  | cons piece rest ih =>
    have length : (piece ++ String.join rest).length = piece.length + (String.join rest).length :=
      String.length_append ..
    rw [String.join_cons, take_append, length, pour]
    split
    · rename_i fits
      have whole : piece.toList.take n = piece.toList :=
        List.take_of_length_le (by rwa [String.length_toList])
      simp only [ih, whole, String.ofList_append, String.ofList_toList, Prod.mk.injEq, true_and,
        decide_eq_decide]
      omega
    · rename_i exceeds
      rw [Nat.sub_eq_zero_of_le (Nat.le_of_not_le exceeds), List.take_zero, List.append_nil,
        Prod.mk.injEq]
      exact ⟨rfl, (decide_eq_false (by omega)).symm⟩

theorem pour_of_fills {pieces : List String} {n : Nat} {result : Except Unit Unit × Limited}
    (fills : Fills (String.join pieces) n result) :
    pour pieces n = (result.2.taken, result.1.isOk) := by
  rw [pour_eq, fills.taken, List.take_eq_take_min, String.length_toList, Prod.mk.injEq]
  refine ⟨rfl, ?_⟩
  rw [Bool.eq_iff_iff, decide_eq_true_eq, ← fills.ok_iff]
  rcases result with ⟨_ | _, _⟩ <;> simp [Except.isOk, Except.toBool]

/-- Whatever the limit of a sink, it comes to hold the beginning of a listing that has room in it, and
    the writer fails exactly if that is not all of it. -/
theorem write_to_limit (t : Table) (header : String) (n : Nat) :
    Fills (declarations t header) n ((writeDeclarations limited t header).into { room := n }) ∧
      Fills (data t header) n ((writeData limited t header).into { room := n }) ∧
      pour (declarationPieces t header) n =
        (((writeDeclarations limited t header).into { room := n }).2.taken,
          ((writeDeclarations limited t header).into { room := n }).1.isOk) ∧
      pour (dataPieces t header) n =
        (((writeData limited t header).into { room := n }).2.taken,
          ((writeData limited t header).into { room := n }).1.isOk) := by
  have first := (writes_declarations t header).fills n
  have second := (writes_data t header).fills n
  exact ⟨first, second, pour_of_fills first, pour_of_fills second⟩

end Listing

end PixelTables
