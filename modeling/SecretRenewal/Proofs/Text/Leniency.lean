/-
This file says what lenient reading makes of bytes that are no text. Wherever the bytes of a
character stand, that character is read. Elsewhere there is either a byte with which no character
begins, or the beginning of one that does not go on; the longest such piece counts as one wrong
piece, and one replacement character is read for it. This settles every reading, and bytes of a text
are read as the text itself.
-/
import SecretRenewal.Proofs.Text.Strictness
import SecretRenewal.Text.Marked

namespace SecretRenewal.Text

/-! ### Wrong pieces -/

/-- Bytes with which a character begins, but not all of it. -/
def IsBeginning (piece : List UInt8) : Prop :=
  ∃ char more, more ≠ [] ∧ String.utf8EncodeChar char = piece ++ more

/-- Bytes as characters, with each longest wrong piece replaced. -/
inductive Replaces : List UInt8 → List Char → Prop
  | done : Replaces [] []
  | char (char : Char) {rest : List UInt8} {chars : List Char} (later : Replaces rest chars) :
      Replaces (String.utf8EncodeChar char ++ rest) (char :: chars)
  | cut {piece rest : List UInt8} {chars : List Char} (some : piece ≠ [])
      (begins : IsBeginning piece)
      (ends : ∀ byte ∈ rest.head?, ∀ char more,
        String.utf8EncodeChar char ≠ piece ++ byte :: more)
      (later : Replaces rest chars) : Replaces (piece ++ rest) (replacement :: chars)
  | stray {byte : UInt8} {rest : List UInt8} {chars : List Char}
      (beginsNone : ∀ char more, String.utf8EncodeChar char ≠ byte :: more)
      (later : Replaces rest chars) : Replaces (byte :: rest) (replacement :: chars)

/-! ### Bytes of characters -/

theorem decodeAfter?_char (char : Char) :
    decodeAfter? none (String.utf8EncodeChar char) = some [char] := by
  have whole := decodeAfter?_flatMap [char]
  rwa [List.flatMap_singleton] at whole

theorem utf8EncodeChar_of_decodeAfter? {bytes : List UInt8} {char : Char}
    (read : decodeAfter? none bytes = some [char]) : String.utf8EncodeChar char = bytes := by
  have whole := eq_flatMap_of_decodeAfter? read
  rw [List.flatMap_singleton] at whole
  exact whole.symm

/-- What can follow a piece is at least one byte. -/
def Partial.IsOpen (piece : Partial) : Prop := piece.lowest ≤ piece.highest

theorem isOpen_of_firstByte {byte : UInt8} {piece : Partial}
    (first : firstByte byte = .unfinished piece) : piece.IsOpen := by
  have begins := begins_firstByte byte
  rw [first] at begins
  unfold Partial.IsOpen
  cases begins with
  | two =>
    show (0x80 : UInt8) ≤ 0xbf
    decide
  | three =>
    dsimp only
    by_cases least : byte = 0xe0
    · subst least
      decide
    · rw [if_neg least]
      split <;> decide
  | four =>
    dsimp only
    by_cases least : byte = 0xf0
    · subst least
      decide
    · rw [if_neg least]
      split <;> decide

theorem isOpen_of_nextByte? {piece longer : Partial} {byte : UInt8}
    (next : nextByte? piece byte = some (.unfinished longer)) : longer.IsOpen := by
  unfold nextByte? at next
  dsimp only at next
  split at next
  · split at next
    · cases next
    · cases next
      show (0x80 : UInt8) ≤ 0xbf
      decide
  · cases next

theorem exists_char_of_last {missing code : Nat} {lowest highest : UInt8} (few : missing ≤ 1)
    (isOpen : Partial.IsOpen ⟨missing, code, lowest, highest⟩) :
    ∃ tail char, tail ≠ [] ∧
      decodeAfter? (some ⟨missing, code, lowest, highest⟩) tail = some [char] := by
  have next : nextByte? ⟨missing, code, lowest, highest⟩ lowest =
      some (.complete (Char.ofNat (code * 64 + (lowest.toNat - 0x80)))) := by
    unfold nextByte?
    rw [if_pos ⟨UInt8.le_refl lowest, isOpen⟩, if_pos few]
  exact ⟨[lowest], _, List.cons_ne_nil _ _, decodeAfter?_of_last [] next⟩

/-- A piece that can go on can become a character. -/
theorem Partial.IsOpen.exists_char {piece : Partial} (isOpen : piece.IsOpen) :
    ∃ tail char, tail ≠ [] ∧ decodeAfter? (some piece) tail = some [char] := by
  obtain ⟨missing, code, lowest, highest⟩ := piece
  induction missing generalizing code lowest highest with
  | zero => exact exists_char_of_last (Nat.zero_le 1) isOpen
  | succ missing inductionHypothesis =>
    by_cases last : missing = 0
    · exact exists_char_of_last (by omega) isOpen
    · have wide : Partial.IsOpen ⟨missing, code * 64 + (lowest.toNat - 0x80), 0x80, 0xbf⟩ := by
        show (0x80 : UInt8) ≤ 0xbf
        decide
      obtain ⟨tail, char, -, read⟩ := inductionHypothesis _ _ _ wide
      have next : nextByte? ⟨missing + 1, code, lowest, highest⟩ lowest =
          some (.unfinished ⟨missing, code * 64 + (lowest.toNat - 0x80), 0x80, 0xbf⟩) := by
        unfold nextByte?
        rw [if_pos ⟨UInt8.le_refl lowest, isOpen⟩, if_neg (by dsimp only; omega)]
        rfl
      refine ⟨lowest :: tail, char, List.cons_ne_nil _ _, ?_⟩
      rw [decodeAfter?_of_further tail next, read]

/-! ### Pieces in the middle of reading -/

/-- After these bytes, reading is in the middle of a character. -/
structure LeadsTo (front : List UInt8) (piece : Partial) : Prop where
  reads : ∀ tail, decodeAfter? none (front ++ tail) = decodeAfter? (some piece) tail
  isOpen : piece.IsOpen

theorem LeadsTo.of_first {byte : UInt8} {piece : Partial}
    (first : firstByte byte = .unfinished piece) : LeadsTo [byte] piece where
  reads tail := decodeAfter?_of_unfinished tail first
  isOpen := isOpen_of_firstByte first

section

variable {front : List UInt8} {piece : Partial} (leads : LeadsTo front piece)
include leads

theorem LeadsTo.isBeginning : IsBeginning front := by
  obtain ⟨tail, char, more, read⟩ := leads.isOpen.exists_char
  exact ⟨char, tail, more, utf8EncodeChar_of_decodeAfter? ((leads.reads tail).trans read)⟩

theorem LeadsTo.further {byte : UInt8} {longer : Partial}
    (next : nextByte? piece byte = some (.unfinished longer)) :
    LeadsTo (front ++ [byte]) longer where
  reads tail := by
    rw [List.append_assoc, leads.reads]
    exact decodeAfter?_of_further tail next
  isOpen := isOpen_of_nextByte? next

/-- With the last byte of a character, its bytes are together. -/
theorem LeadsTo.last {byte : UInt8} {char : Char}
    (next : nextByte? piece byte = some (.complete char)) :
    String.utf8EncodeChar char = front ++ [byte] := by
  refine utf8EncodeChar_of_decodeAfter? ?_
  rw [leads.reads]
  exact decodeAfter?_of_last [] next

/-- A byte that is refused continues no character. -/
theorem LeadsTo.ends {byte : UInt8} (refused : nextByte? piece byte = none) (char : Char)
    (more : List UInt8) : String.utf8EncodeChar char ≠ front ++ byte :: more := by
  intro same
  have read := decodeAfter?_char char
  rw [same, leads.reads, decodeAfter?, refused] at read
  cases read

end

theorem ne_of_stray {byte : UInt8} (first : firstByte byte = .stray) (char : Char)
    (more : List UInt8) : String.utf8EncodeChar char ≠ byte :: more := by
  intro same
  have read := decodeAfter?_char char
  rw [same, decodeAfter?, first] at read
  cases read

theorem nextByte?_ne_stray (piece : Partial) (byte : UInt8) :
    nextByte? piece byte ≠ some .stray := by
  unfold nextByte?
  dsimp only
  split
  · split <;> nofun
  · exact nofun

/-- A refused byte is read as one after a wrong piece. -/
theorem decodeLeniently_of_refused {piece : Partial} {byte : UInt8} (rest : List UInt8)
    (refused : nextByte? piece byte = none) :
    decodeLeniently (some piece) (byte :: rest) =
      replacement :: decodeLeniently none (byte :: rest) := by
  rw [decodeLeniently.eq_def (some piece), decodeLeniently.eq_def none]
  dsimp only
  rw [refused]
  cases firstByte byte <;> rfl

/-! ### Lenient reading -/

/-- Lenient reading replaces the longest wrong pieces, also after the beginning of a character. -/
theorem replaces_decodeLeniently (bytes : List UInt8) :
    Replaces bytes (decodeLeniently none bytes) ∧
      ∀ front piece, front ≠ [] → LeadsTo front piece →
        Replaces (front ++ bytes) (decodeLeniently (some piece) bytes) := by
  induction bytes with
  | nil =>
    refine ⟨.done, fun front piece some leads => ?_⟩
    exact .cut some leads.isBeginning nofun .done
  | cons byte rest inductionHypothesis =>
    obtain ⟨whole, later⟩ := inductionHypothesis
    have here : Replaces (byte :: rest) (decodeLeniently none (byte :: rest)) := by
      rw [decodeLeniently]
      cases first : firstByte byte with
      | complete char =>
        have isChar : String.utf8EncodeChar char = [byte] :=
          utf8EncodeChar_of_decodeAfter? (decodeAfter?_of_complete [] first)
        have reads := Replaces.char char whole
        rwa [isChar] at reads
      | unfinished piece => exact later [byte] piece (List.cons_ne_nil _ _) (.of_first first)
      | stray => exact .stray (ne_of_stray first) whole
    refine ⟨here, fun front piece some leads => ?_⟩
    cases next : nextByte? piece byte with
    | none =>
      rw [decodeLeniently_of_refused rest next]
      refine .cut some leads.isBeginning ?_ here
      rintro _ ⟨⟩ char more
      exact leads.ends next char more
    | some outcome =>
      rw [decodeLeniently, next, List.append_cons]
      cases outcome with
      | complete char =>
        rw [← leads.last next]
        exact .char char whole
      | unfinished longer =>
        exact later (front ++ [byte]) longer (List.append_ne_nil_of_left_ne_nil some _)
          (leads.further next)
      | stray => exact absurd next (nextByte?_ne_stray piece byte)

/-- Where strict reading finds characters, lenient reading finds the same, and goes on. -/
theorem decodeLeniently_append {piece? : Option Partial} {front : List UInt8} {chars : List Char}
    (read : decodeAfter? piece? front = some chars) (rest : List UInt8) :
    decodeLeniently piece? (front ++ rest) = chars ++ decodeLeniently none rest := by
  induction front generalizing piece? chars with
  | nil =>
    cases piece? with
    | none =>
      cases read
      rfl
    | some piece => cases read
  | cons byte front inductionHypothesis =>
    cases piece? with
    | none =>
      rw [decodeAfter?] at read
      rw [List.cons_append, decodeLeniently]
      cases first : firstByte byte with
      | complete char =>
        rw [first] at read
        obtain ⟨others, readOthers, rfl⟩ := Option.map_eq_some_iff.mp read
        exact congrArg (char :: ·) (inductionHypothesis readOthers)
      | unfinished piece =>
        rw [first] at read
        exact inductionHypothesis read
      | stray =>
        rw [first] at read
        cases read
    | some piece =>
      rw [decodeAfter?] at read
      rw [List.cons_append, decodeLeniently]
      cases next : nextByte? piece byte with
      | none =>
        rw [next] at read
        cases read
      | some outcome =>
        rw [next] at read
        cases outcome with
        | complete char =>
          obtain ⟨others, readOthers, rfl⟩ := Option.map_eq_some_iff.mp read
          exact congrArg (char :: ·) (inductionHypothesis readOthers)
        | unfinished longer => exact inductionHypothesis read
        | stray => cases read

/-- Nothing stands between the last byte of a character and the end of its bytes. -/
theorem not_complete_of_more {front more : List UInt8} {char other : Char} (goesOn : more ≠ []) :
    (decodeAfter? none (front ++ more)).map (other :: ·) ≠ some [char] := by
  intro complete
  obtain ⟨others, readOthers, same⟩ := Option.map_eq_some_iff.mp complete
  have none : front ++ more = [] := by
    rw [eq_flatMap_of_decodeAfter? readOthers, (List.cons.inj same).2]
    rfl
  exact goesOn (List.append_eq_nil_iff.mp none).2

/-- In the middle of a character, strict and lenient reading have come to the same piece. -/
structure MeetsAt (piece? : Option Partial) (front : List UInt8) (piece : Partial) : Prop where
  isOpen : piece.IsOpen
  strictly : ∀ tail, decodeAfter? piece? (front ++ tail) = decodeAfter? (some piece) tail
  leniently : ∀ tail, decodeLeniently piece? (front ++ tail) = decodeLeniently (some piece) tail

theorem exists_meetsAt {piece : Partial} {front more : List UInt8} {char : Char}
    (isOpen : piece.IsOpen) (goesOn : more ≠ [])
    (read : decodeAfter? (some piece) (front ++ more) = some [char]) :
    ∃ longer, MeetsAt (some piece) front longer := by
  induction front generalizing piece with
  | nil => exact ⟨piece, isOpen, fun _ => rfl, fun _ => rfl⟩
  | cons byte front inductionHypothesis =>
    rw [List.cons_append, decodeAfter?] at read
    cases next : nextByte? piece byte with
    | none =>
      rw [next] at read
      cases read
    | some outcome =>
      rw [next] at read
      cases outcome with
      | complete other => exact absurd read (not_complete_of_more goesOn)
      | unfinished longer =>
        obtain ⟨last, stillOpen, strictly, leniently⟩ :=
          inductionHypothesis (isOpen_of_nextByte? next) read
        refine ⟨last, stillOpen, fun tail => ?_, fun tail => ?_⟩
        · rw [List.cons_append, decodeAfter?, next]
          exact strictly tail
        · rw [List.cons_append, decodeLeniently, next]
          exact leniently tail
      | stray => cases read

/-- The beginning of a character leads into the middle of one. -/
theorem IsBeginning.exists_meetsAt {front : List UInt8} (some : front ≠ [])
    (begins : IsBeginning front) : ∃ piece, MeetsAt none front piece := by
  obtain ⟨char, more, goesOn, whole⟩ := begins
  obtain ⟨byte, others, rfl⟩ := List.exists_cons_of_ne_nil some
  have read := decodeAfter?_char char
  rw [whole, List.cons_append, decodeAfter?] at read
  cases first : firstByte byte with
  | complete other =>
    rw [first] at read
    exact absurd read (not_complete_of_more goesOn)
  | unfinished piece =>
    rw [first] at read
    obtain ⟨last, stillOpen, strictly, leniently⟩ :=
      Text.exists_meetsAt (isOpen_of_firstByte first) goesOn read
    refine ⟨last, stillOpen, fun tail => ?_, fun tail => ?_⟩
    · rw [List.cons_append, decodeAfter?, first]
      exact strictly tail
    · rw [List.cons_append, decodeLeniently, first]
      exact leniently tail
  | stray =>
    rw [first] at read
    cases read

/-- A byte that no character has next is refused. -/
theorem MeetsAt.refuses {front : List UInt8} {piece : Partial} (meets : MeetsAt none front piece)
    {byte : UInt8} (ends : ∀ char more, String.utf8EncodeChar char ≠ front ++ byte :: more) :
    nextByte? piece byte = none := by
  cases next : nextByte? piece byte with
  | none => rfl
  | some outcome =>
    cases outcome with
    | complete char =>
      refine absurd (utf8EncodeChar_of_decodeAfter? ?_) (ends char [])
      exact (meets.strictly [byte]).trans (decodeAfter?_of_last [] next)
    | unfinished longer =>
      obtain ⟨tail, char, -, read⟩ := (isOpen_of_nextByte? next).exists_char
      refine absurd (utf8EncodeChar_of_decodeAfter? ?_) (ends char tail)
      exact ((meets.strictly (byte :: tail)).trans (decodeAfter?_of_further tail next)).trans read
    | stray => exact absurd next (nextByte?_ne_stray piece byte)

theorem firstByte_of_ne {byte : UInt8}
    (beginsNone : ∀ char more, String.utf8EncodeChar char ≠ byte :: more) :
    firstByte byte = .stray := by
  cases first : firstByte byte with
  | complete char =>
    exact absurd (utf8EncodeChar_of_decodeAfter? (decodeAfter?_of_complete [] first))
      (beginsNone char [])
  | unfinished piece =>
    obtain ⟨tail, char, -, read⟩ := (isOpen_of_firstByte first).exists_char
    refine absurd (utf8EncodeChar_of_decodeAfter? ?_) (beginsNone char tail)
    exact (decodeAfter?_of_unfinished tail first).trans read
  | stray => rfl

/-- There is one way to replace the longest wrong pieces, and lenient reading goes it. -/
theorem replaces_iff {bytes : List UInt8} {chars : List Char} :
    Replaces bytes chars ↔ decodeLeniently none bytes = chars := by
  refine ⟨fun replaces => ?_, fun reads => reads ▸ (replaces_decodeLeniently bytes).1⟩
  induction replaces with
  | done => rfl
  | char char later inductionHypothesis =>
    rw [decodeLeniently_append (decodeAfter?_char char), inductionHypothesis]
    rfl
  | @cut piece rest chars some begins ends later inductionHypothesis =>
    obtain ⟨last, meets⟩ := begins.exists_meetsAt some
    rw [meets.leniently]
    cases rest with
    | nil => exact congrArg (replacement :: ·) inductionHypothesis
    | cons byte rest =>
      rw [decodeLeniently_of_refused rest (meets.refuses (ends byte rfl)), inductionHypothesis]
  | stray beginsNone later inductionHypothesis =>
    rw [decodeLeniently, firstByte_of_ne beginsNone, inductionHypothesis]

/-- Bytes of a text are read as this text. -/
theorem decodeReplacing_encode (text : String) : decodeReplacing (encode text) = text := by
  have read := decodeLeniently_append (decodeAfter?_flatMap text.toList) []
  rw [List.append_nil] at read
  unfold decodeReplacing encode
  rw [read]
  exact (congrArg String.ofList (List.append_nil _)).trans String.ofList_toList

end SecretRenewal.Text
