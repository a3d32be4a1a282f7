/-
This file says what the smallest readers do: those that look at a byte, take one off, pass over
blanks or take the letters of a word. Every other reader is put together from them, one after
another, so a proof about it goes along the bytes as the reader does: where a part has read
something, what follows goes on with the rest, and where a part has failed, nothing follows.
-/
import SecretRenewal.Proofs.Json.Grammar

namespace SecretRenewal.Json

/-! ### Bytes of basic characters -/

/-- Blanks in front are passed over. -/
theorem Blanks.dropWhile {blanks : List UInt8} (blank : Blanks blanks) (rest : List UInt8) :
    (blanks ++ rest).dropWhile isBlank = rest.dropWhile isBlank := by
  induction blanks with
  | nil => rfl
  | cons byte blanks inductionHypothesis =>
    rw [List.cons_append, List.dropWhile_cons_of_pos (blank byte List.mem_cons_self)]
    exact inductionHypothesis fun other member => blank other (List.mem_cons_of_mem _ member)

theorem Blanks.nil : Blanks [] := nofun

theorem isBlank_iff {byte : UInt8} : isBlank byte = true ↔
    byte = byteOf ' ' ∨ byte = byteOf '\n' ∨ byte = byteOf '\t' ∨ byte = byteOf '\x0d' := by
  simp [isBlank, or_assoc]

theorem isDigit_iff {byte : UInt8} :
    isDigit byte = true ↔ 48 ≤ byte.toNat ∧ byte.toNat ≤ 57 := by
  simp only [isDigit, decide_eq_true_eq, UInt8.le_iff_toNat_le]
  rfl

/-! ### One reader after another -/

namespace Reader

variable {value other : Type}

/-- What is read first goes to the next reader, with the bytes behind. -/
theorem bind_of_ok {reader : Reader value} {bytes rest : List UInt8} {result : value}
    (read : reader bytes = .ok (result, rest)) (next : value → Reader other) :
    (reader >>= next) bytes = next result rest := by
  show (reader bytes >>= fun pair => next pair.1 pair.2) = _
  rw [read]
  rfl

/-- A problem is the end of it. -/
theorem bind_of_error {reader : Reader value} {bytes : List UInt8} {problem : Problem}
    (failed : reader bytes = .error problem) (next : value → Reader other) :
    (reader >>= next) bytes = .error problem := by
  show (reader bytes >>= fun pair => next pair.1 pair.2) = _
  rw [failed]
  rfl

/-- What a reader after another reads, it reads from what the first has left. -/
theorem exists_of_bind {reader : Reader value} {next : value → Reader other}
    {bytes rest : List UInt8} {result : other}
    (read : (reader >>= next) bytes = .ok (result, rest)) :
    ∃ first middle, reader bytes = .ok (first, middle) ∧
      next first middle = .ok (result, rest) := by
  cases outcome : reader bytes with
  | error problem =>
    rw [bind_of_error outcome] at read
    cases read
  | ok pair =>
    obtain ⟨first, middle⟩ := pair
    rw [bind_of_ok outcome] at read
    exact ⟨first, middle, rfl, read⟩

/-- A reader reads nothing from these bytes. -/
def Fails (reader : Reader value) (bytes : List UInt8) : Prop :=
  ∃ problem, reader bytes = .error problem

theorem Fails.bind {reader : Reader value} {bytes : List UInt8} (fails : Fails reader bytes)
    (next : value → Reader other) : Fails (reader >>= next) bytes := by
  obtain ⟨problem, failed⟩ := fails
  exact ⟨problem, bind_of_error failed next⟩

/-- A sequence fails where its second reader fails on all that the first may read. -/
theorem Fails.of_bind {reader : Reader value} {next : value → Reader other} {bytes : List UInt8}
    (fails : ∀ first rest, reader bytes = .ok (first, rest) → Fails (next first) rest) :
    Fails (reader >>= next) bytes := by
  cases outcome : reader bytes with
  | error problem => exact ⟨problem, bind_of_error outcome next⟩
  | ok pair =>
    obtain ⟨problem, failed⟩ := fails pair.1 pair.2 outcome
    exact ⟨problem, (bind_of_ok outcome next).trans failed⟩

theorem fails_differ (difference : Mismatch) (bytes : List UInt8) :
    Fails (differ difference : Reader value) bytes := ⟨_, rfl⟩

/-- A reader that takes nothing off and gives a value, if there is one. -/
def offer : Option value → Reader value
  | some result => return result
  | none => refuse

/-! ### Looking and taking -/

theorem peek?_eq (bytes : List UInt8) : peek? bytes = .ok (bytes.head?, bytes) := rfl

theorem drop_eq (bytes : List UInt8) : drop bytes = .ok ((), bytes.tail) := rfl

theorem peekAfterBlanks?_eq (bytes : List UInt8) : peekAfterBlanks? bytes =
    .ok ((bytes.dropWhile isBlank).head?, bytes.dropWhile isBlank) := rfl

theorem enoughSteps_eq (bytes : List UInt8) :
    enoughSteps bytes = .ok (2 * bytes.length + 2, bytes) := rfl

section

variable {blanks : List UInt8} {byte : UInt8} {rest : List UInt8}

/-- The first byte after blanks is seen. -/
theorem peekAfterBlanks?_of_blanks (blank : Blanks blanks) (solid : isBlank byte = false) :
    peekAfterBlanks? (blanks ++ byte :: rest) = .ok (some byte, byte :: rest) := by
  rw [peekAfterBlanks?_eq, blank.dropWhile, List.dropWhile_cons_of_neg (by rw [solid]; exact nofun)]
  rfl

/-- A value is looked for behind blanks. -/
theorem peekValue_of_blanks (blank : Blanks blanks) (solid : isBlank byte = false) :
    peekValue (blanks ++ byte :: rest) = .ok (byte, byte :: rest) :=
  bind_of_ok (peekAfterBlanks?_of_blanks blank solid) _

theorem peekValue_cons (solid : isBlank byte = false) :
    peekValue (byte :: rest) = .ok (byte, byte :: rest) :=
  peekValue_of_blanks Blanks.nil solid

end

/-- The letters of a word are taken off. -/
theorem word_map (letters : List Char) (rest : List UInt8) :
    word letters (letters.map byteOf ++ rest) = .ok ((), rest) := by
  induction letters with
  | nil => rfl
  | cons letter letters inductionHypothesis =>
    show (_ >>= fun _ => word letters) _ = _
    refine (bind_of_ok (?_ : _ = Except.ok ((), letters.map byteOf ++ rest)) _).trans
      inductionHypothesis
    refine (bind_of_ok (peek?_eq _) _).trans ?_
    show (if byteOf letter = byteOf letter then drop else refuse) _ = _
    rw [if_pos rfl]
    rfl

/-- Where there is a level left, what is inside it is read. -/
theorem nested_eq (levels : Nat) (inside : Nat → Reader value) :
    nested (levels + 2) inside = inside (levels + 1) :=
  if_neg (by omega)

/-! ### Punctuation -/

section

variable {blanks rest : List UInt8}

theorem colon_of_blanks (blank : Blanks blanks) :
    colon (blanks ++ byteOf ':' :: rest) = .ok ((), rest) :=
  (bind_of_ok (peekValue_of_blanks blank rfl) _).trans rfl

theorem endOfList_cons : endOfList (byteOf ']' :: rest) = .ok ((), rest) :=
  (bind_of_ok (peekValue_cons rfl) _).trans rfl

theorem endOfObject_cons : endOfObject (byteOf '\x7d' :: rest) = .ok ((), rest) :=
  (bind_of_ok (peekValue_cons rfl) _).trans rfl

end

end Reader

end SecretRenewal.Json
