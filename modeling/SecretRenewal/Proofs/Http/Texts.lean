/-
This file says what an answer reads like to whoever wants its status in words and its body as text.
A status is a number and the phrase that is listed for it. A body begins with a mark of its
encoding, or else it is in the encoding that is named, or else in UTF-8; what is wrong in it is
replaced, and what is right is kept as it is.
-/
import SecretRenewal.Http.Message
import SecretRenewal.Proofs.Text.Leniency
import SecretRenewal.Proofs.Text.Units

namespace SecretRenewal.Http

open Text

/-! ### Statuses in words -/

/-- The phrase of a status: the one that is listed for it, or words that say that none is. -/
inductive IsPhrase (status : Nat) : String → Prop
  | listed {phrase : String} (isListed : (status, phrase) ∈ phrases) : IsPhrase status phrase
  | unlisted (notListed : ∀ phrase, (status, phrase) ∉ phrases) :
      IsPhrase status "<unknown status code>"

/-- No status has two phrases. -/
theorem nodup_phrases : (phrases.map Prod.fst).Nodup := by decide

theorem lookup_phrases_iff {status : Nat} {phrase : String} :
    phrases.lookup status = some phrase ↔ (status, phrase) ∈ phrases := by
  refine ⟨fun found => ?_, fun isListed => ?_⟩
  · obtain ⟨before, after, split, -⟩ := List.lookup_eq_some_iff.mp found
    rw [split]
    exact List.mem_append_right before List.mem_cons_self
  · obtain ⟨before, after, split⟩ := List.append_of_mem isListed
    have once := nodup_phrases
    rw [split, List.map_append, List.map_cons, List.nodup_append] at once
    obtain ⟨-, -, apart⟩ := once
    refine List.lookup_eq_some_iff.mpr ⟨before, after, split, fun other member => ?_⟩
    have differs := apart other.1 (List.mem_map_of_mem member) status List.mem_cons_self
    exact bne_iff_ne.mpr differs.symm

/-- Every status has one phrase. -/
theorem isPhrase_iff {status : Nat} {phrase : String} : IsPhrase status phrase ↔
    (phrases.lookup status).getD "<unknown status code>" = phrase := by
  cases found : phrases.lookup status with
  | none =>
    have notListed : ∀ phrase, (status, phrase) ∉ phrases := fun phrase isListed => by
      rw [lookup_phrases_iff.mpr isListed] at found
      cases found
    refine ⟨fun isPhrase => ?_, fun same => same ▸ .unlisted notListed⟩
    cases isPhrase with
    | listed isListed => exact absurd isListed (notListed phrase)
    | unlisted => rfl
  | some known =>
    have isKnown : (status, known) ∈ phrases := lookup_phrases_iff.mp found
    refine ⟨fun isPhrase => ?_, fun same => same ▸ .listed isKnown⟩
    cases isPhrase with
    | listed isListed =>
      rw [lookup_phrases_iff.mpr isListed] at found
      exact (Option.some.inj found).symm
    | unlisted notListed => exact absurd isKnown (notListed known)

/-- A status in words is its number and its phrase. -/
theorem exists_isPhrase (status : Nat) :
    ∃ phrase, IsPhrase status phrase ∧ statusText status = toString status ++ " " ++ phrase :=
  ⟨_, isPhrase_iff.mpr rfl, rfl⟩

/-! ### Bodies as texts -/

/-- A body that says itself how it is to be read. -/
def HasMark (bytes : List UInt8) : Prop :=
  [0xef, 0xbb, 0xbf] <+: bytes ∨ [0xff, 0xfe] <+: bytes ∨ [0xfe, 0xff] <+: bytes

/-- The text of a body. What wins is its mark, then the encoding that is named, then UTF-8. -/
inductive IsTextOf (encoding : Option Encoding) : List UInt8 → String → Prop
  | marked {rest : List UInt8} {chars : List Char} (reads : Replaces rest chars) :
      IsTextOf encoding (0xef :: 0xbb :: 0xbf :: rest) (String.ofList chars)
  | lesserFirst {rest : List UInt8} {chars : List Char} (reads : ReplacesUnits false rest chars) :
      IsTextOf encoding (0xff :: 0xfe :: rest) (String.ofList chars)
  | greaterFirst {rest : List UInt8} {chars : List Char} (reads : ReplacesUnits true rest chars) :
      IsTextOf encoding (0xfe :: 0xff :: rest) (String.ofList chars)
  | named {bytes : List UInt8} {other : Encoding} (unmarked : ¬HasMark bytes)
      (isNamed : encoding = some other) : IsTextOf encoding bytes (other.decode bytes)
  | unnamed {bytes : List UInt8} {chars : List Char} (unmarked : ¬HasMark bytes)
      (isNone : encoding = none) (reads : Replaces bytes chars) :
      IsTextOf encoding bytes (String.ofList chars)

variable {encoding : Option Encoding} {bytes : List UInt8}

theorem decodeMarked_of_unmarked (unmarked : ¬HasMark bytes) (otherwise : List UInt8 → String) :
    decodeMarked otherwise bytes = otherwise bytes := by
  unfold decodeMarked
  split
  · exact absurd (.inl ⟨_, rfl⟩) unmarked
  · exact absurd (.inr (.inl ⟨_, rfl⟩)) unmarked
  · exact absurd (.inr (.inr ⟨_, rfl⟩)) unmarked
  · rfl

/-- Every body has one text. -/
theorem isTextOf_iff {text : String} :
    IsTextOf encoding bytes text ↔ textOf encoding bytes = text := by
  refine ⟨fun isText => ?_, fun same => same ▸ ?_⟩
  · cases isText with
    | marked reads => exact congrArg String.ofList (replaces_iff.mp reads)
    | lesserFirst reads => exact congrArg String.ofList ((replacesUnits_iff false).mp reads)
    | greaterFirst reads => exact congrArg String.ofList ((replacesUnits_iff true).mp reads)
    | named unmarked isNamed =>
      subst isNamed
      exact decodeMarked_of_unmarked unmarked _
    | unnamed unmarked isNone reads =>
      subst isNone
      exact (decodeMarked_of_unmarked unmarked _).trans
        (congrArg String.ofList (replaces_iff.mp reads))
  · unfold textOf decodeMarked
    split
    · exact .marked (replaces_iff.mpr rfl)
    · exact .lesserFirst ((replacesUnits_iff false).mpr rfl)
    · exact .greaterFirst ((replacesUnits_iff true).mpr rfl)
    · next notFirst notSecond notThird =>
      have unmarked : ¬HasMark bytes := by
        rintro (⟨rest, rfl⟩ | ⟨rest, rfl⟩ | ⟨rest, rfl⟩)
        · exact notFirst rest rfl
        · exact notSecond rest rfl
        · exact notThird rest rfl
      cases encoding with
      | none => exact .unnamed unmarked rfl (replaces_iff.mpr rfl)
      | some other => exact .named unmarked rfl

/-- A body without a mark whose encoding is not named and that is a text is read as this text. -/
theorem textOf_encode {text : String} (unmarked : ¬HasMark (encode text)) :
    textOf none (encode text) = text :=
  (decodeMarked_of_unmarked unmarked _).trans (decodeReplacing_encode text)

end SecretRenewal.Http
