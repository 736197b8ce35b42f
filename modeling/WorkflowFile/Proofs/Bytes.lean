import Mathlib.Data.List.Basic
import WorkflowFile.Proofs.Text
import WorkflowFile.Text.Bytes

/-!
# Shown bytes

* `Text.first?_eq_some_iff`: a character is read from its own bytes.
* `Text.shown_induction`: bytes are shown character by character, where some that are no character
  make one replacement character.
* `Text.shown_encode`: the bytes of a text are shown as the text, and `Text.eq_encode_of_shown`
  says that no others are, unless a replacement character is shown.
* `Text.subset_of_mem_shown`: any other character that is shown is there in the bytes.
* `Text.split_bytes`: the bytes of a text are cut at slashes where the text is.
-/

namespace WorkflowFile

namespace Text

variable {c : Char} {bytes : List UInt8} {text : List Char}

/-! ## Bytes of characters -/

/-- A byte of a character that has more than one is 128 or more. -/
lemma le_of_mem_encodeChar (wide : 127 < c.val.toNat) :
    ∀ byte ∈ String.utf8EncodeChar c, 128 ≤ byte.toNat := by
  unfold String.utf8EncodeChar
  simp only
  rw [if_neg (by omega)]
  split_ifs
  · simp
    omega
  · simp
    omega
  · simp
    omega

/-- A byte below 128 is a character of its own. -/
lemma encodeChar_of_lt {byte : UInt8} (listed : byte ∈ String.utf8EncodeChar c)
    (small : byte.toNat < 128) : String.utf8EncodeChar c = [byte] ∧ c = Char.ofUInt8 byte := by
  by_cases wide : 127 < c.val.toNat
  · have := le_of_mem_encodeChar wide byte listed
    omega
  · have alone : String.utf8EncodeChar c = [UInt8.ofNat c.val.toNat] := by
      rw [String.utf8EncodeChar, if_pos (by omega)]
    rw [alone, List.mem_singleton] at listed
    refine ⟨listed ▸ alone, Char.ext (UInt32.toNat_inj.1 ?_)⟩
    rw [listed]
    show c.val.toNat = (UInt8.ofNat c.val.toNat).toUInt32.toNat
    rw [UInt8.toNat_toUInt32, UInt8.toNat_ofNat']
    omega

/-- A character is read from its own bytes, whatever follows. -/
lemma first?_eq_some_iff :
    first? bytes = some c ↔ ∃ rest, bytes = String.utf8EncodeChar c ++ rest := by
  unfold first?
  constructor
  · intro read
    obtain ⟨rest, same⟩ := ByteArray.exists_of_utf8DecodeChar?_eq_some read
    have listed := congrArg (fun array => array.data.toList) same
    simp only [ByteArray.data_append, Array.toList_append, List.toList_data_toByteArray] at listed
    exact ⟨_, listed⟩
  · rintro ⟨rest, rfl⟩
    rw [List.toByteArray_append, ByteArray.utf8DecodeChar?_utf8EncodeChar_append]

/-! ## Shown bytes -/

/-- What is shown without the first bytes is what the others are shown as. -/
lemma shownFrom_eq (skip : Nat) (bytes : List UInt8) :
    shownFrom skip bytes = shown (bytes.drop skip) := by
  induction bytes generalizing skip with
  | nil => cases skip <;> rfl
  | cons byte bytes ih =>
    cases skip with
    | zero => rfl
    | succ skip => exact ih skip

/-- The bytes of a character are shown as the character. -/
lemma shown_append (c : Char) (rest : List UInt8) :
    shown (String.utf8EncodeChar c ++ rest) = c :: shown rest := by
  obtain ⟨byte, behind, same⟩ := List.exists_cons_of_ne_nil (String.utf8EncodeChar_ne_nil (c := c))
  have read : first? (byte :: (behind ++ rest)) = some c :=
    first?_eq_some_iff.2 ⟨rest, by rw [same, List.cons_append]⟩
  have size : c.utf8Size - 1 = behind.length := by
    rw [← String.length_utf8EncodeChar, same, List.length_cons, Nat.add_sub_cancel]
  rw [same, List.cons_append, shown, shownFrom, read]
  simp only [shownFrom_eq, size, List.drop_left]

/-- Bytes that start with no character are shown as a replacement for some of them, and the
others. -/
lemma shown_of_first?_eq_none {byte : UInt8} (h : first? (byte :: bytes) = none) :
    ∃ stump rest, byte :: bytes = stump ++ rest ∧ stump ≠ [] ∧
      shown (byte :: bytes) = replacement :: shown rest := by
  refine ⟨byte :: bytes.take (fitting (ranges byte) bytes),
    bytes.drop (fitting (ranges byte) bytes), ?_, List.cons_ne_nil _ _, ?_⟩
  · rw [List.cons_append, List.take_append_drop]
  · rw [shown, shownFrom, h]
    simp only [shownFrom_eq]

/-- What holds of no bytes, and with some bytes also with a character or with a replacement in
front, holds of all bytes and what is shown of them. -/
theorem shown_induction {motive : List UInt8 → List Char → Prop} (nil : motive [] [])
    (char : ∀ c rest, motive rest (shown rest) →
      motive (String.utf8EncodeChar c ++ rest) (c :: shown rest))
    (stump : ∀ stump rest, stump ≠ [] → motive rest (shown rest) →
      motive (stump ++ rest) (replacement :: shown rest))
    (bytes : List UInt8) : motive bytes (shown bytes) := by
  match hbytes : bytes with
  | [] => exact nil
  | byte :: behind =>
    cases read : first? (byte :: behind) with
    | some c =>
      obtain ⟨rest, same⟩ := first?_eq_some_iff.1 read
      have shorter : rest.length < bytes.length := by
        rw [hbytes, same, List.length_append, String.length_utf8EncodeChar]
        have := c.utf8Size_pos
        omega
      rw [same, shown_append]
      exact char c rest (shown_induction nil char stump rest)
    | none =>
      obtain ⟨dropped, rest, same, some_byte, shown_eq⟩ := shown_of_first?_eq_none read
      have shorter : rest.length < bytes.length := by
        rw [hbytes, same, List.length_append]
        have := List.length_pos_of_ne_nil some_byte
        omega
      rw [shown_eq, same]
      exact stump dropped rest some_byte (shown_induction nil char stump rest)
termination_by bytes.length
decreasing_by all_goals simpa [hbytes] using shorter

-- two bytes of a character that has four make one replacement, and bytes that begin none one each
example : shown [0xF0, 0x9F, 0x41, 0xFF, 0x80, 0xC3, 0xA9]
    = ['\uFFFD', 'A', '\uFFFD', '\uFFFD', 'é'] := by decide

/-- The bytes of a text are shown as the text. -/
theorem shown_encode (text : List Char) : shown (encode text) = text := by
  induction text with
  | nil => rfl
  | cons c text ih => rw [encode, List.flatMap_cons, shown_append, ← encode, ih]

/-- Bytes that are shown without a replacement are those of the text that is shown. -/
theorem eq_encode_of_shown (whole : replacement ∉ shown bytes) : bytes = encode (shown bytes) := by
  induction bytes using shown_induction with
  | nil => rfl
  | char c rest ih =>
    rw [List.mem_cons, not_or] at whole
    rw [encode, List.flatMap_cons, ← encode, ← ih whole.2]
  | stump stump rest some_byte ih => exact absurd List.mem_cons_self whole

/-- A character that is shown is there in the bytes, unless it is a replacement. -/
theorem subset_of_mem_shown (listed : c ∈ shown bytes) (kept : c ≠ replacement) :
    String.utf8EncodeChar c ⊆ bytes := by
  induction bytes using shown_induction with
  | nil => cases listed
  | char first rest ih =>
    rcases List.mem_cons.1 listed with rfl | listed
    · exact List.subset_append_left _ _
    · exact List.subset_append_of_subset_right _ (ih listed)
  | stump stump rest some_byte ih =>
    rcases List.mem_cons.1 listed with rfl | listed
    · exact absurd rfl kept
    · exact List.subset_append_of_subset_right _ (ih listed)

/-- Nothing is shown for no bytes only. -/
lemma shown_eq_nil_iff : shown bytes = [] ↔ bytes = [] := by
  constructor
  · intro empty
    have whole : replacement ∉ shown bytes := empty ▸ List.not_mem_nil
    rw [eq_encode_of_shown whole, empty]
    rfl
  · rintro rfl
    rfl

/-! ## Bytes as characters -/

/-- A byte is known by the character with its number. -/
lemma toUInt8_ofUInt8 (byte : UInt8) : (Char.ofUInt8 byte).toUInt8 = byte := by
  show byte.toUInt32.toUInt8 = byte
  rw [UInt8.toUInt8_toUInt32]

/-- Bytes are known by the characters with their numbers. -/
lemma gather_spread (bytes : List UInt8) : gather (spread bytes) = bytes := by
  rw [gather, spread, List.map_map, List.map_id'']
  exact toUInt8_ofUInt8

/-- Characters that have the numbers of bytes are those of some of the bytes. -/
lemma exists_spread_of_subset {piece : List Char} (h : piece ⊆ spread bytes) :
    ∃ part, piece = spread part := by
  refine ⟨gather piece, ?_⟩
  rw [spread, gather, List.map_map, List.map_congr_left, List.map_id]
  intro c listed
  obtain ⟨byte, -, rfl⟩ := List.mem_map.1 (h listed)
  rw [Function.comp_apply, toUInt8_ofUInt8, id]

/-- A text is known by its bytes. -/
lemma shown_gather_bytes (text : List Char) : shown (gather (Text.bytes text)) = text := by
  rw [Text.bytes, gather_spread, shown_encode]

lemma bytes_injective : Function.Injective Text.bytes := by
  intro text other same
  rw [← shown_gather_bytes text, same, shown_gather_bytes]

/-- Only a slash has the byte of a slash. -/
lemma slash_notMem_bytes (one : '/' ∉ text) : '/' ∉ Text.bytes text := by
  rw [Text.bytes, spread, encode, List.mem_map]
  rintro ⟨byte, listed, slash⟩
  obtain ⟨c, from_text, listed⟩ := List.mem_flatMap.1 listed
  have small : byte.toNat < 128 := by
    rw [← toUInt8_ofUInt8 byte, slash]
    decide
  rw [(encodeChar_of_lt listed small).2, slash] at from_text
  exact one from_text

/-- The bytes of a first character come first. -/
lemma bytes_cons (c : Char) (text : List Char) :
    Text.bytes (c :: text) = Text.bytes [c] ++ Text.bytes text := by
  simp [Text.bytes, encode, spread]

/-- The bytes of a text are cut at slashes where the text is. -/
theorem split_bytes (text : List Char) :
    split '/' (Text.bytes text) = (split '/' text).map Text.bytes := by
  induction text with
  | nil => rfl
  | cons c text ih =>
    by_cases cut : c = '/'
    · subst cut
      have chars : Text.bytes ('/' :: text) = [] ++ '/' :: Text.bytes text := rfl
      have pieces : split '/' ('/' :: text) = [] :: split '/' text := if_pos rfl
      rw [chars, split_append_cons, ih, pieces, List.map_cons]
      rfl
    · have one : '/' ∉ Text.bytes [c] := slash_notMem_bytes (by simpa using Ne.symm cut)
      obtain ⟨first, rest, pieces, together⟩ := split_append_of_notMem one (Text.bytes text)
      obtain ⟨piece, others, same⟩ := List.exists_cons_of_ne_nil (split_ne_nil '/' text)
      rw [ih, same, List.map_cons, List.cons.injEq] at pieces
      rw [bytes_cons, together, split, if_neg cut, same, consFirst, List.map_cons,
        bytes_cons c piece, pieces.1, pieces.2]

end Text

end WorkflowFile
