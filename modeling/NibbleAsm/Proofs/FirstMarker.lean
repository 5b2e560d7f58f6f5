import NibbleAsm.Proofs.Comment
import NibbleAsm.Proofs.Utf8Order

/-!
# The cut at the first marker

A line is searched for both markers apart, and the smaller of the two places is where it is cut. One
reading from left to right that stops where a comment opens cuts it at the same place. The bytes of
a line can be searched in place of its characters: a byte of a longer character is never a byte of a
marker, so in the bytes too a marker is found only where a character begins.
-/
namespace NibbleAsm

open String (utf8EncodeChar)

namespace Utf8

theorem leading_eq_iff {v w : ℕ} (hw : w ≤ 0x7F) : leading v = w ↔ v = w := by
  unfold leading following
  split_ifs <;> omega

/-- Only a character below 128 begins with a byte below 128, and the byte is its code point. -/
theorem ofNat_leading_eq_iff {c d : Char} (hd : d.val.toNat ≤ 0x7F) :
    UInt8.ofNat (leading c.val.toNat) = UInt8.ofNat d.val.toNat ↔ c = d := by
  have hsize : d.val.toNat < UInt8.size := by
    rw [UInt8.size]
    omega
  rw [← UInt8.toNat_inj, UInt8.toNat_ofNat_of_lt' (leading_lt c), UInt8.toNat_ofNat_of_lt' hsize,
    leading_eq_iff hd, UInt32.toNat_inj, ← Char.ext_iff]

theorem head?_flatMap_encodeChar {d : Char} (hd : d.val.toNat ≤ 0x7F) (cs : List Char) :
    (cs.flatMap utf8EncodeChar).head? = some (UInt8.ofNat d.val.toNat) ↔ cs.head? = some d := by
  cases cs with
  | nil => simp
  | cons c cs =>
    rw [List.flatMap_cons, encodeChar_eq_cons, List.cons_append, List.head?_cons, List.head?_cons,
      Option.some.injEq, Option.some.injEq, ofNat_leading_eq_iff hd]

/-- The bytes behind the first one are at least 128. -/
theorem le_toNat_of_mem_trailing {count v : ℕ} {byte : UInt8} (h : byte ∈ trailing count v) :
    0x80 ≤ byte.toNat := by
  induction count with
  | zero => cases h
  | succ count ih =>
    rcases List.mem_cons.mp h with rfl | hmem
    · have hdigit : v / 64 ^ count % 64 < 64 := Nat.mod_lt _ (by decide)
      rw [UInt8.toNat_ofNat_of_lt' (by rw [UInt8.size]; omega)]
      omega
    · exact ih hmem

end Utf8

namespace Comment

section

variable {α : Type} {opens : List α → Prop}

/-- The text is cut in front of the first place where something opens, or nothing opens and all of
it is kept. -/
structure CutFirst (opens : List α → Prop) (text kept rest : List α) : Prop where
  parts : text = kept ++ rest
  stops : rest = [] ∨ opens rest
  first : ∀ i < kept.length, ¬ opens (text.drop i)

theorem CutFirst.cons {a : α} {text kept rest : List α} (h : CutFirst opens text kept rest)
    (ha : ¬ opens (a :: text)) : CutFirst opens (a :: text) (a :: kept) rest where
  parts := by rw [h.parts, List.cons_append]
  stops := h.stops
  first := by
    intro i hi
    cases i with
    | zero => exact ha
    | succ i => exact h.first i (Nat.lt_of_succ_lt_succ hi)

/-- Read from left to right, and stop where something opens. -/
def scanUntil (opens : List α → Prop) [DecidablePred opens] : List α → List α
  | [] => []
  | a :: text => if opens (a :: text) then [] else a :: scanUntil opens text

/-- The scan cuts at the first place. -/
theorem exists_cutFirst_scanUntil (opens : List α → Prop) [DecidablePred opens] (text : List α) :
    ∃ rest, CutFirst opens text (scanUntil opens text) rest := by
  induction text with
  | nil => exact ⟨[], rfl, Or.inl rfl, by simp [scanUntil]⟩
  | cons a text ih =>
    rw [scanUntil]
    split_ifs with ha
    · exact ⟨a :: text, rfl, Or.inr ha, by simp⟩
    · obtain ⟨rest, hrest⟩ := ih
      exact ⟨rest, hrest.cons ha⟩

/-- Elements at which nothing can open are kept. -/
theorem scanUntil_append_of_forall [DecidablePred opens] {block : List α}
    (hblock : ∀ a ∈ block, ∀ text, ¬ opens (a :: text)) (text : List α) :
    scanUntil opens (block ++ text) = block ++ scanUntil opens text := by
  induction block with
  | nil => rfl
  | cons a block ih =>
    have ha := hblock a List.mem_cons_self (block ++ text)
    rw [List.cons_append, scanUntil, if_neg ha, ih (fun b hb => hblock b (by simp [hb])),
      List.cons_append]

end

theorem strip_eq_scanUntil (line : List Char) : strip line = scanUntil Opens line := by
  induction line with
  | nil => rfl
  | cons c line ih => rw [strip_cons, scanUntil, ih]

/-- A comment begins at the first byte: the bytes of a marker stand there. -/
def OpensBytes (bytes : List UInt8) : Prop :=
  Utf8.encode ";" <+: bytes ∨ Utf8.encode "//" <+: bytes

instance : DecidablePred OpensBytes :=
  fun _ => inferInstanceAs (Decidable (_ ∨ _))

theorem opensBytes_cons_iff {byte : UInt8} {bytes : List UInt8} :
    OpensBytes (byte :: bytes) ↔ byte = 0x3B ∨ byte = 0x2F ∧ bytes.head? = some 0x2F := by
  have hsemicolon : Utf8.encode ";" = [0x3B] := by decide +kernel
  have hslashes : Utf8.encode "//" = [0x2F, 0x2F] := by decide +kernel
  rw [OpensBytes, hsemicolon, hslashes]
  cases bytes <;> simp [List.cons_prefix_cons, eq_comm]

/-- The bytes begin with a marker exactly if the text does. -/
theorem opensBytes_flatMap_iff {text : List Char} :
    OpensBytes (text.flatMap utf8EncodeChar) ↔ Opens text := by
  cases text with
  | nil => decide +kernel
  | cons c text =>
    rw [List.flatMap_cons, Utf8.encodeChar_eq_cons, List.cons_append, opensBytes_cons_iff,
      opens_cons_iff]
    refine or_congr (Utf8.ofNat_leading_eq_iff (d := ';') (by decide)) ?_
    rw [show (0x2F : UInt8) = UInt8.ofNat '/'.val.toNat from rfl,
      Utf8.ofNat_leading_eq_iff (by decide)]
    refine and_congr_right ?_
    rintro rfl
    exact Utf8.head?_flatMap_encodeChar (by decide) text

/-- The scan of the bytes keeps the bytes of what the scan of the characters keeps. -/
theorem scanUntil_flatMap_encodeChar (text : List Char) :
    scanUntil OpensBytes (text.flatMap utf8EncodeChar) =
      (scanUntil Opens text).flatMap utf8EncodeChar := by
  induction text with
  | nil => rfl
  | cons c text ih =>
    have hopens : OpensBytes ((c :: text).flatMap utf8EncodeChar) ↔ Opens (c :: text) :=
      opensBytes_flatMap_iff
    rw [List.flatMap_cons, Utf8.encodeChar_eq_cons, List.cons_append] at hopens
    rw [scanUntil, List.flatMap_cons, Utf8.encodeChar_eq_cons, List.cons_append, scanUntil,
      if_congr hopens rfl rfl]
    split_ifs
    · rfl
    · rw [scanUntil_append_of_forall, ih, List.flatMap_cons, Utf8.encodeChar_eq_cons,
        List.cons_append]
      intro byte hbyte bytes
      have hle := Utf8.le_toNat_of_mem_trailing hbyte
      rw [opensBytes_cons_iff]
      rintro (rfl | ⟨rfl, -⟩)
      · exact absurd hle (by decide)
      · exact absurd hle (by decide)

theorem toList_stripText (line : String) :
    (stripText line).toList = scanUntil Opens line.toList := by
  rw [stripText, String.toList_ofList, strip_eq_scanUntil]

theorem encode_stripText (line : String) :
    Utf8.encode (stripText line) = scanUntil OpensBytes (Utf8.encode line) := by
  rw [Utf8.encode_eq_flatMap, Utf8.encode_eq_flatMap, toList_stripText,
    scanUntil_flatMap_encodeChar]

/-- Characters and bytes are cut at the same place, which is in front of a character. -/
theorem exists_cutFirst_stripText (line : String) :
    ∃ rest : String, CutFirst Opens line.toList (stripText line).toList rest.toList ∧
      CutFirst OpensBytes (Utf8.encode line) (Utf8.encode (stripText line)) (Utf8.encode rest) := by
  obtain ⟨rest, hchars⟩ := exists_cutFirst_scanUntil Opens line.toList
  obtain ⟨bytes, hbytes⟩ := exists_cutFirst_scanUntil OpensBytes (Utf8.encode line)
  rw [← toList_stripText] at hchars
  rw [← encode_stripText] at hbytes
  have hline : line = stripText line ++ String.ofList rest := by
    rw [← String.toList_inj, String.toList_append, String.toList_ofList]
    exact hchars.parts
  have hrest : bytes = Utf8.encode (String.ofList rest) := by
    have hparts := hbytes.parts
    rw [congrArg Utf8.encode hline, Utf8.encode_text_append] at hparts
    exact (List.append_cancel_left hparts).symm
  refine ⟨String.ofList rest, ?_, hrest ▸ hbytes⟩
  rwa [String.toList_ofList]

/-- A line is cut in front of its first marker, its bytes in the same place as its characters. What
is kept holds no marker and is not cut again. -/
theorem stripText_cuts_at_first_marker (line : String) :
    (∃ rest : String,
      CutFirst Opens line.toList (stripText line).toList rest.toList ∧
      CutFirst OpensBytes (Utf8.encode line) (Utf8.encode (stripText line)) (Utf8.encode rest)) ∧
    ¬ Marked (stripText line).toList ∧
    (stripText line).toList = scanUntil Opens line.toList ∧
    stripText (stripText line) = stripText line := by
  have hunmarked : ¬ Marked (stripText line).toList := by
    rw [stripText, String.toList_ofList]
    exact not_marked_strip line.toList
  refine ⟨exists_cutFirst_stripText line, hunmarked, toList_stripText line, ?_⟩
  rw [← String.toList_inj, stripText, String.toList_ofList]
  exact strip_eq_self_iff.mpr hunmarked

/-- A slash in front of a marker is kept, and so are both bytes of the letter in front of it. -/
theorem stripText_cuts_behind_slash :
    stripText "é/;//" = "é/" ∧ stripText "é/" = "é/" ∧
    (∀ i < 3, ¬ OpensBytes ((Utf8.encode "é/;//").drop i)) ∧
    OpensBytes ((Utf8.encode "é/;//").drop 3) := by
  have hkept : stripText "é/;//" = "é/" := by decide +kernel
  have hlength : (Utf8.encode "é/").length = 3 := by decide +kernel
  obtain ⟨⟨rest, -, hbytes⟩, -, -, hagain⟩ := stripText_cuts_at_first_marker "é/;//"
  rw [hkept] at hagain hbytes
  have hfirst := hbytes.first
  rw [hlength] at hfirst
  exact ⟨hkept, hagain, hfirst, by decide +kernel⟩

end Comment

end NibbleAsm
