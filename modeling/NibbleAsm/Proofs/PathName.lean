import NibbleAsm.CommandLine.PathName
import NibbleAsm.Proofs.Split

/-!
# Names with an extension

A name with an extension is a stem, a dot and the extension. The stem of such a name is what stands
in front of its last dot, so putting the same extension back gives the name again. The path with
another extension has the segments of the path in front of its name, less some that stay where they
are, and then the new name. So it starts where the path does. It keeps the name exactly if the name
had the extension before, and then it is no longer than the path.
-/
namespace NibbleAsm

namespace Utf8

/-- What is read as text is the encoding of the text. -/
theorem fromUTF8?_eq_some_iff {bytes : ByteArray} {text : String} :
    String.fromUTF8? bytes = some text ↔ bytes = text.toUTF8 := by
  rw [String.fromUTF8?]
  by_cases hvalid : bytes.IsValidUTF8
  · rw [dif_pos hvalid, Option.some.injEq]
    exact String.toByteArray_inj.symm
  · rw [dif_neg hvalid]
    simp only [reduceCtorEq, false_iff]
    rintro rfl
    exact hvalid text.isValidUTF8

theorem decode?_eq_some_iff {bytes : List UInt8} {text : String} :
    decode? bytes = some text ↔ bytes = encode text := by
  rw [decode?, fromUTF8?_eq_some_iff, encode, ByteArray.ext_iff]
  exact List.toArray_eq_iff

theorem encode_injective : Function.Injective encode := by
  intro first second h
  have hfirst := decode?_eq_some_iff.mpr h
  rw [decode?_eq_some_iff.mpr rfl, Option.some.injEq] at hfirst
  exact hfirst

theorem encode_eq_nil_iff {text : String} : encode text = [] ↔ text = "" := by
  have hempty : encode "" = [] := rfl
  rw [← hempty, encode_injective.eq_iff]

end Utf8

namespace PathName

theorem IsName.ne_nil {segment : List UInt8} (h : IsName segment) : segment ≠ [] := by
  rintro rfl
  exact absurd h.nontrivial (by decide)

/-- The text can stand behind the last dot of a name. -/
structure IsExtension (extension : String) : Prop where
  ne_empty : extension ≠ ""
  no_slash : slash ∉ Utf8.encode extension
  no_dot : dot ∉ Utf8.encode extension

/-- The name that consists of a stem and an extension. -/
def withStem (stem extension : String) : List UInt8 :=
  Utf8.encode (stem ++ "." ++ extension)

theorem withStem_eq (stem extension : String) :
    withStem stem extension = Utf8.encode stem ++ dot :: Utf8.encode extension := by
  rw [withStem, Utf8.encode_text_append, Utf8.encode_text_append, List.append_assoc]
  rfl

/-- What ends in an extension does not consist of dots. -/
theorem IsExtension.isName_withStem {extension : String} (h : IsExtension extension)
    (stem : String) : IsName (withStem stem extension) := by
  have hne : Utf8.encode extension ≠ [] := by
    simpa [Utf8.encode_eq_nil_iff] using h.ne_empty
  obtain ⟨byte, hbyte⟩ := List.exists_mem_of_ne_nil _ hne
  have hmem : byte ∈ withStem stem extension := by simp [withStem_eq, hbyte]
  have hdot : byte ≠ dot := ne_of_mem_of_not_mem hbyte h.no_dot
  constructor
  · rw [isTrivial, Bool.or_eq_false_iff, beq_eq_false_iff_ne, beq_eq_false_iff_ne]
    refine ⟨List.ne_nil_of_mem hmem, fun hsingle => ?_⟩
    exact hdot (by simpa [hsingle] using hmem)
  · intro hup
    exact hdot (by simpa [hup] using hmem)

/-- The last segment of the path is a stem with the extension behind it. -/
def HasExtension (path : PathName) (extension : String) : Prop :=
  ∃ stem, stem ≠ "" ∧ path.segments.getLast? = some (withStem stem extension)

theorem stem_ne_nil {name : List UInt8} (h : name ≠ []) : stem name ≠ [] := by
  rw [stem]
  split
  · exact h
  · rename_i hbefore
    simpa using hbefore

theorem mem_of_mem_stem {name : List UInt8} {byte : UInt8} (h : byte ∈ stem name) :
    byte ∈ name := by
  rw [stem] at h
  split at h
  · exact h
  · rw [List.mem_reverse] at h
    exact List.mem_reverse.mp (List.mem_of_mem_drop h)

/-- The stem ends before the last dot. -/
theorem IsExtension.stem_withStem {name extension : String} (hextension : IsExtension extension)
    (hname : name ≠ "") : stem (withStem name extension) = Utf8.encode name := by
  have hreverse : (withStem name extension).reverse =
      (Utf8.encode extension).reverse ++ dot :: (Utf8.encode name).reverse := by
    simp [withStem_eq]
  have htake : (withStem name extension).reverse.takeWhile (· != dot) =
      (Utf8.encode extension).reverse := by
    rw [hreverse, List.takeWhile_append_of_pos]
    · simp
    · intro byte hbyte
      simpa using ne_of_mem_of_not_mem (List.mem_reverse.mp hbyte) hextension.no_dot
  have hdrop : (withStem name extension).reverse.drop ((Utf8.encode extension).reverse.length + 1) =
      (Utf8.encode name).reverse := by
    rw [hreverse, ← List.singleton_append, ← List.append_assoc]
    exact List.drop_left' (by simp)
  rw [stem, htake, hdrop, List.reverse_reverse, if_neg]
  simpa [Utf8.encode_eq_nil_iff] using hname

theorem IsExtension.newStem_withStem {name extension : String} (hextension : IsExtension extension)
    (hname : name ≠ "") : newStem (withStem name extension) = name := by
  rw [newStem, if_pos (hextension.isName_withStem name), hextension.stem_withStem hname,
    Utf8.decode?_eq_some_iff.mpr rfl]
  rfl

/-- The new stem is the stem of a name, if that is text. -/
theorem newStem_eq_or (segment : List UInt8) :
    newStem segment = "out" ∨ IsName segment ∧ stem segment = Utf8.encode (newStem segment) := by
  rw [newStem]
  by_cases hname : IsName segment
  · rw [if_pos hname]
    cases hdecode : Utf8.decode? (stem segment) with
    | none => exact .inl rfl
    | some text => exact .inr ⟨hname, Utf8.decode?_eq_some_iff.mp hdecode⟩
  · rw [if_neg hname]
    exact .inl rfl

theorem newStem_ne_empty (segment : List UInt8) : newStem segment ≠ "" := by
  intro hempty
  rcases newStem_eq_or segment with hout | ⟨hname, hstem⟩
  · rw [hempty] at hout
    exact absurd hout (by decide)
  · rw [hempty, Utf8.encode_eq_nil_iff.mpr rfl] at hstem
    exact stem_ne_nil hname.ne_nil hstem

theorem slash_not_mem_encode_newStem {segment : List UInt8} (h : slash ∉ segment) :
    slash ∉ Utf8.encode (newStem segment) := by
  rcases newStem_eq_or segment with hout | ⟨-, hstem⟩
  · rw [hout]
    decide
  · rw [← hstem]
    intro hmem
    exact h (mem_of_mem_stem hmem)

theorem slash_not_mem_of_mem_segments {path : PathName} {segment : List UInt8}
    (h : segment ∈ path.segments) : slash ∉ segment := by
  intro hmem
  exact absurd (Text.cut_eq_false_of_mem_splitWhere h hmem) (by decide)

/-- Segments without slashes are the segments of their path. -/
theorem segments_ofSegments {pieces : List (List UInt8)} (hpieces : ∀ piece ∈ pieces, slash ∉ piece)
    (hne : pieces ≠ []) : (ofSegments pieces).segments = pieces := by
  rw [segments, ofSegments]
  apply Text.splitWhere_intercalate (by decide) _ hne
  intro piece hpiece byte hbyte
  simpa using ne_of_mem_of_not_mem hbyte (hpieces piece hpiece)

theorem segments_ne_nil (path : PathName) : path.segments ≠ [] :=
  Text.splitWhere_ne_nil _ path

theorem ofSegments_segments (path : PathName) : ofSegments path.segments = path := by
  rw [ofSegments, segments, Text.splitWhere_eq_splitOnP]
  exact List.intercalate_splitOn slash

theorem ofSegments_cons (piece : List UInt8) {pieces : List (List UInt8)} (hne : pieces ≠ []) :
    ofSegments (piece :: pieces) = piece ++ slash :: ofSegments pieces := by
  obtain ⟨second, others, rfl⟩ := List.exists_cons_of_ne_nil hne
  rw [ofSegments, List.intercalate_cons_cons, List.append_assoc]
  rfl

theorem ofSegments_sublist {pieces others : List (List UInt8)} (h : pieces.Sublist others)
    (hne : pieces ≠ []) : (ofSegments pieces).Sublist (ofSegments others) := by
  induction h with
  | slnil => exact absurd rfl hne
  | @cons pieces others piece h ih =>
    have hothers : others ≠ [] := by
      rintro rfl
      exact hne (List.sublist_nil.mp h)
    rw [ofSegments_cons piece hothers]
    exact ((ih hne).trans (List.sublist_cons_self slash _)).trans
      (List.sublist_append_right piece _)
  | @cons_cons pieces others piece h ih =>
    by_cases hothers : others = []
    · obtain rfl := hothers
      rw [List.sublist_nil.mp h]
    · rw [ofSegments_cons piece hothers]
      by_cases hpieces : pieces = []
      · rw [hpieces, ofSegments, List.intercalate_singleton]
        exact List.sublist_append_left piece _
      · rw [ofSegments_cons piece hpieces]
        exact ((ih hpieces).cons_cons slash).append_left piece

/-- A path with some segments left out is no longer. -/
theorem length_le_of_sublist {path other : PathName} (h : path.segments.Sublist other.segments) :
    path.length ≤ other.length := by
  have hbytes := ofSegments_sublist h path.segments_ne_nil
  rw [ofSegments_segments, ofSegments_segments] at hbytes
  exact hbytes.length_le

/-- A path that ends in a name ends in no slash. -/
theorem reverse_dropWhile_slash {path : PathName} {start : List (List UInt8)} {last : List UInt8}
    (hsegments : path.segments = start ++ [last]) (hlast : last ≠ []) :
    (path.reverse.dropWhile (· == slash)).reverse = path := by
  rcases List.eq_nil_or_concat' path with rfl | ⟨before, byte, rfl⟩
  · rfl
  · by_cases hbyte : byte = slash
    · have hempty : segments (before ++ [byte]) = segments before ++ [[]] := by
        rw [segments, Text.splitWhere_append_cons (by simp [hbyte])]
        rfl
      rw [hempty] at hsegments
      exact absurd (List.singleton_inj.mp (List.append_inj' hsegments rfl).2).symm hlast
    · simp [hbyte]

/-- Only segments that stay where they are get dropped from the end. -/
theorem exists_dropTrivial (reversed : List (List UInt8)) :
    ∃ dropped, reversed = dropped ++ dropTrivial reversed ∧
      ∀ segment ∈ dropped, isTrivial segment = true := by
  induction reversed with
  | nil => exact ⟨[], rfl, by simp⟩
  | cons last before ih =>
    cases before with
    | nil => exact ⟨[], rfl, by simp⟩
    | cons second others =>
      rw [dropTrivial]
      split
      · rename_i htrivial
        obtain ⟨dropped, heq, hdropped⟩ := ih
        refine ⟨last :: dropped, by rw [List.cons_append, ← heq], ?_⟩
        intro segment hsegment
        rcases List.mem_cons.mp hsegment with rfl | hmem
        · exact htrivial
        · exact hdropped segment hmem
      · exact ⟨[], rfl, by simp⟩
      · simp

/-- The first segment of a path is never dropped. -/
theorem getLast?_dropTrivial (reversed : List (List UInt8)) :
    (dropTrivial reversed).getLast? = reversed.getLast? := by
  induction reversed with
  | nil => rfl
  | cons last before ih =>
    cases before with
    | nil => rfl
    | cons second others =>
      rw [dropTrivial, List.getLast?_cons_cons]
      · split
        · exact ih
        · rfl
      · simp

/-- The path in front of a name, with its trivial end dropped. -/
def keptStart (start : List (List UInt8)) : List (List UInt8) :=
  (dropTrivial start.reverse).reverse

theorem exists_keptStart (start : List (List UInt8)) :
    ∃ dropped, start = keptStart start ++ dropped ∧
      ∀ segment ∈ dropped, isTrivial segment = true := by
  obtain ⟨dropped, hreversed, hdropped⟩ := exists_dropTrivial start.reverse
  refine ⟨dropped.reverse, ?_, ?_⟩
  · rw [keptStart, ← List.reverse_append, ← hreversed, List.reverse_reverse]
  · intro segment hsegment
    exact hdropped segment (List.mem_reverse.mp hsegment)

theorem head?_keptStart (start : List (List UInt8)) :
    (keptStart start).head? = start.head? := by
  rw [keptStart, List.head?_reverse, getLast?_dropTrivial, List.getLast?_reverse]

section

variable {path : PathName} {start : List (List UInt8)} {last : List UInt8}
  (hsegments : path.segments = start ++ [last])
include hsegments

theorem slash_not_mem_of_segments : ∀ segment ∈ start ++ [last], slash ∉ segment := by
  intro segment hsegment
  exact slash_not_mem_of_mem_segments (hsegments ▸ hsegment)

/-- A path starts at the root if an empty segment stands in front of its last one. -/
theorem isAbsolute_iff : path.isAbsolute = true ↔ start.head? = some [] := by
  have hown := slash_not_mem_of_segments hsegments
  have hpath : path = ofSegments (start ++ [last]) := by
    rw [← hsegments, ofSegments_segments]
  rw [isAbsolute, beq_iff_eq]
  cases start with
  | nil =>
    have hlast : path = last := by
      rw [hpath, List.nil_append, ofSegments, List.intercalate_singleton]
    rw [hlast, List.head?_nil]
    simp only [reduceCtorEq, iff_false]
    intro hhead
    exact hown last (by simp) (List.mem_of_mem_head? hhead)
  | cons first others =>
    rw [hpath, List.cons_append, ofSegments_cons first (by simp), List.head?_cons,
      Option.some.injEq]
    cases first with
    | nil => simp
    | cons byte bytes =>
      have hbyte : byte ≠ slash := by
        rintro rfl
        exact hown (slash :: bytes) (by simp) (by simp)
      simp [hbyte]

/-- The name stays the same exactly if it had the extension before. -/
theorem IsExtension.withStem_newStem_eq_iff {extension : String}
    (hextension : IsExtension extension) :
    withStem (newStem last) extension = last ↔ path.HasExtension extension := by
  have hname : path.segments.getLast? = some last := by simp [hsegments]
  rw [HasExtension, hname]
  constructor
  · intro hsame
    exact ⟨newStem last, newStem_ne_empty last, by rw [hsame]⟩
  · rintro ⟨name, hne, hlast⟩
    obtain rfl := Option.some.inj hlast
    rw [hextension.newStem_withStem hne]

variable (hlast : isTrivial last = false)
include hlast

theorem splitLast_of_segments : splitLast path = (last, keptStart start) := by
  have hreverse : path.segments.reverse = last :: start.reverse := by simp [hsegments]
  have hdrop : dropTrivial (last :: start.reverse) = last :: start.reverse := by
    cases start.reverse with
    | nil => rfl
    | cons second others => simp [dropTrivial, hlast]
  rw [splitLast, hreverse, hdrop]
  rfl

/-- The segments of the path with another extension. -/
theorem IsExtension.segments_withExtension {extension : String}
    (hextension : IsExtension extension) :
    (path.withExtension extension).segments =
      keptStart start ++ [withStem (newStem last) extension] := by
  have hown := slash_not_mem_of_segments hsegments
  have hpath : path.withExtension extension =
      ofSegments (keptStart start ++ [withStem (newStem last) extension]) := by
    rw [withExtension, splitLast_of_segments hsegments hlast]
    rfl
  rw [hpath]
  apply segments_ofSegments _ (by simp)
  intro segment hsegment
  rcases List.mem_append.mp hsegment with hkept | hname
  · obtain ⟨dropped, hstart, -⟩ := exists_keptStart start
    apply hown
    rw [hstart]
    simp [hkept]
  · obtain rfl := List.mem_singleton.mp hname
    have hstem := slash_not_mem_encode_newStem (hown last (by simp))
    have hdot : slash ≠ dot := by decide
    simp [withStem_eq, hstem, hextension.no_slash, hdot]

theorem IsExtension.isAbsolute_withExtension {extension : String}
    (hextension : IsExtension extension) :
    (path.withExtension extension).isAbsolute = path.isAbsolute := by
  have hnew := hextension.segments_withExtension hsegments hlast
  rw [Bool.eq_iff_iff, isAbsolute_iff hnew, isAbsolute_iff hsegments, head?_keptStart]

end

end PathName

end NibbleAsm
