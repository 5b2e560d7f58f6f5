import NibbleAsm.CommandLine.Format
import NibbleAsm.Proofs.JsonReading
import NibbleAsm.Proofs.LabelTable
import Mathlib.Data.Fin.Basic

/-!
# Output files are faithful

Both formats can be read back. The digits of a hexadecimal file are the units of the program, and a
JSON file holds its units and its labels, each label once and in the order of the names. Files in
one format are therefore equal exactly if the programs agree in what the format holds.
-/
namespace NibbleAsm

theorem Nibble.mapM_hexDigit?_digits (units : List Nibble) :
    (units.map digit).mapM Numeral.hexDigit? = some (units.map Fin.val) := by
  have hdigits : ∀ d ∈ units.map Fin.val, d < 16 := by
    intro d hd
    obtain ⟨unit, -, rfl⟩ := List.mem_map.mp hd
    exact unit.isLt
  rw [← Numeral.mapM_hexDigit?_map_digitChar hdigits, List.map_map]
  rfl

/-- The digit of a unit is in upper case. -/
theorem Nibble.upperCase_digit (unit : Nibble) :
    unit.digit.isDigit = true ∨ 'A' ≤ unit.digit ∧ unit.digit ≤ 'F' := by
  revert unit
  decide

theorem Nibble.map_val_injective : Function.Injective (List.map (Fin.val : Nibble → ℕ)) :=
  List.map_injective_iff.mpr Fin.val_injective

namespace Format

/-- The units of a hexadecimal file: its digits up to the line feed at its end. -/
def readHex? (text : String) : Option (List ℕ) :=
  if text.toList.getLast? = some '\n' then text.toList.dropLast.mapM Numeral.hexDigit? else none

/-- The units and the labels of a JSON file. -/
def readJson? (text : String) : Option (List ℕ × List (String × ℕ)) := do
  let rest ← Json.expect "\x7b\"codes\":" text.toList
  let (codes, rest) ← Json.readArray Json.readNatural rest
  let rest ← Json.expect ",\"labels\":" rest
  let (labels, rest) ← Json.readObject Json.readNatural rest
  let rest ← Json.expect "\x7d\n" rest
  if rest.isEmpty then some (codes, labels) else none

theorem toList_render_hex (assembly : Assembly) :
    (hex.render assembly).toList = assembly.codes.map Nibble.digit ++ ['\n'] := by
  simp [render, Nibble.digitText]

theorem readHex?_render (assembly : Assembly) :
    readHex? (hex.render assembly) = some (assembly.codes.map Fin.val) := by
  rw [readHex?, toList_render_hex, List.getLast?_concat, if_pos rfl, List.dropLast_concat,
    Nibble.mapM_hexDigit?_digits]

theorem toList_render_json (assembly : Assembly) :
    (json.render assembly).toList = "\x7b\"codes\":".toList ++
      ((Json.array ((assembly.codes.map Fin.val).map Json.natural)).toList ++
        (",\"labels\":".toList ++ ((labelsJson assembly.labels).toList ++ "\x7d\n".toList))) := by
  have hcodes : Json.string "codes" = "\"codes\"" := by decide
  have hlabels : Json.string "labels" = "\"labels\"" := by decide
  simp [render, Json.object, hcodes, hlabels, Report.unitsJson, Function.comp_def]

/-- A JSON file holds the units of the program and every label once, in the order of the names. -/
theorem readJson?_render (assembly : Assembly) :
    readJson? (json.render assembly) =
      some (assembly.codes.map Fin.val, assembly.labels.entries) := by
  have hcodes : ∀ rest : List Char, (∀ c ∈ rest.head?, c.isDigit = false) →
      Json.readArray Json.readNatural
          ((Json.array ((assembly.codes.map Fin.val).map Json.natural)).toList ++ rest) =
        some (assembly.codes.map Fin.val, rest) :=
    Json.inverts_array Json.inverts_natural Json.exists_cons_natural _
  have hlabels : Json.readObject Json.readNatural
      ((labelsJson assembly.labels).toList ++ "\x7d\n".toList) =
        some (assembly.labels.entries, "\x7d\n".toList) :=
    Json.inverts_object Json.inverts_natural _ _ (by simp)
  have hend : Json.expect "\x7d\n" "\x7d\n".toList = some [] := by
    simpa only [List.append_nil] using Json.expect_append "\x7d\n" []
  rw [readJson?, toList_render_json, Json.expect_append, Option.bind_eq_bind, Option.bind_some,
    hcodes _ (by simp)]
  simp only [Option.bind_eq_bind, Option.bind_some, Json.expect_append, hlabels, hend]
  rfl

/-- Programs have the same hexadecimal file exactly if they have the same code: one digit in upper
case for each unit, and a line feed. They have the same JSON file exactly if they also have the same
labels; it holds each label once, also if the table is made anew in the order of the addresses. -/
theorem render_faithful (assembly assembly' : Assembly) :
    (hex.render assembly = hex.render assembly' ↔ assembly.codes = assembly'.codes) ∧
    (∃ digits : List Char, (hex.render assembly).toList = digits ++ ['\n'] ∧
      digits.mapM Numeral.hexDigit? = some (assembly.codes.map Fin.val) ∧
      ∀ digit ∈ digits, digit.isDigit = true ∨ 'A' ≤ digit ∧ digit ≤ 'F') ∧
    (json.render assembly = json.render assembly' ↔ assembly.codes = assembly'.codes ∧
      ∀ name, assembly.labels.find? name = assembly'.labels.find? name) ∧
    ∃ members, readJson? (json.render assembly) = some (assembly.codes.map Fin.val, members) ∧
      members.length = assembly.labels.size ∧ members.Pairwise (fun a b => a.1 < b.1) ∧
      (∀ name address,
        (name, address) ∈ members ↔ assembly.labels.find? name = some address) ∧
      labelsJson (.ofList assembly.labels.byAddress) = labelsJson assembly.labels := by
  refine ⟨⟨?_, ?_⟩, ?_, ⟨?_, ?_⟩, ?_⟩
  · intro h
    have hread := congrArg readHex? h
    rw [readHex?_render, readHex?_render, Option.some.injEq] at hread
    exact Nibble.map_val_injective hread
  · intro h
    rw [render, render, h]
  · refine ⟨assembly.codes.map Nibble.digit, toList_render_hex assembly,
      Nibble.mapM_hexDigit?_digits assembly.codes, ?_⟩
    intro digit hdigit
    obtain ⟨unit, -, rfl⟩ := List.mem_map.mp hdigit
    exact unit.upperCase_digit
  · intro h
    have hread := congrArg readJson? h
    rw [readJson?_render, readJson?_render, Option.some.injEq, Prod.mk.injEq] at hread
    exact ⟨Nibble.map_val_injective hread.1, fun name => congrArg (List.lookup name) hread.2⟩
  · rintro ⟨hcodes, hlabels⟩
    rw [render, render, hcodes, LabelTable.ext_find? hlabels]
  · refine ⟨assembly.labels.entries, readJson?_render assembly, rfl, assembly.labels.increasing,
      ?_, ?_⟩
    · intro name address
      exact LabelTable.find?_eq_some_iff.symm
    · rw [LabelTable.ofList_byAddress]

/-- Labels that differ in a quote and a backslash have the same code and different JSON files. -/
theorem render_faithful_quotes :
    hex.render ⟨[8, 15], .ofList [("\"", 2)], [⟨0, 0, .tia, 8, .immediate 15⟩], 2⟩ =
      hex.render ⟨[8, 15], .ofList [("\\", 2)], [⟨0, 0, .tia, 8, .immediate 15⟩], 2⟩ ∧
    json.render ⟨[8, 15], .ofList [("\"", 2)], [⟨0, 0, .tia, 8, .immediate 15⟩], 2⟩ ≠
      json.render ⟨[8, 15], .ofList [("\\", 2)], [⟨0, 0, .tia, 8, .immediate 15⟩], 2⟩ := by
  obtain ⟨hhex, -, hjson, -⟩ := render_faithful
    ⟨[8, 15], .ofList [("\"", 2)], [⟨0, 0, .tia, 8, .immediate 15⟩], 2⟩
    ⟨[8, 15], .ofList [("\\", 2)], [⟨0, 0, .tia, 8, .immediate 15⟩], 2⟩
  refine ⟨hhex.mpr rfl, ?_⟩
  intro h
  have hfind := (hjson.mp h).2 "\""
  exact absurd hfind (by decide)

end Format

end NibbleAsm
