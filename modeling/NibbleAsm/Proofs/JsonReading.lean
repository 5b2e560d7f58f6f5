import NibbleAsm.Proofs.Numeral
import NibbleAsm.Text.Json

/-!
# Reading JSON text

A reader takes a value from the beginning of a text and gives what is left. It inverts a writer if
it gives back every value that was written. What follows a value matters for numbers only: they end
where their digits end, so the rest of the text must not begin with a digit. Numbers and strings are
read back, and with the readers of items and members so are the arrays and objects made of them.
-/
namespace NibbleAsm.Json

/-- Takes a value from the beginning of a text. -/
abbrev Reader (α : Type) := List Char → Option (α × List Char)

/-- The reader gives back what was written and leaves what follows it. -/
def Inverts {α : Type} (read : Reader α) (write : α → String) : Prop :=
  ∀ (value : α) (rest : List Char), (∀ c ∈ rest.head?, c.isDigit = false) →
    read ((write value).toList ++ rest) = some (value, rest)

/-- Take a given text. -/
def expect (text : String) (cs : List Char) : Option (List Char) :=
  text.toList.isPrefixOf? cs

@[simp] theorem expect_append (text : String) (rest : List Char) :
    expect text (text.toList ++ rest) = some rest :=
  List.isPrefixOf?_eq_some_iff_append_eq.mpr rfl

/-- Take a run of decimal digits. -/
def readNatural : Reader ℕ := fun cs =>
  let digits := cs.takeWhile Char.isDigit
  if digits.isEmpty then none else some (Numeral.ofDecimal digits, cs.dropWhile Char.isDigit)

theorem inverts_natural : Inverts readNatural natural := by
  intro n rest hrest
  have hdigits : ∀ c ∈ (natural n).toList, c.isDigit = true := fun c =>
    Numeral.isDigit_of_mem_decimal
  have hnone : rest.takeWhile Char.isDigit = [] ∧ rest.dropWhile Char.isDigit = rest := by
    cases rest with
    | nil => exact ⟨rfl, rfl⟩
    | cons c rest => simp [hrest c rfl]
  have htake : ((natural n).toList ++ rest).takeWhile Char.isDigit = (natural n).toList := by
    rw [List.takeWhile_append_of_pos hdigits, hnone.1, List.append_nil]
  have hdrop : ((natural n).toList ++ rest).dropWhile Char.isDigit = rest := by
    rw [List.dropWhile_append_of_pos hdigits, hnone.2]
  have hne : (natural n).toList.isEmpty = false :=
    List.isEmpty_eq_false_iff.mpr (Numeral.toList_decimal_ne_nil n)
  have hvalue : Numeral.ofDecimal (natural n).toList = n := Numeral.ofDecimal_decimal n
  simp only [readNatural, htake, hdrop, hne, hvalue]
  rfl

/-- The character that the letter of an escape stands for. -/
def unescape? : Char → Option Char
  | '"' => some '"'
  | '\\' => some '\\'
  | '/' => some '/'
  | 'b' => some '\x08'
  | 'f' => some '\x0c'
  | 'n' => some '\n'
  | 'r' => some '\r'
  | 't' => some '\t'
  | _ => none

/-- Take the characters of a string up to its closing quote. -/
def readChars : Reader (List Char)
  | [] => none
  | '"' :: rest => some ([], rest)
  | '\\' :: 'u' :: a :: b :: c :: d :: rest => do
    let digits ← [a, b, c, d].mapM Numeral.hexDigit?
    let (cs, rest) ← readChars rest
    some (Char.ofNat (Numeral.value 16 digits) :: cs, rest)
  | '\\' :: letter :: rest => do
    let c ← unescape? letter
    let (cs, rest) ← readChars rest
    some (c :: cs, rest)
  | c :: rest => do
    let (cs, rest) ← if c = '\\' ∨ c.toNat < 0x20 then none else readChars rest
    some (c :: cs, rest)

/-- The four digits of a control character. -/
theorem toList_lowerHexAtLeast_of_lt {n : ℕ} (h : n < 0x20) :
    (Numeral.lowerHexAtLeast 4 n).toList =
      ['0', '0', (Numeral.digitChar (n / 16)).toLower, (Numeral.digitChar (n % 16)).toLower] := by
  have hall : ∀ n : Fin 0x20, (Numeral.lowerHexAtLeast 4 n.val).toList =
      ['0', '0', (Numeral.digitChar (n.val / 16)).toLower,
        (Numeral.digitChar (n.val % 16)).toLower] := by decide +kernel
  exact hall ⟨n, h⟩

theorem hexDigit?_toLower {d : ℕ} (h : d < 16) :
    Numeral.hexDigit? (Numeral.digitChar d).toLower = some d := by
  have hall : ∀ d : Fin 16, Numeral.hexDigit? (Numeral.digitChar d.val).toLower = some d.val := by
    decide
  exact hall ⟨d, h⟩

section

variable {rest cs after : List Char} (hrest : readChars rest = some (cs, after))
include hrest

theorem readChars_letter {letter c : Char} (h : unescape? letter = some c) :
    readChars ('\\' :: letter :: rest) = some (c :: cs, after) := by
  have hletter : letter ≠ 'u' := by
    rintro rfl
    cases h
  rw [readChars.eq_def]
  simp [hletter, h, hrest]

theorem readChars_control {c : Char} (h : c.toNat < 0x20) :
    readChars ('\\' :: 'u' :: ((Numeral.lowerHexAtLeast 4 c.toNat).toList ++ rest)) =
      some (c :: cs, after) := by
  have hhigh := hexDigit?_toLower (show c.toNat / 16 < 16 by omega)
  have hlow := hexDigit?_toLower (show c.toNat % 16 < 16 by omega)
  have hzero : Numeral.hexDigit? '0' = some 0 := by decide
  have hvalue : Numeral.value 16 [0, 0, c.toNat / 16, c.toNat % 16] = c.toNat := by
    simp only [Numeral.value, List.foldl_cons, List.foldl_nil]
    omega
  rw [toList_lowerHexAtLeast_of_lt h]
  simp [readChars, hzero, hhigh, hlow, hvalue, hrest]

theorem readChars_verbatim {c : Char} (hquote : c ≠ '"') (hbackslash : c ≠ '\\')
    (hcontrol : ¬ c.toNat < 0x20) : readChars (c :: rest) = some (c :: cs, after) := by
  rw [readChars.eq_def]
  simp [hbackslash, hcontrol, hrest]

/-- An escaped character is read as the character. -/
theorem readChars_escapedChar (c : Char) :
    readChars (escapedChar c ++ rest) = some (c :: cs, after) := by
  unfold escapedChar
  split_ifs with hquote hbackslash hb hf hn hr ht hcontrol
  · exact readChars_letter hrest (by rw [hquote]; rfl)
  · exact readChars_letter hrest (by rw [hbackslash]; rfl)
  · exact readChars_letter hrest (by rw [hb]; rfl)
  · exact readChars_letter hrest (by rw [hf]; rfl)
  · exact readChars_letter hrest (by rw [hn]; rfl)
  · exact readChars_letter hrest (by rw [hr]; rfl)
  · exact readChars_letter hrest (by rw [ht]; rfl)
  · exact readChars_control hrest hcontrol
  · exact readChars_verbatim hrest hquote hbackslash hcontrol

end

theorem readChars_escaped (cs rest : List Char) :
    readChars (cs.flatMap escapedChar ++ '"' :: rest) = some (cs, rest) := by
  induction cs with
  | nil => simp [readChars]
  | cons c cs ih =>
    rw [List.flatMap_cons, List.append_assoc]
    exact readChars_escapedChar ih c

/-- Take a string between quotes. -/
def readString : Reader String := fun cs => do
  let rest ← expect "\"" cs
  let (cs, rest) ← readChars rest
  some (String.ofList cs, rest)

theorem inverts_string : Inverts readString string := by
  intro text rest _
  have htext : (string text).toList ++ rest =
      "\"".toList ++ (text.toList.flatMap escapedChar ++ '"' :: rest) := by
    simp [string]
  rw [htext, readString, expect_append]
  simp [readChars_escaped]

/-- Take a name and the value behind its colon. -/
def readMember {α : Type} (read : Reader α) : Reader (String × α) := fun cs => do
  let (name, rest) ← readString cs
  let rest ← expect ":" rest
  let (value, rest) ← read rest
  some ((name, value), rest)

/-- Take items with commas between them, at least one, and the character that closes them. -/
def readItems {α : Type} (close : Char) (read : Reader α) (cs : List Char) :
    Option (List α × List Char) :=
  match read cs with
  | some (item, c :: rest) =>
    if c = close then some ([item], rest)
    else if _ : c = ',' ∧ rest.length < cs.length then do
      let (items, rest) ← readItems close read rest
      some (item :: items, rest)
    else none
  | _ => none
termination_by cs.length

/-- Take items between an opening and a closing character. -/
def readSequence {α : Type} (start close : Char) (read : Reader α) : Reader (List α)
  | first :: second :: rest =>
    if first ≠ start then none
    else if second = close then some ([], rest)
    else readItems close read (second :: rest)
  | _ => none

/-- Take an array. -/
def readArray {α : Type} (read : Reader α) : Reader (List α) :=
  readSequence '[' ']' read

/-- Take an object. -/
def readObject {α : Type} (read : Reader α) : Reader (List (String × α)) :=
  readSequence '\x7b' '\x7d' (readMember read)

section

variable {α : Type} {read : Reader α} {write : α → String} (h : Inverts read write)
include h

theorem inverts_member :
    Inverts (readMember read) (fun member => string member.1 ++ ":" ++ write member.2) := by
  rintro ⟨name, value⟩ rest hrest
  have htext : (string name ++ ":" ++ write value).toList ++ rest =
      (string name).toList ++ (":".toList ++ ((write value).toList ++ rest)) := by
    simp
  have hname := inverts_string name (":".toList ++ ((write value).toList ++ rest)) (by simp)
  dsimp only
  rw [htext, readMember, hname]
  simp only [Option.bind_eq_bind, Option.bind_some, expect_append, h value rest hrest]

/-- Items with commas between them are read back, up to what closes them. -/
theorem readItems_intercalate {close : Char} (hcomma : close ≠ ',')
    (hdigit : close.isDigit = false) (rest : List Char) {items : List α} (hne : items ≠ []) :
    readItems close read ([','].intercalate (items.map (fun item => (write item).toList)) ++
      close :: rest) = some (items, rest) := by
  induction items with
  | nil => exact absurd rfl hne
  | cons item items ih =>
    cases items with
    | nil =>
      have hitem := h item (close :: rest) (by simpa using hdigit)
      rw [List.map_singleton, List.intercalate_singleton, readItems, hitem]
      simp
    | cons second others =>
      have hothers := ih (List.cons_ne_nil second others)
      have htext :
          [','].intercalate ((item :: second :: others).map (fun item => (write item).toList)) =
            (write item).toList ++ ',' ::
              [','].intercalate ((second :: others).map (fun item => (write item).toList)) := by
        simp [List.intercalate_cons_cons]
      rw [htext, List.append_assoc, List.cons_append]
      generalize [','].intercalate ((second :: others).map (fun item => (write item).toList)) ++
        close :: rest = tail at hothers ⊢
      have hshorter : tail.length < (write item).toList.length + (tail.length + 1) := by omega
      rw [readItems, h item (',' :: tail) (by simp)]
      simp [hcomma.symm, hothers, hshorter]

theorem readSequence_intercalate (start : Char) {close : Char} (hcomma : close ≠ ',')
    (hdigit : close.isDigit = false)
    (hfirst : ∀ item, ∃ c rest, (write item).toList = c :: rest ∧ c ≠ close) (items : List α)
    (rest : List Char) :
    readSequence start close read (start ::
      ([','].intercalate (items.map (fun item => (write item).toList)) ++ close :: rest)) =
        some (items, rest) := by
  cases items with
  | nil => simp [readSequence]
  | cons item items =>
    have hitems := readItems_intercalate h hcomma hdigit rest (List.cons_ne_nil item items)
    obtain ⟨c, cs, hitem, hc⟩ := hfirst item
    -- What follows the opening character is the first item, which cannot be taken for the end.
    obtain ⟨tail, htail⟩ : ∃ tail, [','].intercalate ((item :: items).map
        (fun item => (write item).toList)) ++ close :: rest = c :: tail := by
      cases items <;> simp [hitem, List.intercalate_cons_cons]
    rw [htail] at hitems ⊢
    simp [readSequence, hc, hitems]

theorem inverts_array (hfirst : ∀ item, ∃ c rest, (write item).toList = c :: rest ∧ c ≠ ']') :
    Inverts (readArray read) (fun items => array (items.map write)) := by
  intro items rest _
  have hread := readSequence_intercalate h '[' (by decide) (by decide) hfirst items rest
  simpa [array, readArray, Function.comp_def] using hread

theorem inverts_object :
    Inverts (readObject read)
      (fun members => object (members.map (fun member => (member.1, write member.2)))) := by
  intro members rest _
  have hfirst : ∀ member : String × α, ∃ c rest,
      (string member.1 ++ ":" ++ write member.2).toList = c :: rest ∧ c ≠ '\x7d' := by
    intro member
    exact ⟨'"', member.1.toList.flatMap escapedChar ++ '"' :: ':' :: (write member.2).toList,
      by simp [string], by decide⟩
  have hread := readSequence_intercalate (inverts_member h) '\x7b' (by decide) (by decide) hfirst
    members rest
  simpa [object, readObject, Function.comp_def] using hread

end

theorem exists_cons_natural (n : ℕ) : ∃ c rest, (natural n).toList = c :: rest ∧ c ≠ ']' := by
  obtain ⟨c, rest, hcons⟩ := List.exists_cons_of_ne_nil (Numeral.toList_decimal_ne_nil n)
  refine ⟨c, rest, hcons, ?_⟩
  rintro rfl
  have hdigit := Numeral.isDigit_of_mem_decimal (hcons ▸ List.mem_cons_self)
  exact absurd hdigit (by decide)

end NibbleAsm.Json
