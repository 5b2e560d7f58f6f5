/-!
# Written numbers

Numbers are written in decimal or in upper-case hexadecimal. Operands are read as bare hexadecimal
digits of either case. Reading saturates at the largest 64-bit value, so an overlong operand is a
number out of range and not a malformed one. `exactHex?` is the same reading without the limit.
-/
namespace NibbleAsm.Numeral

/-- The upper-case digit character of a value below sixteen. -/
def digitChar (d : Nat) : Char :=
  if d < 10 then Char.ofNat (48 + d) else Char.ofNat (55 + d)

/-- The digits of `n`, most significant first. Zero has one digit. -/
def digits (base n : Nat) : List Nat :=
  if 2 ≤ base ∧ base ≤ n then digits base (n / base) ++ [n % base] else [n]
termination_by n
decreasing_by exact Nat.div_lt_self (by omega) (by omega)

/-- The positional value of a list of digits, most significant first. -/
def value (base : Nat) (ds : List Nat) : Nat :=
  ds.foldl (fun total d => total * base + d) 0

@[simp] theorem value_append_singleton (base : Nat) (ds : List Nat) (d : Nat) :
    value base (ds ++ [d]) = value base ds * base + d := by
  simp [value]

/-- Writing a number loses nothing. -/
theorem value_digits (base n : Nat) : value base (digits base n) = n := by
  fun_induction digits base n with
  | case1 n h ih =>
    rw [value_append_singleton, ih]
    exact Nat.div_add_mod' n base
  | case2 n h => simp [value]

/-- Every digit is below the base. -/
theorem digits_lt {base n d : Nat} (hbase : 2 ≤ base) (hd : d ∈ digits base n) : d < base := by
  fun_induction digits base n with
  | case1 n h ih =>
    rcases List.mem_append.mp hd with hleft | hright
    · exact ih hleft
    · rw [List.mem_singleton.mp hright]
      exact Nat.mod_lt n (by omega)
  | case2 n h =>
    rw [List.mem_singleton.mp hd]
    omega

/-- Decimal text. -/
def decimal (n : Nat) : String :=
  String.ofList ((digits 10 n).map digitChar)

/-- Decimal text of an integer, with a minus sign where needed. -/
def signedDecimal : Int → String
  | .ofNat n => decimal n
  | .negSucc n => "-" ++ decimal (n + 1)

/-- Upper-case hexadecimal text with zeros in front up to `width` digits. -/
def hexAtLeast (width n : Nat) : String :=
  let ds := (digits 16 n).map digitChar
  String.ofList (List.replicate (width - ds.length) '0' ++ ds)

/-- Upper-case hexadecimal text without zeros in front. -/
def hex (n : Nat) : String :=
  hexAtLeast 1 n

/-- Lower-case hexadecimal text with zeros in front up to `width` digits. -/
def lowerHexAtLeast (width n : Nat) : String :=
  let ds := (digits 16 n).map (fun d => (digitChar d).toLower)
  String.ofList (List.replicate (width - ds.length) '0' ++ ds)

/-- The value of a hexadecimal digit of either case. -/
def hexDigit? (c : Char) : Option Nat :=
  if '0' ≤ c ∧ c ≤ '9' then some (c.toNat - 48)
  else if 'A' ≤ c ∧ c ≤ 'F' then some (c.toNat - 55)
  else if 'a' ≤ c ∧ c ≤ 'f' then some (c.toNat - 87)
  else none

/-- The largest value that reading an operand can give. -/
def limit : Nat := 0xFFFFFFFFFFFFFFFF

/-- Append one digit, keeping both the shifted value and the sum at most `limit`. -/
def pushSaturating (total d : Nat) : Nat :=
  min limit (min limit (total * 16) + d)

/-- Read a non-empty run of hexadecimal digits, saturating at `limit`. -/
def readHex? (text : String) : Option Nat :=
  match text.toList with
  | [] => none
  | cs => cs.foldlM (fun total c => (hexDigit? c).map (pushSaturating total)) 0

/-- The exact value of a non-empty run of hexadecimal digits. -/
def exactHex? (text : String) : Option Nat :=
  match text.toList with
  | [] => none
  | cs => (cs.mapM hexDigit?).map (value 16)

end NibbleAsm.Numeral
