import Mathlib.Data.Nat.Notation
import Mathlib.Algebra.GroupWithZero.Nat

/-!
# UUIDs as text

`github.com/google/uuid` as far as it is needed: 128 bits, their text, and the reading
of a text. Nothing more is assumed of it than that a UUID is read back from its text
(`Uuid.Package`). `Uuid.canonical` is the form with hyphens, and reads no other.
-/

/-- `uuid.UUID`: 128 bits. -/
abbrev Uuid : Type := Fin (2 ^ 128)

namespace Uuid

/-- The package: `String` and `Parse`. -/
structure Package where
  string : Uuid → String
  parse : String → Option Uuid
  parse_string : ∀ u, parse (string u) = some u

/-! ## Hexadecimal digits -/

/-- The value of a hexadecimal digit. -/
def hexValue (c : Char) : Option Nat :=
  if '0' ≤ c ∧ c ≤ '9' then some (c.toNat - '0'.toNat)
  else if 'a' ≤ c ∧ c ≤ 'f' then some (c.toNat - 'a'.toNat + 10)
  else if 'A' ≤ c ∧ c ≤ 'F' then some (c.toNat - 'A'.toNat + 10)
  else none

/-- The last `n` digits of a number. -/
def hex : Nat → Nat → List Char
  | 0, _ => []
  | n + 1, u => hex n (u / 16) ++ [Nat.digitChar (u % 16)]

/-- The number that digits stand for. -/
def value (ds : List Char) : Option Nat :=
  ds.foldlM (fun u c => (hexValue c).map fun d => u * 16 + d) 0

theorem hexValue_digitChar : ∀ d : Fin 16, hexValue (Nat.digitChar d) = some d.val := by decide

theorem length_hex (n u : Nat) : (hex n u).length = n := by
  induction n generalizing u with
  | zero => rfl
  | succ n ih => rw [hex, List.length_append, ih, List.length_singleton]

theorem value_hex (n u : Nat) : value (hex n u) = some (u % 16 ^ n) := by
  induction n generalizing u with
  | zero => rw [Nat.pow_zero, Nat.mod_one]; rfl
  | succ n ih =>
    have hdigit := hexValue_digitChar ⟨u % 16, Nat.mod_lt _ (by decide)⟩
    have hsplit : u / 16 % 16 ^ n * 16 + u % 16 = u % 16 ^ (n + 1) := by
      rw [Nat.pow_succ, Nat.mul_comm (16 ^ n) 16, Nat.mod_mul]
      omega
    show (hex n (u / 16) ++ [Nat.digitChar (u % 16)]).foldlM _ 0 = _
    rw [List.foldlM_append, show List.foldlM _ 0 (hex n (u / 16)) = _ from ih (u / 16)]
    simp only [Option.bind_eq_bind, Option.bind_some, List.foldlM_cons, List.foldlM_nil]
    rw [hdigit]
    exact congrArg some hsplit

/-! ## Hyphens -/

/-- Digits in groups of the given lengths, with a hyphen after each, and the others. -/
def group : List Nat → List Char → List Char
  | [], ds => ds
  | n :: ns, ds => ds.take n ++ '-' :: group ns (ds.drop n)

/-- The digits, if the hyphens are in their places. -/
def ungroup : List Nat → List Char → Option (List Char)
  | [], ds => some ds
  | n :: ns, ds => match ds.drop n with
    | '-' :: rest => (ungroup ns rest).map (ds.take n ++ ·)
    | _ => none

theorem ungroup_group {ns : List Nat} {ds : List Char} (h : ns.sum ≤ ds.length) :
    ungroup ns (group ns ds) = some ds := by
  induction ns generalizing ds with
  | nil => rfl
  | cons n ns ih =>
    rw [List.sum_cons] at h
    have hn : (ds.take n).length = n := by rw [List.length_take]; omega
    have hdrop : (ds.take n ++ '-' :: group ns (ds.drop n)).drop n =
        '-' :: group ns (ds.drop n) := List.drop_left' hn
    have htake : (ds.take n ++ '-' :: group ns (ds.drop n)).take n = ds.take n :=
      List.take_left' hn
    have hrest : ungroup ns (group ns (ds.drop n)) = some (ds.drop n) := by
      refine ih ?_
      rw [List.length_drop]
      omega
    unfold group ungroup
    rw [hdrop, htake]
    simp only [hrest, Option.map_some, List.take_append_drop]

/-! ## The text -/

/-- Where the hyphens are. -/
def groups : List Nat := [8, 4, 4, 4]

/-- `UUID.String`. -/
def toText (u : Uuid) : String := String.ofList (group groups (hex 32 u))

/-- `uuid.Parse`, for the form that `String` gives. -/
def ofText (s : String) : Option Uuid :=
  match ungroup groups s.toList with
  | none => none
  | some ds =>
    if ds.length = 32 then (value ds).bind fun u => if h : u < 2 ^ 128 then some ⟨u, h⟩ else none
    else none

theorem ofText_toText (u : Uuid) : ofText (toText u) = some u := by
  have hungroup : ungroup groups (toText u).toList = some (hex 32 u) := by
    rw [toText, String.toList_ofList]
    refine ungroup_group ?_
    rw [length_hex]
    decide
  have hvalue : value (hex 32 u) = some u.val := by
    rw [value_hex, Nat.mod_eq_of_lt]
    exact Nat.lt_of_lt_of_eq u.isLt (by decide)
  unfold ofText
  rw [hungroup]
  simp only [length_hex, if_true, hvalue, Option.bind_some]
  rw [dif_pos u.isLt]

/-- The form with hyphens. -/
def canonical : Package := ⟨toText, ofText, ofText_toText⟩

end Uuid
