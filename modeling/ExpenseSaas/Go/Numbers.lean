import Mathlib.Data.List.TakeWhile
import Mathlib.Data.Char
import Mathlib.Data.List.Induction
import Mathlib.Tactic.Ring

/-!
# Numbers in Go's standard library

Two ways to read a decimal number out of a string. `strconv.ParseInt` with base 10
takes the whole string for the number (`parseInt_eq_some`), and `strconv.Atoi` is
the same where an `int` has 64 bits. `fmt.Sscanf` with `%d` skips spaces, takes as
many digits as there are, and does not look at what follows (`sscanInt_eq_some`).

A string is a list of code points here. A byte that is not part of one counts as
the replacement character, which is neither a space nor part of a number; that is
how `fmt` decodes it, and `strconv` refuses it as it refuses that character.
-/

namespace Go

/-! ## `strconv` -/

/-- The number that digits stand for. -/
def decimal (ds : List Char) : Nat := ds.foldl (fun n c => n * 10 + (c.toNat - '0'.toNat)) 0

/-- One digit or more. -/
def digits (ds : List Char) : Bool := !ds.isEmpty && ds.all Char.isDigit

/-- `strconv.ParseInt(s, 10, 64)`: no number, or one that is out of range, is an error. -/
def parseInt : List Char → Option Int
  | '-' :: ds => if digits ds && decimal ds ≤ 2 ^ 63 then some (-(decimal ds : Int)) else none
  | '+' :: ds => if digits ds && decimal ds < 2 ^ 63 then some (decimal ds : Int) else none
  | ds => if digits ds && decimal ds < 2 ^ 63 then some (decimal ds : Int) else none

/-- `strconv.Atoi`, with an `int` of 64 bits. -/
def atoi (s : List Char) : Option Int := parseInt s

/-- `s` is a number, and its value is `v`. -/
inductive Numeral : List Char → Int → Prop where
  | unsigned {ds} : digits ds = true → decimal ds < 2 ^ 63 → Numeral ds (decimal ds)
  | plus {ds} : digits ds = true → decimal ds < 2 ^ 63 → Numeral ('+' :: ds) (decimal ds)
  | minus {ds} : digits ds = true → decimal ds ≤ 2 ^ 63 → Numeral ('-' :: ds) (-(decimal ds : Int))

section

variable {s ds cs num rest sp : List Char} {v : Int} {c : Char}

theorem all_of_digits (h : digits ds = true) : ∀ c ∈ ds, c.isDigit = true := by
  unfold digits at h
  rw [Bool.and_eq_true] at h
  exact List.all_eq_true.mp h.2

/-- Digits begin with a digit. -/
theorem head_of_digits (h : digits (c :: cs) = true) : c.isDigit = true :=
  all_of_digits h c List.mem_cons_self

theorem not_digits_sign (hc : c.isDigit = false) : digits (c :: ds) ≠ true := by
  intro h
  rw [head_of_digits h] at hc
  cases hc

theorem parseInt_of_unsigned (hminus : ∀ ds, s ≠ '-' :: ds) (hplus : ∀ ds, s ≠ '+' :: ds) :
    parseInt s = if digits s && decimal s < 2 ^ 63 then some (decimal s : Int) else none := by
  unfold parseInt
  split
  · exact absurd rfl (hminus _)
  · exact absurd rfl (hplus _)
  · rfl

/-- **`ParseInt` reads the numbers**, and nothing else. -/
theorem parseInt_eq_some : parseInt s = some v ↔ Numeral s v := by
  constructor
  · intro h
    unfold parseInt at h
    split at h
    · split at h
      · rename_i hds
        rw [Bool.and_eq_true, decide_eq_true_eq] at hds
        cases h
        exact .minus hds.1 hds.2
      · cases h
    · split at h
      · rename_i hds
        rw [Bool.and_eq_true, decide_eq_true_eq] at hds
        cases h
        exact .plus hds.1 hds.2
      · cases h
    · split at h
      · rename_i hds
        rw [Bool.and_eq_true, decide_eq_true_eq] at hds
        cases h
        exact .unsigned hds.1 hds.2
      · cases h
  · intro h
    cases h with
    | unsigned hds hlt =>
      have hsign : ∀ c : Char, c.isDigit = false → ∀ ds, s ≠ c :: ds := by
        rintro c hc ds rfl
        exact not_digits_sign hc hds
      rw [parseInt_of_unsigned (hsign '-' (by decide)) (hsign '+' (by decide)), hds, decide_eq_true hlt]
      rfl
    | @plus ds hds hlt =>
      have hok : (digits ds && decide (decimal ds < 2 ^ 63)) = true := by rw [hds, decide_eq_true hlt]; rfl
      show (if (digits ds && decide (decimal ds < 2 ^ 63)) = true then some (decimal ds : Int) else none) = _
      rw [if_pos hok]
    | @minus ds hds hle =>
      have hok : (digits ds && decide (decimal ds ≤ 2 ^ 63)) = true := by rw [hds, decide_eq_true hle]; rfl
      show (if (digits ds && decide (decimal ds ≤ 2 ^ 63)) = true then some (-(decimal ds : Int)) else none) = _
      rw [if_pos hok]

/-! ## `fmt` -/

/-- The space characters of `fmt`. -/
def isSpace (c : Char) : Bool :=
  (0x0009 ≤ c.toNat && c.toNat ≤ 0x000d) || c.toNat = 0x0020 || c.toNat = 0x0085 || c.toNat = 0x00a0
    || c.toNat = 0x1680 || (0x2000 ≤ c.toNat && c.toNat ≤ 0x200a) || (0x2028 ≤ c.toNat && c.toNat ≤ 0x2029)
    || c.toNat = 0x202f || c.toNat = 0x205f || c.toNat = 0x3000

/-- `SkipSpace`, where a newline is not a space but an error, also after a carriage return. -/
def skipSpace : List Char → Option (List Char)
  | [] => some []
  | c :: cs => if c = '\n' then none else if isSpace c then skipSpace cs else some (c :: cs)

/-- `accept(sign)` and `scanNumber`: what is taken for the number. -/
def scanNumber : List Char → List Char
  | '+' :: cs => '+' :: cs.takeWhile Char.isDigit
  | '-' :: cs => '-' :: cs.takeWhile Char.isDigit
  | cs => cs.takeWhile Char.isDigit

/-- No more characters than these are read. -/
def hugeWid : Nat := 2 ^ 30

/-- `scanInt`, for `%d` and an `int` of 64 bits. -/
def scanInt (s : List Char) : Option Int := do
  let cs ← skipSpace s
  parseInt (scanNumber cs)

/-- `fmt.Sscanf(s, "%d", &v)`. -/
def sscanInt (s : List Char) : Option Int := scanInt (s.take hugeWid)

/-- `sp` is skipped. -/
def Spaces (sp : List Char) : Prop := ∀ c ∈ sp, isSpace c = true ∧ c ≠ '\n'

/-- The text does not go on with a digit. -/
def Ends (rest : List Char) : Prop := ∀ c ∈ rest.head?, c.isDigit = false

theorem skipSpace_append (hsp : Spaces sp) (hcs : ∀ c ∈ cs.head?, isSpace c = false) :
    skipSpace (sp ++ cs) = some cs := by
  induction sp with
  | nil =>
    cases cs with
    | nil => rfl
    | cons c cs =>
      have hc := hcs c rfl
      have hnewline : c ≠ '\n' := by
        rintro rfl
        exact absurd hc (by decide)
      show (if c = '\n' then none else if isSpace c then skipSpace cs else some (c :: cs)) = _
      rw [if_neg hnewline, hc]
      rfl
  | cons c sp ih =>
    obtain ⟨hc, hnewline⟩ := hsp c List.mem_cons_self
    show (if c = '\n' then none else if isSpace c then skipSpace (sp ++ cs) else some (c :: (sp ++ cs))) = _
    rw [if_neg hnewline, if_pos hc]
    exact ih fun x hx => hsp x (List.mem_cons_of_mem _ hx)

theorem exists_of_skipSpace (h : skipSpace s = some cs) : ∃ sp, s = sp ++ cs ∧ Spaces sp := by
  induction s with
  | nil =>
    cases h
    exact ⟨[], rfl, fun c hc => absurd hc List.not_mem_nil⟩
  | cons c s ih =>
    unfold skipSpace at h
    split at h
    · cases h
    · rename_i hnewline
      split at h
      · rename_i hc
        obtain ⟨sp, rfl, hsp⟩ := ih h
        refine ⟨c :: sp, rfl, fun x hx => ?_⟩
        rcases List.mem_cons.mp hx with rfl | hx
        · exact ⟨hc, hnewline⟩
        · exact hsp x hx
      · cases h
        exact ⟨[], rfl, fun c hc => absurd hc List.not_mem_nil⟩

theorem takeWhile_digits (hds : ∀ c ∈ ds, c.isDigit = true) (hrest : Ends rest) :
    (ds ++ rest).takeWhile Char.isDigit = ds := by
  rw [List.takeWhile_append_of_pos hds]
  cases rest with
  | nil => simp
  | cons c rest => simp [hrest c rfl]

theorem ends_dropWhile : Ends (cs.dropWhile Char.isDigit) := by
  intro c hc
  have hnot := List.head?_dropWhile_not Char.isDigit cs
  rw [hc] at hnot
  exact hnot

/-- What is not taken does not go on with a digit. -/
theorem exists_of_scanNumber : ∃ rest, cs = scanNumber cs ++ rest ∧ Ends rest := by
  have hsplit : ∀ ds : List Char, ds = ds.takeWhile Char.isDigit ++ ds.dropWhile Char.isDigit :=
    fun ds => List.takeWhile_append_dropWhile.symm
  unfold scanNumber
  split
  · rename_i ds
    exact ⟨_, congrArg (List.cons '+') (hsplit ds), ends_dropWhile⟩
  · rename_i ds
    exact ⟨_, congrArg (List.cons '-') (hsplit ds), ends_dropWhile⟩
  · exact ⟨_, hsplit cs, ends_dropWhile⟩

/-- A number is taken whole. -/
theorem Numeral.scanNumber_append (h : Numeral num v) (hrest : Ends rest) : scanNumber (num ++ rest) = num := by
  cases h with
  | unsigned hds hlt =>
    cases num with
    | nil => cases hds
    | cons c ds =>
      have hc := head_of_digits hds
      have hunsigned : scanNumber (c :: ds ++ rest) = (c :: ds ++ rest).takeWhile Char.isDigit := by
        unfold scanNumber
        split
        · rename_i heq
          cases heq
          cases hc
        · rename_i heq
          cases heq
          cases hc
        · rfl
      rw [hunsigned]
      exact takeWhile_digits (all_of_digits hds) hrest
  | plus hds hlt => exact congrArg (List.cons '+') (takeWhile_digits (all_of_digits hds) hrest)
  | minus hds hle => exact congrArg (List.cons '-') (takeWhile_digits (all_of_digits hds) hrest)

theorem not_isSpace_of_isDigit (hc : c.isDigit = true) : isSpace c = false := by
  have hrange : 48 ≤ c.toNat ∧ c.toNat ≤ 57 := by
    unfold Char.isDigit at hc
    rw [Bool.and_eq_true, decide_eq_true_eq, decide_eq_true_eq] at hc
    exact ⟨UInt32.le_iff_toNat_le.mp hc.1, UInt32.le_iff_toNat_le.mp hc.2⟩
  simp only [isSpace, Bool.or_eq_false_iff, Bool.and_eq_false_iff, decide_eq_false_iff_not]
  omega

/-- No number begins with a space. -/
theorem Numeral.head (h : Numeral num v) : ∀ c ∈ (num ++ rest).head?, isSpace c = false := by
  cases h with
  | unsigned hds hlt =>
    cases num with
    | nil => cases hds
    | cons x ds =>
      intro c hc
      cases hc
      exact not_isSpace_of_isDigit (head_of_digits hds)
  | plus hds hlt =>
    intro c hc
    cases hc
    decide
  | minus hds hle =>
    intro c hc
    cases hc
    decide

/--
**`Sscanf` reads a number that spaces may stand before**, and anything behind that
does not go on with a digit.
-/
theorem scanInt_eq_some : scanInt s = some v ↔
    ∃ sp num rest, s = sp ++ (num ++ rest) ∧ Spaces sp ∧ Numeral num v ∧ Ends rest := by
  unfold scanInt
  rw [Option.bind_eq_bind, Option.bind_eq_some_iff]
  constructor
  · rintro ⟨cs, hcs, hparse⟩
    obtain ⟨sp, rfl, hsp⟩ := exists_of_skipSpace hcs
    obtain ⟨rest, hrest, hends⟩ : ∃ rest, cs = scanNumber cs ++ rest ∧ Ends rest := exists_of_scanNumber
    exact ⟨sp, scanNumber cs, rest, by rw [← hrest], hsp, parseInt_eq_some.mp hparse, hends⟩
  · rintro ⟨sp, num, rest, rfl, hsp, hnum, hends⟩
    refine ⟨num ++ rest, skipSpace_append hsp hnum.head, ?_⟩
    rw [hnum.scanNumber_append hends]
    exact parseInt_eq_some.mpr hnum

theorem spaces_nil : Spaces [] := fun _ hc => absurd hc List.not_mem_nil

theorem ends_nil : Ends [] := by
  intro c hc
  cases hc

/-- A number is read as what it is. -/
theorem Numeral.scanInt (h : Numeral s v) : Go.scanInt s = some v :=
  scanInt_eq_some.mpr ⟨[], s, [], by simp, spaces_nil, h, ends_nil⟩

/-- In a number no other number is read. -/
theorem Numeral.whole {w : Int} (h : Numeral (sp ++ (num ++ rest)) v) (hsp : Spaces sp) (hnum : Numeral num w)
    (hends : Ends rest) : sp ++ (num ++ rest) = num := by
  have hskip : skipSpace (sp ++ (num ++ rest)) = some (num ++ rest) := skipSpace_append hsp hnum.head
  have hself : skipSpace (sp ++ (num ++ rest)) = some (sp ++ (num ++ rest)) := by
    have hhead : ∀ c ∈ ((sp ++ (num ++ rest)) ++ []).head?, isSpace c = false := h.head
    rw [List.append_nil] at hhead
    exact skipSpace_append spaces_nil hhead
  have heq : sp ++ (num ++ rest) = num ++ rest := Option.some.inj (hself.symm.trans hskip)
  have hscan := h.scanNumber_append ends_nil
  rw [List.append_nil, heq, hnum.scanNumber_append hends] at hscan
  rw [heq]
  exact hscan.symm

/-! ### Numbers that are cut off -/

theorem decimal_append : decimal (ds ++ cs) = decimal ds * 10 ^ cs.length + decimal cs := by
  induction cs using List.reverseRecOn with
  | nil => simp [decimal]
  | append_singleton cs c ih =>
    have hlast : ∀ l : List Char, decimal (l ++ [c]) = decimal l * 10 + (c.toNat - '0'.toNat) := by
      intro l
      unfold decimal
      rw [List.foldl_append]
      rfl
    rw [← List.append_assoc, hlast, hlast, ih, List.length_append, List.length_singleton, pow_succ]
    ring

/-- Fewer digits, a smaller number. -/
theorem decimal_take_lt {n : Nat} (hn : n < ds.length) (hpos : 0 < decimal ds) :
    decimal (ds.take n) < decimal ds := by
  have hsplit : decimal ds = decimal (ds.take n) * 10 ^ (ds.drop n).length + decimal (ds.drop n) := by
    rw [← decimal_append, List.take_append_drop]
  have hlength : 1 ≤ (ds.drop n).length := by
    rw [List.length_drop]
    omega
  have hten : 10 ≤ 10 ^ (ds.drop n).length := Nat.le_self_pow (Nat.ne_of_gt hlength) 10
  have hmul : decimal (ds.take n) * 10 ≤ decimal (ds.take n) * 10 ^ (ds.drop n).length :=
    Nat.mul_le_mul_left _ hten
  omega

theorem digits_take {n : Nat} (h : digits ds = true) (hne : ds.take n ≠ []) : digits (ds.take n) = true := by
  unfold digits
  rw [Bool.and_eq_true, List.all_eq_true]
  refine ⟨?_, fun c hc => all_of_digits h c (List.mem_of_mem_take hc)⟩
  rw [Bool.not_eq_true', List.isEmpty_eq_false_iff]
  exact hne

/-- **A number that is cut off is another one**, if it is positive. -/
theorem Numeral.scanInt_take {n : Nat} (h : Numeral s v) (hpos : 1 ≤ v) (hn : n < s.length) :
    Go.scanInt (s.take n) ≠ some v := by
  intro hscan
  cases h with
  | unsigned hds hlt =>
    by_cases hnil : s.take n = []
    · rw [hnil] at hscan
      cases hscan
    · have hless := decimal_take_lt hn (by omega)
      have hcut : Numeral (s.take n) (decimal (s.take n)) :=
        .unsigned (digits_take hds hnil) (Nat.lt_trans hless hlt)
      have heq := Option.some.inj (hcut.scanInt.symm.trans hscan)
      omega
  | @plus ds hds hlt =>
    cases n with
    | zero => cases hscan
    | succ n =>
      rw [List.take_succ_cons] at hscan
      by_cases hnil : ds.take n = []
      · rw [hnil] at hscan
        cases hscan
      · have hless := decimal_take_lt (Nat.lt_of_succ_lt_succ hn) (by omega)
        have hcut : Numeral ('+' :: ds.take n) (decimal (ds.take n)) :=
          .plus (digits_take hds hnil) (Nat.lt_trans hless hlt)
        have heq := Option.some.inj (hcut.scanInt.symm.trans hscan)
        omega
  | minus hds hle => omega

end

end Go
