import ExpenseSaas.Go.Numbers
import Mathlib.Data.List.DropRight

/-!
# Lists in a string

Text that is a list: elements with a separator between them, blanks around each
element, and empty elements that do not count. To join two such lists with a
separator is to append them (`elements_append`), whatever the text of either is.

A Go string is any sequence of bytes. It is taken apart here into its code points
and the bytes that are part of none, which is how `range` and `unicode/utf8` do it
from either end. It is text, the UTF-8 of a `String`, if there are no such bytes
(`decode_eq_some`).
-/

namespace Go

/-- A place in a string: a code point, or a byte that is part of none. -/
inductive Rune where
  | char (c : Char)
  | invalid (b : UInt8)
  deriving DecidableEq, Repr

abbrev Str := List Rune

/-- The UTF-8 of a text, such as a literal of the source. -/
def lit (s : String) : Str := s.toList.map .char

/-- The code points of a string, if it is made of nothing else. -/
def codePoints : Str → Option (List Char)
  | [] => some []
  | .char c :: s => (codePoints s).map (c :: ·)
  | .invalid _ :: _ => none

/-- The text that a string is the UTF-8 of, if it is valid. -/
def decode (s : Str) : Option String := (codePoints s).map String.ofList

section

variable {s : Str} {t : String} {l : List Char}

theorem codePoints_eq_some : codePoints s = some l ↔ s = l.map .char := by
  induction s generalizing l with
  | nil => simp [codePoints, eq_comm]
  | cons r s ih =>
    cases r with
    | invalid b =>
      refine iff_of_false (fun h => by cases h) fun h => ?_
      cases l <;> cases h
    | char c =>
      unfold codePoints
      cases l with
      | nil => simp
      | cons c' l => simp [ih, and_comm, eq_comm]

/-- **A string is valid UTF-8** when it is that of a text. -/
theorem decode_eq_some : decode s = some t ↔ s = lit t := by
  unfold decode lit
  rw [Option.map_eq_some_iff]
  constructor
  · rintro ⟨l, hl, rfl⟩
    rw [String.toList_ofList]
    exact codePoints_eq_some.mp hl
  · intro h
    exact ⟨t.toList, codePoints_eq_some.mpr h, String.ofList_toList⟩

@[simp] theorem decode_lit : decode (lit t) = some t := decode_eq_some.mpr rfl

end

/-- `unicode.IsSpace`; `fmt` has the same table. -/
def Rune.isSpace : Rune → Bool
  | .char c => Go.isSpace c
  | .invalid _ => false

/-! ## Elements -/

section

variable {α : Type} [DecidableEq α] {sep : α} {blank : α → Bool} {xs ys s pad : List α}

/-- What is left without the blanks on both sides. -/
def trim (blank : α → Bool) (s : List α) : List α := (s.dropWhile blank).rdropWhile blank

/-- The elements of a list in a string. -/
def elements (sep : α) (blank : α → Bool) (s : List α) : List (List α) :=
  ((s.splitOn sep).map (trim blank)).filter (· ≠ [])

omit [DecidableEq α] in
@[simp] theorem trim_nil : trim blank [] = [] := rfl

@[simp] theorem elements_nil : elements sep blank [] = [] := by
  unfold elements
  rw [List.splitOn_nil, List.map_singleton, trim_nil]
  rfl

/-- **Joining is appending**: an element never reaches across a separator. -/
theorem elements_append :
    elements sep blank (xs ++ sep :: ys) = elements sep blank xs ++ elements sep blank ys := by
  unfold elements
  rw [List.splitOn_append_cons_self, List.map_append, List.filter_append]

/-- The same for any number of lists. -/
theorem elements_intercalate (lines : List (List α)) :
    elements sep blank ([sep].intercalate lines) = lines.flatMap (elements sep blank) := by
  induction lines with
  | nil => exact elements_nil
  | cons line lines ih =>
    cases lines with
    | nil => rw [List.intercalate_singleton, List.flatMap_singleton]
    | cons next lines =>
      rw [List.intercalate_cons_cons, List.append_assoc, List.singleton_append, elements_append, ih]
      exact List.flatMap_cons.symm

omit [DecidableEq α] in
/-- Blanks in front of a text are dropped. -/
theorem trim_append (hpad : ∀ x ∈ pad, blank x = true) : trim blank (pad ++ s) = trim blank s := by
  unfold trim
  rw [List.dropWhile_append_of_pos hpad]

/-- One element, with blanks in front of it. -/
theorem elements_of_padded (hpad : ∀ x ∈ pad, blank x = true) (hsep : blank sep = false)
    (hmem : sep ∉ s) (htrim : trim blank s = s) (hs : s ≠ []) : elements sep blank (pad ++ s) = [s] := by
  have hnot : sep ∉ pad ++ s := by
    intro h
    rw [List.mem_append] at h
    cases h with
    | inl h =>
      rw [hpad sep h] at hsep
      cases hsep
    | inr h => exact hmem h
  unfold elements
  rw [List.splitOn_eq_singleton hnot, List.map_singleton, trim_append hpad, htrim, List.filter_singleton]
  rw [decide_eq_true hs]
  rfl

end

/-! ## `strings` -/

/-- `strings.TrimSpace`. -/
def trimSpace (s : Str) : Str := trim Rune.isSpace s

/-- `strings.LastIndexByte`, for a byte that is a code point. -/
def lastIndex (s : Str) (c : Rune) : Option Nat := (s.reverse.idxOf? c).map (s.length - 1 - ·)

/-! ## `net` -/

/-- `net.SplitHostPort`: the host and the port, or an error. -/
def splitHostPort (hostport : Str) : Option (Str × Str) := do
  let i ← lastIndex hostport (.char ':')
  let (host, j, k) ←
    if hostport.head? = some (.char '[') then
      -- the first `]` stands right before the last colon
      match hostport.idxOf? (.char ']') with
      | none => none
      | some close =>
          if close + 1 = i then some ((hostport.take close).drop 1, 1, close + 1) else none
    else if (hostport.take i).contains (.char ':') then none
    else some (hostport.take i, 0, 0)
  if (hostport.drop j).contains (.char '[') || (hostport.drop k).contains (.char ']') then none
  else some (host, hostport.drop (i + 1))

example : splitHostPort (lit "192.0.2.1:80") = some (lit "192.0.2.1", lit "80")
    ∧ splitHostPort (lit "[::1]:80") = some (lit "::1", lit "80")
    ∧ splitHostPort (lit "::1") = none ∧ splitHostPort (lit "192.0.2.70") = none := by decide +kernel

end Go
