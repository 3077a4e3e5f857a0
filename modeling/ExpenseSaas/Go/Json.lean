import Mathlib.Data.List.Nodup

/-!
# JSON and structs

`encoding/json` as far as it fills a struct: a key of an object is matched with the
names of the fields, letter case aside if need be, a later value of a key replaces an
earlier one, `null` leaves a field that is no pointer as it is, and a value of another
type than its field is an error.

What two structs make of the same text is compared field by field (`unmarshal_map`).
-/

namespace Go

/-- A JSON value; a number is kept as it is written. -/
inductive Json where
  | null
  | bool (b : Bool)
  | num (literal : String)
  | str (s : String)
  | arr (elements : List Json)
  | obj (members : List (String × Json))

namespace Json

/-! ## Names of fields -/

/-- The letters and signs that `strings.EqualFold` identifies with a small letter of ASCII. -/
def foldRune (c : Char) : Char :=
  if c.val = 0x17F then 's' else if c.val = 0x212A then 'k' else c.toLower

/-- `foldName`. -/
def foldName (s : String) : List Char := s.toList.map foldRune

/-- The field a key stands for: the one of that name, or else the first of the same name
with the case of letters aside. -/
def fieldOf (names : List String) (key : String) : Option String :=
  if key ∈ names then some key else names.find? fun name => foldName name = foldName key

section

variable {names names' : List String} {key : String}

theorem fieldOf_of_mem (h : key ∈ names) : fieldOf names key = some key := by
  unfold fieldOf
  rw [if_pos h]

/-- Where no two names are the same but for their case, the search finds the one there is. -/
theorem find?_foldName (hnd : (names.map foldName).Nodup) {name : String} :
    (names.find? fun name => foldName name = foldName key) = some name ↔
      name ∈ names ∧ foldName name = foldName key := by
  constructor
  · intro h
    exact ⟨List.mem_of_find?_eq_some h, by simpa using List.find?_some h⟩
  · rintro ⟨hmem, hname⟩
    cases hfind : names.find? fun name => foldName name = foldName key with
    | none =>
      have hno := List.find?_eq_none.mp hfind name hmem
      simp [hname] at hno
    | some other =>
      have hother : foldName other = foldName key := by simpa using List.find?_some hfind
      rw [List.inj_on_of_nodup_map hnd (List.mem_of_find?_eq_some hfind) hmem
        (hother.trans hname.symm)]

/-- The order of the fields does not matter then. -/
theorem fieldOf_perm (h : names.Perm names') (hnd : (names.map foldName).Nodup) (key : String) :
    fieldOf names key = fieldOf names' key := by
  have hnd' : (names'.map foldName).Nodup := (h.map foldName).nodup_iff.mp hnd
  unfold fieldOf
  by_cases hkey : key ∈ names
  · rw [if_pos hkey, if_pos (h.mem_iff.mp hkey)]
  · rw [if_neg hkey, if_neg fun hmem => hkey (h.mem_iff.mpr hmem)]
    refine Option.ext fun name => ?_
    rw [find?_foldName hnd, find?_foldName hnd', h.mem_iff]

end

/-! ## Structs -/

section

variable {S T : Type} {names names' : List String} {set : S → String → Json → Option S}
  {set' : T → String → Json → Option T}

/-- A member of an object, put into a struct; `set` puts a value into a field. -/
def put (names : List String) (set : S → String → Json → Option S) (s : S) (m : String × Json) :
    Option S :=
  match fieldOf names m.1 with
  | some name => set s name m.2
  | none => some s

/-- `json.Unmarshal` into a struct. -/
def unmarshal (names : List String) (set : S → String → Json → Option S) (s : S) : Json → Option S
  | .null => some s
  | .obj members => members.foldlM (put names set) s
  | _ => none

/-- What becomes of a field that is a string. -/
def unmarshalString (old : String) : Json → Option String
  | .str s => some s
  | .null => some old
  | _ => none

theorem put_map {f : S → T} (hnames : ∀ key, fieldOf names key = fieldOf names' key)
    (hset : ∀ s name v, (set s name v).map f = set' (f s) name v) (s : S) (m : String × Json) :
    (put names set s m).map f = put names' set' (f s) m := by
  unfold put
  rw [← hnames]
  cases fieldOf names m.1 with
  | none => rfl
  | some name => exact hset s name m.2

/-- **Structs whose fields correspond are filled alike.** -/
theorem unmarshal_map {f : S → T} (hnames : ∀ key, fieldOf names key = fieldOf names' key)
    (hset : ∀ s name v, (set s name v).map f = set' (f s) name v) (s : S) (v : Json) :
    (unmarshal names set s v).map f = unmarshal names' set' (f s) v := by
  cases v with
  | obj members =>
    show (members.foldlM (put names set) s).map f = members.foldlM (put names' set') (f s)
    induction members generalizing s with
    | nil => rfl
    | cons m members ih =>
      rw [List.foldlM_cons, List.foldlM_cons, ← put_map hnames hset]
      cases put names set s m with
      | none => rfl
      | some s' => exact ih s'
  | _ => rfl

/-- A member under the name of a field. -/
theorem put_of_mem {name : String} (h : name ∈ names) (s : S) (v : Json) :
    put names set s (name, v) = set s name v := by
  unfold put
  rw [fieldOf_of_mem h]

/-! ## Writing a struct -/

/-- A field of a string with `omitempty`: none for the empty string. -/
def omitEmpty (name s : String) : List (String × Json) :=
  if s = "" then [] else [(name, .str s)]

/-- Reading back a string that may have been left out; `f` puts it into the struct. -/
theorem foldlM_omitEmpty (f : String → S) {name v : String} {s : S} {rest : List (String × Json)}
    (hmem : name ∈ names) (hempty : f "" = s) (hset : set s name (.str v) = some (f v)) :
    (omitEmpty name v ++ rest).foldlM (put names set) s = rest.foldlM (put names set) (f v) := by
  unfold omitEmpty
  by_cases hv : v = ""
  · rw [if_pos hv, List.nil_append, hv, hempty]
  · rw [if_neg hv, List.singleton_append, List.foldlM_cons, put_of_mem hmem, hset]
    rfl

end

/-! ## Maps -/

/-- `json.Unmarshal` into a `map[string]interface{}`. -/
def toMap : Json → Option (List (String × Json))
  | .null => some []
  | .obj members => some members
  | _ => none

/-- The value of a key, the last of those given for it. -/
def index (members : List (String × Json)) (key : String) : Option Json :=
  members.reverse.lookup key

/-- A value asserted to be a string. -/
def asString : Json → Option String
  | .str s => some s
  | _ => none

end Json

end Go
