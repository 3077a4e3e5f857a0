import ExpenseSaas.Go.Strings

/-!
# The address of the client

`remoteIP` of `internal/middleware/logger.go`, which the rate limits take as the
key of a request that nobody is logged in for. Each of the `n` trusted proxies in
front of the server appends the address of its peer to `X-Forwarded-For`, so the
client's address is the `n`-th element from the end.

Whatever the client has sent in the field comes before these elements, as elements
of its own or none (`elements_forwarded`), and does not change the place from the end.
That is so as long as the field is one line: `Get` returns the first of several,
and there the client may speak alone (`remoteIP_joined_iff`).
-/

namespace ExpenseSaas

namespace Middleware

open Go (Str Rune lit elements)

/-- `http.Header`: the lines of each field in the order in which they came. -/
abbrev Header := String → List Str

/-- `Get`: the first line of the field. -/
def Header.get (h : Header) (key : String) : Str := (h key).headD []

/-- `Set`: one line in place of what was there. -/
def Header.set (h : Header) (key : String) (value : Str) : Header :=
  fun k => if k = key then [value] else h k

@[simp] theorem Header.get_set (h : Header) (key : String) (value : Str) :
    (h.set key value).get key = value := by
  unfold Header.get Header.set
  rw [if_pos rfl]
  rfl

/-- What `remoteIP` reads of an `http.Request`. -/
structure HTTPRequest where
  remoteAddr : Str
  header : Header

/-- The canonical key. -/
def xForwardedFor : String := "X-Forwarded-For"

/-- `remoteAddr`: the host, or all of it where there is no port. -/
def remoteAddr (r : HTTPRequest) : Str :=
  match Go.splitHostPort r.remoteAddr with
  | none => r.remoteAddr
  | some (ip, _) => ip

/-- `parts`: split at commas, trimmed, without the empty ones. -/
def parts (xff : Str) : List Str := elements (.char ',') Rune.isSpace xff

/-- `remoteIP`. The configuration takes no negative count. -/
def remoteIP (r : HTTPRequest) (n : Nat) : Str :=
  if n = 0 then remoteAddr r
  else
    let xff := r.header.get xForwardedFor
    let parts := if xff ≠ [] then parts xff else []
    if parts.length = 0 then remoteAddr r
    else if parts.length < n then remoteAddr r
    else (parts[parts.length - n]?).getD []

example : remoteIP ⟨lit "10.0.0.1:80", fun _ => [lit "attacker, 3.3.3.3, 10.0.0.1"]⟩ 2 = lit "3.3.3.3"
    ∧ remoteIP ⟨lit "192.0.2.60:6060", fun _ => [lit " ,,"]⟩ 1 = lit "192.0.2.60" := by decide +kernel

/-- The element at the place `n` from the end, counted from 1. -/
def fromEnd {α : Type} (xs : List α) (n : Nat) : Option α :=
  if xs.length < n then none else xs[xs.length - n]?

section

variable {α : Type} {xs ys : List α} {n : Nat} {x : α}

theorem fromEnd_of_lt (h : xs.length < n) : fromEnd xs n = none := if_pos h

theorem fromEnd_of_le (h : n ≤ xs.length) : fromEnd xs n = xs[xs.length - n]? :=
  if_neg (Nat.not_lt.mpr h)

/-- In front of the place there may be anything. -/
theorem fromEnd_append (h : n ≤ ys.length) : fromEnd (xs ++ ys) n = fromEnd ys n := by
  have hlen : n ≤ (xs ++ ys).length := by
    rw [List.length_append]
    omega
  rw [fromEnd_of_le hlen, fromEnd_of_le h, List.length_append, List.getElem?_append_right (by omega)]
  congr 1
  omega

theorem exists_fromEnd (hn : 1 ≤ n) (h : n ≤ xs.length) : ∃ x, fromEnd xs n = some x := by
  rw [fromEnd_of_le h]
  exact ⟨_, List.getElem?_eq_getElem (by omega)⟩

/-- When what stands behind a list makes no difference to a place counted from the end. -/
theorem getD_fromEnd_append_iff (hn : 1 ≤ n) {d : α} :
    (fromEnd xs n).getD d = (fromEnd (xs ++ ys) n).getD d ↔
      ys = [] ∨ (xs ++ ys).length < n ∨
        (n ≤ xs.length ∧ xs[xs.length - n]? = (xs ++ ys)[(xs ++ ys).length - n]?) ∨
        (xs.length < n ∧ n ≤ (xs ++ ys).length ∧ (xs ++ ys)[(xs ++ ys).length - n]? = some d) := by
  by_cases hempty : ys = []
  · rw [hempty, List.append_nil]
    exact ⟨fun _ => .inl rfl, fun _ => rfl⟩
  by_cases hall : (xs ++ ys).length < n
  · have hfirst : xs.length < n := by
      rw [List.length_append] at hall
      omega
    rw [fromEnd_of_lt hall, fromEnd_of_lt hfirst]
    exact ⟨fun _ => .inr (.inl hall), fun _ => rfl⟩
  obtain ⟨y, hy⟩ := exists_fromEnd hn (Nat.not_lt.mp hall)
  have hplace := fromEnd_of_le (Nat.not_lt.mp hall)
  rw [hy] at hplace
  rw [hy, ← hplace, Option.getD_some]
  by_cases hfirst : n ≤ xs.length
  · -- both places are there
    obtain ⟨x, hx⟩ := exists_fromEnd hn hfirst
    have hplace' := fromEnd_of_le hfirst
    rw [hx] at hplace'
    rw [hx, ← hplace', Option.getD_some]
    constructor
    · intro h
      exact .inr (.inr (.inl ⟨hfirst, congrArg some h⟩))
    · rintro (h | h | ⟨_, h⟩ | ⟨h, _⟩)
      · exact absurd h hempty
      · exact absurd h hall
      · exact Option.some.inj h
      · omega
  · -- only with what stands behind
    rw [fromEnd_of_lt (Nat.not_le.mp hfirst), Option.getD_none]
    constructor
    · intro h
      exact .inr (.inr (.inr ⟨Nat.not_le.mp hfirst, Nat.not_lt.mp hall, congrArg some h.symm⟩))
    · rintro (h | h | ⟨h, _⟩ | ⟨_, _, h⟩)
      · exact absurd h hempty
      · exact absurd h hall
      · exact absurd h hfirst
      · exact (Option.some.inj h).symm

theorem fromEnd_length (x : α) (xs : List α) : fromEnd (x :: xs) (x :: xs).length = some x := by
  rw [fromEnd_of_le (Nat.le_refl _), Nat.sub_self]
  rfl

end

@[simp] theorem parts_nil : parts [] = [] := Go.elements_nil

section

variable {r : HTTPRequest} {n : Nat}

/-- **What `remoteIP` returns**: the `n`-th part from the end, and `remoteAddr` if there is none. -/
theorem remoteIP_eq (hn : 1 ≤ n) :
    remoteIP r n = (fromEnd (parts (r.header.get xForwardedFor)) n).getD (remoteAddr r) := by
  have hparts : (if r.header.get xForwardedFor ≠ [] then parts (r.header.get xForwardedFor) else [])
      = parts (r.header.get xForwardedFor) := by
    split
    · rfl
    · rename_i hempty
      rw [not_not.mp hempty, parts_nil]
  unfold remoteIP
  rw [if_neg (by omega)]
  simp only [hparts]
  generalize parts (r.header.get xForwardedFor) = ps
  by_cases hlt : ps.length < n
  · rw [fromEnd_of_lt hlt, if_pos hlt, ite_self]
    rfl
  · obtain ⟨p, hp⟩ := exists_fromEnd hn (Nat.not_lt.mp hlt)
    rw [if_neg (by omega), if_neg hlt, hp]
    rw [fromEnd_of_le (Nat.not_lt.mp hlt)] at hp
    rw [hp]
    rfl

end

/-! ## A chain of proxies -/

/-- An address as a proxy writes it: some text without commas or blanks around it. -/
structure Address where
  text : Str
  nonempty : text ≠ []
  noComma : Rune.char ',' ∉ text
  trimmed : Go.trimSpace text = text

/-- What becomes of the field when a proxy appends the address `a`: the list goes on
after a comma and perhaps blanks, and begins with `a` if nothing was there. -/
inductive Appends : Option Str → Address → Str → Prop where
  | absent {a} : Appends none a a.text
  | empty {a} : Appends (some []) a a.text
  | present {v pad a} : (∀ c ∈ pad, Rune.isSpace c = true) →
      Appends (some v) a (v ++ .char ',' :: (pad ++ a.text))

/-- A request that comes from `peer` with a field is passed on by the proxies, each of
which appends the address it has the request from, and arrives with another. -/
inductive Forwarded : Address → Option Str → List Address → Option Str → Prop where
  | arrived {peer v} : Forwarded peer v [] v
  | through {peer proxy v v' proxies w} : Appends v peer v' →
      Forwarded proxy (some v') proxies w → Forwarded peer v (proxy :: proxies) w

/-- Whom the proxies have the request from. -/
def peers : Address → List Address → List Address
  | _, [] => []
  | peer, proxy :: proxies => peer :: peers proxy proxies

section

variable {v w : Option Str} {v' : Str} {a peer client : Address} {proxies : List Address} {r : HTTPRequest}

@[simp] theorem length_peers (peer : Address) (proxies : List Address) :
    (peers peer proxies).length = proxies.length := by
  induction proxies generalizing peer with
  | nil => rfl
  | cons proxy proxies ih =>
    unfold peers
    rw [List.length_cons, ih proxy, List.length_cons]

/-- An address is one element, with blanks in front of it or not. -/
theorem parts_of_padded {pad : Str} (hpad : ∀ c ∈ pad, Rune.isSpace c = true) (a : Address) :
    parts (pad ++ a.text) = [a.text] :=
  Go.elements_of_padded hpad (by decide) a.noComma a.trimmed a.nonempty

theorem parts_address (a : Address) : parts a.text = [a.text] := by
  show parts ([] ++ a.text) = [a.text]
  exact parts_of_padded (fun _ h => absurd h List.not_mem_nil) a

/-- One proxy appends one element, whatever was there. -/
theorem elements_appends (h : Appends v a v') : parts v' = parts (v.getD []) ++ [a.text] := by
  cases h with
  | absent => exact parts_address a
  | empty => exact parts_address a
  | present hpad =>
    unfold parts
    rw [Go.elements_append]
    exact congrArg _ (parts_of_padded hpad a)

/-- The chain appends its peers. -/
theorem elements_forwarded (h : Forwarded peer v proxies w) :
    parts (w.getD []) = parts (v.getD []) ++ (peers peer proxies).map Address.text := by
  induction h with
  | arrived => exact (List.append_nil _).symm
  | through happ _ ih =>
    rw [ih, Option.getD_some, elements_appends happ, List.append_assoc]
    rfl

/-- **A client cannot choose its address**: whatever it sends in the field, or nothing,
the server finds the address under which the first proxy has seen it. -/
theorem remoteIP_of_forwarded (hproxies : 1 ≤ proxies.length) (h : Forwarded client v proxies w)
    (hline : r.header xForwardedFor = w.toList) : remoteIP r proxies.length = client.text := by
  have hget : r.header.get xForwardedFor = w.getD [] := by
    unfold Header.get
    rw [hline]
    cases w <;> rfl
  rw [remoteIP_eq hproxies, hget, elements_forwarded h]
  rw [fromEnd_append (by rw [List.length_map, length_peers])]
  cases proxies with
  | nil => exact absurd hproxies (by decide)
  | cons proxy proxies =>
    have hlen : (proxy :: proxies).length = ((peers client (proxy :: proxies)).map Address.text).length := by
      rw [List.length_map, length_peers]
    rw [hlen]
    unfold peers
    rw [List.map_cons, fromEnd_length]
    rfl

end

namespace Sample

def client : Address := ⟨lit "203.0.113.9", by decide +kernel, by decide +kernel, by decide +kernel⟩

def edge : Address := ⟨lit "10.0.0.1", by decide +kernel, by decide +kernel, by decide +kernel⟩

def inner : Address := ⟨lit "10.0.0.2", by decide +kernel, by decide +kernel, by decide +kernel⟩

/-- A field that is to look as if the request had come from elsewhere. -/
def spoofed : Str := lit " , 6.6.6.6,,"

/-- What two proxies make of it. -/
def appended : Str :=
  (spoofed ++ .char ',' :: (lit " " ++ client.text)) ++ .char ',' :: (lit "  " ++ edge.text)

def throughTwo : HTTPRequest := ⟨lit "10.0.0.2:443", fun _ => [appended]⟩

end Sample

theorem remoteIP_of_throughTwo :
    remoteIP Sample.throughTwo [Sample.edge, Sample.inner].length = Sample.client.text :=
  remoteIP_of_forwarded (v := some Sample.spoofed) (w := some Sample.appended) (by decide)
    (.through (.present (by decide +kernel)) (.through (.present (by decide +kernel)) .arrived)) rfl

/-! ## Lines -/

/-- Lines joined with commas. -/
def joinedLine (lines : List Str) : Str := List.intercalate [.char ','] lines

/-- The same request with one line. -/
def HTTPRequest.joined (r : HTTPRequest) : HTTPRequest :=
  { r with header := r.header.set xForwardedFor (joinedLine (r.header xForwardedFor)) }

/-- The parts of the lines that `Get` leaves out. -/
def later (r : HTTPRequest) : List Str := (r.header xForwardedFor).tail.flatMap parts

/-- The later lines make no difference to the place `n` from the end: they have no
parts, or there are too few parts in all lines, or by chance the same address stands
at both places, or the address that is taken where the first line has too few. -/
def Indifferent (r : HTTPRequest) (n : Nat) : Prop :=
  let first := parts (r.header.get xForwardedFor)
  let all := first ++ later r
  later r = [] ∨ all.length < n ∨
    (n ≤ first.length ∧ first[first.length - n]? = all[all.length - n]?) ∨
    (first.length < n ∧ n ≤ all.length ∧ all[all.length - n]? = some (remoteAddr r))

section

variable {r : HTTPRequest} {n : Nat}

@[simp] theorem remoteAddr_joined (r : HTTPRequest) : remoteAddr r.joined = remoteAddr r := rfl

theorem get_joined (r : HTTPRequest) :
    r.joined.header.get xForwardedFor = joinedLine (r.header xForwardedFor) :=
  Header.get_set r.header xForwardedFor _

/-- The parts of the joined line are those of all lines. -/
theorem parts_joined (r : HTTPRequest) :
    parts (r.joined.header.get xForwardedFor) = parts (r.header.get xForwardedFor) ++ later r := by
  rw [get_joined]
  unfold parts later Header.get joinedLine
  rw [Go.elements_intercalate]
  cases r.header xForwardedFor with
  | nil =>
    rw [List.headD_nil, List.tail_nil, List.flatMap_nil, List.flatMap_nil]
    exact (congrArg (· ++ []) Go.elements_nil).symm
  | cons line lines =>
    rw [List.headD_cons, List.tail_cons, List.flatMap_cons]
    rfl

/-- **When lines and commas are interchangeable.** -/
theorem remoteIP_joined_iff (hn : 1 ≤ n) : remoteIP r n = remoteIP r.joined n ↔ Indifferent r n := by
  rw [remoteIP_eq hn, remoteIP_eq hn, parts_joined, remoteAddr_joined]
  exact getD_fromEnd_append_iff hn

end

namespace Sample

/-- The client's own line, and the one that the proxy has put the client's address in. -/
def twoLines : HTTPRequest := ⟨lit "10.0.0.1:443", fun _ => [lit "6.6.6.6", lit "203.0.113.9"]⟩

/-- Two lines of which the second has nothing in it. -/
def blankLine : HTTPRequest := ⟨lit "10.0.0.1:443", fun _ => [lit "203.0.113.9", lit " ,"]⟩

end Sample

theorem remoteIP_joined_of_blankLine :
    remoteIP Sample.blankLine 1 = remoteIP Sample.blankLine.joined 1 :=
  (remoteIP_joined_iff (by decide)).mpr (.inl (by decide +kernel))

/-- With one trusted proxy the client names the address itself. -/
theorem not_joined_of_twoLines :
    remoteIP Sample.twoLines 1 = lit "6.6.6.6" ∧
      remoteIP Sample.twoLines 1 ≠ remoteIP Sample.twoLines.joined 1 := by decide +kernel

end Middleware

end ExpenseSaas
