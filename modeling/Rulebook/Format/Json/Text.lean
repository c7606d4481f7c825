import Rulebook.Format.Basic

/-!
# Text in JSON

A text stands between quotes, with escapes for quotes, backslashes and control characters. An escape
for a character beyond the first 65536 is a pair of surrogates; a surrogate without its partner
spells no character.
-/

namespace Rulebook.Json

def hex4 (n : Nat) : List Char :=
  let ds := Nat.toDigits 16 n
  List.replicate (4 - ds.length) '0' ++ ds

/-- The character as it is written between quotes. -/
def escape (c : Char) : List Char :=
  match c with
  | '"' => ['\\', '"']
  | '\\' => ['\\', '\\']
  | '\x08' => ['\\', 'b']
  | '\t' => ['\\', 't']
  | '\n' => ['\\', 'n']
  | '\x0c' => ['\\', 'f']
  | '\r' => ['\\', 'r']
  | c => if c.toNat < 32 then ['\\', 'u'] ++ hex4 c.toNat else [c]

def quote (s : List Char) : List Char := '"' :: s.flatMap escape ++ ['"']

/-! ### Reading -/

/-- Reads four hexadecimal digits. -/
def unit : List Char → Option (Nat × List Char)
  | a :: b :: c :: d :: cs => (Hex.read? 16 [a, b, c, d]).map fun n => (n, cs)
  | _ => none

/-- Reads a character that is spelled by one unit of sixteen bits, or by a pair of surrogates. -/
def spelled (cs : List Char) : Option (Char × List Char) := do
  let (high, cs) ← unit cs
  if 0xD800 ≤ high ∧ high < 0xDC00 then
    match cs with
    | '\\' :: 'u' :: cs =>
      let (low, cs) ← unit cs
      if 0xDC00 ≤ low ∧ low < 0xE000 then
        let c ← Hex.char? (0x10000 + (high - 0xD800) * 1024 + (low - 0xDC00))
        return (c, cs)
      else none
    | _ => none
  else
    let c ← Hex.char? high
    return (c, cs)

/-- Reads what follows the backslash of an escape. -/
def unescape : List Char → Option (Char × List Char)
  | '"' :: cs => some ('"', cs)
  | '\\' :: cs => some ('\\', cs)
  | '/' :: cs => some ('/', cs)
  | 'b' :: cs => some ('\x08', cs)
  | 'f' :: cs => some ('\x0c', cs)
  | 'n' :: cs => some ('\n', cs)
  | 'r' :: cs => some ('\r', cs)
  | 't' :: cs => some ('\t', cs)
  | 'u' :: cs => spelled cs
  | _ => none

theorem unit_length {cs rest : List Char} {n : Nat} (h : unit cs = some (n, rest)) :
    rest.length < cs.length := by
  unfold unit at h
  split at h
  · obtain ⟨_, _, h⟩ := Option.map_eq_some_iff.1 h
    cases h
    simp only [List.length_cons]
    omega
  · cases h

theorem spelled_length {cs rest : List Char} {c : Char} (h : spelled cs = some (c, rest)) :
    rest.length < cs.length := by
  simp only [spelled, Option.bind_eq_bind, Option.bind_eq_some_iff, Prod.exists] at h
  obtain ⟨high, cs₁, hu, h⟩ := h
  have h₁ := unit_length hu
  split at h
  · split at h
    · simp only [Option.bind_eq_some_iff, Prod.exists] at h
      obtain ⟨low, cs₂, hv, h⟩ := h
      have h₂ := unit_length hv
      split at h
      · simp only [Option.bind_eq_some_iff] at h
        obtain ⟨_, _, h⟩ := h
        cases h
        simp only [List.length_cons] at *
        omega
      · cases h
    · cases h
  · simp only [Option.bind_eq_some_iff] at h
    obtain ⟨_, _, h⟩ := h
    cases h
    exact h₁

theorem unescape_length {cs rest : List Char} {c : Char} (h : unescape cs = some (c, rest)) :
    rest.length < cs.length := by
  unfold unescape at h
  split at h
  case h_9 => exact Nat.lt_succ_of_lt (spelled_length h)
  all_goals cases h <;> simp

/-- Reads the text up to the closing quote. A control character must not stand in it. -/
def quoted (cs : List Char) : Option (List Char × List Char) :=
  match cs with
  | [] => none
  | '"' :: rest => some ([], rest)
  | '\\' :: rest =>
    match _h : unescape rest with
    | some (c, rest') => (quoted rest').map fun p => (c :: p.1, p.2)
    | none => none
  | c :: rest => if c.toNat < 32 then none else (quoted rest).map fun p => (c :: p.1, p.2)
termination_by cs.length
decreasing_by
  · have := unescape_length _h
    simp only [List.length_cons]
    omega
  · simp

/-- Reads a text with its quotes. -/
def text : List Char → Option (String × List Char)
  | '"' :: cs => (quoted cs).map fun p => (String.ofList p.1, p.2)
  | _ => none

/-- Drops what is left of a text. Its escapes must have their form, but surrogates need no partner. -/
def dropQuoted : List Char → Option (List Char)
  | [] => none
  | '"' :: rest => some rest
  | '\\' :: 'u' :: a :: b :: c :: d :: rest =>
    if (Hex.read? 16 [a, b, c, d]).isSome then dropQuoted rest else none
  | '\\' :: c :: rest => if "\"\\/bfnrt".toList.contains c then dropQuoted rest else none
  | c :: rest => if c = '\\' || c.toNat < 32 then none else dropQuoted rest

end Rulebook.Json
