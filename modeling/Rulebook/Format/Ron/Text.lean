import Rulebook.Format.Basic
import Rulebook.Text.Printable

/-!
# Text in object notation

A text stands between quotes, with escapes for what cannot be printed. Reading also knows raw text,
which stands between `r"` and `"` or with as many hash signs on both sides, and text and characters
that are spelled in bytes, behind the letter `b`.
-/

namespace Rulebook.Ron

/-- The character as it is written between quotes. -/
def escape (c : Char) : List Char :=
  match c with
  | '\x00' => ['\\', '0']
  | '\t' => ['\\', 't']
  | '\r' => ['\\', 'r']
  | '\n' => ['\\', 'n']
  | '\'' => ['\\', '\'']
  | '"' => ['\\', '"']
  | '\\' => ['\\', '\\']
  | c =>
    if Text.isExtending c || !Text.isPrintable c then
      ['\\', 'u', '\x7b'] ++ Nat.toDigits 16 c.toNat ++ ['\x7d']
    else [c]

def quote (s : List Char) : List Char := '"' :: s.flatMap escape ++ ['"']

/-! ### Escapes -/

/-- The character that a letter behind a backslash stands for. -/
def escaped? : Char → Option Char
  | '0' => some '\x00'
  | 't' => some '\t'
  | 'r' => some '\r'
  | 'n' => some '\n'
  | '\'' => some '\''
  | '"' => some '"'
  | '\\' => some '\\'
  | _ => none

/-- Reads two hexadecimal digits as a byte. -/
def byte? (a b : Char) : Option UInt8 := (Hex.read? 16 [a, b]).map UInt8.ofNat

/-- Reads a character that is spelled by its bytes, each in an escape of its own. `bytes` holds those
that were read, and at most `more` may follow. -/
def spelled (bytes : ByteArray) (more : Nat) (cs : List Char) : Option (Char × List Char) :=
  match bytes.utf8DecodeChar? 0 with
  | some c => some (c, cs)
  | none =>
    match more, cs with
    | more + 1, '\\' :: 'x' :: a :: b :: rest =>
      (byte? a b).bind fun byte => spelled (bytes.push byte) more rest
    | _, _ => none

/-- Reads the code point of an escape up to its closing brace. -/
def codePoint (cs : List Char) : Option (Char × List Char) :=
  let ds := cs.takeWhile (· ≠ '\x7d')
  match cs.dropWhile (· ≠ '\x7d') with
  | _ :: rest =>
    if 1 ≤ ds.length ∧ ds.length ≤ 6 then
      ((Hex.read? 16 ds).bind Hex.char?).map fun c => (c, rest)
    else none
  | [] => none

/-- Reads what follows the backslash of an escape in a text. -/
def unescape : List Char → Option (Char × List Char)
  | 'x' :: a :: b :: cs => (byte? a b).bind fun byte => spelled ⟨#[byte]⟩ 3 cs
  | 'u' :: '\x7b' :: cs => codePoint cs
  | c :: cs => (escaped? c).map fun e => (e, cs)
  | [] => none

/-- Reads what follows the backslash of an escape for one byte. -/
def unescapeByte : List Char → Option (UInt8 × List Char)
  | 'x' :: a :: b :: cs => (byte? a b).map fun byte => (byte, cs)
  | c :: cs => (escaped? c).map fun e => (e.toUInt8, cs)
  | [] => none

/-- Reads what follows the backslash of an escape in a text that is spelled in bytes. -/
def unescapeBytes : List Char → Option (List UInt8 × List Char)
  | 'u' :: '\x7b' :: cs => (codePoint cs).map fun p => (String.utf8EncodeChar p.1, p.2)
  | cs => (unescapeByte cs).map fun p => ([p.1], p.2)

theorem spelled_length {bytes : ByteArray} {more : Nat} {cs rest : List Char} {c : Char}
    (h : spelled bytes more cs = some (c, rest)) : rest.length ≤ cs.length := by
  fun_induction spelled bytes more cs with
  | case1 => simp_all
  | case2 bytes hnone more a b cs ih =>
    obtain ⟨byte, _, h⟩ := Option.bind_eq_some_iff.1 h
    have := ih byte h
    simp only [List.length_cons]
    omega
  | case3 => simp at h

theorem codePoint_length {cs rest : List Char} {c : Char} (h : codePoint cs = some (c, rest)) :
    rest.length < cs.length := by
  simp only [codePoint] at h
  split at h
  · next hd =>
    have hle : (cs.dropWhile (· ≠ '\x7d')).length ≤ cs.length :=
      (List.dropWhile_sublist _).length_le
    rw [hd] at hle
    split at h
    · obtain ⟨c, _, h⟩ := Option.map_eq_some_iff.1 h
      cases h
      simp only [List.length_cons] at hle
      omega
    · cases h
  · cases h

theorem unescape_length {cs rest : List Char} {c : Char} (h : unescape cs = some (c, rest)) :
    rest.length < cs.length := by
  unfold unescape at h
  split at h
  · obtain ⟨byte, _, h⟩ := Option.bind_eq_some_iff.1 h
    have := spelled_length h
    simp only [List.length_cons]
    omega
  · have := codePoint_length h
    simp only [List.length_cons]
    omega
  · obtain ⟨e, _, h⟩ := Option.map_eq_some_iff.1 h
    cases h
    simp
  · cases h

theorem unescapeByte_length {cs rest : List Char} {b : UInt8}
    (h : unescapeByte cs = some (b, rest)) : rest.length < cs.length := by
  unfold unescapeByte at h
  split at h
  · obtain ⟨byte, _, h⟩ := Option.map_eq_some_iff.1 h
    cases h
    simp only [List.length_cons]
    omega
  · obtain ⟨e, _, h⟩ := Option.map_eq_some_iff.1 h
    cases h
    simp
  · cases h

theorem unescapeBytes_length {cs rest : List Char} {bs : List UInt8}
    (h : unescapeBytes cs = some (bs, rest)) : rest.length < cs.length := by
  unfold unescapeBytes at h
  split at h
  · obtain ⟨p, hp, h⟩ := Option.map_eq_some_iff.1 h
    cases h
    have := codePoint_length hp
    simp only [List.length_cons]
    omega
  · obtain ⟨p, hp, h⟩ := Option.map_eq_some_iff.1 h
    cases h
    exact unescapeByte_length hp

/-! ### Between quotes -/

/-- How the characters of a text are read: what one stands for as it is, and what an escape stands
for. -/
structure Spelling (α : Type) where
  plain : Char → α
  escape : List Char → Option (α × List Char)
  escape_length : ∀ {cs rest : List Char} {a : α}, escape cs = some (a, rest) →
    rest.length < cs.length

/-- Text is spelled in characters. -/
def Spelling.chars : Spelling Char := ⟨id, unescape, unescape_length⟩

/-- Text behind the letter `b` is spelled in bytes. -/
def Spelling.bytes : Spelling (List UInt8) :=
  ⟨String.utf8EncodeChar, unescapeBytes, unescapeBytes_length⟩

/-- Whether the character is left out at the start of a line that an escape has joined to the one
before it. -/
def isMargin (c : Char) : Bool := c = ' ' || c = '\t' || c = '\n' || c = '\r'

/-- Reads up to the closing quote. A backslash at the end of a line joins the next line to it. -/
def quoted {α : Type} (sp : Spelling α) (cs : List Char) : Option (List α × List Char) :=
  match cs with
  | [] => none
  | '"' :: rest => some ([], rest)
  | '\\' :: '\n' :: rest => quoted sp (rest.dropWhile isMargin)
  | '\\' :: '\r' :: '\n' :: rest => quoted sp (rest.dropWhile isMargin)
  | '\\' :: rest =>
    match _h : sp.escape rest with
    | some (a, rest') => (quoted sp rest').map fun p => (a :: p.1, p.2)
    | none => none
  | c :: rest => (quoted sp rest).map fun p => (sp.plain c :: p.1, p.2)
termination_by cs.length
decreasing_by
  · have := (List.dropWhile_sublist (l := rest) isMargin).length_le
    simp only [List.length_cons]
    omega
  · have := (List.dropWhile_sublist (l := rest) isMargin).length_le
    simp only [List.length_cons]
    omega
  · have := sp.escape_length _h
    simp only [List.length_cons]
    omega
  · simp

/-- Reads up to a quote that is followed by so many hash signs, with no escapes. -/
def rawQuoted (hashes : Nat) : List Char → Option (List Char × List Char)
  | [] => none
  | c :: rest =>
    if c = '"' && rest.take hashes == List.replicate hashes '#' then some ([], rest.drop hashes)
    else (rawQuoted hashes rest).map fun p => (c :: p.1, p.2)

/-- Reads raw text from its hash signs on. -/
def raw (cs : List Char) : Option (List Char × List Char) :=
  match cs.dropWhile (· = '#') with
  | '"' :: rest => rawQuoted (cs.takeWhile (· = '#')).length rest
  | _ => none

/-- Reads a text with its quotes. -/
def text : List Char → Option (String × List Char)
  | '"' :: cs => (quoted .chars cs).map fun p => (String.ofList p.1, p.2)
  | 'r' :: cs => (raw cs).map fun p => (String.ofList p.1, p.2)
  | _ => none

/-- Reads a text that is spelled in bytes, as its bytes. -/
def bytes : List Char → Option (List UInt8 × List Char)
  | 'b' :: '"' :: cs => (quoted .bytes cs).map fun p => (p.1.flatten, p.2)
  | 'b' :: 'r' :: cs => (raw cs).map fun p => (p.1.flatMap String.utf8EncodeChar, p.2)
  | _ => none

/-! ### Single characters -/

/-- Drops a character between its quotes. An escape for a byte must stand for a whole character. -/
def dropChar : List Char → Option (List Char)
  | '\'' :: '\\' :: 'x' :: cs =>
    match unescapeByte ('x' :: cs) with
    | some (b, '\'' :: rest) => if b < 128 then some rest else none
    | _ => none
  | '\'' :: '\\' :: cs =>
    match unescape cs with
    | some (_, '\'' :: rest) => some rest
    | _ => none
  | '\'' :: _ :: '\'' :: rest => some rest
  | _ => none

/-- Reads a byte that is written as a character between quotes. -/
def byteChar : List Char → Option (UInt8 × List Char)
  | 'b' :: '\'' :: '\\' :: cs =>
    match unescapeByte cs with
    | some (b, '\'' :: rest) => some (b, rest)
    | _ => none
  | 'b' :: '\'' :: c :: '\'' :: rest => if c.toNat < 128 then some (c.toUInt8, rest) else none
  | _ => none

end Rulebook.Ron
