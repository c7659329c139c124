import TagLayers.Toml.Spacing

/-!
# Strings of TOML

Strings come in four forms: with or without escapes, and on one line or on several.
-/

namespace TagLayers.Toml

/-- The character of a short escape. -/
def escapedChar? : Char → Option Char
  | 'b' => some '\x08'
  | 't' => some '\t'
  | 'n' => some '\n'
  | 'f' => some '\x0c'
  | 'r' => some '\r'
  | '"' => some '"'
  | '\\' => some '\\'
  | _ => none

/-- The character given by exactly `count` hexadecimal digits. -/
def coded? (count : Nat) (text : Text) : Option Char :=
  let digits := text.take count
  if digits.length < count then none else (Text.hexNumber? digits).bind Text.ofCode?

/-- What a backslash and the characters after it stand for, and how many characters follow the
backslash. -/
def escape? : Text → Option (Char × Nat)
  | 'u' :: rest => (coded? 4 rest).map (·, 5)
  | 'U' :: rest => (coded? 8 rest).map (·, 9)
  | c :: _ => (escapedChar? c).map (·, 1)
  | [] => none

/-- A string with escapes on one line, after its first quote. -/
def readBasic (text : Text) : Option (Text × Text) :=
  match text with
  | [] => none
  | '"' :: rest => some ([], rest)
  | '\\' :: rest =>
      match escape? rest with
      | some (c, n) => (readBasic (rest.drop n)).map fun (t, after) => (c :: t, after)
      | none => none
  | c :: rest =>
      if isPlain c then (readBasic rest).map fun (t, after) => (c :: t, after) else none
termination_by text.length
decreasing_by
  · rw [List.length_drop, List.length_cons]
    omega
  · exact Nat.lt_succ_self _

/-- A string without escapes on one line, after its first quote. -/
def readLiteral : Reader Text
  | [] => none
  | '\'' :: rest => some ([], rest)
  | c :: rest =>
      if isPlain c then (readLiteral rest).map fun (t, after) => (c :: t, after) else none

/-- Three quotes end a string of several lines; up to two more just before belong to it. -/
def readEnd (quote : Char) : Reader Text
  | a :: b :: c :: rest =>
      if a = quote ∧ b = quote ∧ c = quote then
        match rest with
        | d :: e :: rest' =>
            if d = quote ∧ e = quote then some ([quote, quote], rest')
            else if d = quote then some ([quote], e :: rest')
            else some ([], rest)
        | [d] => if d = quote then some ([quote], []) else some ([], rest)
        | [] => some ([], [])
      else none
  | _ => none

/-- A string with escapes on several lines, after its first quotes. A backslash at the end of a
line leaves out everything up to the next character that is not blank. -/
def readBasicLines (text : Text) : Option (Text × Text) :=
  match readEnd '"' text with
  | some (t, rest) => some (t, rest)
  | none =>
      match text with
      | [] => none
      | '\\' :: rest =>
          if (rest.dropWhile isBlank).head? = some '\n' then
            readBasicLines (rest.dropWhile fun c => isBlank c || c == '\n')
          else
            match escape? rest with
            | some (c, n) => (readBasicLines (rest.drop n)).map fun (t, after) => (c :: t, after)
            | none => none
      | c :: rest =>
          if isPlain c || c == '\n' then
            (readBasicLines rest).map fun (t, after) => (c :: t, after)
          else none
termination_by text.length
decreasing_by
  · exact Nat.lt_succ_of_le (List.dropWhile_suffix _).length_le
  · rw [List.length_drop, List.length_cons]
    omega
  · exact Nat.lt_succ_self _

/-- A string without escapes on several lines, after its first quotes. -/
def readLiteralLines (text : Text) : Option (Text × Text) :=
  match readEnd '\'' text with
  | some (t, rest) => some (t, rest)
  | none =>
      match text with
      | [] => none
      | c :: rest =>
          if isPlain c || c == '\n' then
            (readLiteralLines rest).map fun (t, after) => (c :: t, after)
          else none
termination_by text.length
decreasing_by exact Nat.lt_succ_self _

/-- The text without a newline at its start. -/
def dropNewline : Text → Text
  | '\n' :: rest => rest
  | rest => rest

/-- A string on one line. -/
def readQuoted : Reader Text
  | '"' :: rest => readBasic rest
  | '\'' :: rest => readLiteral rest
  | _ => none

/-- A string of any form. -/
def readString : Reader Text
  | '"' :: '"' :: '"' :: rest => readBasicLines (dropNewline rest)
  | '\'' :: '\'' :: '\'' :: rest => readLiteralLines (dropNewline rest)
  | rest => readQuoted rest

end TagLayers.Toml
