import Mathlib.Data.List.Basic

/-!
# How source text is read

The lexical rules of the language that generated files are written in, as far as they say where
lines, string literals and brackets begin and end. They are stated for any text, whether it is
generated or not.

* `sourceLines`: the lines of a text;
* `scan?`: the string literals of a text, decoded, and the characters outside of them;
* `hasUnicodeEscape_of_scanFrom`: a text that is scanned is not changed by what is done before;
* `nesting?`: how brackets enclose literals.
-/

namespace Multibinding.Java

/-! ## Lines -/

/-- Whether a character ends a line. -/
def isLineTerminator (c : Char) : Bool :=
  c == '\n' || c == '\r'

/-- Whether a line ends with a character. A carriage return in front of a line feed leaves that to
the line feed. -/
def endsLine (c : Char) (rest : List Char) : Bool :=
  c == '\n' || c == '\r' && rest.head? != some '\n'

/-- The lines of a text, each with what ends it: a line feed, a carriage return, or both in the
order of carriage return and line feed. -/
def sourceLines : List Char → List (List Char)
  | [] => []
  | c :: rest =>
    if endsLine c rest then [c] :: sourceLines rest
    else match sourceLines rest with
      | [] => [[c]]
      | line :: more => (c :: line) :: more

section Lines

variable {c : Char} {rest : List Char}

theorem sourceLines_cons_end (h : endsLine c rest = true) :
    sourceLines (c :: rest) = [c] :: sourceLines rest := by
  rw [sourceLines, if_pos h]

/-- A character that does not end its line stands in front of the next one. -/
theorem sourceLines_cons (h : endsLine c rest = false) {line : List Char}
    {more : List (List Char)} (hrest : sourceLines rest = line :: more) :
    sourceLines (c :: rest) = (c :: line) :: more := by
  rw [sourceLines, if_neg (by simp [h]), hrest]

/-- A text that is not empty has lines. -/
theorem exists_sourceLines_eq_cons (text : List Char) (h : text ≠ []) :
    ∃ line more, sourceLines text = line :: more := by
  cases text with
  | nil => exact absurd rfl h
  | cons c rest =>
    rw [sourceLines]
    split
    · exact ⟨_, _, rfl⟩
    · split <;> exact ⟨_, _, rfl⟩

/-- The lines of a text are all of it. -/
theorem flatten_sourceLines (text : List Char) : (sourceLines text).flatten = text := by
  induction text with
  | nil => rfl
  | cons c rest ih =>
    rw [sourceLines]
    split
    · rw [List.flatten_cons, ih, List.singleton_append]
    -- A character that ends no line belongs to the first line of the rest, if there is one.
    · split
      next hnil =>
        rw [hnil] at ih
        rw [← ih]
        rfl
      next line more hlines =>
        rw [hlines] at ih
        rw [← ih]
        rfl

/-- No line is empty, as what ends it belongs to it. -/
theorem nil_notMem_sourceLines (text : List Char) : [] ∉ sourceLines text := by
  induction text with
  | nil => exact List.not_mem_nil
  | cons c rest ih =>
    rw [sourceLines]
    split
    · simpa using ih
    · split
      next => simp
      next line more hlines =>
        rw [hlines] at ih
        have hmore : [] ∉ more := fun hmem => ih (List.mem_cons_of_mem line hmem)
        simpa using hmore

/-- Behind a line feed another line starts. -/
theorem sourceLines_append_lineFeed (before after : List Char) :
    sourceLines (before ++ '\n' :: after) =
      sourceLines (before ++ ['\n']) ++ sourceLines after := by
  induction before with
  | nil => rfl
  | cons c before ih =>
    -- Whether a character ends its line depends on the next one only, which is there on both sides.
    have hends : endsLine c (before ++ '\n' :: after) = endsLine c (before ++ ['\n']) := by
      cases before <;> rfl
    obtain ⟨line, more, hlines⟩ := exists_sourceLines_eq_cons (before ++ ['\n']) (by simp)
    rw [List.cons_append, List.cons_append]
    cases h : endsLine c (before ++ ['\n']) with
    | true =>
      rw [sourceLines_cons_end (hends.trans h), sourceLines_cons_end h, ih, List.cons_append]
    | false =>
      rw [hlines, List.cons_append] at ih
      rw [sourceLines_cons (hends.trans h) ih, sourceLines_cons h hlines, List.cons_append]

end Lines

/-! ## Unicode escapes -/

/-- Whether a text has a backslash and a `u` that begin a Unicode escape. Such an escape is
translated before anything else is read, also inside of literals. A backslash that another one
escapes begins none. -/
def hasUnicodeEscape : List Char → Bool
  | [] => false
  | '\\' :: '\\' :: rest => hasUnicodeEscape rest
  | '\\' :: 'u' :: _ => true
  | _ :: rest => hasUnicodeEscape rest

/-! ## String literals -/

/-- What is found in a text. -/
inductive Token where
  /-- A character outside of the literals. -/
  | mark (c : Char)
  /-- A string literal, with its escapes decoded. -/
  | literal (value : String)

/-- The string literals among what is found. -/
def literals (tokens : List Token) : List String :=
  tokens.filterMap fun
    | .mark _ => none
    | .literal value => some value

/-- Where a scanner is. Inside of a literal, `seen` is in reverse what the literal has so far. -/
inductive Mode where
  | outside
  /-- Behind an empty literal: a third quote would make it the start of a text block. -/
  | behindEmpty
  | inside (seen : List Char)
  /-- Behind the backslash of an escape. -/
  | escape (seen : List Char)
  /-- Behind an octal escape, which may have some more digits. -/
  | octal (seen : List Char) (value more : Nat)

/-- The character that an escape of one letter stands for. -/
def shortEscape? : Char → Option Char
  | 'b' => some '\x08'
  | 's' => some ' '
  | 't' => some '\t'
  | 'n' => some '\n'
  | 'f' => some '\x0c'
  | 'r' => some '\r'
  | '"' => some '"'
  | '\x27' => some '\x27'
  | '\\' => some '\\'
  | _ => none

/-- The value of an octal digit. -/
def octalDigit? (c : Char) : Option Nat :=
  if 48 ≤ c.toNat ∧ c.toNat ≤ 55 then some (c.toNat - 48) else none

/-- Reads a character outside of the literals. What begins a comment, a character literal or an
escape is refused. -/
def outsideStep (c : Char) : Option (List Token × Mode) :=
  if c = '"' then some ([], .inside [])
  else if c = '/' ∨ c = '\x27' ∨ c = '\\' then none
  else some ([.mark c], .outside)

/-- Reads a character of a literal. The literal has to end on its line. -/
def insideStep (seen : List Char) (c : Char) : Option (List Token × Mode) :=
  if c = '"' then
    some ([.literal (String.ofList seen.reverse)], if seen.isEmpty then .behindEmpty else .outside)
  else if c = '\\' then some ([], .escape seen)
  else if isLineTerminator c then none
  else some ([], .inside (c :: seen))

/-- Reads a character. An octal escape has at most three digits, and at most two if the first one is
greater than three. -/
def scanStep : Mode → Char → Option (List Token × Mode)
  | .outside, c => outsideStep c
  | .behindEmpty, c => if c = '"' then none else outsideStep c
  | .inside seen, c => insideStep seen c
  | .escape seen, c =>
    match shortEscape? c with
    | some d => some ([], .inside (d :: seen))
    | none => (octalDigit? c).map fun n => ([], .octal seen n (if n ≤ 3 then 2 else 1))
  | .octal seen value more, c =>
    match more, octalDigit? c with
    | more + 1, some n => some ([], .octal seen (8 * value + n) more)
    | _, _ => insideStep (Char.ofNat value :: seen) c

/-- What is found in the rest of a text. No literal is left open at the end. -/
def scanFrom : Mode → List Char → Option (List Token)
  | .outside, [] | .behindEmpty, [] => some []
  | .inside _, [] | .escape _, [] | .octal .., [] => none
  | mode, c :: rest =>
    (scanStep mode c).bind fun (found, next) => (scanFrom next rest).map (found ++ ·)

/-- What is found in a text. -/
def scan? (text : String) : Option (List Token) :=
  scanFrom .outside text.toList

theorem scanFrom_cons (mode : Mode) (c : Char) (rest : List Char) :
    scanFrom mode (c :: rest) =
      (scanStep mode c).bind fun (found, next) => (scanFrom next rest).map (found ++ ·) := by
  cases mode <;> rfl

/-- A character that is read goes with what is found in the rest. -/
theorem scanFrom_of_step {mode next : Mode} {c : Char} {found : List Token}
    (h : scanStep mode c = some (found, next)) (rest : List Char) :
    scanFrom mode (c :: rest) = (scanFrom next rest).map (found ++ ·) := by
  rw [scanFrom_cons, h]
  rfl

/-- Nothing is found with most characters of a literal. -/
theorem scanFrom_of_silent {mode next : Mode} {c : Char}
    (h : scanStep mode c = some ([], next)) (rest : List Char) :
    scanFrom mode (c :: rest) = scanFrom next rest := by
  rw [scanFrom_of_step h]
  exact Option.map_id'

/-- Behind an empty literal, everything but a quote is read as elsewhere. -/
theorem scanFrom_behindEmpty {rest : List Char} (h : rest.head? ≠ some '"') :
    scanFrom .behindEmpty rest = scanFrom .outside rest := by
  cases rest with
  | nil => rfl
  | cons c rest =>
    have hc : c ≠ '"' := by simpa using h
    have hstep : scanStep .behindEmpty c = scanStep .outside c := if_neg hc
    rw [scanFrom_cons, scanFrom_cons, hstep]

/-! ## Scanned texts have no Unicode escapes -/

/-- The backslash that a scanner has read last, if an escape goes on behind it. -/
def Mode.pending : Mode → List Char
  | .escape _ => ['\\']
  | _ => []

theorem hasUnicodeEscape_cons {c : Char} (hc : c ≠ '\\') (rest : List Char) :
    hasUnicodeEscape (c :: rest) = hasUnicodeEscape rest := by
  rw [hasUnicodeEscape] <;> simp [hc]

/-- Two characters belong to an escape, unless it is a Unicode escape. -/
theorem hasUnicodeEscape_backslash {c : Char} (hc : c ≠ 'u') (rest : List Char) :
    hasUnicodeEscape ('\\' :: c :: rest) = hasUnicodeEscape rest := by
  by_cases hback : c = '\\'
  · rw [hback, hasUnicodeEscape]
  · rw [hasUnicodeEscape, hasUnicodeEscape_cons hback] <;> simp [hc, hback]

/-- A character outside of the literals is no backslash. -/
theorem pending_outsideStep {c : Char} {found : List Token} {next : Mode}
    (h : outsideStep c = some (found, next)) (rest : List Char) :
    hasUnicodeEscape (c :: rest) = hasUnicodeEscape (next.pending ++ rest) := by
  rw [outsideStep] at h
  split at h
  next hquote =>
    cases h
    exact hasUnicodeEscape_cons (by simp [hquote]) rest
  next =>
    split at h
    next => cases h
    next hmark =>
      cases h
      exact hasUnicodeEscape_cons (fun hback => hmark (.inr (.inr hback))) rest

/-- Inside of a literal, a backslash begins an escape, and nothing else does. -/
theorem pending_insideStep {seen : List Char} {c : Char} {found : List Token} {next : Mode}
    (h : insideStep seen c = some (found, next)) (rest : List Char) :
    hasUnicodeEscape (c :: rest) = hasUnicodeEscape (next.pending ++ rest) := by
  rw [insideStep] at h
  split at h
  next hquote =>
    cases h
    rw [hasUnicodeEscape_cons (by simp [hquote])]
    split <;> rfl
  next =>
    split at h
    next hback =>
      cases h
      rw [hback]
      rfl
    next hback =>
      split at h
      · cases h
      · cases h
        exact hasUnicodeEscape_cons hback rest

/-- No step reads over a Unicode escape. -/
theorem pending_scanStep {mode next : Mode} {c : Char} {found : List Token}
    (h : scanStep mode c = some (found, next)) (rest : List Char) :
    hasUnicodeEscape (mode.pending ++ c :: rest) = hasUnicodeEscape (next.pending ++ rest) := by
  cases mode with
  | outside => exact pending_outsideStep h rest
  | behindEmpty =>
    rw [scanStep] at h
    split at h
    · cases h
    · exact pending_outsideStep h rest
  | inside seen => exact pending_insideStep h rest
  | escape seen =>
    -- An escape with a `u` is none of those that are read.
    have hc : c ≠ 'u' := by
      rintro rfl
      cases h
    have hnext : next.pending = [] := by
      rw [scanStep] at h
      split at h
      · cases h
        rfl
      · obtain ⟨n, -, hn⟩ := Option.map_eq_some_iff.mp h
        cases hn
        rfl
    -- The backslash that was read before belongs to this character.
    rw [hnext]
    exact hasUnicodeEscape_backslash hc rest
  | octal seen value more =>
    simp only [scanStep] at h
    split at h
    next hdigit =>
      cases h
      refine hasUnicodeEscape_cons ?_ rest
      rintro rfl
      cases hdigit
    next => exact pending_insideStep h rest

/-- A text that is scanned has no Unicode escapes, so that their translation leaves it as it is. -/
theorem hasUnicodeEscape_of_scanFrom {mode : Mode} {text : List Char} {tokens : List Token}
    (h : scanFrom mode text = some tokens) : hasUnicodeEscape (mode.pending ++ text) = false := by
  induction text generalizing mode tokens with
  | nil =>
    cases mode with
    | escape seen => cases h
    | _ => rfl
  | cons c rest ih =>
    rw [scanFrom_cons] at h
    obtain ⟨⟨found, next⟩, hstep, hrest⟩ := Option.bind_eq_some_iff.mp h
    obtain ⟨behind, hbehind, -⟩ := Option.map_eq_some_iff.mp hrest
    rw [pending_scanStep hstep, ih hbehind]

/-! ## Brackets -/

/-- The brackets that enclose the parts of an annotation. -/
inductive Bracket where
  | parenthesis
  | brace
deriving DecidableEq

namespace Bracket

/-- The character that opens a bracket. -/
def opening : Bracket → Char
  | .parenthesis => '('
  | .brace => '\x7b'

/-- The character that closes a bracket. -/
def closing : Bracket → Char
  | .parenthesis => ')'
  | .brace => '\x7d'

/-- The bracket that a character opens. -/
def opened? (c : Char) : Option Bracket :=
  [parenthesis, brace].find? (·.opening == c)

/-- The bracket that a character closes. -/
def closed? (c : Char) : Option Bracket :=
  [parenthesis, brace].find? (·.closing == c)

end Bracket

/-- Literals, and how brackets enclose them. -/
inductive Nesting where
  | literal (value : String)
  | group (bracket : Bracket) (inside : List Nesting)

/-- How brackets enclose the literals in the rest of what is found. For each bracket that is open
there is what stands before it, and `level` is what stands behind the last of them so far. A bracket
that is closed has to be the last one that was opened, and none is open at the end. -/
def nestingFrom : List (Bracket × List Nesting) → List Nesting → List Token → Option (List Nesting)
  | [], level, [] => some level
  | _ :: _, _, [] => none
  | outer, level, .literal value :: rest => nestingFrom outer (level ++ [.literal value]) rest
  | outer, level, .mark c :: rest =>
    match Bracket.opened? c, Bracket.closed? c, outer with
    | some bracket, _, _ => nestingFrom ((bracket, level) :: outer) [] rest
    | none, none, _ => nestingFrom outer level rest
    | none, some bracket, (last, before) :: outer =>
      if bracket = last then nestingFrom outer (before ++ [.group bracket level]) rest else none
    | none, some _, [] => none

/-- How brackets enclose the literals in what is found. -/
def nesting? (tokens : List Token) : Option (List Nesting) :=
  nestingFrom [] [] tokens

end Multibinding.Java
