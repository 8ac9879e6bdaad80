import FuzzLedger.Yaml.Cursor

/-!
# Scalars of a YAML text

Readers for the scalars that a text may hold: plain ones, those between single or double quotes,
and blocks of lines, literal or folded.  A line break inside a plain or quoted scalar becomes a
space, several become all but the first (`Gap.fold`).
-/

set_option autoImplicit false

namespace FuzzLedger.Yaml

/-- How a scalar is written. -/
inductive Style where
  | plain
  | quoted
  | literal
  | folded
  deriving DecidableEq, Repr

/-! ## White space inside scalars -/

/-- The white space between two words of a scalar. -/
structure Gap where
  blanks : List Char := []
  lead : List Char := []
  trail : List Char := []
  broken : Bool := false

/-- What a gap leaves in the scalar: one line break becomes a space, more leave all but the
first. -/
def Gap.fold (g : Gap) : List Char :=
  if !g.broken then g.blanks
  else if g.lead == ['\n'] then if g.trail.isEmpty then [' '] else g.trail
  else g.lead ++ g.trail

/-- Goes over blanks and line breaks.  With a margin, a tab before it is refused. -/
def readGap (margin : Option Int) : Nat → Cursor → Gap → Scan (Cursor × Gap)
  | 0, _, _ => refuse
  | steps + 1, cur, g =>
    match cur.rest with
    | [] => .ok (cur, g)
    | c :: _ =>
      if isBlank c then
        if g.broken && c == '\t' && margin.any (fun m => (cur.column : Int) < m) then refuse
        else
          readGap margin steps (cur.skip 1)
            (if g.broken then g else { g with blanks := g.blanks ++ [c] })
      else
        match cur.readBreak with
        | none => .ok (cur, g)
        | some (b, next) =>
          readGap margin steps next
            (if g.broken then { g with trail := g.trail ++ [b] }
             else { g with blanks := [], lead := [b], broken := true })

/-! ## Plain scalars -/

/-- Whether a plain scalar ends before the rest of the text. -/
def endsPlain (flow : Bool) : List Char → Bool
  | [] => true
  | c :: rest =>
    isBlankOrBreak c || (c == ':' && endsWord rest) ||
      (flow && (c == ',' || c == '[' || c == ']' || c == '\x7b' || c == '\x7d'))

/-- In a flow collection a colon may not touch an indicator. -/
def clashes (flow : Bool) : List Char → Bool
  | ':' :: c :: _ =>
    flow && (c == ',' || c == '?' || c == '[' || c == ']' || c == '\x7b' || c == '\x7d')
  | _ => false

/-- The characters of a word, in reverse order before those read already. -/
def readWord (flow : Bool) : Nat → Cursor → List Char → Scan (Cursor × List Char)
  | 0, _, _ => refuse
  | steps + 1, cur, chars =>
    if clashes flow cur.rest then refuse
    else if endsPlain flow cur.rest then .ok (cur, chars)
    else
      match cur.rest with
      | [] => .ok (cur, chars)
      | c :: _ => readWord flow steps (cur.skip 1) (c :: chars)

/-- The words of a plain scalar.  Answers the scalar in reverse and whether a line break
follows it. -/
def readPlain (flow : Bool) (margin : Int) :
    Nat → Cursor → List Char → Gap → Scan (Cursor × List Char × Bool)
  | 0, _, _, _ => refuse
  | steps + 1, cur, chars, gap =>
    if cur.atDocumentMarker || cur.rest.head? == some '#' then .ok (cur, chars, gap.broken)
    else do
      let (next, word) ← readWord flow (steps + 1) cur []
      let (chars, gap) : List Char × Gap :=
        if word.isEmpty then (chars, gap) else (word ++ gap.fold.reverse ++ chars, {})
      if (next.rest.head?.map isBlankOrBreak).getD false then
        let (after, gap) ← readGap (some margin) (steps + 1) next gap
        if !flow && (after.column : Int) < margin then return (after, chars, gap.broken)
        else readPlain flow margin steps after chars gap
      else return (next, chars, gap.broken)

/-! ## Quoted scalars -/

/-- The character with a code point of so many hexadecimal digits. -/
def readCode (width : Nat) (text : List Char) : Scan Char := do
  let digits := text.take width
  if digits.length < width then refuse
  else
    match digits.mapM Text.hexValue? with
    | none => refuse
    | some ds =>
      let n := ds.foldl (fun n d => n * 16 + d) 0
      if (0xD800 ≤ n ∧ n ≤ 0xDFFF) ∨ 0x10FFFF < n then refuse else return Char.ofNat n

/-- The character that an escape stands for, and the length of what follows the backslash. -/
def readEscape : List Char → Scan (Char × Nat)
  | [] => refuse
  | c :: rest =>
    match c with
    | '0' => .ok ('\x00', 1)
    | 'a' => .ok ('\x07', 1)
    | 'b' => .ok ('\x08', 1)
    | 't' => .ok ('\t', 1)
    | '\t' => .ok ('\t', 1)
    | 'n' => .ok ('\n', 1)
    | 'v' => .ok ('\x0b', 1)
    | 'f' => .ok ('\x0c', 1)
    | 'r' => .ok ('\r', 1)
    | 'e' => .ok ('\x1b', 1)
    | ' ' => .ok (' ', 1)
    | '"' => .ok ('"', 1)
    | '/' => .ok ('/', 1)
    | '\\' => .ok ('\\', 1)
    | 'N' => .ok ('\u0085', 1)
    | '_' => .ok ('\u00a0', 1)
    | 'L' => .ok ('\u2028', 1)
    | 'P' => .ok ('\u2029', 1)
    | 'x' => do return (← readCode 2 rest, 3)
    | 'u' => do return (← readCode 4 rest, 5)
    | 'U' => do return (← readCode 8 rest, 9)
    | _ => refuse

/-- Whether the text goes on with a line break. -/
def startsBreak : List Char → Bool
  | [] => false
  | c :: _ => isBreak c

/-- A quoted scalar after its opening quote, in reverse; the cursor is after the closing one. -/
def readQuoted (single : Bool) : Nat → Cursor → List Char → Scan (Cursor × List Char)
  | 0, _, _ => refuse
  | steps + 1, cur, chars =>
    if cur.atDocumentMarker then refuse
    else
      match cur.rest with
      | [] => refuse
      | c :: rest =>
        if c == '\'' && single then
          if rest.head? == some '\'' then readQuoted single steps (cur.skip 2) ('\'' :: chars)
          else .ok (cur.skip 1, chars)
        else if c == '"' && !single then .ok (cur.skip 1, chars)
        else if c == '\\' && !single then
          if startsBreak rest then
            match (cur.skip 1).readBreak with
            | none => refuse
            | some (_, next) => do
              -- The break is dropped; what follows it counts as a gap already broken.
              let (next, gap) ← readGap none (steps + 1) next { broken := true }
              readQuoted single steps next (gap.fold.reverse ++ chars)
          else do
            let (x, length) ← readEscape rest
            readQuoted single steps (cur.skip (length + 1)) (x :: chars)
        else if isBlankOrBreak c then do
          let (next, gap) ← readGap none (steps + 1) cur {}
          readQuoted single steps next (gap.fold.reverse ++ chars)
        else readQuoted single steps (cur.skip 1) (c :: chars)

/-! ## Block scalars -/

/-- What becomes of the line breaks at the end of a block scalar. -/
inductive Chomp where
  | strip
  | clip
  | keep
  deriving DecidableEq, Repr

/-- The signs after the indicator of a block scalar: chomping and indentation. -/
def readBlockSigns (cur : Cursor) : Scan (Chomp × Nat × Cursor) :=
  let chomp (c : Char) : Option Chomp :=
    if c == '+' then some .keep else if c == '-' then some .strip else none
  let digit (c : Char) : Option Nat := if '1' ≤ c ∧ c ≤ '9' then some (c.toNat - 48) else none
  match cur.rest with
  | [] => .ok (.clip, 0, cur)
  | c :: rest =>
    match chomp c with
    | some how =>
      match rest with
      | d :: _ =>
        if d == '0' then refuse
        else
          match digit d with
          | some n => .ok (how, n, cur.skip 2)
          | none => .ok (how, 0, cur.skip 1)
      | [] => .ok (how, 0, cur.skip 1)
    | none =>
      if c == '0' then refuse
      else
        match digit c with
        | none => .ok (.clip, 0, cur)
        | some n =>
          match rest with
          | d :: _ =>
            match chomp d with
            | some how => .ok (how, n, cur.skip 2)
            | none => .ok (.clip, n, cur.skip 1)
          | [] => .ok (.clip, n, cur.skip 1)

/-- Empty lines inside a block scalar whose lines start at column `indent` (zero: not known yet).
Answers the breaks and the deepest column met. -/
def readEmptyLines (indent : Nat) :
    Nat → Cursor → List Char → Nat → Scan (Cursor × List Char × Nat)
  | 0, _, _, _ => refuse
  | steps + 1, cur, breaks, deepest =>
    let open_ (column : Nat) : Bool := indent == 0 || column < indent
    let spaces := (cur.rest.takeWhile (· == ' ')).length
    let cur := cur.skip (if indent == 0 then spaces else min spaces (indent - cur.column))
    let deepest := max deepest cur.column
    if open_ cur.column && cur.rest.head? == some '\t' then refuse
    else
      match cur.readBreak with
      | none => .ok (cur, breaks, deepest)
      | some (b, next) => readEmptyLines indent steps next (breaks ++ [b]) deepest

/-- The lines of a block scalar, in reverse, from the start of one of them.  `lead` is the break
before it, `trail` the empty lines after that, and `blank` says whether the line before began with
a blank. -/
def readBlockLines (folded : Bool) (indent : Nat) :
    Nat → Cursor → List Char → List Char → List Char → Bool →
      Scan (Cursor × List Char × List Char × List Char)
  | 0, _, _, _, _, _ => refuse
  | steps + 1, cur, chars, lead, trail, blank =>
    if cur.column ≠ indent ∨ cur.rest.isEmpty then .ok (cur, chars, lead, trail)
    else do
      let starts := (cur.rest.head?.map isBlank).getD false
      let joint :=
        if folded && lead == ['\n'] && !blank && !starts then if trail.isEmpty then [' '] else []
        else lead
      let line := cur.rest.takeWhile fun c => !isBreak c
      let chars := line.reverse ++ (joint ++ trail).reverse ++ chars
      let cur := cur.skip line.length
      let (lead, cur) : List Char × Cursor :=
        match cur.readBreak with
        | some (b, next) => ([b], next)
        | none => ([], cur)
      let (cur, trail, _) ← readEmptyLines indent (steps + 1) cur [] 0
      readBlockLines folded indent steps cur chars lead trail starts

/-- A block scalar after its indicator, inside a collection indented by `outer`. -/
def readBlock (folded : Bool) (outer : Int) (steps : Nat) (cur : Cursor) :
    Scan (Cursor × String) := do
  let (chomp, increment, cur) ← readBlockSigns cur
  let cur := cur.skipBlanks
  let cur := if cur.rest.head? == some '#' then cur.skipToBreak else cur
  let cur ← match cur.rest with
    | [] => pure cur
    | _ =>
      match cur.readBreak with
      | some (_, next) => pure next
      | none => refuse
  let given : Nat := if increment = 0 then 0 else (max outer 0).toNat + increment
  let (cur, trail, deepest) ← readEmptyLines given steps cur [] 0
  let indent := if given = 0 then max deepest (max (outer + 1).toNat 1) else given
  let (cur, chars, lead, trail) ← readBlockLines folded indent steps cur [] [] trail false
  let tail :=
    match chomp with
    | .strip => []
    | .clip => lead
    | .keep => lead ++ trail
  return (cur, String.ofList (chars.reverse ++ tail))

end FuzzLedger.Yaml
