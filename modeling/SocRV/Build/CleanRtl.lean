import Mathlib.Algebra.Group.Nat.Defs
import Mathlib.Data.List.DropRight
import SocRV.Lib.HexText

/-!
# The cleaner of the RTL sources

`scripts/clean_rtl_sources.py` takes the comments out of a source text, except for those that a tool or a licence needs,
and the trailing blanks and all but two of adjacent blank lines.
-/

namespace SocRV

namespace CleanRtl

/-- `KEEP_COMMENT_MARKERS`. -/
def keepCommentMarkers : List Text :=
  ["spdx-license-identifier".toList, "copyright".toList, "verilator".toList, "synopsys".toList,
    "synthesis translate".toList, "translate_off".toList, "translate_on".toList]

/-- `str.find`; where it returns -1 there is no index. -/
def find (u : Text) : Text → Option Nat
  | [] => if u.isEmpty then some 0 else none
  | c :: t => if u.isPrefixOf (c :: t) then some 0 else (find u t).map (· + 1)

/-- `keep_comment`.  The lower case of ASCII is enough: of the other characters only U+0130 and U+212A have ASCII letters
in their lower case, an `i` in front of U+0307 and a `k`, and no marker ends with an `i` or holds a `k`. -/
def keepComment (comment : Text) : Bool :=
  let lowered := comment.map Char.toLower
  keepCommentMarkers.any fun marker => (find marker lowered).isSome

/-- The first loop of `strip_comments`, with `skip` characters up to `index` left: what it puts out. -/
def scan : Bool → Bool → Nat → Text → Except String Text
  | _, _, _, [] => .ok []
  | inString, escaped, skip + 1, _ :: rest => scan inString escaped skip rest
  | true, escaped, 0, char :: rest =>
    (char :: ·) <$>
      if escaped then scan true false 0 rest
      else if char = '\\' then scan true true 0 rest
      else if char = '"' then scan false escaped 0 rest
      else scan true escaped 0 rest
  | false, escaped, 0, char :: rest =>
    if char = '"' then (char :: ·) <$> scan true escaped 0 rest
    else if ['/', '/'].isPrefixOf (char :: rest) then
      let stop := (find ['\n'] (char :: rest)).getD (rest.length + 1)
      let comment := (char :: rest).take stop
      ((if keepComment comment then comment else []) ++ ·) <$> scan false escaped (stop - 1) rest
    else if ['/', '*'].isPrefixOf (char :: rest) then
      match find ['*', '/'] (rest.drop 1) with
      | none => .error "unterminated block comment"
      | some k =>
        let stop := k + 4
        let comment := (char :: rest).take stop
        ((if keepComment comment then comment else ' ' :: comment.filter fun c => c = '\r' || c = '\n') ++ ·) <$>
          scan false escaped (stop - 1) rest
    else (char :: ·) <$> scan false escaped 0 rest

/-- `splitlines(keepends=True)`, with `line` read of the first line. -/
def splitLinesFrom (line : Text) : Text → List Text
  | [] => if line.isEmpty then [] else [line]
  | '\r' :: '\n' :: cs => (line ++ ['\r', '\n']) :: splitLinesFrom [] cs
  | c :: cs => if isLineBreak c then (line ++ [c]) :: splitLinesFrom [] cs else splitLinesFrom (line ++ [c]) cs

/-- The body of a line, and its ending as far as it is one of `\r`, `\n` and `\r\n`. -/
def splitEnding (line : Text) : Text × Text :=
  if ['\r', '\n'].isSuffixOf line then (line.dropLast.dropLast, ['\r', '\n'])
  else if ['\n'].isSuffixOf line then (line.dropLast, ['\n'])
  else if ['\r'].isSuffixOf line then (line.dropLast, ['\r'])
  else (line, [])

/-- A blank. -/
def isBlank (c : Char) : Bool := c = ' ' || c = '\t'

/-- `rstrip(" \t")`. -/
def rstrip (t : Text) : Text := t.rdropWhile isBlank

/-- The second loop of `strip_comments`. -/
def cleanLines : Nat → List Text → Text
  | _, [] => []
  | blankRun, line :: lines =>
    let body := rstrip (splitEnding line).1
    let ending := (splitEnding line).2
    if !body.isEmpty then body ++ ending ++ cleanLines 0 lines
    else if blankRun + 1 ≤ 2 then ending ++ cleanLines (blankRun + 1) lines
    else cleanLines (blankRun + 1) lines

/-- `strip_comments`. -/
def stripComments (source : Text) : Except String Text := do
  let output ← scan false false 0 source
  return cleanLines 0 (splitLinesFrom [] output)

end CleanRtl

end SocRV
