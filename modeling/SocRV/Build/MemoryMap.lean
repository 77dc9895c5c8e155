import Mathlib.Algebra.Group.Nat.Defs
import Mathlib.Data.List.Nodup
import SocRV.Lib.HexText
import SocRV.Lib.Regex

/-!
# The memory map and its check

`data/soc/memory_map.json`, the header that `scripts/generate_soc_contract.py` renders from it, the package of the RTL,
and `scripts/check_memory_map.py`, which reads the constants back out of both with regular expressions.
-/

namespace SocRV

namespace MemoryMap

/-! ## Names -/

/-- The class `[A-Z]`. -/
def isUpper (c : Char) : Bool := decide ('A' ≤ c) && decide (c ≤ 'Z')

/-- The class `[A-Z_]` of both patterns. -/
def isNameChar (c : Char) : Bool := isUpper c || c == '_'

/-- The class `[0-9]`. -/
def isDigit (c : Char) : Bool := decide ('0' ≤ c) && decide (c ≤ '9')

/-- The class `[0-9a-fA-F]`. -/
def isHexChar (c : Char) : Bool := (hexValue c).isSome

/-- A name of the form `[A-Z][A-Z0-9_]*`. -/
def isIdentifier : Text → Bool
  | [] => false
  | c :: t => isUpper c && t.all fun d => isNameChar d || isDigit d

/-! ## The map -/

/-- What a constant tells of a region. -/
inductive Kind where
  | base
  | size
  deriving DecidableEq, Repr

/-- The end of the name of a constant. -/
def Kind.text : Kind → Text
  | .base => "BASE".toList
  | .size => "SIZE".toList

/-- A region of the map. -/
structure Region where
  name : Text
  base : BitVec 32
  size : BitVec 32
  identifier : isIdentifier name = true

/-- The name of a constant of a region. -/
def Region.key (r : Region) (k : Kind) : Text := r.name ++ '_' :: k.text

/-- The value of a constant of a region. -/
def Region.value (r : Region) : Kind → Nat
  | .base => r.base.toNat
  | .size => r.size.toNat

/-- The two constants of a region. -/
def Region.constants (r : Region) : List (Text × Nat) := [(r.key .base, r.value .base), (r.key .size, r.value .size)]

/-- The document `memory_map.json`; the names of its regions are keys of an object. -/
structure Document where
  regions : List Region
  resetVector : Nat
  distinct : (regions.map Region.name).Nodup

/-- The constants of the regions, in their order. -/
def constants (regions : List Region) : List (Text × Nat) := regions.flatMap Region.constants

/-! ## Rendering -/

/-- `"\n".join`. -/
def joinLines (ls : List Text) : Text := List.intercalate ['\n'] ls

/-- `header_guard`. -/
def headerGuard (name : Text) (body : List Text) : Text :=
  joinLines (["/* Generated by scripts/generate_soc_contract.py; do not edit. */".toList, "#ifndef ".toList ++ name,
    "#define ".toList ++ name, []] ++ body ++ [[], "#endif /* ".toList ++ (name ++ " */".toList), []])

/-- The line of a constant in the header. -/
def defineLine (p : Text × Nat) : Text :=
  "#define SOCRV_".toList ++ (p.1 ++ (" 0x".toList ++ (formatHex 8 p.2 ++ ['u'])))

/-- `render_memory`. -/
def renderMemory (m : Document) : Text :=
  headerGuard "SOCRV_SOC_MEMORY_MAP_H".toList ((constants m.regions).map defineLine ++
    [[], "#define SOCRV_RESET_VECTOR 0x".toList ++ (formatHex 8 m.resetVector ++ ['u'])])

/-- The digits of a constant in the package, in two groups of four. -/
def svDigits (n : Nat) : Text := (formatHex 8 n).take 4 ++ '_' :: (formatHex 8 n).drop 4

/-- The line of a constant in the package. -/
def localparamLine (width : Nat) (p : Text × Nat) : Text :=
  "   localparam logic [31:0] ".toList ++
    (p.1 ++ (List.replicate (width - p.1.length) ' ' ++ (" = 32'h".toList ++ (svDigits p.2 ++ [';']))))

/-- A package in the format of `rtl/soc/soc_memory_map_pkg.sv`: a line for each constant, with the values below each
other. -/
def renderPackage (regions : List Region) : Text :=
  let width := ((constants regions).map fun p => p.1.length).foldr max 0
  unlines ("package soc_memory_map_pkg;".toList ::
    ((constants regions).map (localparamLine width) ++ ["endpackage".toList]))

/-! ## Reading -/

/-- `(BASE|SIZE)`. -/
def kindRe : Regex := .group (.alt (.lit "BASE".toList) (.lit "SIZE".toList))

/-- `SV_PATTERN`. -/
def svPattern : Regex := .seqAll
  [.lit "localparam".toList, .many isSpace 1, .lit "logic".toList, .many isSpace 1, .lit "[31:0]".toList,
    .many isSpace 1, .group (.many isNameChar 1), .lit ['_'], kindRe, .many isSpace 0, .lit ['='], .many isSpace 0,
    .lit "32'h".toList, .group (.many (fun c => isHexChar c || c == '_') 1)]

/-- `C_PATTERN`. -/
def cPattern : Regex := .seqAll
  [.lit "#define".toList, .many isSpace 1, .lit "SOCRV_".toList, .group (.many isNameChar 1), .lit ['_'], kindRe,
    .many isSpace 1, .lit "0x".toList, .group (.many isHexChar 1), .lit ['u']]

/-- The values of a dictionary, in the order in which its keys came. -/
abbrev Dict := List (Text × Nat)

/-- `values[key] = value`. -/
def Dict.set (d : Dict) (key : Text) (value : Nat) : Dict :=
  if d.any fun p => p.1 = key then d.map fun p => if p.1 = key then (key, value) else p else d ++ [(key, value)]

/-- `values.get(key)`. -/
def Dict.get (d : Dict) (key : Text) : Option Nat := d.lookup key

/-- `int(digits.replace("_", ""), 16)`, which raises an error when no digit is left. -/
def parseDigits (digits : Text) : Option Nat :=
  let t := digits.filter fun c => c ≠ '_'
  if t = [] then none else some (readHex t)

/-- One round of the loop of `parse_constants`; both patterns have three groups, and all of them take part. -/
def parseConstant (values : Dict) : Regex.Groups → Option Dict
  | [some name, some kind, some digits] => (parseDigits digits).map fun n => values.set (name ++ '_' :: kind) n
  | _ => some values

/-- `parse_constants`. -/
def parseConstants (text : Text) (pattern : Regex) : Option Dict := (pattern.findall text).foldlM parseConstant []

/-! ## The check -/

/-- The files of `OUTPUTS`. -/
inductive Output where
  | memory | config | irq | registers | linker
  deriving DecidableEq, Repr

/-- What the check reads of `software_contract.json`: the peripherals with their regions, and what the renderers make of
it for the outputs other than the header of the map. -/
structure Contract where
  peripherals : List (Text × Text)
  rendered : Output → Text

/-- `rendered_outputs`. -/
def renderedOutputs (m : Document) (k : Contract) : List (Output × Text) :=
  [(.memory, renderMemory m), (.config, k.rendered .config), (.irq, k.rendered .irq),
    (.registers, k.rendered .registers), (.linker, k.rendered .linker)]

/-- A failure, with what its message tells. -/
inductive Failure where
  | stale (output : Output)
  | unknownRegion (peripheral region : Text)
  | rtl (key : Text) (expected : Nat) (got : Option Nat)
  | header (key : Text) (expected got : Nat)
  | missing (key : Text)
  deriving DecidableEq, Repr

/-- `expected`. -/
def expected (m : Document) : Dict := (constants m.regions).foldl (fun d p => d.set p.1 p.2) []

/-- The failures of a constant. -/
def constantFailures (svValues cValues : Dict) (p : Text × Nat) : List Failure :=
  (if svValues.get p.1 = some p.2 then [] else [.rtl p.1 p.2 (svValues.get p.1)]) ++
    (match cValues.get p.1 with
      | some n => if n = p.2 then [] else [.header p.1 p.2 n]
      | none => []) ++
    if "_BASE".toList.isSuffixOf p.1 ∧ cValues.get p.1 = none then [.missing p.1] else []

/-- Texts are compared character by character. -/
local instance text_lawfulBEq : LawfulBEq Text := inferInstance

/-- The failures that `main` finds, when it raises no error; `files` are the contents of the outputs that exist. -/
def failures (m : Document) (k : Contract) (rtl : Text) (files : Output → Option Text) : Option (List Failure) := do
  let svValues ← parseConstants rtl svPattern
  let cText ← files .memory
  let cValues ← parseConstants cText cPattern
  let stale := (renderedOutputs m k).filterMap fun p => if files p.1 = some p.2 then none else some (.stale p.1)
  let unknown := k.peripherals.filterMap fun p =>
    if p.2 ∈ m.regions.map Region.name then none else some (.unknownRegion p.1 p.2)
  return stale ++ unknown ++ (expected m).flatMap (constantFailures svValues cValues)

end MemoryMap

end SocRV
