import BlockScript.Diagnostic
import BlockScript.Text.Case
import BlockScript.Token.Basic

/-!
# The outline of a source text

A source text is cut into the lines of the stage and the lines of each sprite. Outside any
section a line belongs to the sprite that is active; `sprite = name` makes another one active,
`svg = source` gives the active one a costume, and `stage_code =` or `name_code =` opens a
section, whose lines are indented more than its header and which an `end` at the header's
indentation closes. Sprites are the same when their names have the same lower-case form.

`Outline.ofText` runs `Outline.Reader.step` over the lines.
-/

namespace BlockScript

/-- A line with its number in the whole text, counted from one. -/
structure SourceLine where
  /-- The number. -/
  line : Nat
  /-- The text of the line. -/
  text : String
deriving DecidableEq, Repr

/-- The lines of a sprite. -/
structure SpriteSection where
  /-- The name in the spelling of its last mention. -/
  name : String
  /-- Where the costume comes from. -/
  costume : Option String := none
  /-- The lines in order. -/
  lines : List SourceLine := []
  /-- Whether the text speaks of the sprite. -/
  mentioned : Bool := false
deriving DecidableEq, Repr

/-- The lines of a source text by target. -/
structure Outline where
  /-- The lines of the stage. -/
  stage : List SourceLine
  /-- The sprites in the order of their first mention. -/
  sprites : List SpriteSection
deriving DecidableEq, Repr

/-! ### Headers -/

/-- The lines that stand between the sections of a text. -/
inductive Header where
  /-- Opens the section of the stage. -/
  | stageCode
  /-- Makes a sprite active. -/
  | spriteName (name : String)
  /-- Gives the active sprite a costume, or takes it away. -/
  | costume (source : String)
  /-- Opens the section of a sprite. -/
  | spriteCode (name : String)
deriving DecidableEq, Repr

namespace Header

/-- The sprite that lines belong to before any other is named. -/
def defaultSprite : String := "Sprite1"

/-- The letter a header word is compared by. The long s and the Kelvin sign count as the
letters they look like. -/
def foldLetter (c : Char) : Char :=
  if c.toNat = 0x17F then 's' else if c.toNat = 0x212A then 'k' else Text.asciiLowerChar c

/-- What follows a word at the start of a text, the case of its letters aside. -/
def afterWord? (word cs : List Char) : Option (List Char) :=
  if (cs.take word.length).map foldLetter == word then some (cs.drop word.length) else none

/-- What follows a word, optional white space and an equals sign, without the white space
after it. -/
def afterAssignment? (word : String) (cs : List Char) : Option (List Char) :=
  match (afterWord? word.toList cs).map Chars.trimStart with
  | some ('=' :: rest) => some (Chars.trimStart rest)
  | _ => none

/-- Characters of a sprite name that needs no quotes in a section header. -/
def isNameChar (c : Char) : Bool :=
  c.isAlphanum || c == '_' || c == '-' || c.toNat = 0x17F || c.toNat = 0x212A

/-- The name in front of `_code` in a section header. Quotes are dropped, but nothing between
them is unescaped, and they cannot hold another quote of their kind. -/
def sectionName? (cs : List Char) : Option (List Char) :=
  match cs with
  | [] => none
  | c :: rest =>
    let inner := rest.dropLast
    if isQuoteMark c && rest.getLast? == some c && !inner.isEmpty && !inner.contains c then
      some inner
    else if (c :: rest).all isNameChar then some (c :: rest)
    else none

/-- The name in a section header of a sprite. -/
def spriteSection? (cs : List Char) : Option (List Char) :=
  match cs.reverse with
  | '=' :: rest =>
    ((afterWord? "edoc_".toList (Chars.trimStart rest)).map List.reverse).bind sectionName?
  | _ => none

/-- Reads a header from a trimmed line. -/
def parse? (cs : List Char) : Option Header :=
  if afterAssignment? "stage_code" cs == some [] then some .stageCode
  else match (afterAssignment? "sprite" cs).filter (!·.isEmpty) with
    | some value => some (.spriteName (String.ofList (Chars.unquote value)))
    | none =>
      match (afterAssignment? "svg" cs).filter (!·.isEmpty) with
      | some value => some (.costume (String.ofList (Chars.unquote value)))
      | none => (spriteSection? cs).map fun name ↦ .spriteCode (String.ofList name)

end Header

/-! ### Reading -/

namespace Outline

/-- Whose section is open. -/
inductive Owner where
  | stage
  | sprite (index : Nat)
deriving DecidableEq, Repr

/-- A section that was opened and not yet closed. -/
structure OpenSection where
  /-- Whose section it is. -/
  owner : Owner
  /-- The indentation of its header. -/
  indent : Nat
  /-- How messages name it. -/
  label : String
  /-- The line of its header. -/
  line : Nat
deriving DecidableEq, Repr

/-- What is known after some lines. -/
structure Reader where
  /-- The lines of the stage so far. -/
  stage : List SourceLine := []
  /-- The sprites so far. -/
  sprites : List SpriteSection := [{ name := Header.defaultSprite }]
  /-- The position of the active sprite. -/
  active : Nat := 0
  /-- The open section. -/
  open? : Option OpenSection := none
deriving DecidableEq, Repr

namespace Reader

/-- The position of the sprite with a name. -/
def position? (r : Reader) (name : String) : Option Nat :=
  r.sprites.findIdx? fun sprite ↦ Text.lower sprite.name == Text.lower name

/-- Mentions a sprite: it takes the spelling of the mention, or is added if it is new. The
result is its name and position. -/
def mention (r : Reader) (name : String) : Reader × String × Nat :=
  let name := Text.nameOr name Header.defaultSprite
  match r.position? name with
  | some i =>
    let sprites := r.sprites.modify i fun sprite ↦ { sprite with name, mentioned := true }
    ({ r with sprites }, name, i)
  | none =>
    ({ r with sprites := r.sprites ++ [{ name, mentioned := true }] }, name, r.sprites.length)

/-- Adds a line to a section. -/
def addLine (r : Reader) (owner : Owner) (line : SourceLine) : Reader :=
  match owner with
  | .stage => { r with stage := r.stage ++ [line] }
  | .sprite i =>
    { r with
      sprites := r.sprites.modify i fun sprite ↦ { sprite with lines := sprite.lines ++ [line] } }

/-- Follows a header. -/
def follow (r : Reader) (line indent : Nat) : Header → Reader
  | .stageCode => { r with open? := some ⟨.stage, indent, "stage_code", line⟩ }
  | .spriteName name =>
    let (r, _, i) := r.mention name
    { r with active := i }
  | .costume source =>
    let costume := if Text.isBlank source then none else some (Text.trim source)
    { r with
      sprites := r.sprites.modify r.active fun sprite ↦ { sprite with costume, mentioned := true } }
  | .spriteCode name =>
    let (r, name, i) := r.mention name
    { r with open? := some ⟨.sprite i, indent, name ++ "_code", line⟩ }

/-- Reads one line. -/
def step (r : Reader) (source : SourceLine) : Except SourceError Reader :=
  let trimmed := Chars.trim source.text.toList
  let indent := Token.indentWidth source.text
  let idle := trimmed.isEmpty || trimmed.head? == some '#'
  match r.open? with
  | none =>
    if idle then .ok r
    else match Header.parse? trimmed with
      | some header => .ok (r.follow source.line indent header)
      | none => .ok (r.addLine (.sprite r.active) source)
  | some opened =>
    if trimmed == "end".toList && indent ≤ opened.indent then .ok { r with open? := none }
    else if !idle && indent ≤ opened.indent then
      .error ⟨source.line, .unindented opened.label⟩
    else .ok (r.addLine opened.owner source)

/-- Whether a sprite is the default one and nothing was ever said of it. -/
def isUnused (sprite : SpriteSection) : Bool :=
  sprite.name == Header.defaultSprite && !sprite.mentioned && sprite.lines.isEmpty &&
    sprite.costume.isNone

/-- The outline after all lines. The default sprite is left out when it is unused and the text
has anything else. -/
def finish (r : Reader) : Except SourceError Outline :=
  match r.open? with
  | some opened => .error ⟨opened.line, .unclosedSection opened.label⟩
  | none =>
    match r.sprites with
    | first :: rest =>
      if isUnused first && (!rest.isEmpty || !r.stage.isEmpty) then .ok ⟨r.stage, rest⟩
      else .ok ⟨r.stage, r.sprites⟩
    | [] => .ok ⟨r.stage, []⟩

end Reader

/-- The lines of a text with their numbers. -/
def sourceLines (text : String) : List SourceLine :=
  (Chars.lines text.toList).zipIdx.map fun numbered ↦
    ⟨numbered.2 + 1, String.ofList (Chars.dropReturn numbered.1)⟩

/-- The outline of a text. -/
def ofText (text : String) : Except SourceError Outline := do
  let r ← (sourceLines text).foldlM Reader.step {}
  r.finish

end Outline

end BlockScript
